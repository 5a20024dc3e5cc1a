/-
Prefix redirects next to prefix rewrites (`build_redirect_location_ir`, `apply_upstream_request_mutation`).
-/
import SunbeamProxy.Proxy.PathRewrite

namespace SunbeamProxy

open Text

/-! ## Redirects -/

def redirectPath (path : String) : Option PathRewrite → String
  | some (.prefixReplace matched replacement) =>
    match stripStart path matched with
    | some rest => replacement ++ rest
    | none => path
  | some (.fullReplace replacement) => replacement
  | none => path

def redirectOrigin (r : RedirectAction) (uri : Uri) (requestHost : String) (scheme : Scheme) (port : UInt16) : String :=
  let target := r.scheme.getD scheme.text
  let host := (r.hostname.or uri.host).getD requestHost
  let defaultPort : UInt16 :=
    if r.scheme.isSome then (if target = "https" then 443 else if target = "http" then 80 else port) else port
  let effective := r.port.getD defaultPort
  if effective = 0 ∨ (target = "http" ∧ effective = 80) ∨ (target = "https" ∧ effective = 443) then target ++ "://" ++ host
  else target ++ "://" ++ host ++ ":" ++ toString effective.toNat

theorem buildRedirectLocationIr_eq (r : RedirectAction) (uri : Uri) (requestHost : String) (scheme : Scheme) (port : UInt16) :
    buildRedirectLocationIr r uri requestHost scheme port
      = redirectOrigin r uri requestHost scheme port ++ redirectPath uri.path r.path := by
  simp only [buildRedirectLocationIr, redirectOrigin]
  split_ifs <;> rfl

/-- the redirect leads to the path the rewrite asks for, an absolute one, with one slash where the parts meet -/
structure Alike (authorityHost : String → Option String) (req : RequestHeader) (p replacement : String) : Prop where
  same : ∃ req', applyUpstreamRequestMutation authorityHost req (.rewritePath (.prefixReplace p replacement)) = .ok req'
    ∧ req'.uri.path = redirectPath req.uri.path (some (.prefixReplace p replacement))
  absolute : startsWith (redirectPath req.uri.path (some (.prefixReplace p replacement))) "/" = true
  joined : ∀ rest, req.uri.path = p ++ rest → rest ≠ "" →
    redirectPath req.uri.path (some (.prefixReplace p replacement)) = joinOnce replacement rest

/-- replacement and rest make a path in normal form, with a slash where they meet; or there is nothing to replace and the path
is in normal form -/
def CleanJoint (p replacement path : String) : Prop :=
  (∀ rest, path = p ++ rest → PathText replacement ∧ CleanPath (replacement ++ rest)
    ∧ (rest ≠ "" → (∃ q, replacement = q ++ "/") ∨ startsWith rest "/" = true))
  ∧ ((∀ rest, path ≠ p ++ rest) → CleanPath path)

variable {replacement rest : String}

theorem append_eq_joinOnce (hclean : CleanPath (replacement ++ rest))
    (hjoint : rest ≠ "" → (∃ q, replacement = q ++ "/") ∨ startsWith rest "/" = true) :
    replacement ++ rest = joinOnce replacement rest := by
  rw [joinOnce]
  split_ifs with hempty
  · rw [hempty, String.append_empty]
  rcases dropTrailingSlash_cases replacement with hr | hr
  · rcases dropSlash_cases rest with hs | hs
    · rw [hr, hs, String.append_assoc] at hclean
      exact absurd hclean CleanPath.no_double_slash
    · conv_lhs => rw [hr, String.append_assoc]
      rw [hs.1]
  · rcases dropSlash_cases rest with hs | hs
    · rw [hr.1, ← hs]
    · rcases hjoint hempty with h | h
      · exact absurd h hr.2
      · rw [hs.2] at h
        cases h

theorem slash_of_joinOnce (hne : rest ≠ "") (h : replacement ++ rest = joinOnce replacement rest) :
    (∃ q, replacement = q ++ "/") ∨ startsWith rest "/" = true := by
  rw [joinOnce, if_neg hne] at h
  rcases dropTrailingSlash_cases replacement with hr | hr
  · exact .inl ⟨_, hr⟩
  · rcases dropSlash_cases rest with hs | hs
    · exact .inr (startsWith_iff.2 ⟨_, hs⟩)
    · rw [hr.1, hs.1] at h
      have hlen := congrArg (fun s : String => s.toList.length) h
      simp at hlen

theorem normalizePath_joinReplacement (hclean : CleanPath (replacement ++ rest))
    (hjoined : replacement ++ rest = joinOnce replacement rest) :
    normalizePath (joinReplacement replacement rest) = some (replacement ++ rest) := by
  obtain ⟨habs, out, hout, hpath⟩ := normalizePath_eq_some_iff.1 hclean.normalizePath
  refine normalizePath_eq_some_iff.2 ⟨?_, out, ?_, hpath⟩
  · rw [startsWith_joinReplacement]
    by_cases hempty : replacement = ""
    · exact .inl hempty
    · exact .inr (by rw [← startsWith_slash_append hempty rest]; exact habs)
  · rw [splitPath_joinReplacement, ← splitPath_joinOnce, ← hjoined]
    exact hout

theorem rewrite_gives_iff (authorityHost : String → Option String) (rw : PathRewrite) {req : RequestHeader} {n : String}
    (hreq : req.uri.WellFormed) (hraw : PathText n → PathText (rewrittenPath req.uri.path rw)) :
    (∃ req', applyUpstreamRequestMutation authorityHost req (.rewritePath rw) = .ok req' ∧ req'.uri.path = n)
      ↔ PathText n ∧ normalizePath (rewrittenPath req.uri.path rw) = some n := by
  apply Iff.intro
  · intro h
    obtain ⟨req', hset, rfl⟩ := h
    rw [applyUpstreamRequestMutation] at hset
    have htext := (setPath_wellFormed hset).path
    refine ⟨htext, ?_⟩
    rw [setPath_eq hreq (hraw htext)] at hset
    split at hset
    · rename_i n hn
      cases hset
      exact hn
    · cases hset
  · intro h
    obtain ⟨htext, hn⟩ := h
    rw [applyUpstreamRequestMutation, setPath_eq hreq (hraw htext), hn]
    exact ⟨_, rfl, rfl⟩

section Alike

variable {authorityHost : String → Option String} {req : RequestHeader} {p replacement : String}

theorem alike_iff_of_none (hreq : req.uri.WellFormed) (hstrip : stripStart req.uri.path p = none) :
    Alike authorityHost req p replacement ↔ CleanJoint p replacement req.uri.path := by
  have hnone := fun rest hrest => stripStart_eq_none.1 hstrip ⟨rest, hrest⟩
  have hpath : redirectPath req.uri.path (some (.prefixReplace p replacement)) = req.uri.path := by rw [redirectPath, hstrip]
  have hraw : rewrittenPath req.uri.path (.prefixReplace p replacement) = req.uri.path := by rw [rewrittenPath, hstrip]
  have hgives := rewrite_gives_iff authorityHost (.prefixReplace p replacement) (n := req.uri.path) hreq
    (fun h => by rw [hraw]; exact h)
  rw [hraw] at hgives
  apply Iff.intro
  · intro h
    have hsame := h.same
    rw [hpath, hgives] at hsame
    exact ⟨fun rest hrest => absurd hrest (hnone rest), fun _ => normalizePath_clean hsame.2⟩
  · intro h
    have hclean := h.2 hnone
    refine ⟨?_, by rw [hpath]; exact hclean.startsWith, fun rest hrest => absurd hrest (hnone rest)⟩
    rw [hpath, hgives]
    exact ⟨hreq.path, hclean.normalizePath⟩

theorem alike_iff_of_some {rest : String} (hreq : req.uri.WellFormed) (hstrip : stripStart req.uri.path p = some rest) :
    Alike authorityHost req p replacement ↔ CleanJoint p replacement req.uri.path := by
  have hrest := stripStart_eq_some.1 hstrip
  have honly : ∀ rest', req.uri.path = p ++ rest' → rest' = rest := by
    intro rest' hrest'
    have hsome := stripStart_eq_some.2 hrest'
    rw [hstrip] at hsome
    exact (Option.some.inj hsome).symm
  have hpath : redirectPath req.uri.path (some (.prefixReplace p replacement)) = replacement ++ rest := by
    rw [redirectPath, hstrip]
  have hraw : rewrittenPath req.uri.path (.prefixReplace p replacement) = joinReplacement replacement rest := by
    rw [rewrittenPath, hstrip]
  have htext : PathText rest := by
    have hwhole := hreq.path
    rw [hrest, PathText.append_iff] at hwhole
    exact hwhole.2
  have hgives := rewrite_gives_iff authorityHost (.prefixReplace p replacement) (n := replacement ++ rest) hreq
    (fun h => hraw ▸ pathText_joinReplacement (PathText.append_iff.1 h).1 htext)
  rw [hraw] at hgives
  apply Iff.intro
  · intro h
    have hsame := h.same
    rw [hpath, hgives] at hsame
    refine ⟨?_, fun hnone => absurd hrest (hnone rest)⟩
    intro rest' hrest'
    rw [honly rest' hrest']
    refine ⟨(PathText.append_iff.1 hsame.1).1, normalizePath_clean hsame.2, ?_⟩
    intro hne
    have hjoined := h.joined rest hrest hne
    rw [hpath] at hjoined
    exact slash_of_joinOnce hne hjoined
  · intro h
    obtain ⟨hreplacement, hclean, hjoint⟩ := h.1 rest hrest
    have hjoined := append_eq_joinOnce hclean hjoint
    refine ⟨?_, by rw [hpath]; exact hclean.startsWith, ?_⟩
    · rw [hpath, hgives]
      exact ⟨PathText.append_iff.2 ⟨hreplacement, htext⟩, normalizePath_joinReplacement hclean hjoined⟩
    · intro rest' hrest' _
      rw [hpath, honly rest' hrest', hjoined]

end Alike

theorem redirect_alike_iff (authorityHost : String → Option String) (action : RedirectAction) (req : RequestHeader)
    (hreq : req.uri.WellFormed) (requestHost : String) (scheme : Scheme) (port : UInt16) (p replacement : String) :
    (∀ rw, buildRedirectLocationIr { action with path := some rw } req.uri requestHost scheme port
        = redirectOrigin action req.uri requestHost scheme port ++ redirectPath req.uri.path (some rw))
    ∧ (Alike authorityHost req p replacement ↔ CleanJoint p replacement req.uri.path) := by
  refine ⟨fun rw => buildRedirectLocationIr_eq _ _ _ _ _, ?_⟩
  cases hstrip : stripStart req.uri.path p with
  | none => exact alike_iff_of_none hreq hstrip
  | some rest => exact alike_iff_of_some hreq hstrip

theorem shop_cart_joint : CleanJoint "/shop" "/store" "/shop/cart" := by
  have hstrip : stripStart "/shop/cart" "/shop" = some "/cart" := by decide
  refine ⟨?_, fun hnone => absurd (stripStart_eq_some.1 hstrip) (hnone _)⟩
  intro rest hrest
  have hsome := stripStart_eq_some.2 hrest
  rw [hstrip, Option.some.injEq] at hsome
  rw [← hsome]
  exact ⟨by decide, store_cart_clean, fun _ => .inr (by decide)⟩

theorem shop_moved_alike : Alike some ⟨"GET", { path := "/shop/cart" }, []⟩ "/shop" "/store" :=
  (redirect_alike_iff some ⟨302, none, none, none, none⟩ ⟨"GET", { path := "/shop/cart" }, []⟩ shop_cart_wellFormed "" .https
    443 "/shop" "/store").2.2 shop_cart_joint

theorem shop_root_redirect : splitPath "/shop" <+: splitPath "/shop/cart"
      ∧ buildRedirectLocationIr ⟨302, none, none, none, some (.prefixReplace "/shop" "/")⟩ { path := "/shop/cart" }
          "app.example.com" .https 443
        = "https://app.example.com//cart"
      ∧ applyUpstreamRequestMutation some ⟨"GET", { path := "/shop/cart" }, []⟩ (.rewritePath (.prefixReplace "/shop" "/"))
        = .ok ⟨"GET", { path := "/cart" }, []⟩ := by
  decide

end SunbeamProxy
