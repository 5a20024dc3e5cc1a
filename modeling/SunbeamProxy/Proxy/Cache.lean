/-
The cache hooks (`proxy/cache_hooks.rs`): when a request may use the cache, and the key it uses.
-/
import SunbeamProxy.Proxy.RequestFilter

namespace SunbeamProxy

open Text List Option

structure CacheEnabled where
  maxFileSize : Option ℕ
deriving DecidableEq, Repr

def requestCacheFilterInner (s : Session) (ctx : RequestCtx) : Option CacheEnabled :=
  if s.req.method ≠ "GET" ∧ s.req.method ≠ "HEAD" then none
  else
    match ctx.plan with
    | none => none
    | some plan =>
      match plan.cache with
      | none => none
      | some policy =>
        if policy.enabled = false ∨ plan.bodyRewrites ≠ [] ∨ ctx.authHeaders ≠ [] then none
        else some ⟨if 0 < policy.maxFileSize then some policy.maxFileSize else none⟩

def keyTarget (s : Session) : String :=
  match s.req.uri.query with
  | some q => extractHost s ++ s.req.uri.path ++ "?" ++ q
  | none => extractHost s ++ s.req.uri.path

def hasCredentials (s : Session) : Bool := hasHeader s "authorization" || hasHeader s "cookie"

def negotiation (s : Session) : List String :=
  ["accept-encoding", "accept-language", "accept"].filterMap (HeaderMap.getStr s.req.headers)

def barred (values : List String) : String := values.foldr (fun v rest => "|" ++ v ++ rest) ""

def cacheKeyCallbackInner (s : Session) : String :=
  keyTarget s ++ barred ((if hasCredentials s then ["auth"] else []) ++ negotiation s)

theorem splitChar_barred (a : String) (values : List String) :
    splitChar '|' (a ++ barred values) = splitChar '|' a ++ values.flatMap (splitChar '|') := by
  induction values generalizing a with
  | nil => simp [barred]
  | cons v rest ih =>
    have hsep : a ++ barred (v :: rest) = a ++ (String.ofList ['|'] ++ (v ++ barred rest)) := by
      simp [barred, foldr_cons, String.append_assoc]
    rw [hsep, splitChar_append_sep, ih, flatMap_cons]

def textPieces (s : Session) : List String := splitChar '|' (keyTarget s) ++ (negotiation s).flatMap (splitChar '|')

theorem splitChar_cacheKey (s : Session) : splitChar '|' (cacheKeyCallbackInner s) =
      splitChar '|' (keyTarget s) ++ ((if hasCredentials s then ["auth"] else []) ++
        (negotiation s).flatMap (splitChar '|')) := by
  rw [cacheKeyCallbackInner, splitChar_barred]
  cases hasCredentials s with
  | false => simp
  | true =>
    have hauth : splitChar '|' "auth" = ["auth"] := splitChar_of_notMem (by decide)
    simp [hauth]

variable {s : Session}

theorem splitChar_cacheKey_anonymous (h : hasCredentials s = false) : splitChar '|' (cacheKeyCallbackInner s) = textPieces s := by
  rw [splitChar_cacheKey, h]
  rfl

theorem notMem_of_mem_textPieces {p : String} (h : p ∈ textPieces s) : '|' ∉ p.toList := by
  rcases mem_append.1 h with h | h
  · exact notMem_of_mem_splitChar h
  · obtain ⟨v, -, hp⟩ := mem_flatMap.1 h
    exact notMem_of_mem_splitChar hp

theorem negotiation_visible {v : String} (h : v ∈ negotiation s) : VisibleText v := by
  obtain ⟨name, -, hv⟩ := mem_filterMap.1 h
  obtain ⟨value, -, hstr⟩ := bind_eq_some_iff.1 hv
  exact HeaderValue.visible_of_toStr hstr

theorem negotiation_piece_visible {p : String} (h : p ∈ (negotiation s).flatMap (splitChar '|')) : VisibleText p := by
  obtain ⟨v, hv, hp⟩ := mem_flatMap.1 h
  intro c hc
  have hne : c ≠ '|' := fun e => notMem_of_mem_splitChar hp (e ▸ hc)
  exact negotiation_visible hv c ((mem_pieces hne v).1 ⟨p, hp, hc⟩)

/-! ## Credentials -/

/-- the same `Authorization` and the same `Cookie`, absence included -/
def SameCredentials (s₁ s₂ : Session) : Prop :=
  HeaderMap.get s₁.req.headers "authorization" = HeaderMap.get s₂.req.headers "authorization"
    ∧ HeaderMap.get s₁.req.headers "cookie" = HeaderMap.get s₂.req.headers "cookie"

/-- what `Uri::path` holds for GET and HEAD: a path that starts with `/` and ends before the query, or a lone `*` -/
def WellFormedTarget (uri : Uri) : Prop :=
  (startsWith uri.path "/" = true ∧ '?' ∉ uri.path.toList) ∨ (uri.path = "*" ∧ uri.query = none)

/-- texts that are a host, a path and a query of some request -/
def IsTarget (text : String) : Prop := '/' ∈ text.toList ∨ text.toList.getLast? = some '*'

/-- the request's own text reads as another target, an `auth` piece, and pieces a header value can carry -/
def SpellsAuth (s : Session) : Prop :=
  ∃ target after, textPieces s = splitChar '|' target ++ "auth" :: after ∧ IsTarget target ∧ ∀ p ∈ after, VisibleText p

theorem sameCredentials_of_anonymous {s₁ s₂ : Session} (h₁ : hasCredentials s₁ = false)
    (h₂ : hasCredentials s₂ = false) : SameCredentials s₁ s₂ := by
  simp only [hasCredentials, hasHeader, Bool.or_eq_false_iff, isSome_eq_false_iff, isNone_iff_eq_none] at h₁ h₂
  exact ⟨h₁.1.trans h₂.1.symm, h₁.2.trans h₂.2.symm⟩

theorem keyTarget_isTarget (h : WellFormedTarget s.req.uri) : IsTarget (keyTarget s) := by
  unfold keyTarget
  rcases h with ⟨hstart, -⟩ | ⟨hstar, hquery⟩
  · obtain ⟨rest, hrest⟩ := isPrefixOf_iff_prefix.1 hstart
    have hpath : '/' ∈ s.req.uri.path.toList := by
      rw [← hrest]
      simp
    left
    cases s.req.uri.query <;> simp [hpath]
  · right
    rw [hquery, hstar]
    simp

/-! ### A request with other credentials -/

def withAuthorization (s : Session) (v : HeaderValue) : Session :=
  { s with req := { s.req with headers := ("authorization", v) :: s.req.headers } }

theorem withAuthorization_get (s : Session) (v : HeaderValue) (name : String) :
    HeaderMap.get (withAuthorization s v).req.headers name =
      if eqIgnoreAsciiCase "authorization" name then some v else HeaderMap.get s.req.headers name :=
  HeaderMap.get_cons _ _ _

theorem withAuthorization_getStr (s : Session) (v : HeaderValue) {name : String}
    (h : eqIgnoreAsciiCase "authorization" name = false) :
    HeaderMap.getStr (withAuthorization s v).req.headers name = HeaderMap.getStr s.req.headers name := by
  simp [HeaderMap.getStr, withAuthorization_get, h]

theorem withAuthorization_key (s : Session) (v : HeaderValue) (h : hasCredentials s = true) :
    cacheKeyCallbackInner (withAuthorization s v) = cacheKeyCallbackInner s := by
  have hhost : extractHost (withAuthorization s v) = extractHost s := by
    unfold extractHost
    rw [withAuthorization_getStr s v (by decide)]
    rfl
  have htarget : keyTarget (withAuthorization s v) = keyTarget s := by
    unfold keyTarget
    rw [hhost]
    rfl
  have hneg : negotiation (withAuthorization s v) = negotiation s := by
    simp only [negotiation, filterMap_cons, filterMap_nil]
    rw [withAuthorization_getStr s v (by decide), withAuthorization_getStr s v (by decide),
      withAuthorization_getStr s v (by decide)]
  have hcred : hasCredentials (withAuthorization s v) = true := by
    have hget : HeaderMap.get (withAuthorization s v).req.headers "authorization" = some v := by
      rw [withAuthorization_get, if_pos (by decide)]
    simp [hasCredentials, hasHeader, hget]
  simp [cacheKeyCallbackInner, htarget, hneg, hcred, h]

/-! ### A request for a given target text -/

def uriOf (target : String) : Uri :=
  if '/' ∈ target.toList then
    let rest := target.toList.dropWhile (· ≠ '/')
    { host := some (String.ofList (target.toList.takeWhile (· ≠ '/')))
      path := String.ofList (rest.takeWhile (· ≠ '?'))
      query := if '?' ∈ rest then some (String.ofList ((rest.dropWhile (· ≠ '?')).drop 1)) else none }
  else { host := some (String.ofList target.toList.dropLast), path := "*" }

def acceptField (pieces : List String) : HeaderMap :=
  if pieces = [] then [] else [("accept", .ofString (joinChar '|' pieces))]

/-- an authenticated request for the target, with `Accept` pieces -/
def authenticatedRequest (s : Session) (target : String) (pieces : List String) : Session :=
  { s with
    req :=
      { method := s.req.method
        uri := uriOf target
        headers := ("authorization", .ofString "x") :: acceptField pieces } }

theorem authenticatedRequest_getStr (s : Session) (target : String) (pieces : List String) {name : String}
    (h₁ : eqIgnoreAsciiCase "authorization" name = false) (h₂ : eqIgnoreAsciiCase "accept" name = false) :
    HeaderMap.getStr (authenticatedRequest s target pieces).req.headers name = none := by
  have hget : HeaderMap.get (acceptField pieces) name = none := by
    unfold acceptField
    split_ifs
    · rfl
    · rw [HeaderMap.get_cons, if_neg (by simp [h₂])]
      rfl
  rw [HeaderMap.getStr, authenticatedRequest, HeaderMap.get_cons, if_neg (by simp [h₁]), hget]
  rfl

variable {l : List Char}

theorem takeWhile_append_drop_one {c : Char} (h : c ∈ l) : l.takeWhile (· ≠ c) ++ c :: (l.dropWhile (· ≠ c)).drop 1 = l := by
  induction l with
  | nil => simp at h
  | cons x l ih =>
    by_cases hx : x = c
    · subst hx
      simp
    · have hmem : c ∈ l := by
        rcases mem_cons.1 h with e | hl
        · exact absurd e.symm hx
        · exact hl
      simpa [hx] using ih hmem

theorem takeWhile_of_notMem {c : Char} (h : c ∉ l) : l.takeWhile (· ≠ c) = l := by
  have hpos : ∀ x ∈ l, decide (x ≠ c) = true := by
    intro x hx
    have hne : x ≠ c := by
      rintro rfl
      exact h hx
    simpa using hne
  have happend : (l ++ []).takeWhile (· ≠ c) = l ++ [].takeWhile (· ≠ c) := takeWhile_append_of_pos hpos
  simpa using happend

theorem dropWhile_slash (h : '/' ∈ l) : ∃ rest, l.dropWhile (· ≠ '/') = '/' :: rest := by
  refine ⟨(l.dropWhile (· ≠ '/')).drop 1, ?_⟩
  have hsplit := takeWhile_append_drop_one h
  have hwhole := takeWhile_append_dropWhile (p := fun x => decide (x ≠ '/')) (l := l)
  exact append_cancel_left (hwhole.trans hsplit.symm)

theorem uriOf_wellFormed (target : String) : WellFormedTarget (uriOf target) := by
  unfold uriOf
  split_ifs with h
  · left
    obtain ⟨rest, hrest⟩ := dropWhile_slash h
    constructor
    · simp only [startsWith, hrest]
      simp
    · simp only [String.toList_ofList]
      intro hmem
      have hall := all_takeWhile (p := fun x => decide (x ≠ '?')) (l := target.toList.dropWhile (· ≠ '/'))
      simpa using all_eq_true.1 hall _ hmem
  · exact .inr ⟨rfl, rfl⟩

theorem extractHost_authenticatedRequest (s : Session) (target : String) (pieces : List String) :
    extractHost (authenticatedRequest s target pieces) = (uriOf target).host.getD "" := by
  unfold extractHost
  rw [authenticatedRequest_getStr s target pieces (by decide) (by decide)]
  rfl

theorem keyTarget_authenticatedRequest (s : Session) {target : String} (pieces : List String) (h : IsTarget target) :
    keyTarget (authenticatedRequest s target pieces) = target := by
  unfold keyTarget
  rw [extractHost_authenticatedRequest, ← String.toList_inj]
  simp only [authenticatedRequest, uriOf]
  by_cases hslash : '/' ∈ target.toList
  · have hwhole : target.toList.takeWhile (· ≠ '/') ++ target.toList.dropWhile (· ≠ '/') = target.toList :=
      takeWhile_append_dropWhile
    rw [if_pos hslash]
    by_cases hq : '?' ∈ target.toList.dropWhile (· ≠ '/')
    · have hrest := takeWhile_append_drop_one hq
      rw [if_pos hq]
      simp only [getD_some, String.toList_append, String.toList_ofList, append_assoc]
      rw [show "?".toList ++ (List.dropWhile (· ≠ '?') (target.toList.dropWhile (· ≠ '/'))).drop 1
        = '?' :: (List.dropWhile (· ≠ '?') (target.toList.dropWhile (· ≠ '/'))).drop 1 from rfl, hrest, hwhole]
    · rw [if_neg hq]
      simp only [getD_some, String.toList_append, String.toList_ofList]
      rw [takeWhile_of_notMem hq, hwhole]
  · have hstar := h.resolve_left hslash
    rw [if_neg hslash]
    simp only [getD_some, String.toList_append, String.toList_ofList]
    exact dropLast_append_getLast? _ hstar

theorem visible_joinChar {pieces : List String} (h : ∀ p ∈ pieces, VisibleText p) : VisibleText (joinChar '|' pieces) := by
  intro c hc
  by_cases hbar : c = '|'
  · subst hbar
    decide
  · rw [joinChar, String.toList_ofList, mem_intercalate_singleton hbar] at hc
    obtain ⟨q, hq, hcq⟩ := hc
    obtain ⟨p, hp, rfl⟩ := mem_map.1 hq
    exact h p hp c hcq

theorem negotiation_authenticatedRequest (s : Session) (target : String) {pieces : List String}
    (h : ∀ p ∈ pieces, VisibleText p) (hbar : ∀ p ∈ pieces, '|' ∉ p.toList) :
    (negotiation (authenticatedRequest s target pieces)).flatMap (splitChar '|') = pieces := by
  simp only [negotiation, filterMap_cons]
  rw [authenticatedRequest_getStr s target pieces (by decide) (by decide),
    authenticatedRequest_getStr s target pieces (by decide) (by decide)]
  have hget : HeaderMap.get (authenticatedRequest s target pieces).req.headers "accept"
      = HeaderMap.get (acceptField pieces) "accept" := by
    rw [authenticatedRequest, HeaderMap.get_cons, if_neg (by decide)]
  rw [HeaderMap.getStr, hget, acceptField]
  by_cases hne : pieces = []
  · simp [hne, HeaderMap.get]
  · rw [if_neg hne, HeaderMap.get_cons, if_pos (eqIgnoreAsciiCase_refl _), bind_some,
      HeaderValue.toStr_ofString (visible_joinChar h)]
    simp [splitChar_joinChar hne hbar]

theorem authenticatedRequest_hasCredentials (s : Session) (target : String) (pieces : List String) :
    hasCredentials (authenticatedRequest s target pieces) = true := by
  have hget : HeaderMap.get (authenticatedRequest s target pieces).req.headers "authorization" = some (.ofString "x") := by
    rw [authenticatedRequest, HeaderMap.get_cons, if_pos (eqIgnoreAsciiCase_refl _)]
  simp [hasCredentials, hasHeader, hget]

/-! ### Who shares a key -/

/-- a request with the same cache key has the same credentials -/
def KeyIsPrivate (s : Session) : Prop :=
  ∀ s₂ ctx₂, (requestCacheFilterInner s₂ ctx₂).isSome = true → WellFormedTarget s₂.req.uri →
    cacheKeyCallbackInner s₂ = cacheKeyCallbackInner s → SameCredentials s s₂

theorem keyIsPrivate_of_anonymous (h : hasCredentials s = false) (hspell : ¬ SpellsAuth s) : KeyIsPrivate s := by
  intro s₂ ctx₂ _ hform hkey
  cases hc : hasCredentials s₂ with
  | false => exact sameCredentials_of_anonymous h hc
  | true =>
    -- the other request's `auth` piece would have to be one of this request's own pieces
    exfalso
    apply hspell
    have hpieces : textPieces s = splitChar '|' (keyTarget s₂) ++ ("auth" :: (negotiation s₂).flatMap (splitChar '|')) := by
      rw [← splitChar_cacheKey_anonymous h, ← hkey, splitChar_cacheKey, hc]
      rfl
    exact ⟨_, _, hpieces, keyTarget_isTarget hform, fun p hp => negotiation_piece_visible hp⟩

theorem anonymous_of_keyIsPrivate {ctx : RequestCtx} (hctx : (requestCacheFilterInner s ctx).isSome = true)
    (hform : WellFormedTarget s.req.uri) (h : KeyIsPrivate s) : hasCredentials s = false := by
  by_contra hc
  rw [Bool.not_eq_false] at hc
  -- one of two values differs from the request's own
  obtain ⟨v, hv⟩ : ∃ v, HeaderMap.get s.req.headers "authorization" ≠ some v := by
    by_cases hx : HeaderMap.get s.req.headers "authorization" = some ⟨[120]⟩
    · exact ⟨⟨[121]⟩, by simp [hx]⟩
    · exact ⟨⟨[120]⟩, hx⟩
  have hcache := hctx
  have hsame := (h (withAuthorization s v) ctx hcache hform (withAuthorization_key s v hc)).1
  rw [withAuthorization_get] at hsame
  exact hv hsame

theorem not_spellsAuth_of_keyIsPrivate {ctx : RequestCtx} (hctx : (requestCacheFilterInner s ctx).isSome = true)
    (hanon : hasCredentials s = false) (h : KeyIsPrivate s) : ¬ SpellsAuth s := by
  rintro ⟨target, after, hsplit, htarget, hvis⟩
  have hbar : ∀ q ∈ after, '|' ∉ q.toList := by
    intro q hq
    refine notMem_of_mem_textPieces (s := s) ?_
    rw [hsplit]
    simp [hq]
  set s₂ := authenticatedRequest s target after
  have hkey : cacheKeyCallbackInner s₂ = cacheKeyCallbackInner s := by
    refine splitChar_inj (c := '|') ?_
    rw [splitChar_cacheKey_anonymous hanon, hsplit, splitChar_cacheKey, authenticatedRequest_hasCredentials,
      keyTarget_authenticatedRequest s after htarget, negotiation_authenticatedRequest s _ hvis hbar]
    rfl
  have hcache := hctx
  have hsame := (h s₂ ctx hcache (uriOf_wellFormed target) hkey).1
  have hnone : HeaderMap.get s.req.headers "authorization" = none := by
    simp only [hasCredentials, hasHeader, Bool.or_eq_false_iff, isSome_eq_false_iff, isNone_iff_eq_none] at hanon
    exact hanon.1
  rw [hnone] at hsame
  exact absurd hsame.symm (by simp [s₂, authenticatedRequest, HeaderMap.get_cons, eqIgnoreAsciiCase_refl])

/-- **Cache keys and users.** No cacheable request with other credentials shares the key of a cacheable request exactly
when that request is anonymous and spells no `auth` piece of its own. -/
theorem cache_key_separates_users_iff (s : Session) (ctx : RequestCtx)
    (hctx : (requestCacheFilterInner s ctx).isSome = true) (hform : WellFormedTarget s.req.uri) :
    KeyIsPrivate s ↔ hasCredentials s = false ∧ ¬ SpellsAuth s := by
  constructor
  · intro h
    have hanon := anonymous_of_keyIsPrivate hctx hform h
    exact ⟨hanon, not_spellsAuth_of_keyIsPrivate hctx hanon h⟩
  · rintro ⟨hanon, hspell⟩
    exact keyIsPrivate_of_anonymous hanon hspell

/-! ### Two users, one key -/

def cachedCtx : RequestCtx :=
  { plan := some (compilePlan ⟨[{}], .route { cache := some { enabled := true } }, 0⟩ 0 {} true false none) }

def cookieSession (headers : HeaderMap) : Session :=
  ⟨⟨"GET", { path := "/account" }, ("host", .ofString "app.example.com") :: headers⟩, none, none⟩

theorem two_users_share_key :
    (requestCacheFilterInner (cookieSession [("cookie", .ofString "sid=alice")]) cachedCtx).isSome = true
      ∧ (requestCacheFilterInner (cookieSession [("cookie", .ofString "sid=bob")]) cachedCtx).isSome = true
      ∧ cacheKeyCallbackInner (cookieSession [("cookie", .ofString "sid=alice")])
        = cacheKeyCallbackInner (cookieSession [("cookie", .ofString "sid=bob")])
      ∧ ¬ SameCredentials (cookieSession [("cookie", .ofString "sid=alice")]) (cookieSession [("cookie", .ofString "sid=bob")]) :=
  ⟨by decide, by decide, by decide, fun h => absurd h.2 (by decide)⟩

theorem anonymous_key_private : (requestCacheFilterInner (cookieSession []) cachedCtx).isSome = true
      ∧ WellFormedTarget (cookieSession []).req.uri ∧ KeyIsPrivate (cookieSession []) := by
  have hctx : (requestCacheFilterInner (cookieSession []) cachedCtx).isSome = true := by decide
  have hform : WellFormedTarget (cookieSession []).req.uri := .inl ⟨by decide, by decide⟩
  have hspell : ¬ SpellsAuth (cookieSession []) := by
    rintro ⟨target, after, hsplit, -⟩
    have hmem : "auth" ∈ textPieces (cookieSession []) := by
      rw [hsplit]
      simp
    revert hmem
    decide
  exact ⟨hctx, hform, (cache_key_separates_users_iff _ cachedCtx hctx hform).2 ⟨by decide, hspell⟩⟩

end SunbeamProxy
