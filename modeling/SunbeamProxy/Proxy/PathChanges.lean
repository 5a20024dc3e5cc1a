/-
Runs of path changes (`StripPrefix`, `PrependPath` and `RewritePath` of `apply_upstream_request_mutation`, `normalize_path`).
-/
import SunbeamProxy.Proxy.PathRewrite

namespace SunbeamProxy

open Text List

def isOrdinary (segment : String) : Bool := segment ≠ "" && segment ≠ "." && segment ≠ ".."

/-- some first segments have more `..` than names -/
def Climbs (segments : List String) : Prop := ∃ front, front <+: segments ∧ front.countP isOrdinary < front.count ".."

namespace normalizePath

theorem resolve_eq_none_iff {stack segments : List String} : resolve stack segments = none
      ↔ ∃ front, front <+: segments ∧ stack.length + front.countP isOrdinary < front.count ".." := by
  induction segments generalizing stack with
  | nil =>
    apply iff_of_false
    · simp [resolve]
    · rintro ⟨front, hfront, hlt⟩
      rw [prefix_nil.1 hfront] at hlt
      simp at hlt
  | cons s segments ih =>
    -- an initial part is empty, and then nothing is wrong, or it begins with `s`
    have hcons : (∃ front, front <+: s :: segments ∧ stack.length + front.countP isOrdinary < front.count "..")
        ↔ ∃ front, front <+: segments ∧ stack.length + (s :: front).countP isOrdinary < (s :: front).count ".." := by
      apply Iff.intro
      · rintro ⟨front, hfront, hlt⟩
        cases front with
        | nil => simp at hlt
        | cons t front =>
          obtain ⟨rfl, hrest⟩ := cons_prefix_cons.1 hfront
          exact ⟨front, hrest, hlt⟩
      · rintro ⟨front, hfront, hlt⟩
        exact ⟨s :: front, cons_prefix_cons.2 ⟨rfl, hfront⟩, hlt⟩
    rw [hcons, resolve]
    split_ifs with hskip hup hroot
    · have hordinary : isOrdinary s = false := by rcases hskip with rfl | rfl <;> decide
      have hnotUp : s ≠ ".." := by rcases hskip with rfl | rfl <;> decide
      simp [ih, countP_cons_of_neg (ne_true_of_eq_false hordinary), count_cons_of_ne hnotUp]
    · subst hup hroot
      exact iff_of_true rfl ⟨[], nil_prefix, by decide⟩
    · subst hup
      have hpos := length_pos_of_ne_nil hroot
      simp only [ih, countP_cons_of_neg (show ¬isOrdinary ".." = true by decide), count_cons_self, length_dropLast]
      refine exists_congr fun front => and_congr_right fun _ => ?_
      omega
    · have hordinary : isOrdinary s = true := by
        rw [not_or] at hskip
        simp [isOrdinary, hskip.1, hskip.2, hup]
      simp only [ih, countP_cons_of_pos hordinary, count_cons_of_ne hup, length_append, length_singleton]
      refine exists_congr fun front => and_congr_right fun _ => ?_
      omega

end normalizePath

theorem normalizePath_none_iff_climbs (path : String) :
    normalizePath path = none ↔ startsWith path "/" = false ∨ Climbs (splitChar '/' path) := by
  rw [normalizePath_eq_none_iff, splitPath, normalizePath.resolve_filter, normalizePath.resolve_eq_none_iff, Climbs]
  simp

variable {path : String}

theorem normalizePath_idempotent {n : String} (h : normalizePath path = some n) : normalizePath n = some n :=
  (normalizePath_clean h).normalizePath

/-- no character at which a path would end -/
def NoCut (text : String) : Prop := ∀ c ∈ text.toList, c ≠ '?' ∧ c ≠ '#'

instance instDecidableNoCut (text : String) : Decidable (NoCut text) :=
  List.decidableBAll (fun c => c ≠ '?' ∧ c ≠ '#') text.toList

theorem NoCut.append {a b : String} (ha : NoCut a) (hb : NoCut b) : NoCut (a ++ b) := by
  intro c hc
  rw [String.toList_append, mem_append] at hc
  exact hc.elim (ha c) (hb c)

theorem noCut_slash : NoCut "/" := by decide

theorem PathText.noCut {text : String} (h : PathText text) : NoCut text := fun c hc => isPathChar_ne (h c hc)

theorem pathText_of_parse {text tail : String} (h : NoCut text) {out : String × Option String}
    (hparse : parsePathAndQuery (text ++ tail) = some out) : PathText text := by
  simp only [parsePathAndQuery, Option.ite_none_right_eq_some, Bool.and_eq_true, all_eq_true] at hparse
  intro c hc
  apply hparse.1.1
  have hhash := fun d hd => decide_eq_true (h d hd).2
  have hask := fun d hd => decide_eq_true (h d hd).1
  rw [String.toList_append, takeWhile_append_of_pos hhash, takeWhile_append_of_pos hask]
  exact mem_append_left _ hc

/-- path and query as `http` gives them out, a path without characters included -/
structure Uri.Valid (uri : Uri) : Prop where
  path : PathText uri.path
  query : ∀ q, uri.query = some q → ∀ c ∈ q.toList, isQueryChar c = true

theorem Uri.WellFormed.valid {uri : Uri} (h : uri.WellFormed) : uri.Valid := ⟨h.path, h.query⟩

variable {req' req : RequestHeader}

/-- **One change.** A path put together without `?` and `#` comes back in normal form, with the query it had. -/
theorem setPath_clean {what rawPath : String} (hreq : req.uri.Valid) (hraw : NoCut rawPath)
    (h : setPath what rawPath req = .ok req') : CleanPath req'.uri.path ∧ req'.uri.query = req.uri.query := by
  rw [setPath] at h
  cases hn : normalizePath rawPath with
  | none => simp [hn] at h
  | some n =>
    have hclean := normalizePath_clean hn
    have hcut : NoCut n := by
      intro c hc
      rcases normalizePath_chars hn hc with rfl | hc
      · decide
      · exact hraw c hc
    have hne : n ≠ "" := by
      rintro rfl
      exact absurd hclean.startsWith (by decide)
    simp only [hn] at h
    cases hparse : parsePathAndQuery (n ++ req.uri.queryPart) with
    | none => simp [hparse] at h
    | some out =>
      -- the query is read back as that of a URI with some path
      have hslash : PathText "/" ∧ "/" ≠ "" := by decide
      have hroot : Uri.WellFormed { req.uri with path := "/" } := ⟨hslash.1, hslash.2, hreq.query⟩
      have hback := parsePathAndQuery_queryPart hroot (pathText_of_parse hcut hparse) hne
      have hsame : parsePathAndQuery (n ++ req.uri.queryPart) = some (n, req.uri.query) := hback
      simp only [hsame] at h
      split_ifs at h
      cases h
      exact ⟨hclean, rfl⟩

/-! ## The changes -/

def insertedText : UpstreamRequestMutation → String
  | .prependPath path => path
  | .rewritePath (.fullReplace path) => path
  | .rewritePath (.prefixReplace _ replacement) => replacement
  | _ => ""

def applies (req : RequestHeader) : UpstreamRequestMutation → Bool
  | .stripPrefix path => (stripStart req.uri.path path).isSome
  | m => touchesPath m

theorem PathText.of_append {a b : String} (h : PathText (a ++ b)) : PathText b := (PathText.append_iff.1 h).2

theorem noCut_dropSlash (h : PathText path) : NoCut ((stripStart path "/").getD path) := by
  cases hstrip : stripStart path "/" with
  | none => exact h.noCut
  | some rest =>
    rw [stripStart_eq_some.1 hstrip] at h
    exact h.of_append.noCut

theorem noCut_rewrittenPath (hpath : PathText path) {rw : PathRewrite}
    (hrw : NoCut (insertedText (.rewritePath rw))) : NoCut (rewrittenPath path rw) := by
  cases rw with
  | fullReplace full => exact hrw
  | prefixReplace matched replacement =>
    rw [rewrittenPath]
    cases hstrip : stripStart path matched with
    | none => exact hpath.noCut
    | some rest =>
      rw [stripStart_eq_some.1 hstrip] at hpath
      have hrest := noCut_dropSlash hpath.of_append
      have hreplacement : NoCut ((stripEnd replacement "/").getD replacement) := by
        cases hend : stripEnd replacement "/" with
        | none => exact hrw
        | some inner =>
          intro c hc
          apply hrw c
          change c ∈ replacement.toList
          rw [stripEnd_eq_some.1 hend, String.toList_append]
          exact mem_append_left _ hc
      simp only [joinReplacement]
      split_ifs
      · exact noCut_slash.append hrest
      · exact hreplacement
      · exact (hreplacement.append noCut_slash).append hrest

variable {authorityHost : String → Option String}

/-- **One applied change**, of whichever kind -/
theorem apply_clean {m : UpstreamRequestMutation} (hreq : req.uri.Valid) (hm : NoCut (insertedText m))
    (happlies : applies req m = true) (h : applyUpstreamRequestMutation authorityHost req m = .ok req') :
    CleanPath req'.uri.path ∧ req'.uri.query = req.uri.query := by
  cases m with
  | setHeader name value | addHeader name value | removeHeader name | rewriteHostname hostname => cases happlies
  | stripPrefix path =>
    obtain ⟨stripped, hstrip⟩ := Option.isSome_iff_exists.1 happlies
    rw [applyUpstreamRequestMutation, hstrip] at h
    have hpath := hreq.path
    rw [stripStart_eq_some.1 hstrip] at hpath
    refine setPath_clean hreq ?_ h
    split_ifs
    · exact noCut_slash
    · exact hpath.of_append.noCut
  | prependPath path =>
    rw [applyUpstreamRequestMutation] at h
    have htrimmed := noCut_dropSlash hreq.path
    refine setPath_clean hreq ?_ h
    split_ifs
    · exact hm.append htrimmed
    · exact (NoCut.append hm noCut_slash).append htrimmed
  | rewritePath rw => exact setPath_clean hreq (noCut_rewrittenPath hreq.path hm) h

theorem apply_valid {m : UpstreamRequestMutation} (hreq : req.uri.Valid) (hm : touchesPath m = true)
    (h : applyUpstreamRequestMutation authorityHost req m = .ok req') :
    req'.uri.Valid ∧ (applies req m = false → req' = req) := by
  cases m with
  | setHeader name value | addHeader name value | removeHeader name | rewriteHostname hostname => cases hm
  | stripPrefix path =>
    rw [applyUpstreamRequestMutation] at h
    cases hstrip : stripStart req.uri.path path with
    | none =>
      simp only [hstrip, Except.ok.injEq] at h
      subst h
      exact ⟨hreq, fun _ => rfl⟩
    | some stripped =>
      simp only [hstrip] at h
      exact ⟨(setPath_wellFormed h).valid, fun hnot => by simp [applies, hstrip] at hnot⟩
  | prependPath path | rewritePath rw => exact ⟨(setPath_wellFormed h).valid, fun hnot => by cases hnot⟩

theorem foldlM_query {ms : List UpstreamRequestMutation} (hreq : req.uri.Valid)
    (hms : ∀ m ∈ ms, touchesPath m = true ∧ NoCut (insertedText m))
    (h : ms.foldlM (applyUpstreamRequestMutation authorityHost) req = .ok req') :
    req'.uri.Valid ∧ req'.uri.query = req.uri.query := by
  induction ms generalizing req with
  | nil =>
    cases h
    exact ⟨hreq, rfl⟩
  | cons m ms ih =>
    obtain ⟨mid, hmid, h⟩ := foldlM_cons_ok h
    obtain ⟨⟨htouches, hcut⟩, hrest⟩ := forall_mem_cons.1 hms
    obtain ⟨hvalid, hkept⟩ := apply_valid hreq htouches hmid
    obtain ⟨hvalid', hquery⟩ := ih hvalid hrest h
    refine ⟨hvalid', ?_⟩
    rw [hquery]
    cases happlies : applies req m with
    | false => rw [hkept happlies]
    | true => exact (apply_clean hreq hcut happlies hmid).2

/-- **Path changes never let a request climb**, as long as the configured texts have no `?` and no `#`: in a run of changes each
one that is applied leaves a path in normal form and the query of the request. -/
theorem path_changes_keep_clean (authorityHost : String → Option String) (req : RequestHeader)
    (ms : List UpstreamRequestMutation) (hreq : req.uri.Valid) (hms : ∀ m ∈ ms, touchesPath m = true)
    (hcut : ∀ m ∈ ms, NoCut (insertedText m)) :
    (∀ before m after req₁ req₂, ms = before ++ m :: after →
        before.foldlM (applyUpstreamRequestMutation authorityHost) req = .ok req₁ →
        applyUpstreamRequestMutation authorityHost req₁ m = .ok req₂ → applies req₁ m = true →
        CleanPath req₂.uri.path ∧ req₂.uri.query = req.uri.query)
    ∧ (∀ path n, normalizePath path = some n → normalizePath n = some n)
    ∧ ∀ path, normalizePath path = none ↔ startsWith path "/" = false ∨ Climbs (splitChar '/' path) := by
  refine ⟨?_, fun _ _ h => normalizePath_idempotent h, normalizePath_none_iff_climbs⟩
  rintro before m after req₁ req₂ rfl hbefore hm happlies
  obtain ⟨hvalid, hquery⟩ := foldlM_query hreq
    (fun m' hm' => ⟨hms m' (mem_append_left _ hm'), hcut m' (mem_append_left _ hm')⟩) hbefore
  obtain ⟨hclean, hkept⟩ := apply_clean hvalid (hcut m (by simp)) happlies hm
  exact ⟨hclean, hkept.trans hquery⟩

def getShop : RequestHeader := { method := "GET", uri := ⟨"/shop", some "page=2", none⟩ }

theorem question_mark_uncovers_dots : applyUpstreamRequestMutation (fun _ => none) getShop (.rewritePath (.fullReplace "/a/..?b"))
        = .ok { getShop with uri := ⟨"/a/..", some "b?page=2", none⟩ }
      ∧ ¬CleanPath "/a/.." ∧ some "b?page=2" ≠ getShop.uri.query := by
  refine ⟨by decide, fun hclean => ?_, by decide⟩
  have hnormal := hclean.normalizePath
  exact absurd hnormal (by decide)

theorem getShop_valid : getShop.uri.Valid := ⟨by decide, by rintro _ ⟨⟩; exact all_eq_true.1 (by decide)⟩

theorem moved_shop_clean : CleanPath "/v2/cart" ∧ some "page=2" = getShop.uri.query := by
  have hrun := (path_changes_keep_clean (fun _ => none) getShop [.rewritePath (.fullReplace "/cart"), .prependPath "/v2"]
    getShop_valid (by decide) (by decide)).1
  exact hrun [.rewritePath (.fullReplace "/cart")] (.prependPath "/v2") []
    { getShop with uri := ⟨"/cart", some "page=2", none⟩ } { getShop with uri := ⟨"/v2/cart", some "page=2", none⟩ } rfl
    (by decide) (by decide) rfl

end SunbeamProxy
