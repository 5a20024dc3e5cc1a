/-
Prefixes of paths, by segments and by text (`path_prefix_matches` of `proxy/match_.rs` and the path trie of `ir/compile.rs`).
-/
import SunbeamProxy.IR.Precedence
import SunbeamProxy.Proxy.Paths

namespace SunbeamProxy

open Text List

def pathPrefixMatches (reqPath path : String) : Bool := if path = "/" then startsWith reqPath "/"
  else if reqPath = path then true
  else
    match stripStart reqPath path with
    | some rest => startsWith rest "/"
    | none => false

/-- two slashes next to each other -/
def DoubledSlash (path : String) : Prop := ∃ a b, path = a ++ "//" ++ b

theorem pathPrefixMatches_iff {reqPath path : String} (hne : path ≠ "/") :
    pathPrefixMatches reqPath path = true ↔ ∃ rest, reqPath = path ++ rest ∧ (rest = "" ∨ ∃ more, rest = "/" ++ more) := by
  unfold pathPrefixMatches
  rw [if_neg hne]
  split_ifs with heq
  · refine iff_of_true rfl ⟨"", ?_, .inl rfl⟩
    rw [heq, String.append_empty]
  · cases hstrip : stripStart reqPath path with
    | none =>
      apply iff_of_false (by simp)
      rintro ⟨rest, hrest, -⟩
      exact stripStart_eq_none.1 hstrip ⟨rest, hrest⟩
    | some rest =>
      obtain rfl := stripStart_eq_some.1 hstrip
      simp only [startsWith_iff]
      apply Iff.intro
      · intro hmore
        exact ⟨rest, rfl, .inr hmore⟩
      · rintro ⟨rest', hrest, hcase⟩
        obtain rfl := String.append_right_inj _ |>.1 hrest
        rcases hcase with rfl | hmore
        · simp at heq
        · exact hmore

theorem segments_of_prefix_matches {reqPath path : String} (h : pathPrefixMatches reqPath path = true) :
    splitPath path <+: splitPath reqPath := by
  by_cases hroot : path = "/"
  · rw [hroot]
    exact nil_prefix
  · obtain ⟨rest, rfl, hrest⟩ := (pathPrefixMatches_iff hroot).1 h
    rcases hrest with rfl | ⟨more, rfl⟩
    · rw [String.append_empty]
    · rw [splitPath_append_slash]
      exact prefix_append _ _

/-! ## Paths without doubled slashes -/

def rendered (segments : List String) : String := segments.foldr (fun s rest => "/" ++ s ++ rest) ""

theorem rendered_cons (s : String) (segments : List String) : rendered (s :: segments) = "/" ++ s ++ rendered segments := rfl

theorem rendered_append (a b : List String) : rendered (a ++ b) = rendered a ++ rendered b := by
  induction a with
  | nil => simp [rendered]
  | cons s a ih =>
    simp only [cons_append, rendered_cons, ih]
    simp [String.append_assoc]

theorem rendered_cases (segments : List String) : rendered segments = "" ∨ ∃ more, rendered segments = "/" ++ more := by
  cases segments with
  | nil => exact .inl rfl
  | cons s segments => exact .inr ⟨s ++ rendered segments, String.append_assoc⟩

theorem joined_eq_rendered {pieces : List String} (hne : pieces ≠ []) (h : ¬DoubledSlash ("/" ++ joinChar '/' pieces)) :
    "/" ++ joinChar '/' pieces = rendered (pieces.filter (· ≠ ""))
      ∨ "/" ++ joinChar '/' pieces = rendered (pieces.filter (· ≠ "")) ++ "/" := by
  induction pieces with
  | nil => exact absurd rfl hne
  | cons s pieces ih =>
    cases pieces with
    | nil =>
      have hone : joinChar '/' [s] = s := by simp [joinChar]
      rw [hone]
      by_cases hs : s = "" <;> simp [hs, rendered]
    | cons t pieces =>
      rw [joinChar_cons_cons] at h ⊢
      have hs : s ≠ "" := by
        rintro rfl
        exact h ⟨"", joinChar '/' (t :: pieces), by rw [← String.append_assoc]; rfl⟩
      have htail : ¬DoubledSlash ("/" ++ joinChar '/' (t :: pieces)) := by
        rintro ⟨a, b, hab⟩
        refine h ⟨"/" ++ s ++ a, b, ?_⟩
        change "/" ++ (s ++ ("/" ++ joinChar '/' (t :: pieces))) = _
        rw [hab]
        simp [String.append_assoc]
      have hfilter : (s :: t :: pieces).filter (· ≠ "") = s :: (t :: pieces).filter (· ≠ "") := by
        rw [filter_cons_of_pos (by simpa using hs)]
      change "/" ++ (s ++ ("/" ++ joinChar '/' (t :: pieces))) = _ ∨ "/" ++ (s ++ ("/" ++ joinChar '/' (t :: pieces))) = _
      rw [hfilter, rendered_cons, ← String.append_assoc]
      rcases ih (cons_ne_nil _ _) htail with heq | heq
      · left
        rw [heq]
      · right
        rw [heq]
        simp [String.append_assoc]

theorem eq_rendered_splitPath {path rest : String} (hslash : path = "/" ++ rest) (h : ¬DoubledSlash path) :
    path = rendered (splitPath path) ∨ path = rendered (splitPath path) ++ "/" := by
  have hsplit : splitPath path = (splitChar '/' rest).filter (· ≠ "") := by rw [hslash, splitPath_slash_append, splitPath]
  have hjoin : path = "/" ++ joinChar '/' (splitChar '/' rest) := by rw [joinChar_splitChar, hslash]
  rw [hjoin] at h
  rw [hsplit]
  conv_lhs => rw [hjoin]
  conv in path = _ ++ _ => rw [hjoin]
  exact joined_eq_rendered (splitChar_ne_nil _ _) h

theorem rendered_no_trailing {segments : List String} (h : ∀ s ∈ segments, s ≠ "" ∧ '/' ∉ s.toList) (q : String) :
    rendered segments ≠ q ++ "/" := by
  intro hq
  rcases eq_nil_or_concat segments with rfl | ⟨init, last, rfl⟩
  · have hlength := congrArg (fun t => t.toList.length) hq
    simp [rendered] at hlength
  · obtain ⟨hne, hslash⟩ := h last (by simp)
    rcases eq_nil_or_concat last.toList with hnil | ⟨front, c, hlast⟩
    · exact hne (by simpa using hnil)
    · have hlists := congrArg String.toList hq
      rw [concat_eq_append, rendered_append, rendered_cons] at hlists
      simp only [rendered, foldr_nil, String.append_empty, String.toList_append, hlast, concat_eq_append,
        ← append_assoc] at hlists
      have hc := (append_inj' hlists rfl).2
      have hmem : c ∈ last.toList := by simp [hlast]
      rw [(cons.inj hc).1] at hmem
      exact hslash hmem

theorem dropTrailingSlash_eq_rendered {path rest : String} (hslash : path = "/" ++ rest) (h : ¬DoubledSlash path) :
    dropTrailingSlash path = rendered (splitPath path) := by
  have hsegments : ∀ s ∈ splitPath path, s ≠ "" ∧ '/' ∉ s.toList := fun s hs =>
    ⟨by simpa using (mem_filter.1 hs).2, no_slash_of_mem_splitPath hs⟩
  rcases eq_rendered_splitPath hslash h with heq | heq
  · rcases dropTrailingSlash_cases path with hd | ⟨hd, -⟩
    · exact absurd (heq.symm.trans hd) (rendered_no_trailing hsegments _)
    · rw [hd, ← heq]
  · rcases dropTrailingSlash_cases path with hd | ⟨-, hnot⟩
    · exact (String.append_left_inj _).1 (hd.symm.trans heq)
    · exact absurd ⟨_, heq⟩ hnot

theorem prefix_matches_of_segments {reqPath path r p : String} (hreq : reqPath = "/" ++ r) (hpath : path = "/" ++ p)
    (hreq' : ¬DoubledSlash reqPath) (hpath' : ¬DoubledSlash path) (h : splitPath path <+: splitPath reqPath) :
    pathPrefixMatches reqPath (dropTrailingSlash path) = true := by
  obtain ⟨more, hmore⟩ := h
  have hdrop := dropTrailingSlash_eq_rendered hpath hpath'
  have hne : dropTrailingSlash path ≠ "/" := by
    rw [hdrop]
    apply rendered_no_trailing (q := "")
    exact fun s hs => ⟨by simpa using (mem_filter.1 hs).2, no_slash_of_mem_splitPath hs⟩
  rw [pathPrefixMatches_iff hne, hdrop]
  -- the rest of the path is rendered too, and may have a slash at the end
  rcases eq_rendered_splitPath hreq hreq' with heq | heq
  · rw [← hmore, rendered_append] at heq
    exact ⟨_, heq, rendered_cases more⟩
  · rw [← hmore, rendered_append, String.append_assoc] at heq
    refine ⟨_, heq, .inr ?_⟩
    rcases rendered_cases more with hnil | ⟨inner, hinner⟩
    · exact ⟨"", by rw [hnil, String.empty_append, String.append_empty]⟩
    · exact ⟨inner ++ "/", by rw [hinner, String.append_assoc]⟩

variable {ω : IterOrder} {host : HostRoute} {r : RouteRequest} {plan : CompiledPlan} {p : String}

theorem candidate_iff_segments (hplan : plan ∈ hostPlans host) (hpath : plan.matches_.path = some (.pathPrefix p)) :
    plan ∈ trieCandidates r (compileHost ω host).pathTrie (splitPath r.path)
      ↔ splitPath p <+: splitPath r.path ∧ Visible ω (hostPlans host) r plan := by
  have hkey : trieKey plan = splitPath p := by rw [trieKey, hpath]
  have htrie : isTriePlan plan = true := by simp [isTriePlan, hpath]
  rw [compileHost_trieCandidates]
  simp only [mem_flatMap, mem_inits, mem_nodePlans, plansUnder, mem_filter, decide_eq_true_eq]
  apply Iff.intro
  · rintro ⟨k, hk, ⟨-, rfl⟩, hvisible⟩
    exact ⟨hkey ▸ hk, fun _ => hvisible⟩
  · rintro ⟨hprefixed, hvisible⟩
    exact ⟨trieKey plan, hkey ▸ hprefixed, ⟨⟨hplan, htrie⟩, rfl⟩, hvisible htrie⟩

/-- **Prefixes in the trie.** A rule with a prefix whose node does not hide it is met on the walk exactly when the segments of the
prefix begin those of the path. -/
theorem prefix_candidate_iff (ω : IterOrder) (host : HostRoute) (r : RouteRequest) (plan : CompiledPlan) (p : String)
    (hplan : plan ∈ hostPlans host) (hpath : plan.matches_.path = some (.pathPrefix p))
    (hvisible : Visible ω (hostPlans host) r plan) (hp : startsWith p "/" = true) (hq : startsWith r.path "/" = true) :
    (plan ∈ trieCandidates r (compileHost ω host).pathTrie (splitPath r.path) ↔ splitPath p <+: splitPath r.path)
    ∧ (pathPrefixMatches r.path (dropTrailingSlash p) = true →
        plan ∈ trieCandidates r (compileHost ω host).pathTrie (splitPath r.path))
    ∧ (¬DoubledSlash p → ¬DoubledSlash r.path → (plan ∈ trieCandidates r (compileHost ω host).pathTrie (splitPath r.path)
          ↔ pathPrefixMatches r.path (dropTrailingSlash p) = true)) := by
  obtain ⟨p', hp⟩ := startsWith_iff.1 hp
  obtain ⟨q', hq⟩ := startsWith_iff.1 hq
  have hcandidate : plan ∈ trieCandidates r (compileHost ω host).pathTrie (splitPath r.path)
      ↔ splitPath p <+: splitPath r.path := by
    rw [candidate_iff_segments hplan hpath, and_iff_left hvisible]
  have htext : pathPrefixMatches r.path (dropTrailingSlash p) = true → splitPath p <+: splitPath r.path := by
    intro h
    have hsegments := segments_of_prefix_matches h
    rwa [splitPath_dropTrailingSlash] at hsegments
  refine ⟨hcandidate, fun h => hcandidate.2 (htext h), fun hp' hq' => ?_⟩
  rw [hcandidate]
  exact ⟨prefix_matches_of_segments hq hp hq' hp', htext⟩

def shopPrefixRule : Rule :=
  { matches_ := [{ path := some (.pathPrefix "/a") }], action := .fixedResponse { status := 200 } }

def shopPrefixHost : HostRoute := { hostname := .any, rules := [shopPrefixRule] }

def shopPrefixPlan : CompiledPlan :=
  compilePlan shopPrefixRule (computePrecedence shopPrefixRule) { path := some (.pathPrefix "/a") } false false none

def shopPrefixRequest (path : String) : RouteRequest := ⟨"shop.example.com", 80, path, "GET", [], none⟩

theorem mem_shopPrefixPlans : shopPrefixPlan ∈ hostPlans shopPrefixHost := by
  simp [hostPlans, shopPrefixHost, shopPrefixRule, shopPrefixPlan]

theorem shopPrefixPlan_visible (r : RouteRequest) : Visible IterOrder.stored (hostPlans shopPrefixHost) r shopPrefixPlan :=
  visible_of_few (by simp [hostPlans, shopPrefixHost, shopPrefixRule, discriminatorThreshold])

theorem doubled_slash_candidate : startsWith "/a" "/" = true ∧ startsWith "//a" "/" = true
      ∧ shopPrefixPlan ∈ trieCandidates (shopPrefixRequest "//a") (compileHost IterOrder.stored shopPrefixHost).pathTrie
        (splitPath "//a")
      ∧ pathPrefixMatches "//a" "/a" = false := by
  refine ⟨by decide, by decide, ?_, by decide⟩
  have hcandidate := candidate_iff_segments (ω := IterOrder.stored) (r := shopPrefixRequest "//a") mem_shopPrefixPlans
    (p := "/a") (by simp [shopPrefixPlan])
  exact hcandidate.2 ⟨by decide, shopPrefixPlan_visible _⟩

theorem shop_prefix_candidate :
    (shopPrefixPlan ∈ trieCandidates (shopPrefixRequest "/a/b") (compileHost IterOrder.stored shopPrefixHost).pathTrie
        (splitPath "/a/b")
      ↔ splitPath "/a" <+: splitPath "/a/b")
      ∧ pathPrefixMatches "/a/b" (dropTrailingSlash "/a") = true := by
  refine ⟨?_, by decide⟩
  exact (prefix_candidate_iff IterOrder.stored shopPrefixHost (shopPrefixRequest "/a/b") shopPrefixPlan "/a"
    mem_shopPrefixPlans (by simp [shopPrefixPlan]) (shopPrefixPlan_visible _) (by decide) (by decide)).1

end SunbeamProxy
