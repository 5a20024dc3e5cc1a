/-
Paths in normal form (`normalize_path`) and what `http` reads back of them.
-/
import SunbeamProxy.Proxy.Filters

namespace SunbeamProxy

open Text List

structure CleanSegment (s : String) : Prop where
  not_empty : s ≠ ""
  not_here : s ≠ "."
  not_up : s ≠ ".."
  no_slash : '/' ∉ s.toList

/-- a path in normal form -/
def CleanPath (path : String) : Prop := ∃ segments, path = "/" ++ joinChar '/' segments ∧ ∀ s ∈ segments, CleanSegment s

theorem splitPath_append_slash (a b : String) : splitPath (a ++ ("/" ++ b)) = splitPath a ++ splitPath b := by
  rw [splitPath, splitChar_append_sep, filter_append]
  rfl

theorem splitPath_empty : splitPath "" = [] := rfl

theorem splitPath_slash_append (a : String) : splitPath ("/" ++ a) = splitPath a := by
  have h := splitPath_append_slash "" a
  rwa [splitPath_empty] at h

theorem splitPath_append_trailing (a : String) : splitPath (a ++ "/") = splitPath a := by
  have h := splitPath_append_slash a ""
  rwa [splitPath_empty, append_nil] at h

variable {path : String}

theorem no_slash_of_mem_splitPath {s : String} (h : s ∈ splitPath path) : '/' ∉ s.toList :=
  notMem_of_mem_splitChar (mem_filter.1 h).1

theorem splitPath_join {segments : List String} (h : ∀ s ∈ segments, CleanSegment s) :
    splitPath ("/" ++ joinChar '/' segments) = segments := by
  rw [splitPath_slash_append]
  cases segments with
  | nil => rfl
  | cons s segments =>
    rw [splitPath, splitChar_joinChar (cons_ne_nil _ _) fun t ht => (h t ht).no_slash, filter_eq_self]
    intro t ht
    exact decide_eq_true (h t ht).not_empty

namespace normalizePath

theorem resolve_filter (stack segments : List String) : resolve stack (segments.filter (· ≠ "")) = resolve stack segments := by
  induction segments generalizing stack with
  | nil => rfl
  | cons s segments ih =>
    by_cases hs : s = ""
    · rw [filter_cons_of_neg (by simp [hs]), ih, resolve, if_pos (.inl hs)]
    · rw [filter_cons_of_pos (by simpa using hs), resolve, resolve]
      simp only [ih]

theorem resolve_of_clean {segments : List String} (stack : List String) (h : ∀ s ∈ segments, CleanSegment s) :
    resolve stack segments = some (stack ++ segments) := by
  induction segments generalizing stack with
  | nil => rw [resolve, append_nil]
  | cons s segments ih =>
    have hs := h s mem_cons_self
    rw [resolve, if_neg (not_or.2 ⟨hs.not_empty, hs.not_here⟩), if_neg hs.not_up,
      ih _ fun t ht => h t (mem_cons_of_mem _ ht), append_assoc, singleton_append]

theorem resolve_forall {P : String → Prop} {stack segments out : List String} (hstack : ∀ s ∈ stack, P s)
    (hsegments : ∀ s ∈ segments, s ≠ "" → s ≠ "." → s ≠ ".." → P s) (h : resolve stack segments = some out) :
    ∀ s ∈ out, P s := by
  induction segments generalizing stack with
  | nil =>
    rw [resolve, Option.some.injEq] at h
    exact h ▸ hstack
  | cons s segments ih =>
    have htail := fun t ht => hsegments t (mem_cons_of_mem _ ht)
    rw [resolve] at h
    split_ifs at h with hskip hup hroot
    · exact ih hstack htail h
    · exact ih (fun t ht => hstack t (mem_of_mem_dropLast ht)) htail h
    · rw [not_or] at hskip
      apply ih _ htail h
      intro t ht
      rw [mem_append, mem_singleton] at ht
      rcases ht with ht | rfl
      · exact hstack t ht
      · exact hsegments t mem_cons_self hskip.1 hskip.2 hup

end normalizePath

theorem resolve_splitPath_clean {out : List String} (h : normalizePath.resolve [] (splitPath path) = some out) :
    ∀ s ∈ out, CleanSegment s :=
  normalizePath.resolve_forall (by simp) (fun _ hs h₁ h₂ h₃ => ⟨h₁, h₂, h₃, no_slash_of_mem_splitPath hs⟩) h

variable {n : String}

theorem normalizePath_eq_some_iff : normalizePath path = some n ↔ startsWith path "/" = true
      ∧ ∃ out, normalizePath.resolve [] (splitPath path) = some out ∧ n = "/" ++ joinChar '/' out := by
  rw [normalizePath, splitPath, normalizePath.resolve_filter]
  split_ifs with habs
  · rw [Option.map_eq_some_iff]
    simp [habs, eq_comm]
  · exact iff_of_false not_false fun h => habs h.1

theorem normalizePath_eq_none_iff :
    normalizePath path = none ↔ startsWith path "/" = false ∨ normalizePath.resolve [] (splitPath path) = none := by
  rw [normalizePath, splitPath, normalizePath.resolve_filter]
  split_ifs with habs <;> simp [habs]

theorem normalizePath_clean (h : normalizePath path = some n) : CleanPath n := by
  obtain ⟨_, out, hout, rfl⟩ := normalizePath_eq_some_iff.1 h
  exact ⟨out, rfl, resolve_splitPath_clean hout⟩

theorem CleanPath.startsWith (h : CleanPath path) : startsWith path "/" = true := by
  obtain ⟨segments, rfl, _⟩ := h
  exact startsWith_iff.2 ⟨_, rfl⟩

theorem CleanPath.normalizePath (h : CleanPath path) : normalizePath path = some path := by
  have habs := h.startsWith
  obtain ⟨segments, rfl, hclean⟩ := h
  refine normalizePath_eq_some_iff.2 ⟨habs, segments, ?_, rfl⟩
  rw [splitPath_join hclean, normalizePath.resolve_of_clean [] hclean, nil_append]

variable {a b : String}

theorem CleanPath.eq_of_splitPath (ha : CleanPath a) (hb : CleanPath b) (h : splitPath a = splitPath b) : a = b := by
  obtain ⟨segments, rfl, hsegments⟩ := ha
  obtain ⟨segments', rfl, hsegments'⟩ := hb
  rw [splitPath_join hsegments, splitPath_join hsegments'] at h
  rw [h]

theorem CleanPath.no_double_slash : ¬CleanPath (a ++ ("/" ++ ("/" ++ b))) := by
  intro h
  obtain ⟨segments, hpath, hclean⟩ := h
  have hslash : "/" = String.ofList ['/'] := rfl
  have hleft : splitChar '/' (a ++ ("/" ++ ("/" ++ b))) = splitChar '/' a ++ "" :: splitChar '/' b := by
    have hinner := splitChar_append_sep '/' "" b
    rw [String.empty_append] at hinner
    rw [splitChar_append_sep, hinner]
    rfl
  have hright : splitChar '/' ("/" ++ joinChar '/' segments) = "" :: splitChar '/' (joinChar '/' segments) := by
    have hinner := splitChar_append_sep '/' "" (joinChar '/' segments)
    rw [String.empty_append] at hinner
    rw [hinner]
    rfl
  rw [hpath, hright] at hleft
  obtain ⟨first, more, ha⟩ := exists_cons_of_ne_nil (splitChar_ne_nil '/' a)
  rw [ha, cons_append] at hleft
  have htail := (cons.inj hleft).2
  cases segments with
  | nil =>
    -- the root alone has one piece after its slash
    have hlen := congrArg List.length htail
    have hb := length_pos_of_ne_nil (splitChar_ne_nil '/' b)
    rw [show splitChar '/' (joinChar '/' []) = [""] from rfl] at hlen
    simp only [length_append, length_cons, length_nil] at hlen
    omega
  | cons s segments =>
    rw [splitChar_joinChar (cons_ne_nil _ _) fun t ht => (hclean t ht).no_slash] at htail
    have hmem : "" ∈ s :: segments := by
      rw [htail]
      exact mem_append_right _ mem_cons_self
    exact (hclean "" hmem).not_empty rfl

variable {c : Char}

theorem mem_joinChar {d : Char} {l : List String} (h : d ∈ (joinChar c l).toList) : d = c ∨ ∃ s ∈ l, d ∈ s.toList := by
  by_cases hd : d = c
  · exact .inl hd
  · rw [joinChar, String.toList_ofList, mem_intercalate_singleton hd] at h
    obtain ⟨p, hp, hdp⟩ := h
    obtain ⟨s, hs, rfl⟩ := mem_map.1 hp
    exact .inr ⟨s, hs, hdp⟩

theorem mem_of_mem_splitPath {s : String} (hs : s ∈ splitPath path) (hc : c ∈ s.toList) : c ∈ path.toList := by
  have hpiece := (mem_filter.1 hs).1
  apply (mem_pieces (c := '/') _ path).1 ⟨s, hpiece, hc⟩
  intro hslash
  exact notMem_of_mem_splitChar hpiece (hslash ▸ hc)

theorem normalizePath_chars (h : normalizePath path = some n) (hc : c ∈ n.toList) : c = '/' ∨ c ∈ path.toList := by
  obtain ⟨_, out, hout, rfl⟩ := normalizePath_eq_some_iff.1 h
  have hsegments : ∀ s ∈ out, ∀ c ∈ s.toList, c ∈ path.toList :=
    normalizePath.resolve_forall (by simp) (fun s hs _ _ _ c hc => mem_of_mem_splitPath hs hc) hout
  rw [String.toList_append, mem_append] at hc
  rcases hc with hc | hc
  · exact .inl (by simpa using hc)
  · rcases mem_joinChar hc with hslash | ⟨s, hs, hcs⟩
    · exact .inl hslash
    · exact .inr (hsegments s hs c hcs)

/-! ## Reading back -/

def PathText (s : String) : Prop := ∀ c ∈ s.toList, isPathChar c = true

instance instDecidablePathText (s : String) : Decidable (PathText s) :=
  decidable_of_iff (s.toList.all isPathChar = true) all_eq_true

theorem PathText.append_iff : PathText (a ++ b) ↔ PathText a ∧ PathText b := by
  simp [PathText, String.toList_append, or_imp, forall_and]

/-- a path and a query as `http` gives them out -/
structure Uri.WellFormed (uri : Uri) : Prop where
  path : PathText uri.path
  not_empty : uri.path ≠ ""
  query : ∀ q, uri.query = some q → ∀ c ∈ q.toList, isQueryChar c = true

theorem isPathChar_ne (h : isPathChar c = true) : c ≠ '?' ∧ c ≠ '#' := by
  apply And.intro
  all_goals
    intro hc
    rw [hc] at h
    exact absurd h (by decide)

theorem isQueryChar_ne (h : isQueryChar c = true) : c ≠ '#' := by
  intro hc
  rw [hc] at h
  exact absurd h (by decide)

theorem takeWhile_ne_self {l : List Char} (h : ∀ d ∈ l, d ≠ c) : l.takeWhile (· ≠ c) = l :=
  takeWhile_eq_self_iff.2 fun d hd => decide_eq_true (h d hd)

theorem parsePathAndQuery_queryPart {uri : Uri} (h : uri.WellFormed) (htext : PathText path) (hne : path ≠ "") :
    parsePathAndQuery (path ++ uri.queryPart) = some (path, uri.query) := by
  have hpath : path.toList ≠ [] := fun hnil => hne (String.toList_inj.1 hnil)
  have hask := fun c hc => (isPathChar_ne (htext c hc)).1
  have hall := all_eq_true.2 htext
  cases hquery : uri.query with
  | none =>
    have hhash := fun c hc => (isPathChar_ne (htext c hc)).2
    have hnotMem := fun hc => hask _ hc rfl
    have happend : path ++ uri.queryPart = path := by
      rw [Uri.queryPart, hquery, Option.map_none, Option.getD_none, String.append_empty]
    simp only [parsePathAndQuery, happend, takeWhile_ne_self hhash, takeWhile_ne_self hask, if_neg hnotMem, hall,
      Option.getD_none, all_nil, Bool.and_self, if_true, if_neg hpath, Option.map_none, String.ofList_toList]
  | some q =>
    have hquery' := h.query q hquery
    have hhash : ∀ c ∈ path.toList ++ '?' :: q.toList, c ≠ '#' := by
      intro c hc
      rw [mem_append, mem_cons] at hc
      rcases hc with hc | rfl | hc
      · exact (isPathChar_ne (htext c hc)).2
      · decide
      · exact isQueryChar_ne (hquery' c hc)
    have hcut : (path.toList ++ '?' :: q.toList).takeWhile (· ≠ '?') = path.toList := by
      rw [takeWhile_append_of_pos fun c hc => decide_eq_true (hask c hc), takeWhile_cons_of_neg (by simp), append_nil]
    have hdrop : (path.toList ++ '?' :: q.toList).drop (path.toList.length + 1) = q.toList := by
      rw [← drop_drop, drop_left, drop_one, tail_cons]
    have happend : (path ++ uri.queryPart).toList = path.toList ++ '?' :: q.toList := by
      simp only [Uri.queryPart, hquery, Option.map_some, Option.getD_some, String.toList_append]
      rfl
    have hqall := all_eq_true.2 hquery'
    have hmem : '?' ∈ path.toList ++ '?' :: q.toList := by simp
    simp only [parsePathAndQuery, happend, takeWhile_ne_self hhash, hcut, hdrop, if_pos hmem, hall, Option.getD_some, hqall,
      Bool.and_self, if_true, if_neg hpath, Option.map_some, String.ofList_toList]

theorem wellFormed_of_parse {text : String} {query : Option String} {host : Option String}
    (h : parsePathAndQuery text = some (path, query)) : Uri.WellFormed ⟨path, query, host⟩ := by
  simp only [parsePathAndQuery, Option.ite_none_right_eq_some, Bool.and_eq_true, all_eq_true] at h
  obtain ⟨⟨hpath, hquery⟩, rfl, rfl⟩ := h
  refine ⟨?_, ?_, ?_⟩
  · intro c hc
    dsimp only at hc
    split_ifs at hc with hempty
    · have : c = '/' := by simpa using hc
      rw [this]
      decide
    · exact hpath c (by rwa [String.toList_ofList] at hc)
  · dsimp only
    split_ifs with hempty
    · decide
    · intro hnil
      exact hempty (by simpa using congrArg String.toList hnil)
  · intro q hq c hc
    rw [Option.map_eq_some_iff] at hq
    obtain ⟨chars, hchars, rfl⟩ := hq
    rw [String.toList_ofList] at hc
    exact hquery c (by rw [hchars]; exact hc)

theorem setPath_eq {what rawPath : String} {req : RequestHeader} (hreq : req.uri.WellFormed) (hraw : PathText rawPath) :
    setPath what rawPath req = match normalizePath rawPath with
        | some n => .ok { req with uri := { req.uri with path := n } }
        | none => .error ⟨.httpStatus 400, "invalid path after " ++ what⟩ := by
  rw [setPath]
  cases hn : normalizePath rawPath with
  | none => rfl
  | some n =>
    have htext : PathText n := by
      intro c hc
      rcases normalizePath_chars hn hc with rfl | hc
      · decide
      · exact hraw c hc
    have hne : n ≠ "" := by
      intro hempty
      have habs := (normalizePath_clean hn).startsWith
      rw [hempty] at habs
      cases habs
    have hform : req.uri.isAuthorityForm = false := by rw [Uri.isAuthorityForm, decide_eq_false hreq.not_empty, Bool.false_and]
    simp [parsePathAndQuery_queryPart hreq htext hne, hform]

theorem setPath_wellFormed {what rawPath : String} {req req' : RequestHeader} (h : setPath what rawPath req = .ok req') :
    req'.uri.WellFormed := by
  rw [setPath] at h
  split at h
  · cases h
  · split at h
    · cases h
    · rename_i path query hparse
      split_ifs at h
      cases h
      exact wellFormed_of_parse hparse

variable {rest : String}

theorem splitPath_rest {p : String} (h : splitPath p <+: splitPath (p ++ rest)) :
    splitPath (p ++ rest) = splitPath p ++ splitPath rest := by
  obtain ⟨front, x, y, back, hp, hrest, happend⟩ := splitChar_append '/' p rest
  by_cases hx : x = ""
  · simp only [splitPath, happend, hp, hrest, hx]
    simp
  by_cases hy : y = ""
  · simp only [splitPath, happend, hp, hrest, hy]
    simp [hx]
  · have hxy : x ++ y ≠ "" := fun hempty => hx (String.append_eq_empty_iff.1 hempty).1
    have hfront : splitPath p = front.filter (· ≠ "") ++ [x] := by
      rw [splitPath, hp, filter_append, filter_cons_of_pos (by simpa using hx), filter_nil]
    have hboth : splitPath (p ++ rest) = front.filter (· ≠ "") ++ (x ++ y) :: back.filter (· ≠ "") := by
      rw [splitPath, happend, filter_append, filter_cons_of_pos (by simpa [imp_iff_not_or] using hxy)]
    rw [hfront, hboth, prefix_append_right_inj, cons_prefix_cons] at h
    have hlist : x.toList = x.toList ++ y.toList := by rw [← String.toList_append, ← h.1]
    exact absurd (String.toList_inj.1 (self_eq_append_right.1 hlist)) hy

/-! ## Joining -/

def dropSlash (rest : String) : String := (stripStart rest "/").getD rest

def dropTrailingSlash (path : String) : String := (stripEnd path "/").getD path

theorem dropSlash_cases (rest : String) :
    rest = "/" ++ dropSlash rest ∨ (dropSlash rest = rest ∧ startsWith rest "/" = false) := by
  cases h : stripStart rest "/" with
  | some inner =>
    have hd : dropSlash rest = inner := by rw [dropSlash, h, Option.getD_some]
    exact .inl (by rw [hd]; exact stripStart_eq_some.1 h)
  | none =>
    refine .inr ⟨by rw [dropSlash, h, Option.getD_none], ?_⟩
    rw [← Bool.not_eq_true, startsWith_iff]
    exact stripStart_eq_none.1 h

theorem dropTrailingSlash_cases (path : String) :
    path = dropTrailingSlash path ++ "/" ∨ (dropTrailingSlash path = path ∧ ¬∃ q, path = q ++ "/") := by
  cases h : stripEnd path "/" with
  | some inner =>
    have hd : dropTrailingSlash path = inner := by rw [dropTrailingSlash, h, Option.getD_some]
    exact .inl (by rw [hd]; exact stripEnd_eq_some.1 h)
  | none =>
    refine .inr ⟨by rw [dropTrailingSlash, h, Option.getD_none], ?_⟩
    intro hq
    obtain ⟨q, hq⟩ := hq
    rw [stripEnd_eq_some.2 hq] at h
    cases h

theorem splitPath_dropSlash (rest : String) : splitPath (dropSlash rest) = splitPath rest := by
  rcases dropSlash_cases rest with h | h
  · conv_rhs => rw [h, splitPath_slash_append]
  · rw [h.1]

theorem splitPath_dropTrailingSlash (path : String) : splitPath (dropTrailingSlash path) = splitPath path := by
  rcases dropTrailingSlash_cases path with h | h
  · conv_rhs => rw [h, splitPath_append_trailing]
  · rw [h.1]

theorem joinReplacement_eq (replacement rest : String) : joinReplacement replacement rest
      = if replacement = "" ∨ replacement = "/" then "/" ++ dropSlash rest
        else if dropSlash rest = "" then dropTrailingSlash replacement
        else dropTrailingSlash replacement ++ ("/" ++ dropSlash rest) := by
  rw [← String.append_assoc]
  rfl

theorem splitPath_joinReplacement (replacement rest : String) :
    splitPath (joinReplacement replacement rest) = splitPath replacement ++ splitPath rest := by
  rw [joinReplacement_eq, ← splitPath_dropSlash rest]
  split_ifs with hroot hrest
  · rw [splitPath_slash_append]
    rcases hroot with rfl | rfl <;> rfl
  · rw [hrest, splitPath_dropTrailingSlash, splitPath_empty, append_nil]
  · rw [splitPath_append_slash, splitPath_dropTrailingSlash]

theorem startsWith_slash_append (ha : a ≠ "") (b : String) : startsWith (a ++ b) "/" = startsWith a "/" := by
  have hne := fun h => ha (String.toList_inj.1 h)
  obtain ⟨c, cs, hcs⟩ := exists_cons_of_ne_nil hne
  simp only [startsWith, String.toList_append, hcs]
  rfl

theorem dropTrailingSlash_ne (h : ¬(path = "" ∨ path = "/")) : dropTrailingSlash path ≠ "" := by
  intro hempty
  rcases dropTrailingSlash_cases path with hp | hp
  · rw [hempty] at hp
    exact h (.inr hp)
  · exact h (.inl (by rw [← hp.1, hempty]))

theorem startsWith_dropTrailingSlash (h : ¬(path = "" ∨ path = "/")) :
    startsWith (dropTrailingSlash path) "/" = startsWith path "/" := by
  rcases dropTrailingSlash_cases path with hp | hp
  · conv_rhs => rw [hp, startsWith_slash_append (dropTrailingSlash_ne h)]
  · rw [hp.1]

theorem startsWith_joinReplacement (replacement rest : String) :
    startsWith (joinReplacement replacement rest) "/" = true ↔ replacement = "" ∨ startsWith replacement "/" = true := by
  rw [joinReplacement_eq]
  by_cases hroot : replacement = "" ∨ replacement = "/"
  · rw [if_pos hroot]
    apply iff_of_true (startsWith_iff.2 ⟨_, rfl⟩)
    rcases hroot with rfl | rfl
    · exact .inl rfl
    · exact .inr rfl
  · have hne := fun h => hroot (.inl h)
    rw [if_neg hroot, or_iff_right hne]
    split_ifs
    · rw [startsWith_dropTrailingSlash hroot]
    · rw [startsWith_slash_append (dropTrailingSlash_ne hroot), startsWith_dropTrailingSlash hroot]

theorem mem_dropSlash (h : c ∈ (dropSlash rest).toList) : c ∈ rest.toList := by
  rcases dropSlash_cases rest with hr | hr
  · rw [hr, String.toList_append]
    exact mem_append_right _ h
  · rwa [hr.1] at h

theorem mem_dropTrailingSlash (h : c ∈ (dropTrailingSlash path).toList) : c ∈ path.toList := by
  rcases dropTrailingSlash_cases path with hp | hp
  · rw [hp, String.toList_append]
    exact mem_append_left _ h
  · rwa [hp.1] at h

theorem mem_joinReplacement {replacement : String} (h : c ∈ (joinReplacement replacement rest).toList) :
    c = '/' ∨ c ∈ replacement.toList ∨ c ∈ rest.toList := by
  have hslash : ∀ {tail : String}, c ∈ ("/" ++ tail).toList → c = '/' ∨ c ∈ tail.toList := by
    intro tail hc
    simpa using hc
  rw [joinReplacement_eq] at h
  split_ifs at h
  · rcases hslash h with hc | hc
    · exact .inl hc
    · exact .inr (.inr (mem_dropSlash hc))
  · exact .inr (.inl (mem_dropTrailingSlash h))
  · rw [String.toList_append, mem_append] at h
    rcases h with hc | hc
    · exact .inr (.inl (mem_dropTrailingSlash hc))
    · rcases hslash hc with hc | hc
      · exact .inl hc
      · exact .inr (.inr (mem_dropSlash hc))

theorem pathText_joinReplacement {replacement : String} (hreplacement : PathText replacement) (hrest : PathText rest) :
    PathText (joinReplacement replacement rest) := by
  intro c hc
  rcases mem_joinReplacement hc with rfl | hc | hc
  · decide
  · exact hreplacement c hc
  · exact hrest c hc

def joinOnce (replacement rest : String) : String :=
  if rest = "" then replacement else dropTrailingSlash replacement ++ ("/" ++ dropSlash rest)

theorem splitPath_joinOnce (replacement rest : String) :
    splitPath (joinOnce replacement rest) = splitPath replacement ++ splitPath rest := by
  rw [joinOnce]
  split_ifs with hrest
  · rw [hrest, splitPath_empty, append_nil]
  · rw [splitPath_append_slash, splitPath_dropTrailingSlash, splitPath_dropSlash]

end SunbeamProxy
