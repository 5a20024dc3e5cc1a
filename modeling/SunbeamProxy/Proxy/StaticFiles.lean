/-
Static files (`static_files.rs`): the `try_files` chain below a root.

The file system is given by what `canonicalize` makes of a path, which of the canonical paths are regular files, and which can
be read.
-/
import SunbeamProxy.Proxy.Paths

namespace SunbeamProxy

open Text Option List

def canonicalText (components : List String) : String := "/" ++ joinChar '/' components

structure FileSystem where
  /-- the path without links and dot segments, when it leads somewhere -/
  canonicalize : String → Option (List String)
  isFile : List String → Bool
  readable : List String → Bool
  canonical : ∀ path c, canonicalize path = some c → canonicalize (canonicalText c) = some c

def joinBelow (base rest : String) : String := if (stripEnd base "/").isSome then base ++ rest else base ++ "/" ++ rest

def joinPath (base rest : String) : String := if startsWith rest "/" then rest else joinBelow base rest

def relativePath (path : String) : String := (stripStart path "/").getD path

def buildCandidates (root path : String) : Option (List String) := if contains path ".." then none
  else some (if relativePath path = "" then [joinPath root "index.html"]
    else [joinPath root (relativePath path), joinPath root (relativePath path ++ ".html"),
      joinPath root (relativePath path ++ "/index.html")])

namespace FileSystem

variable (fs : FileSystem)

def readStaticFile (root path : String) : Option (List String) :=
  (fs.canonicalize path).bind fun c => (fs.canonicalize root).bind fun r =>
    if r.isPrefixOf c && fs.isFile c && fs.readable c then some c else none

def tryServe (staticRoot : String) (fallback : Option String) (path : String) : Option (List String) :=
  (fs.canonicalize staticRoot).bind fun r => (buildCandidates (canonicalText r) path).bind fun candidates =>
    (candidates.findSome? (fs.readStaticFile (canonicalText r))).or
      (fallback.bind fun fb => fs.readStaticFile (canonicalText r) (joinPath (canonicalText r) fb))

variable (r : List String)

def regularBelow (path : String) : Option (List String) :=
  (fs.canonicalize path).filter fun c => r.isPrefixOf c && fs.isFile c

/-- what is joined to the root for a path, in the order of the documentation -/
def triedNames (fallback : Option String) (path : String) : List String :=
  (if relativePath path = "" then ["index.html"]
    else [relativePath path, relativePath path ++ ".html", relativePath path ++ "/index.html"]) ++ fallback.toList

def documented (root : String) (fallback : Option String) (path : String) : List String :=
  (triedNames fallback path).map (joinBelow root)

/-- the first regular file below the root among the documented paths is the first one that can be read among the joined ones -/
def SameFirst (fallback : Option String) (path : String) : Prop :=
  ∃ c, (∃ before p after, documented (canonicalText r) fallback path = before ++ p :: after ∧ fs.regularBelow r p = some c
      ∧ ∀ q ∈ before, fs.regularBelow r q = none)
    ∧ ∃ before p after, (triedNames fallback path).map (joinPath (canonicalText r)) = before ++ p :: after
      ∧ (fs.regularBelow r p = some c ∧ fs.readable c = true)
      ∧ ∀ q ∈ before, ∀ c', fs.regularBelow r q = some c' → fs.readable c' = false

/-- none of the documented paths leads to a regular file below the root, and none of the joined ones to one that can be read -/
def NoneFound (fallback : Option String) (path : String) : Prop :=
  (∀ q ∈ documented (canonicalText r) fallback path, fs.regularBelow r q = none)
    ∧ ∀ q ∈ (triedNames fallback path).map (joinPath (canonicalText r)), ∀ c, fs.regularBelow r q = some c → fs.readable c = false

variable {fs}

variable {r : List String}

theorem readStaticFile_eq {staticRoot : String} (h : fs.canonicalize staticRoot = some r) (path : String) :
    fs.readStaticFile (canonicalText r) path
      = (fs.canonicalize path).filter fun c => r.isPrefixOf c && fs.isFile c && fs.readable c := by
  rw [readStaticFile, fs.canonical _ _ h]
  cases fs.canonicalize path with
  | none => rfl
  | some c => simp [filter_some]

theorem below_of_read {staticRoot path : String} {r c : List String} (h : fs.canonicalize staticRoot = some r)
    (hc : fs.readStaticFile (canonicalText r) path = some c) : r <+: c ∧ fs.isFile c = true := by
  rw [readStaticFile_eq h, filter_eq_some_iff] at hc
  simp only [Bool.and_eq_true, isPrefixOf_iff_prefix] at hc
  exact hc.2.1

theorem readStaticFile_regular {staticRoot : String} (h : fs.canonicalize staticRoot = some r) (path : String) :
    fs.readStaticFile (canonicalText r) path = (fs.regularBelow r path).filter fs.readable := by
  rw [readStaticFile_eq h, regularBelow]
  cases fs.canonicalize path <;> simp [filter_some]
  grind

theorem tryServe_eq {staticRoot path : String} (hr : fs.canonicalize staticRoot = some r)
    (hdots : contains path ".." = false) (fallback : Option String) : fs.tryServe staticRoot fallback path
      = ((triedNames fallback path).map (joinPath (canonicalText r))).findSome? (fs.readStaticFile (canonicalText r)) := by
  simp only [tryServe, hr, bind_some, buildCandidates, hdots, Bool.false_eq_true, if_false, triedNames, map_append,
    findSome?_append]
  cases fallback <;> split_ifs <;> simp

theorem sameFirst_or_none_iff (fallback : Option String) (path : String) :
    ((triedNames fallback path).map (joinPath (canonicalText r))).findSome? (fun p => (fs.regularBelow r p).filter fs.readable)
        = (documented (canonicalText r) fallback path).findSome? (fs.regularBelow r)
      ↔ fs.SameFirst r fallback path ∨ fs.NoneFound r fallback path := by
  have hhidden (p : String) : (fs.regularBelow r p).filter fs.readable = none
      ↔ ∀ c, fs.regularBelow r p = some c → fs.readable c = false := by simp [Option.filter_eq_none_iff]
  rw [SameFirst, NoneFound]
  constructor
  · intro h
    cases hfirst : (documented (canonicalText r) fallback path).findSome? (fs.regularBelow r) with
    | none =>
      rw [hfirst, findSome?_eq_none_iff] at h
      exact .inr ⟨findSome?_eq_none_iff.1 hfirst, fun q hq => (hhidden q).1 (h q hq)⟩
    | some c =>
      rw [hfirst, findSome?_eq_some_iff] at h
      obtain ⟨before, p, after, hlist, hp, hbefore⟩ := h
      exact .inl ⟨c, findSome?_eq_some_iff.1 hfirst, before, p, after, hlist, filter_eq_some_iff.1 hp,
        fun q hq => (hhidden q).1 (hbefore q hq)⟩
  · rintro (⟨c, hfirst, before, p, after, hlist, hp, hbefore⟩ | ⟨hfirst, hnone⟩)
    · rw [findSome?_eq_some_iff.2 hfirst, findSome?_eq_some_iff]
      exact ⟨before, p, after, hlist, filter_eq_some_iff.2 hp, fun q hq => (hhidden q).2 (hbefore q hq)⟩
    · rw [findSome?_eq_none_iff.2 hfirst, findSome?_eq_none_iff]
      exact fun q hq => (hhidden q).2 (hnone q hq)

theorem joined_eq_documented {fallback : Option String} {path : String}
    (hpath : startsWith (relativePath path) "/" = false) (hfallback : ∀ fb, fallback = some fb → startsWith fb "/" = false) :
    (triedNames fallback path).map (joinPath (canonicalText r)) = documented (canonicalText r) fallback path := by
  rw [documented, map_inj_left]
  intro name hname
  have hrelative : startsWith name "/" = false := by
    rcases mem_append.1 hname with hown | hfb
    · split_ifs at hown with hnil
      · rw [mem_singleton.1 hown]
        decide
      · simp only [mem_cons, not_mem_nil, or_false] at hown
        rcases hown with rfl | rfl | rfl
        · exact hpath
        · rw [startsWith_slash_append hnil, hpath]
        · rw [startsWith_slash_append hnil, hpath]
    · exact hfallback name (Option.mem_toList.1 hfb)
  rw [joinPath, hrelative]
  rfl

theorem findSome?_filter_iff {α β : Type} (f : α → Option β) (ok : β → Bool) (l : List α) :
    l.findSome? (fun a => (f a).filter ok) = l.findSome? f ↔ ∀ b, l.findSome? f = some b → ok b = true := by
  induction l with
  | nil => simp
  | cons a l ih =>
    cases hf : f a with
    | none => simpa [findSome?_cons, hf] using ih
    | some b =>
      by_cases hok : ok b = true
      · simp [hf, filter_some, hok]
      · -- what is found further on passes `ok`, so it is not `b`
        have hother : l.findSome? (fun a => (f a).filter ok) ≠ some b := by
          intro hfound
          obtain ⟨a', -, ha'⟩ := exists_of_findSome?_eq_some hfound
          exact hok (filter_eq_some_iff.1 ha').2
        simpa [findSome?_cons, hf, filter_some, hok] using hother

def aboutPaths : List (String × List String) :=
  [("/srv", ["srv"]), ("/srv/about", ["srv", "about"]), ("/srv//about", ["srv", "about"]),
    ("/srv/index.html", ["srv", "index.html"])]

def aboutSite : FileSystem where
  canonicalize path := (aboutPaths.find? (·.1 = path)).map (·.2)
  isFile c := c ≠ ["srv"]
  readable _ := true
  canonical path c h := by
    have hall : ∀ e ∈ aboutPaths, (aboutPaths.find? (·.1 = canonicalText e.2)).map (·.2) = some e.2 := by decide
    obtain ⟨e, he, rfl⟩ := map_eq_some_iff.1 h
    exact hall e (mem_of_find?_eq_some he)

end FileSystem

end SunbeamProxy
