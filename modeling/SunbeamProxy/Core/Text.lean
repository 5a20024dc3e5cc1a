/-
Text operations on `&str`, through the character list.
-/
import Mathlib.Data.List.TakeWhile
import Mathlib.Data.String.Basic
import Mathlib.Tactic

namespace SunbeamProxy.Text

open List

/-! ## Cutting and joining at a character -/

def splitChar (c : Char) (s : String) : List String := (s.toList.splitOn c).map String.ofList

def joinChar (c : Char) (l : List String) : String := String.ofList ([c].intercalate (l.map String.toList))

theorem splitChar_ne_nil (c : Char) (s : String) : splitChar c s ≠ [] := by simp [splitChar]

theorem splitChar_append_sep (c : Char) (a b : String) :
    splitChar c (a ++ (String.ofList [c] ++ b)) = splitChar c a ++ splitChar c b := by
  simp only [splitChar, String.toList_append, String.toList_ofList, singleton_append]
  rw [splitOn_append_cons_self, map_append]

theorem joinChar_splitChar (c : Char) (s : String) : joinChar c (splitChar c s) = s := by
  have h : ((s.toList.splitOn c).map String.ofList).map String.toList = s.toList.splitOn c := by simp
  rw [joinChar, splitChar, h, intercalate_splitOn, String.ofList_toList]

theorem joinChar_singleton (c : Char) (a : String) : joinChar c [a] = a := by simp [joinChar]

theorem joinChar_cons_cons (c : Char) (a b : String) (l : List String) :
    joinChar c (a :: b :: l) = a ++ (String.ofList [c] ++ joinChar c (b :: l)) := by
  simp [joinChar]

variable {c : Char} {a b : String}

theorem splitChar_inj (h : splitChar c a = splitChar c b) : a = b := by rw [← joinChar_splitChar c a, h, joinChar_splitChar]

variable {s : String}

theorem splitChar_of_notMem (h : c ∉ s.toList) : splitChar c s = [s] := by
  have : s.toList.splitOn c = [s.toList] := splitOn_eq_singleton h
  simp [splitChar, this]

theorem splitChar_joinChar {l : List String} (hne : l ≠ []) (h : ∀ p ∈ l, c ∉ p.toList) : splitChar c (joinChar c l) = l := by
  have hs : ([c].intercalate (l.map String.toList)).splitOn c = l.map String.toList := by
    refine splitOn_intercalate c ?_ (by simpa using hne)
    simpa using h
  simp [splitChar, joinChar, hs]

theorem splitOn_append (c : Char) (a b : List Char) : ∃ front x y back, a.splitOn c = front ++ [x] ∧ b.splitOn c = y :: back
      ∧ (a ++ b).splitOn c = front ++ (x ++ y) :: back := by
  induction a with
  | nil =>
    obtain ⟨y, back, hb⟩ := exists_cons_of_ne_nil (splitOn_ne_nil c b)
    exact ⟨[], [], y, back, rfl, hb, hb⟩
  | cons d a ih =>
    obtain ⟨front, x, y, back, ha, hb, hab⟩ := ih
    simp only [cons_append, splitOn_cons_eq_if_modifyHead, ha, hab]
    split_ifs
    · exact ⟨[] :: front, x, y, back, rfl, hb, rfl⟩
    · cases front with
      | nil => exact ⟨[], d :: x, y, back, rfl, hb, rfl⟩
      | cons f front => exact ⟨(d :: f) :: front, x, y, back, rfl, hb, rfl⟩

theorem splitChar_append (c : Char) (a b : String) : ∃ front x y back, splitChar c a = front ++ [x] ∧ splitChar c b = y :: back
      ∧ splitChar c (a ++ b) = front ++ (x ++ y) :: back := by
  obtain ⟨front, x, y, back, ha, hb, hab⟩ := splitOn_append c a.toList b.toList
  refine ⟨front.map String.ofList, String.ofList x, String.ofList y, back.map String.ofList, ?_, ?_, ?_⟩
  · rw [splitChar, ha, map_append, map_singleton]
  · rw [splitChar, hb, map_cons]
  · rw [splitChar, String.toList_append, hab, map_append, map_cons, String.ofList_append]

theorem splitOn_map {f : Char → Char} (hf : ∀ d, f d = c ↔ d = c) (l : List Char) :
    (l.map f).splitOn c = (l.splitOn c).map (List.map f) := by
  induction l with
  | nil => rfl
  | cons d l ih =>
    simp only [map_cons, splitOn_cons_eq_if_modifyHead, ih]
    by_cases hd : d = c
    · rw [if_pos (beq_iff_eq.2 ((hf d).2 hd)), if_pos (beq_iff_eq.2 hd)]
      rfl
    · rw [if_neg (mt beq_iff_eq.1 (mt (hf d).1 hd)), if_neg (mt beq_iff_eq.1 hd)]
      obtain ⟨y, back, hl⟩ := exists_cons_of_ne_nil (splitOn_ne_nil c l)
      rw [hl]
      rfl

theorem notMem_of_mem_splitOn {l p : List Char} (h : p ∈ l.splitOn c) : c ∉ p := by
  induction l generalizing p with
  | nil => simp_all
  | cons x l ih =>
    rw [splitOn_cons_eq_if_modifyHead] at h
    split_ifs at h with hx
    · rcases mem_cons.1 h with rfl | h
      · simp
      · exact ih h
    · cases hl : l.splitOn c with
      | nil => simp [hl] at h
      | cons q qs =>
        rw [hl] at h
        rcases mem_cons.1 h with rfl | h
        · simp only [mem_cons, not_or]
          exact ⟨fun e => hx (by simp [e]), ih (by simp [hl])⟩
        · exact ih (by simp [hl, h])

variable {p : String}

theorem notMem_of_mem_splitChar (h : p ∈ splitChar c s) : c ∉ p.toList := by
  obtain ⟨q, hq, rfl⟩ := mem_map.1 h
  simpa using notMem_of_mem_splitOn hq

theorem mem_intercalate_singleton {d : Char} (hd : d ≠ c) (l : List (List Char)) : d ∈ [c].intercalate l ↔ ∃ p ∈ l, d ∈ p := by
  induction l with
  | nil => simp
  | cons a l ih => cases l <;> simp [ih, hd]

theorem mem_pieces {d : Char} (hd : d ≠ c) (s : String) : (∃ p ∈ splitChar c s, d ∈ p.toList) ↔ d ∈ s.toList := by
  conv_rhs => rw [← joinChar_splitChar c s, joinChar, String.toList_ofList, mem_intercalate_singleton hd]
  simp

def splitOnce (c : Char) (s : String) : Option (String × String) := if c ∈ s.toList then
    some (String.ofList (s.toList.takeWhile (· ≠ c)), String.ofList ((s.toList.dropWhile (· ≠ c)).drop 1))
  else none

theorem splitOnce_eq_some : splitOnce c s = some (a, b) ↔ c ∉ a.toList ∧ s.toList = a.toList ++ c :: b.toList := by
  rw [splitOnce]
  apply Iff.intro
  · intro h
    split_ifs at h with hc
    have hpair := Prod.mk.inj (Option.some.inj h)
    simp only [← hpair.1, ← hpair.2, String.toList_ofList]
    refine ⟨fun hmem => by simpa using mem_takeWhile_imp hmem, ?_⟩
    have hne : s.toList.dropWhile (· ≠ c) ≠ [] := by
      rw [ne_eq, dropWhile_eq_nil_iff]
      intro hall
      simpa using hall c hc
    have hhead : (s.toList.dropWhile (· ≠ c)).head hne = c := by simpa using head_dropWhile_not (fun x => decide (x ≠ c)) hne
    have hcons := cons_head_tail hne
    rw [hhead] at hcons
    rw [drop_one, hcons, takeWhile_append_dropWhile]
  · rintro ⟨hnot, hs⟩
    have ha : ∀ x ∈ a.toList, decide (x ≠ c) = true := by
      intro x hx
      rw [decide_eq_true_eq]
      rintro rfl
      exact hnot hx
    rw [hs, takeWhile_append_of_pos ha, dropWhile_append_of_pos ha, dropWhile_cons_of_neg (by simp)]
    simp

def afterLast (c : Char) (s : String) : String := ((splitChar c s).getLast?).getD ""

/-! ## Affixes -/

def startsWith (s p : String) : Bool := p.toList.isPrefixOf s.toList

def contains (s p : String) : Bool := s.toList.tails.any p.toList.isPrefixOf

def stripStart (s p : String) : Option String :=
  if startsWith s p then some (String.ofList (s.toList.drop p.toList.length)) else none

theorem startsWith_iff : startsWith s p = true ↔ ∃ rest, s = p ++ rest := by
  rw [startsWith, isPrefixOf_iff_prefix]
  apply Iff.intro
  · intro h
    obtain ⟨rest, hrest⟩ := h
    exact ⟨String.ofList rest, String.toList_inj.1 (by rw [String.toList_append, String.toList_ofList, hrest])⟩
  · intro h
    obtain ⟨rest, rfl⟩ := h
    exact ⟨rest.toList, by rw [String.toList_append]⟩

theorem stripStart_eq_some {r : String} : stripStart s p = some r ↔ s = p ++ r := by
  rw [stripStart]
  split_ifs with h
  · obtain ⟨rest, rfl⟩ := startsWith_iff.1 h
    rw [String.toList_append, drop_left, String.ofList_toList, Option.some.injEq, String.append_right_inj]
  · exact iff_of_false not_false fun hs => h (startsWith_iff.2 ⟨r, hs⟩)

theorem stripStart_eq_none : stripStart s p = none ↔ ¬∃ rest, s = p ++ rest := by
  rw [← startsWith_iff, stripStart]
  split_ifs with h <;> simp [h]

def stripEnd (s p : String) : Option String :=
  if p.toList.isSuffixOf s.toList then some (String.ofList (s.toList.take (s.toList.length - p.toList.length)))
  else none

theorem stripEnd_eq_some {r : String} : stripEnd s p = some r ↔ s = r ++ p := by
  rw [stripEnd, ← String.toList_inj, String.toList_append]
  split_ifs with h
  · obtain ⟨t, ht⟩ := isSuffixOf_iff_suffix.1 h
    rw [Option.some.injEq, ← String.toList_inj, ← ht]
    simp
  · simp only [false_iff]
    exact fun e => h (isSuffixOf_iff_suffix.2 ⟨r.toList, e.symm⟩)

theorem le_of_append_le (h : p ++ a ≤ p ++ b) : a ≤ b := by
  by_contra hlt
  have hlist := String.lt_iff_toList_lt.1 (not_le.1 hlt)
  apply not_le.2 _ h
  simp only [String.lt_iff_toList_lt, String.toList_append]
  exact append_left_lt hlist

def replaceFrom (find rep : List Char) : ℕ → List Char → List Char
  | _, [] => []
  | skip + 1, _ :: rest => replaceFrom find rep skip rest
  | 0, c :: rest =>
    if find.isPrefixOf (c :: rest) then rep ++ replaceFrom find rep (find.length - 1) rest
    else c :: replaceFrom find rep 0 rest

def replace (s find rep : String) : String :=
  if find = "" then String.ofList (rep.toList ++ s.toList.flatMap fun c => c :: rep.toList)
  else String.ofList (replaceFrom find.toList rep.toList 0 s.toList)

example : replace "aaab" "aa" "x" = "xab" ∧ replace "ab" "" "-" = "-a-b-" := by decide

def eqIgnoreAsciiCase (a b : String) : Bool := a.toList.map Char.toLower == b.toList.map Char.toLower

theorem eqIgnoreAsciiCase_refl (a : String) : eqIgnoreAsciiCase a a = true := by simp [eqIgnoreAsciiCase]

theorem eqIgnoreAsciiCase_comm (a b : String) : eqIgnoreAsciiCase a b = eqIgnoreAsciiCase b a := by
  simp [eqIgnoreAsciiCase, Bool.beq_comm]

def isWhitespace (c : Char) : Bool := (9 ≤ c.toNat && c.toNat ≤ 13) || (0x2000 ≤ c.toNat && c.toNat ≤ 0x200A)
    || [0x20, 0x85, 0xA0, 0x1680, 0x2028, 0x2029, 0x202F, 0x205F, 0x3000].contains c.toNat

def trim (s : String) : String := String.ofList (((s.toList.dropWhile isWhitespace).reverse.dropWhile isWhitespace).reverse)

def toDigit (radix : ℕ) (c : Char) : Option ℕ :=
  let v := if '0' ≤ c ∧ c ≤ '9' then some (c.toNat - '0'.toNat)
    else if 'a' ≤ c ∧ c ≤ 'z' then some (c.toNat - 'a'.toNat + 10)
    else if 'A' ≤ c ∧ c ≤ 'Z' then some (c.toNat - 'A'.toNat + 10)
    else none
  v.filter (· < radix)

def digitsValue (radix : ℕ) (ds : List Char) : ℕ := ds.foldl (fun acc c => acc * radix + (toDigit radix c).getD 0) 0

def parseUnsigned (bound : ℕ) (s : String) : Option ℕ :=
  let ds := match s.toList with
    | '+' :: rest => rest
    | cs => cs
  if ds ≠ [] ∧ ds.all (fun c => (toDigit 10 c).isSome) ∧ digitsValue 10 ds < bound then some (digitsValue 10 ds)
  else none

theorem isDigit_of_mem_repr {n : ℕ} (h : c ∈ n.repr.toList) : c.isDigit = true := by
  rw [Nat.repr, String.toList_ofList] at h
  exact Nat.isDigit_of_mem_toDigits (by decide) (by decide) h

theorem notMem_toString_int (hdigit : c.isDigit = false) (hsign : c ≠ '-') (p : ℤ) : c ∉ (toString p).toList := by
  intro h
  have hrepr : ∀ n : ℕ, c ∉ n.repr.toList := by
    intro n hn
    rw [isDigit_of_mem_repr hn] at hdigit
    cases hdigit
  rw [Int.toString_eq_repr, Int.repr_eq_if] at h
  split_ifs at h with hp
  · exact hrepr _ h
  · rw [String.toList_append, mem_append] at h
    rcases h with h | h
    · exact hsign (by simpa using h)
    · exact hrepr _ h

example : parseUnsigned 65536 "8443" = some 8443 ∧ parseUnsigned 65536 "70000" = none := by decide

end SunbeamProxy.Text
