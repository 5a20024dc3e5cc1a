/-
Writing a collection in the order of a key, over arbitrary types.
-/
import SunbeamProxy.Core.Selection

namespace SunbeamProxy

open List

section Order

variable {α κ β : Type} [LinearOrder κ]

def sortByKey (key : α → κ) (l : List α) : List α := stableSort (fun a b => decide (key a ≤ key b)) l

def inOrder (key : α → κ) (enc : α → List β) (l : List α) : List β := (sortByKey key l).flatMap enc

/-- elements with one key can be written in either order -/
def TiesAgree (key : α → κ) (enc : α → List β) (l : List α) : Prop :=
  l.Pairwise fun a b => key a = key b → enc a ++ enc b = enc b ++ enc a

/-- written the same after every change that the relation allows -/
def Stable {γ : Type} (R : γ → γ → Prop) (enc : γ → List β) (c : γ) : Prop := ∀ c', R c c' → enc c' = enc c

variable {key : α → κ} {enc : α → List β}

theorem sortByKey_perm (key : α → κ) (l : List α) : (sortByKey key l).Perm l := stableSort_perm _ l

theorem sortByKey_pairwise (l : List α) : (sortByKey key l).Pairwise fun a b => key a ≤ key b := by
  have hsorted := @stableSort_pairwise α (fun a b => decide (key a ≤ key b)) _ _ l
  exact hsorted.imp fun h => by simpa using h

variable {l l' : List α}

omit [LinearOrder κ] in
theorem tiesAgree_of_perm (h : TiesAgree key enc l) (hperm : l.Perm l') : TiesAgree key enc l' :=
  (hperm.pairwise_iff fun hab heq => (hab heq.symm).symm).1 h

/-! ## Insertion -/

def insertByKey (key : α → κ) (a : α) (l : List α) : List α := l.orderedInsert (fun a b => decide (key a ≤ key b) = true) a

theorem sortByKey_cons (a : α) (l : List α) : sortByKey key (a :: l) = insertByKey key a (sortByKey key l) := rfl

theorem insertByKey_cons_of_le {a b : α} (h : key a ≤ key b) (l : List α) : insertByKey key a (b :: l) = a :: b :: l := by
  rw [insertByKey, orderedInsert_cons, if_pos (by simpa using h)]

theorem insertByKey_cons_of_lt {a b : α} (h : key b < key a) (l : List α) :
    insertByKey key a (b :: l) = b :: insertByKey key a l := by
  rw [insertByKey, orderedInsert_cons, if_neg (by simpa using h)]
  rfl

theorem insertByKey_append {a : α} {s t : List α} (hs : ∀ x ∈ s, key x < key a) (ht : ∀ x ∈ t.head?, key a ≤ key x) :
    insertByKey key a (s ++ t) = s ++ a :: t := by
  induction s with
  | nil =>
    cases t with
    | nil => rfl
    | cons b t => exact insertByKey_cons_of_le (ht b rfl) t
  | cons b s ih =>
    simp [insertByKey_cons_of_lt (hs b (mem_cons_self ..)), ih fun x hx => hs x (mem_cons_of_mem _ hx)]

omit [LinearOrder κ] in
theorem sortByKey_const (l : List α) : sortByKey (fun _ => ()) l = l := by
  induction l with
  | nil => rfl
  | cons a l ih =>
    rw [sortByKey_cons, ih]
    cases l with
    | nil => rfl
    | cons b l => exact insertByKey_cons_of_le (le_refl ()) l

theorem exists_insertion_point (k : κ) (l : List α) : ∃ s t, l = s ++ t ∧ (∀ x ∈ s, key x < k) ∧ ∀ x ∈ t.head?, k ≤ key x := by
  induction l with
  | nil => exact ⟨[], [], rfl, by simp, by simp⟩
  | cons b l ih =>
    by_cases hb : key b < k
    · obtain ⟨s, t, hl, hs, ht⟩ := ih
      refine ⟨b :: s, t, by rw [hl]; rfl, ?_, ht⟩
      intro x hx
      rcases mem_cons.1 hx with rfl | hx
      · exact hb
      · exact hs x hx
    · exact ⟨[], b :: l, rfl, by simp, by simpa using hb⟩

theorem sortByKey_filter (p : α → Bool) (l : List α) : sortByKey key (l.filter p) = (sortByKey key l).filter p := by
  induction l with
  | nil => rfl
  | cons a l ih =>
    obtain ⟨s, t, hl, hs, ht⟩ := exists_insertion_point (key a) (sortByKey key l)
    have hsorted : (sortByKey key l).Pairwise fun a b => key a ≤ key b := sortByKey_pairwise l
    rw [sortByKey_cons, hl, insertByKey_append hs ht, filter_append]
    cases hp : p a with
    | false => rw [filter_cons_of_neg (by simp [hp]), filter_cons_of_neg (by simp [hp]), ih, hl, filter_append]
    | true =>
      simp only [filter_cons_of_pos hp, sortByKey_cons, ih, hl, filter_append]
      apply insertByKey_append
      · exact fun x hx => hs x (mem_of_mem_filter hx)
      · intro x hx
        have hx := mem_of_mem_filter (mem_of_mem_head? hx)
        rw [hl, pairwise_append] at hsorted
        cases t with
        | nil => cases hx
        | cons b t =>
          have hb := ht b rfl
          rcases mem_cons.1 hx with rfl | hx
          · exact hb
          · exact hb.trans (rel_of_pairwise_cons hsorted.2.1 hx)

theorem sortByKey_map {γ : Type} {key' : γ → κ} {f : α → γ} (h : ∀ a, key' (f a) = key a) (l : List α) :
    sortByKey key' (l.map f) = (sortByKey key l).map f := by
  refine (map_insertionSort (fun a b => decide (key a ≤ key b) = true)
    (fun a b => decide (key' a ≤ key' b) = true) f l fun a _ b _ => ?_).symm
  rw [h, h]

theorem insertByKey_around (x : α) {a a' : α} (hkey : key a' = key a) (s t : List α) :
    ∃ s' t', insertByKey key x (s ++ a :: t) = s' ++ a :: t' ∧ insertByKey key x (s ++ a' :: t) = s' ++ a' :: t' := by
  induction s with
  | nil =>
    by_cases h : key x ≤ key a
    · exact ⟨[x], t, insertByKey_cons_of_le h t, insertByKey_cons_of_le (hkey ▸ h) t⟩
    · have hlt := not_le.1 h
      exact ⟨[], insertByKey key x t, insertByKey_cons_of_lt hlt t, insertByKey_cons_of_lt (hkey ▸ hlt) t⟩
  | cons b s ih =>
    by_cases h : key x ≤ key b
    · exact ⟨x :: b :: s, t, insertByKey_cons_of_le h _, insertByKey_cons_of_le h _⟩
    · have hlt := not_le.1 h
      obtain ⟨s', t', hs, ht⟩ := ih
      refine ⟨b :: s', t', ?_, ?_⟩
      · simp [insertByKey_cons_of_lt hlt, hs]
      · simp [insertByKey_cons_of_lt hlt, ht]

theorem sortByKey_replace {a a' : α} (hkey : key a' = key a) (l₁ l₂ : List α) :
    ∃ s t, sortByKey key (l₁ ++ a :: l₂) = s ++ a :: t ∧ sortByKey key (l₁ ++ a' :: l₂) = s ++ a' :: t := by
  induction l₁ with
  | nil =>
    obtain ⟨s, t, hl, hs, ht⟩ := exists_insertion_point (key a) (sortByKey key l₂)
    refine ⟨s, t, ?_, ?_⟩
    · rw [nil_append, sortByKey_cons, hl, insertByKey_append hs ht]
    · rw [nil_append, sortByKey_cons, hl, insertByKey_append (hkey ▸ hs) (hkey ▸ ht)]
  | cons x l₁ ih =>
    obtain ⟨s, t, hs, ht⟩ := ih
    obtain ⟨s', t', hs', ht'⟩ := insertByKey_around x hkey s t
    refine ⟨s', t', ?_, ?_⟩
    · rw [cons_append, sortByKey_cons, hs, hs']
    · rw [cons_append, sortByKey_cons, ht, ht']

theorem sortByKey_pair {a b : α} (hkey : key a = key b) (l : List α) :
    ∃ s t, sortByKey key (a :: b :: l) = s ++ a :: b :: t ∧ sortByKey key (b :: a :: l) = s ++ b :: a :: t := by
  obtain ⟨s, t, hl, hs, ht⟩ := exists_insertion_point (key a) (sortByKey key l)
  have hs' := hkey ▸ hs
  have ht' := hkey ▸ ht
  refine ⟨s, t, ?_, ?_⟩
  · rw [sortByKey_cons, sortByKey_cons, hl, insertByKey_append hs' ht', insertByKey_append hs]
    intro x hx
    cases hx
    exact hkey.le
  · rw [sortByKey_cons, sortByKey_cons, hl, insertByKey_append hs ht, insertByKey_append hs']
    intro x hx
    cases hx
    exact hkey.ge

omit [LinearOrder κ] in
theorem flatMap_append_comm {u : List α} {x : α} (h : ∀ y ∈ u, enc y ++ enc x = enc x ++ enc y) :
    u.flatMap enc ++ enc x = enc x ++ u.flatMap enc := by
  induction u with
  | nil => simp
  | cons y u ih =>
    rw [flatMap_cons, append_assoc, ih fun z hz => h z (mem_cons_of_mem _ hz), ← append_assoc,
      h y (mem_cons_self ..), append_assoc]

theorem flatMap_eq_of_sorted {s t : List α} (hs : s.Pairwise fun a b => key a ≤ key b)
    (ht : t.Pairwise fun a b => key a ≤ key b) (hperm : s.Perm t) (hties : TiesAgree key enc s) :
    s.flatMap enc = t.flatMap enc := by
  induction s generalizing t with
  | nil => rw [nil_perm.1 hperm]
  | cons x s ih =>
    obtain ⟨u, v, rfl⟩ := append_of_mem (hperm.subset (mem_cons_self ..))
    have hrest := (hperm.trans perm_middle).cons_inv
    have hx := pairwise_cons.1 hs
    have hxties := pairwise_cons.1 hties
    -- what stands before `x` in the other list has its key
    have hcomm : ∀ y ∈ u, enc y ++ enc x = enc x ++ enc y := by
      intro y hy
      have hys := hrest.symm.subset (mem_append_left _ hy)
      have hle := (pairwise_append.1 ht).2.2 y hy x (mem_cons_self ..)
      exact (hxties.1 y hys (le_antisymm (hx.1 y hys) hle)).symm
    have huv := ht.sublist (Sublist.append_left (sublist_cons_self x v) u)
    simp [ih hx.2 huv hrest hxties.2, ← append_assoc, flatMap_append_comm hcomm]

theorem inOrder_eq_of_perm (hties : TiesAgree key enc l) (hperm : l.Perm l') : inOrder key enc l' = inOrder key enc l := by
  have hsorted := (sortByKey_perm key l).trans (hperm.trans (sortByKey_perm key l').symm)
  exact (flatMap_eq_of_sorted (sortByKey_pairwise l) (sortByKey_pairwise l') hsorted
    (tiesAgree_of_perm hties (sortByKey_perm key l).symm)).symm

theorem sortByKey_eq_of_perm (hkeys : (l.map key).Nodup) (hperm : l.Perm l') : sortByKey key l = sortByKey key l' := by
  have hties : TiesAgree key (fun a => [a]) l := (pairwise_map.1 hkeys).imp fun hne heq => absurd heq hne
  have hsorted := inOrder_eq_of_perm hties hperm
  simpa [inOrder] using hsorted.symm

/-- **Order does not matter** exactly when ties agree. -/
theorem inOrder_perm_iff (l : List α) : Stable Perm (inOrder key enc) l ↔ TiesAgree key enc l := by
  apply Iff.intro
  · intro h
    apply pairwise_iff_forall_sublist.2
    intro a b hsub hkey
    obtain ⟨rest, hrest⟩ := hsub.exists_perm_append
    have hab := h (a :: b :: rest) hrest
    have hba := h (b :: a :: rest) (hrest.trans (.swap b a rest))
    obtain ⟨s, t, hs, ht⟩ := sortByKey_pair hkey rest
    have heq := hab.trans hba.symm
    simp only [inOrder, hs, ht] at heq
    simp only [flatMap_append, flatMap_cons, ← append_assoc, append_cancel_right_eq] at heq
    simpa [append_cancel_left_eq] using heq
  · intro h l' hperm
    exact inOrder_eq_of_perm h hperm

/-! ## Elements that are rearranged inside -/

/-- the elements, each changed by the relation, in any order -/
def Shuffle (R : α → α → Prop) (l l' : List α) : Prop := ∃ m, List.Forall₂ R l m ∧ m.Perm l'

variable {R : α → α → Prop}

omit [LinearOrder κ] in
theorem Shuffle.refl (h : ∀ a, R a a) (l : List α) : Shuffle R l l := ⟨l, forall₂_same.2 fun a _ => h a, .refl l⟩

omit [LinearOrder κ] in
theorem Shuffle.length_eq (h : Shuffle R l l') : l.length = l'.length := by
  obtain ⟨m, hm, hperm⟩ := h
  rw [hm.length_eq, hperm.length_eq]

variable {m : List α}

omit [LinearOrder κ] in
theorem forall₂_written (h : Forall₂ R l m) (hkey : ∀ a a', R a a' → key a' = key a)
    (henc : ∀ a ∈ l, Stable R enc a) : Forall₂ (fun a a' => key a' = key a ∧ enc a' = enc a) l m := by
  induction h with
  | nil => exact .nil
  | @cons a a' l m ha _ ih =>
    refine .cons ⟨hkey a a' ha, henc a (mem_cons_self ..) a' ha⟩ (ih ?_)
    exact fun b hb => henc b (mem_cons_of_mem _ hb)

omit [LinearOrder κ] in
theorem flatMap_eq_of_written (h : Forall₂ (fun a a' => key a' = key a ∧ enc a' = enc a) l m) :
    m.flatMap enc = l.flatMap enc := by
  induction h with
  | nil => rfl
  | cons ha _ ih => simp [ha.2, ih]

theorem inOrder_eq_of_written (h : Forall₂ (fun a a' => key a' = key a ∧ enc a' = enc a) l m) :
    inOrder key enc m = inOrder key enc l := by
  have hsorted : Forall₂ (fun a a' => key a' = key a ∧ enc a' = enc a) (sortByKey key l) (sortByKey key m) := by
    apply stableSort_rel _ h
    intro a b a' b' ha hb
    rw [ha.1, hb.1]
  exact flatMap_eq_of_written hsorted

omit [LinearOrder κ] in
theorem tiesAgree_of_written (h : Forall₂ (fun a a' => key a' = key a ∧ enc a' = enc a) l m)
    (hties : TiesAgree key enc l) : TiesAgree key enc m := by
  induction h with
  | nil => exact hties
  | @cons a a' l m ha hrest ih =>
    have hcons := pairwise_cons.1 hties
    refine pairwise_cons.2 ⟨?_, ih hcons.2⟩
    intro b' hb' hkey
    obtain ⟨b, hb, hkeyb, hencb⟩ := exists_mem_of_forall₂ hrest hb'
    rw [ha.1, hkeyb] at hkey
    rw [ha.2, hencb]
    exact hcons.1 b hb hkey

theorem enc_eq_of_replace {a a' : α} (hkey : key a' = key a) {l₁ l₂ : List α}
    (h : inOrder key enc (l₁ ++ a' :: l₂) = inOrder key enc (l₁ ++ a :: l₂)) : enc a' = enc a := by
  obtain ⟨s, t, hs, ht⟩ := sortByKey_replace hkey l₁ l₂
  simp only [inOrder, hs, ht] at h
  simpa [append_cancel_left_eq, append_cancel_right_eq] using h

/-- **Rearrangement inside.** In the given order, each element has to be written the same. -/
theorem inOrder_forall₂_iff (hrefl : ∀ a, R a a) (hkey : ∀ a a', R a a' → key a' = key a) (l : List α) :
    Stable (Forall₂ R) (inOrder key enc) l ↔ ∀ a ∈ l, Stable R enc a := by
  apply Iff.intro
  · intro h a ha a' hr
    obtain ⟨l₁, l₂, rfl⟩ := append_of_mem ha
    apply enc_eq_of_replace (hkey a a' hr)
    apply h
    refine rel_append (forall₂_same.2 fun b _ => hrefl b) (.cons hr (forall₂_same.2 fun b _ => hrefl b))
  · intro h m hm
    exact inOrder_eq_of_written (forall₂_written hm hkey h)

/-- **Rearrangement inside and out.** Each element has to be written the same, and ties have to agree. -/
theorem inOrder_shuffle_iff (hrefl : ∀ a, R a a) (hkey : ∀ a a', R a a' → key a' = key a) (l : List α) :
    Stable (Shuffle R) (inOrder key enc) l ↔ (∀ a ∈ l, Stable R enc a) ∧ TiesAgree key enc l := by
  apply Iff.intro
  · intro h
    refine ⟨(inOrder_forall₂_iff hrefl hkey l).1 fun m hm => h m ⟨m, hm, .refl m⟩, ?_⟩
    apply (inOrder_perm_iff l).1
    exact fun l' hperm => h l' ⟨l, forall₂_same.2 fun a _ => hrefl a, hperm⟩
  · intro h l' hshuffle
    obtain ⟨m, hm, hperm⟩ := hshuffle
    have hwritten := forall₂_written hm hkey h.1
    rw [inOrder_eq_of_perm (tiesAgree_of_written hwritten h.2) hperm, inOrder_eq_of_written hwritten]

def sortOrder (key : α → κ) (l : List α) : List ℕ := (sortByKey (fun e : α × ℕ => key e.1) l.zipIdx).map (·.2)

theorem sortOrder_perm (key : α → κ) (l : List α) : (sortOrder key l).Perm (range l.length) := by
  rw [range_eq_range', ← zipIdx_map_snd 0 l]
  exact (sortByKey_perm _ l.zipIdx).map _

theorem length_sortOrder (key : α → κ) (l : List α) : (sortOrder key l).length = l.length := by
  rw [(sortOrder_perm key l).length_eq, length_range]

theorem length_eq_of_sortOrder (h : sortOrder key l = sortOrder key m) : l.length = m.length := by
  rw [← length_sortOrder key l, h, length_sortOrder]

theorem map_fst_sortByKey_zipIdx (key : α → κ) (l : List α) :
    (sortByKey (fun e : α × ℕ => key e.1) l.zipIdx).map (·.1) = sortByKey key l := by
  have hmap : sortByKey key (l.zipIdx.map (·.1)) = (sortByKey (fun e : α × ℕ => key e.1) l.zipIdx).map (·.1) :=
    sortByKey_map (fun _ => rfl) l.zipIdx
  rw [← hmap, zipIdx_map_fst]

theorem map_sortOrder (key : α → κ) (l : List α) : (sortOrder key l).map (fun i => l[i]?) = (sortByKey key l).map some := by
  simp only [sortOrder, ← map_fst_sortByKey_zipIdx key l, map_map]
  apply map_congr_left
  intro e he
  exact mem_zipIdx_iff_getElem?.1 ((sortByKey_perm _ _).subset he)

/-- **Reading a sorted list.** Where both lists are moved alike, the sorted lists are related exactly when the lists are. -/
theorem forall₂_sortByKey_iff {R : α → α → Prop} (h : sortOrder key l = sortOrder key m) :
    Forall₂ R (sortByKey key l) (sortByKey key m) ↔ Forall₂ R l m := by
  have hperm := sortOrder_perm key l
  have hlen := length_eq_of_sortOrder h
  calc Forall₂ R (sortByKey key l) (sortByKey key m)
      ↔ Forall₂ (Option.Rel R) ((sortByKey key l).map some) ((sortByKey key m).map some) := by
        simp [forall₂_map_left_iff, forall₂_map_right_iff, Option.rel_some_some]
    _ ↔ ∀ i ∈ sortOrder key l, Option.Rel R l[i]? m[i]? := by
        simp [← map_sortOrder, ← h, forall₂_map_left_iff, forall₂_map_right_iff, forall₂_same]
    _ ↔ ∀ i < l.length, Option.Rel R l[i]? m[i]? := by simp [hperm.mem_iff, mem_range]
    _ ↔ Forall₂ R l m := by
        rw [forall₂_iff_get, and_iff_right hlen]
        apply forall₂_congr
        intro i hi
        have hm := hlen ▸ hi
        rw [getElem?_eq_getElem hi, getElem?_eq_getElem hm, Option.rel_some_some]
        exact ⟨fun hr _ => hr, fun hr => hr hm⟩

end Order

end SunbeamProxy
