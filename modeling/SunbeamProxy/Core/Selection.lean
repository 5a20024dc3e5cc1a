/-
Picking the first of the best, over arbitrary types.
-/
import SunbeamProxy.Core.Collections

namespace SunbeamProxy

open List

section Definition

variable {α : Type} (before : α → α → Bool) (p : α → Bool)

def better : Option α → Option α → Option α
  | none, b => b
  | some a, none => some a
  | some a, some b => if before a b then some a else some b

def firstBest : List α → Option α
  | [] => none
  | a :: l => better before (if p a then some a else none) (firstBest l)

variable {before p}

theorem better_mem {x y : Option α} {a : α} (h : better before x y = some a) : x = some a ∨ y = some a := by
  cases x with
  | none => exact .inr h
  | some b =>
    cases y with
    | none => exact .inl h
    | some c =>
      simp only [better] at h
      split_ifs at h
      · exact .inl h
      · exact .inr h

variable {l : List α}

theorem firstBest_cons_of_not {a : α} (h : p a = false) : firstBest before p (a :: l) = firstBest before p l := by
  simp [firstBest, h, better]

theorem firstBest_eq_none_iff : firstBest before p l = none ↔ ∀ a ∈ l, p a = false := by
  induction l with
  | nil => simp [firstBest]
  | cons a l ih =>
    by_cases ha : p a = true
    · have hsome : firstBest before p (a :: l) ≠ none := by
        rw [firstBest, if_pos ha]
        cases firstBest before p l with
        | none => simp [better]
        | some b =>
          simp only [better]
          split_ifs <;> simp
      simp [hsome, ha]
    · have ha : p a = false := by simpa using ha
      rw [firstBest_cons_of_not ha, ih]
      simp [ha]

theorem firstBest_mem {x : α} (h : firstBest before p l = some x) : x ∈ l ∧ p x = true := by
  induction l with
  | nil => cases h
  | cons a l ih =>
    rcases better_mem h with ha | hl
    · split_ifs at ha with hp
      cases ha
      exact ⟨mem_cons_self .., hp⟩
    · exact ⟨mem_cons_of_mem _ (ih hl).1, (ih hl).2⟩

theorem firstBest_isSome_iff : (firstBest before p l).isSome ↔ ∃ a ∈ l, p a = true := by
  rw [Option.isSome_iff_ne_none, ne_eq, firstBest_eq_none_iff]
  simp

theorem firstBest_filter_test (l : List α) : firstBest before (fun _ => true) (l.filter p) = firstBest before p l := by
  induction l with
  | nil => rfl
  | cons a l ih =>
    cases hp : p a with
    | false => rw [filter_cons_of_neg (by simp [hp]), firstBest_cons_of_not hp, ih]
    | true => simp [filter_cons_of_pos hp, firstBest, ih, hp]

theorem firstBest_filter_and (c : α → Bool) (l : List α) :
    firstBest before p (l.filter c) = firstBest before (fun a => c a && p a) l := by
  rw [← firstBest_filter_test, ← firstBest_filter_test l, filter_filter]
  congr 1
  exact filter_congr fun a _ => Bool.and_comm _ _

theorem firstBest_test_congr {q : α → Bool} (h : ∀ a ∈ l, p a = q a) : firstBest before p l = firstBest before q l := by
  rw [← firstBest_filter_test, ← firstBest_filter_test l, filter_congr h]

theorem firstBest_congr {before' : α → α → Bool} (h : ∀ a b, p a = true → p b = true → before a b = before' a b)
    (l : List α) : firstBest before p l = firstBest before' p l := by
  induction l with
  | nil => rfl
  | cons a l ih =>
    cases hp : p a with
    | false => simp [firstBest_cons_of_not hp, ih]
    | true =>
      simp only [firstBest, ih, if_pos hp]
      cases hb : firstBest before' p l with
      | none => rfl
      | some b => simp [better, h a b hp (firstBest_mem hb).2]

theorem firstBest_map {β : Type} (f : β → α) (l : List β) :
    firstBest before p (l.map f) = (firstBest (fun a b => before (f a) (f b)) (fun a => p (f a)) l).map f := by
  induction l with
  | nil => rfl
  | cons a l ih =>
    simp only [map_cons, firstBest, ih]
    cases firstBest (fun a b => before (f a) (f b)) (fun a => p (f a)) l with
    | none => split_ifs <;> rfl
    | some b =>
      split_ifs
      · simp only [better, Option.map_some]
        split_ifs <;> rfl
      · rfl

theorem firstBest_append_cons {s t : List α} {x : α} (hx : p x = true)
    (hs : ∀ y ∈ s, p y = true → before y x = false) (ht : ∀ y ∈ t, p y = true → before x y = true) :
    firstBest before p (s ++ x :: t) = some x := by
  induction s with
  | nil =>
    rw [nil_append, firstBest, if_pos hx]
    cases hrest : firstBest before p t with
    | none => rfl
    | some b =>
      obtain ⟨hb, hpb⟩ := firstBest_mem hrest
      simp [better, ht b hb hpb]
  | cons a s ih =>
    have ih := ih fun y hy => hs y (mem_cons_of_mem _ hy)
    rw [cons_append, firstBest, ih]
    cases hp : p a with
    | false => rfl
    | true => simp [better, hs a (mem_cons_self ..) hp]

theorem firstBest_split {x : α} (h : firstBest before p l = some x) :
    ∃ s t, l = s ++ x :: t ∧ ∀ y ∈ s, p y = true → before y x = false := by
  induction l with
  | nil => cases h
  | cons a l ih =>
    rcases better_mem h with ha | hl
    · split_ifs at ha with hp
      cases ha
      exact ⟨[], l, rfl, by simp⟩
    · obtain ⟨s, t, hsplit, hs⟩ := ih hl
      cases hp : p a with
      | false =>
        refine ⟨a :: s, t, by rw [hsplit]; rfl, fun y hy hpy => ?_⟩
        rcases mem_cons.1 hy with rfl | hy
        · rw [hp] at hpy
          cases hpy
        · exact hs y hy hpy
      | true =>
        rw [firstBest, if_pos hp, hl, better] at h
        split_ifs at h with hax
        · cases h
          exact ⟨[], l, rfl, by simp⟩
        · refine ⟨a :: s, t, by rw [hsplit]; rfl, fun y hy hpy => ?_⟩
          rcases mem_cons.1 hy with rfl | hy
          · simpa using hax
          · exact hs y hy hpy

end Definition

section Preorder

variable {α : Type} {before : α → α → Bool} {p : α → Bool}

theorem before_trans [IsTrans α fun a b => before a b = true] {a b c : α} (hab : before a b = true)
    (hbc : before b c = true) : before a c = true :=
  IsTrans.trans (r := fun a b => before a b = true) a b c hab hbc

theorem before_of_not [Std.Total fun a b => before a b = true] {a b : α} (h : before a b = false) : before b a = true := by
  rcases Std.Total.total (r := fun a b => before a b = true) a b with hab | hba
  · rw [h] at hab
    cases hab
  · exact hba

theorem before_refl [Std.Total fun a b => before a b = true] (a : α) : before a a = true := by
  cases h : before a a with
  | false => exact h.symm.trans (before_of_not h)
  | true => rfl

end Preorder

section TotalPreorder

variable {α : Type} {before : α → α → Bool} [Std.Total fun a b => before a b = true]
  [IsTrans α fun a b => before a b = true] {p : α → Bool}

omit [Std.Total fun a b => before a b = true] in
/-- inserting into a sorted list: the scan finds the new element unless something strictly better was there -/
theorem find?_orderedInsert (a : α) (l : List α) (hl : l.Pairwise fun a b => before a b = true) :
    (l.orderedInsert (fun a b => before a b = true) a).find? p = better before (if p a then some a else none) (l.find? p) := by
  induction l with
  | nil => by_cases hp : p a = true <;> simp [hp, better]
  | cons b l ih =>
    obtain ⟨hb, hl⟩ := pairwise_cons.1 hl
    rw [orderedInsert_cons]
    by_cases hab : before a b = true
    · rw [if_pos hab]
      by_cases hp : p a = true
      · rw [find?_cons_of_pos hp, if_pos hp]
        -- whatever the old list offers stands at or behind `b`
        cases hfind : (b :: l).find? p with
        | none => rfl
        | some c =>
          have hac : before a c = true := by
            rcases mem_cons.1 (mem_of_find?_eq_some hfind) with rfl | hc
            · exact hab
            · exact before_trans hab (hb c hc)
          simp [better, hac]
      · rw [find?_cons_of_neg hp, if_neg hp]
        rfl
    · rw [if_neg hab]
      by_cases hpb : p b = true
      · simp only [find?_cons_of_pos hpb]
        by_cases hp : p a = true <;> simp [hp, better, hab]
      · simp [find?_cons_of_neg hpb, ih hl]

/-- **Sort and scan.** The first match of the sorted list is the first of the best matches of the list. -/
theorem find?_stableSort_eq (l : List α) : (stableSort before l).find? p = firstBest before p l := by
  induction l with
  | nil => rfl
  | cons a l ih =>
    have hsorted : (stableSort before l).Pairwise fun a b => before a b = true := stableSort_pairwise l
    rw [firstBest, ← ih, ← find?_orderedInsert a _ hsorted]
    rfl

/-! ## The first of the best -/

theorem firstBest_le {l : List α} {x : α} (h : firstBest before p l = some x) : ∀ y ∈ l, p y = true → before x y = true := by
  induction l generalizing x with
  | nil => cases h
  | cons a l ih =>
    intro y hy hpy
    cases hp : p a with
    | false =>
      rw [firstBest_cons_of_not hp] at h
      rcases mem_cons.1 hy with rfl | hy
      · rw [hp] at hpy
        cases hpy
      · exact ih h y hy hpy
    | true =>
      rw [firstBest, if_pos hp] at h
      cases hrest : firstBest before p l with
      | none =>
        rw [hrest] at h
        cases h
        rcases mem_cons.1 hy with rfl | hy
        · exact before_refl y
        · rw [firstBest_eq_none_iff.1 hrest y hy] at hpy
          cases hpy
      | some b =>
        rw [hrest, better] at h
        split_ifs at h with hab
        · cases h
          rcases mem_cons.1 hy with rfl | hy
          · exact before_refl y
          · exact before_trans hab (ih hrest y hy hpy)
        · cases h
          rcases mem_cons.1 hy with rfl | hy
          · exact before_of_not (by simpa using hab)
          · exact ih hrest y hy hpy

theorem firstBest_filter {l : List α} {x : α} {c : α → Bool} (h : firstBest before p l = some x) (hc : c x = true) :
    firstBest before p (l.filter c) = some x := by
  have hbest := firstBest_le h
  have hpx := (firstBest_mem h).2
  obtain ⟨s, t, rfl, hs⟩ := firstBest_split h
  rw [filter_append, filter_cons_of_pos hc]
  refine firstBest_append_cons hpx (fun y hy => hs y (mem_filter.1 hy).1) fun y hy => hbest y ?_
  exact mem_append_right _ (mem_cons_of_mem _ (mem_filter.1 hy).1)

theorem better_assoc (x y z : Option α) : better before (better before x y) z = better before x (better before y z) := by
  cases x with
  | none => rfl
  | some a =>
    cases y with
    | none => rfl
    | some b =>
      cases z with
      | none => cases hab : before a b <;> simp [better, hab]
      | some c =>
        cases hab : before a b with
        | true =>
          cases hbc : before b c with
          | true => simp [better, hab, hbc, before_trans hab hbc]
          | false => simp [better, hab, hbc]
        | false =>
          cases hbc : before b c with
          | true => simp [better, hab, hbc]
          | false =>
            -- `a` is behind `b`, so it is behind what is before `b`
            have hac : before a c = false := by
              by_contra h
              rw [Bool.not_eq_false] at h
              rw [before_trans h (before_of_not hbc)] at hab
              cases hab
            simp [better, hab, hbc, hac]

theorem firstBest_append (s t : List α) :
    firstBest before p (s ++ t) = better before (firstBest before p s) (firstBest before p t) := by
  induction s with
  | nil => rfl
  | cons a s ih => simp [firstBest, ih, better_assoc]

theorem firstBest_flatMap_congr {κ : Type} {f g : κ → List α} {ks : List κ}
    (h : ∀ k ∈ ks, firstBest before p (f k) = firstBest before p (g k)) :
    firstBest before p (ks.flatMap f) = firstBest before p (ks.flatMap g) := by
  induction ks with
  | nil => rfl
  | cons k ks ih =>
    rw [forall_mem_cons] at h
    simp [firstBest_append, h.1, ih h.2]

theorem firstBest_stableSort (l : List α) : firstBest before p (stableSort before l) = firstBest before p l := by
  have hsorted : (stableSort before l).Pairwise fun a b => before a b = true := stableSort_pairwise l
  rw [← find?_stableSort_eq, ← find?_stableSort_eq l]
  exact congrArg _ (Pairwise.insertionSort_eq hsorted)

end TotalPreorder

section Minimum

variable {α κ : Type} [LinearOrder κ] {key : α → κ}

def minByKey (key : α → κ) (l : List α) : Option α := firstBest (fun a b => decide (key a ≤ key b)) (fun _ => true) l

instance keyLe_total (key : α → κ) : Std.Total fun a b => decide (key a ≤ key b) = true where
  total a b := by simpa using le_total (key a) (key b)

instance keyLe_trans (key : α → κ) : IsTrans α fun a b => decide (key a ≤ key b) = true where
  trans a b c hab hbc := by
    simp only [decide_eq_true_eq] at hab hbc ⊢
    exact hab.trans hbc

theorem minByKey_mem {l : List α} {x : α} (h : minByKey key l = some x) : x ∈ l := (firstBest_mem h).1

theorem minByKey_le {l : List α} {x : α} (h : minByKey key l = some x) {y : α} (hy : y ∈ l) : key x ≤ key y := by
  simpa using firstBest_le h y hy rfl

end Minimum

/-! ## Maxima -/

theorem foldl_max_eq (l : List ℕ) (a : ℕ) : l.foldl max a = max a (maxOf l) := by
  induction l generalizing a with
  | nil => simp [maxOf]
  | cons b l ih =>
    rw [foldl_cons, maxOf, foldl_cons, ih, ih (max 0 b)]
    omega

theorem maxOf_cons (a : ℕ) (l : List ℕ) : maxOf (a :: l) = max a (maxOf l) := by
  rw [maxOf, foldl_cons, foldl_max_eq]
  omega

theorem le_maxOf {l : List ℕ} {n : ℕ} (h : n ∈ l) : n ≤ maxOf l := by
  induction l with
  | nil => cases h
  | cons a l ih =>
    rw [maxOf_cons]
    rcases mem_cons.1 h with rfl | h
    · omega
    · have := ih h
      omega

theorem maxOf_mem {l : List ℕ} (h : l ≠ []) : maxOf l ∈ l := by
  induction l with
  | nil => exact absurd rfl h
  | cons a l ih =>
    rw [maxOf_cons]
    cases l with
    | nil => simp [maxOf]
    | cons b l =>
      rcases max_cases a (maxOf (b :: l)) with ⟨he, -⟩ | ⟨he, -⟩
      · rw [he]
        exact mem_cons_self ..
      · rw [he]
        exact mem_cons_of_mem _ (ih (by simp))

theorem maxOf_map_eq {α : Type} {score : α → ℕ} {l : List α} {x : α} (hx : x ∈ l)
    (hle : ∀ y ∈ l, score y ≤ score x) : maxOf (l.map score) = score x := by
  have hmem := mem_map_of_mem (f := score) hx
  obtain ⟨y, hy, he⟩ := mem_map.1 (maxOf_mem (ne_nil_of_mem hmem))
  refine le_antisymm ?_ (le_maxOf hmem)
  rw [← he]
  exact hle y hy

def scoreBefore {α : Type} (s₁ s₂ : α → ℕ) (a b : α) : Bool :=
  decide (s₁ b < s₁ a) || (s₁ a == s₁ b && decide (s₂ b ≤ s₂ a))

theorem scoreBefore_iff {α : Type} {s₁ s₂ : α → ℕ} {a b : α} :
    scoreBefore s₁ s₂ a b = true ↔ s₁ b < s₁ a ∨ (s₁ a = s₁ b ∧ s₂ b ≤ s₂ a) := by
  simp [scoreBefore]

instance {α : Type} (s₁ s₂ : α → ℕ) : Std.Total fun a b => scoreBefore s₁ s₂ a b = true where
  total a b := by
    simp only [scoreBefore_iff]
    omega

instance {α : Type} (s₁ s₂ : α → ℕ) : IsTrans α fun a b => scoreBefore s₁ s₂ a b = true where
  trans a b c hab hbc := by
    simp only [scoreBefore_iff] at hab hbc ⊢
    omega

theorem find?_maxima_eq {α : Type} (s₁ s₂ : α → ℕ) (l : List α) : ((l.filter fun a => s₁ a = maxOf (l.map s₁)).find? fun a =>
        s₂ a = maxOf ((l.filter fun a => s₁ a = maxOf (l.map s₁)).map s₂))
      = firstBest (scoreBefore s₁ s₂) (fun _ => true) l := by
  cases hpick : firstBest (scoreBefore s₁ s₂) (fun _ => true) l with
  | none =>
    have hnil := eq_nil_iff_forall_not_mem.2 fun a ha => by
      have := firstBest_eq_none_iff.1 hpick a ha
      cases this
    rw [hnil]
    rfl
  | some x =>
    have hbest := fun y hy => scoreBefore_iff.1 (firstBest_le hpick y hy rfl)
    have hm₁ : maxOf (l.map s₁) = s₁ x := by
      refine maxOf_map_eq (firstBest_mem hpick).1 fun y hy => ?_
      have := hbest y hy
      omega
    rw [hm₁]
    have hkept := firstBest_filter (c := fun a => decide (s₁ a = s₁ x)) hpick (by simp)
    have hm₂ : maxOf ((l.filter fun a => s₁ a = s₁ x).map s₂) = s₂ x := by
      refine maxOf_map_eq (firstBest_mem hkept).1 fun y hy => ?_
      obtain ⟨hy, he⟩ := mem_filter.1 hy
      have he : s₁ y = s₁ x := by simpa using he
      have := hbest y hy
      omega
    rw [hm₂]
    obtain ⟨s, t, hsplit, hs⟩ := firstBest_split hkept
    -- everything before the pick has the same first score and a smaller second one
    have hnone : s.find? (fun a => s₂ a = s₂ x) = none := by
      refine find?_eq_none.2 fun y hy => ?_
      have hlt := hs y hy rfl
      have he : s₁ y = s₁ x := by
        have hmem : y ∈ l.filter fun a => s₁ a = s₁ x := by rw [hsplit]; simp [hy]
        simpa using (mem_filter.1 hmem).2
      rw [← Bool.not_eq_true, scoreBefore_iff] at hlt
      simp only [decide_eq_true_eq]
      omega
    rw [hsplit, find?_append, hnone, Option.none_or, find?_cons_of_pos (by simp)]

theorem find?_maximum_iff {α : Type} {c p : α → Bool} {score : α → ℕ} {l : List α} {x : α} :
    ((l.filter c).filter fun a => score a = maxOf ((l.filter c).map score)).find? p = some x ↔
      ∃ s t, l = s ++ x :: t ∧ c x = true ∧ p x = true ∧ (∀ y ∈ l, c y = true → score y ≤ score x)
        ∧ ∀ y ∈ s, c y = true → score y = score x → p y = false := by
  simp only [find?_filter, find?_eq_some_iff_append]
  constructor
  · rintro ⟨hx, s, t, hl, hs⟩
    simp only [decide_eq_true_eq] at hx
    obtain ⟨hc, hscore, hp⟩ := hx
    refine ⟨s, t, hl, hc, hp, fun y hy hcy => ?_, fun y hy hcy he => ?_⟩
    · rw [hscore]
      exact le_maxOf (mem_map_of_mem (mem_filter.2 ⟨hy, hcy⟩))
    · simpa [hcy, he, hscore] using hs y hy
  · rintro ⟨s, t, hl, hc, hp, hbest, hs⟩
    have hmax : maxOf ((l.filter c).map score) = score x := by
      have hx : x ∈ l.filter c := mem_filter.2 ⟨by rw [hl]; simp, hc⟩
      exact maxOf_map_eq hx fun y hy => hbest y (mem_filter.1 hy).1 (mem_filter.1 hy).2
    refine ⟨by simp [hc, hp, hmax], s, t, hl, fun y hy => ?_⟩
    rw [hmax]
    cases hcy : c y with
    | false => simp
    | true =>
      by_cases he : score y = score x
      · simp [hs y hy hcy he]
      · simp [he]

section Related

variable {α β : Type} {R : α → β → Prop} {before : α → α → Bool} {before' : β → β → Bool} {p : α → Bool} {p' : β → Bool}

variable {x' : Option β} {x : Option α}

theorem better_rel (hbefore : ∀ a b a' b', R a a' → R b b' → before a b = before' a' b') {y : Option α}
    {y' : Option β} (hx : Option.Rel R x x') (hy : Option.Rel R y y') :
    Option.Rel R (better before x y) (better before' x' y') := by
  cases hx with
  | none => exact hy
  | some ha =>
    cases hy with
    | none => exact .some ha
    | some hb =>
      simp only [better, hbefore _ _ _ _ ha hb]
      split_ifs
      · exact .some ha
      · exact .some hb

variable {l' : List β} {l : List α}

theorem firstBest_rel (hbefore : ∀ a b a' b', R a a' → R b b' → before a b = before' a' b')
    (hp : ∀ a a', R a a' → p a = p' a') (h : Forall₂ R l l') :
    Option.Rel R (firstBest before p l) (firstBest before' p' l') := by
  induction h with
  | nil => exact .none
  | @cons a a' l l' ha _ ih =>
    refine better_rel hbefore ?_ ih
    rw [hp _ _ ha]
    split_ifs
    · exact .some ha
    · exact .none

theorem getLast?_rel (h : Forall₂ R l l') : Option.Rel R l.getLast? l'.getLast? := by
  induction h with
  | nil => exact .none
  | @cons a a' l l' ha _ ih =>
    simp only [getLast?_cons]
    generalize l.getLast? = x at ih ⊢
    generalize l'.getLast? = x' at ih ⊢
    cases ih with
    | none => exact .some ha
    | some hx => exact .some hx

theorem orderedInsert_rel (hbefore : ∀ a b a' b', R a a' → R b b' → before a b = before' a' b') {a : α} {a' : β}
    (ha : R a a') (h : Forall₂ R l l') :
    Forall₂ R (l.orderedInsert (fun a b => before a b = true) a) (l'.orderedInsert (fun a b => before' a b = true) a') := by
  induction h with
  | nil => exact .cons ha .nil
  | @cons b b' l l' hb hl ih =>
    simp only [orderedInsert_cons, hbefore _ _ _ _ ha hb]
    split_ifs
    · exact .cons ha (.cons hb hl)
    · exact .cons hb ih

theorem stableSort_rel (hbefore : ∀ a b a' b', R a a' → R b b' → before a b = before' a' b')
    (h : Forall₂ R l l') : Forall₂ R (stableSort before l) (stableSort before' l') := by
  induction h with
  | nil => exact .nil
  | cons ha _ ih => exact orderedInsert_rel hbefore ha ih

end Related

end SunbeamProxy
