/-
Items placed one after the other: each is judged against those placed so far, and is placed unless it is refused.
-/
import Mathlib.Data.List.Pairwise
import Mathlib.Data.List.Nodup

namespace SunbeamProxy

open List

variable {α β ρ : Type}

def placed (verdict : List α → α → Option ρ) (kept : List α) : List α → List α
  | [] => []
  | x :: xs =>
    match verdict kept x with
    | some _ => placed verdict kept xs
    | none => x :: placed verdict (kept ++ [x]) xs

def refusals (verdict : List α → α → Option ρ) (kept : List α) : List α → List (α × ρ)
  | [] => []
  | x :: xs =>
    match verdict kept x with
    | some r => (x, r) :: refusals verdict kept xs
    | none => refusals verdict (kept ++ [x]) xs

section Pass

variable {verdict : List α → α → Option ρ}

theorem placed_append (kept xs ys : List α) :
    placed verdict kept (xs ++ ys) = placed verdict kept xs ++ placed verdict (kept ++ placed verdict kept xs) ys := by
  induction xs generalizing kept with
  | nil => simp [placed]
  | cons x xs ih =>
    simp only [cons_append, placed]
    cases verdict kept x with
    | some r => exact ih kept
    | none =>
      dsimp only
      rw [ih, cons_append, append_assoc, singleton_append]

theorem refusals_append (kept xs ys : List α) : refusals verdict kept (xs ++ ys)
      = refusals verdict kept xs ++ refusals verdict (kept ++ placed verdict kept xs) ys := by
  induction xs generalizing kept with
  | nil => simp [placed, refusals]
  | cons x xs ih =>
    simp only [cons_append, refusals, placed]
    cases verdict kept x with
    | some r => exact congrArg _ (ih kept)
    | none =>
      dsimp only
      rw [ih, append_assoc, singleton_append]

theorem placed_sublist (kept xs : List α) : (placed verdict kept xs).Sublist xs := by
  induction xs generalizing kept with
  | nil => exact .refl _
  | cons x xs ih =>
    rw [placed]
    cases verdict kept x with
    | some r => exact (ih kept).cons x
    | none => exact (ih (kept ++ [x])).cons_cons x

variable {kept xs : List α}

theorem mem_refusals_iff {x : α} {r : ρ} : (x, r) ∈ refusals verdict kept xs
      ↔ ∃ pre post, xs = pre ++ x :: post ∧ verdict (kept ++ placed verdict kept pre) x = some r := by
  apply Iff.intro
  · intro h
    induction xs generalizing kept with
    | nil => cases h
    | cons y ys ih =>
      rw [refusals] at h
      cases hy : verdict kept y with
      | some s =>
        simp only [hy] at h
        rcases mem_cons.1 h with h | h
        · cases h
          exact ⟨[], ys, rfl, by simpa [placed] using hy⟩
        · obtain ⟨pre, post, rfl, hv⟩ := ih h
          exact ⟨y :: pre, post, rfl, by simpa [placed, hy] using hv⟩
      | none =>
        simp only [hy] at h
        obtain ⟨pre, post, rfl, hv⟩ := ih h
        exact ⟨y :: pre, post, rfl, by simpa [placed, hy] using hv⟩
  · rintro ⟨pre, post, rfl, hv⟩
    rw [refusals_append, refusals, hv]
    exact mem_append_right _ mem_cons_self

theorem mem_of_mem_refusals {x : α} {r : ρ} (h : (x, r) ∈ refusals verdict kept xs) : x ∈ xs := by
  obtain ⟨pre, post, rfl, -⟩ := mem_refusals_iff.1 h
  exact mem_append_right _ mem_cons_self

theorem filter_placed {p : α → Bool} (h : ∀ e ∈ refusals verdict kept xs, p e.1 = false) :
    (placed verdict kept xs).filter p = xs.filter p := by
  induction xs generalizing kept with
  | nil => rfl
  | cons x xs ih =>
    rw [refusals] at h
    rw [placed]
    cases hx : verdict kept x with
    | some r =>
      simp only [hx] at h
      rw [ih fun e he => h e (mem_cons_of_mem _ he), filter_cons_of_neg]
      rw [h _ mem_cons_self]
      exact Bool.false_ne_true
    | none =>
      simp only [hx] at h
      simp [filter_cons, ih h]

theorem mem_placed_or_refusals {x : α} (hx : x ∈ xs) : x ∈ placed verdict kept xs ∨ ∃ r, (x, r) ∈ refusals verdict kept xs := by
  obtain ⟨pre, post, rfl⟩ := append_of_mem hx
  cases hv : verdict (kept ++ placed verdict kept pre) x with
  | some r => exact .inr ⟨r, mem_refusals_iff.2 ⟨pre, post, rfl, hv⟩⟩
  | none =>
    left
    rw [placed_append, placed, hv]
    exact mem_append_right _ mem_cons_self

theorem not_mem_refusals (hxs : xs.Nodup) {x : α} (hx : x ∈ placed verdict kept xs) (r : ρ) :
    (x, r) ∉ refusals verdict kept xs := by
  intro h
  obtain ⟨pre, post, rfl, hv⟩ := mem_refusals_iff.1 h
  rw [placed_append, placed, hv] at hx
  have hfresh := nodup_middle.1 hxs
  rw [nodup_cons, mem_append, not_or] at hfresh
  rcases mem_append.1 hx with hx | hx
  · exact hfresh.1.1 ((placed_sublist _ _).subset hx)
  · exact hfresh.1.2 ((placed_sublist _ _).subset hx)

theorem refusals_filter {p : α → Bool} (h : ∀ x ∈ xs, p x = false → ∀ kept, (verdict kept x).isSome) (kept : List α) :
    refusals verdict kept (xs.filter p) = (refusals verdict kept xs).filter fun e => p e.1 := by
  induction xs generalizing kept with
  | nil => rfl
  | cons x xs ih =>
    rw [forall_mem_cons] at h
    cases hp : p x with
    | false =>
      obtain ⟨r, hr⟩ := Option.isSome_iff_exists.1 (h.1 hp kept)
      rw [filter_cons_of_neg (by simp [hp]), refusals, hr]
      rw [filter_cons_of_neg (by simp [hp]), ih h.2]
    | true =>
      simp only [filter_cons_of_pos hp, refusals]
      cases verdict kept x with
      | none => exact ih h.2 (kept ++ [x])
      | some r => rw [filter_cons_of_pos (by exact hp), ih h.2]

end Pass

section Transfer

variable {verdict : List α → α → Option ρ} {verdict' : List β → β → Option ρ} {f : α → β}

theorem refusals_map (h : ∀ kept x, verdict' (kept.map f) (f x) = verdict kept x) (kept xs : List α) :
    refusals verdict' (kept.map f) (xs.map f) = (refusals verdict kept xs).map fun e => (f e.1, e.2) := by
  induction xs generalizing kept with
  | nil => rfl
  | cons x xs ih =>
    simp only [map_cons, refusals, h kept x]
    cases verdict kept x with
    | some r => exact congrArg _ (ih kept)
    | none =>
      have hih := ih (kept ++ [x])
      rw [map_append] at hih
      exact hih

theorem refusals_perm {kept kept' : List α} (hperm : kept.Perm kept')
    (h : ∀ kept kept' : List α, kept.Perm kept' → ∀ x, (verdict kept x).isSome = (verdict kept' x).isSome) (xs : List α) :
    (refusals verdict kept xs).map (·.1) = (refusals verdict kept' xs).map (·.1) := by
  induction xs generalizing kept kept' with
  | nil => rfl
  | cons x xs ih =>
    have hx := h kept kept' hperm x
    simp only [refusals]
    cases hv : verdict kept x <;> cases hv' : verdict kept' x
    · exact ih (hperm.append_right [x])
    · rw [hv, hv'] at hx
      cases hx
    · rw [hv, hv'] at hx
      cases hx
    · simp [ih hperm]

end Transfer

def judge (refuses : α → Option ρ) (blocks : α → α → Bool) (reason : α → α → ρ) (kept : List α) (x : α) : Option ρ :=
  (refuses x).or ((kept.find? (blocks · x)).map (reason · x))

section Judge

variable {refuses : α → Option ρ} {blocks : α → α → Bool} {reason : α → α → ρ}

variable {kept : List α}

theorem judge_isSome_iff {x : α} :
    (judge refuses blocks reason kept x).isSome ↔ (refuses x).isSome ∨ ∃ y ∈ kept, blocks y x = true := by
  rw [judge, Option.isSome_or, Bool.or_eq_true, Option.isSome_map, find?_isSome]

theorem pairwise_placed (kept xs : List α) :
    (placed (judge refuses blocks reason) kept xs).Pairwise (fun y x => blocks y x = false)
      ∧ ∀ y ∈ kept, ∀ x ∈ placed (judge refuses blocks reason) kept xs, blocks y x = false := by
  induction xs generalizing kept with
  | nil => exact ⟨.nil, fun y _ x hx => (by cases hx)⟩
  | cons x xs ih =>
    rw [placed]
    cases hv : judge refuses blocks reason kept x with
    | some r => exact ih kept
    | none =>
      have hfree : ∀ y ∈ kept, blocks y x = false := by
        intro y hy
        refine Bool.eq_false_iff.2 fun hblocks => ?_
        have hsome : (judge refuses blocks reason kept x).isSome := judge_isSome_iff.2 (.inr ⟨y, hy, hblocks⟩)
        rw [hv] at hsome
        cases hsome
      obtain ⟨hpairs, hkept⟩ := ih (kept ++ [x])
      refine ⟨.cons (hkept x (mem_append_right _ (mem_singleton.2 rfl))) hpairs, ?_⟩
      intro y hy z hz
      rcases mem_cons.1 hz with rfl | hz
      · exact hfree y hy
      · exact hkept y (mem_append_left _ hy) z hz

theorem exists_blocker {xs : List α} {x : α} {r : ρ} (h : (x, r) ∈ refusals (judge refuses blocks reason) kept xs) :
    (refuses x).isSome ∨ (∃ y ∈ kept, blocks y x = true)
      ∨ ∃ pre post, xs = pre ++ x :: post ∧ ∃ y ∈ placed (judge refuses blocks reason) kept pre, blocks y x = true := by
  obtain ⟨pre, post, hxs, hv⟩ := mem_refusals_iff.1 h
  rcases judge_isSome_iff.1 (Option.isSome_iff_exists.2 ⟨r, hv⟩) with hx | ⟨y, hy, hblocks⟩
  · exact .inl hx
  · rcases mem_append.1 hy with hy | hy
    · exact .inr (.inl ⟨y, hy, hblocks⟩)
    · exact .inr (.inr ⟨pre, post, hxs, y, hy, hblocks⟩)

theorem judge_isSome_perm {kept' : List α} (hperm : kept.Perm kept') (x : α) :
    (judge refuses blocks reason kept x).isSome = (judge refuses blocks reason kept' x).isSome := by
  rw [Bool.eq_iff_iff, judge_isSome_iff, judge_isSome_iff]
  refine or_congr_right (exists_congr fun y => and_congr_left fun _ => ?_)
  exact hperm.mem_iff

end Judge

end SunbeamProxy
