/-
A value kept beside the key it was computed for, and computed again only when the key changes.
-/
import Mathlib.Data.List.Chain

namespace SunbeamProxy

open List

variable {K A : Type} [DecidableEq K]

def keep (s : Option K × A) (x : K × A) : Option K × A := (some x.1, if s.1 = some x.1 then s.2 else x.2)

/-- the kept value is, after every turn, as good as the value of that turn -/
def Current (R : A → A → Prop) (s : Option K × A) (xs : List (K × A)) : Prop :=
  ∀ pre x post, xs = pre ++ x :: post → R ((pre ++ [x]).foldl keep s).2 x.2

variable {R : A → A → Prop} {s : Option K × A}

theorem current_concat_iff (xs : List (K × A)) (x : K × A) :
    Current R s (xs ++ [x]) ↔ Current R s xs ∧ R ((xs ++ [x]).foldl keep s).2 x.2 := by
  apply Iff.intro
  · intro h
    refine ⟨?_, h xs x [] rfl⟩
    intro pre y post hxs
    exact h pre y (post ++ [x]) (by rw [hxs, append_assoc, cons_append])
  · intro h pre y post hxs
    rcases eq_nil_or_concat' post with rfl | ⟨post', z, rfl⟩
    · obtain ⟨rfl, hx⟩ := append_inj' hxs rfl
      cases hx
      exact h.2
    · refine h.1 pre y post' ?_
      have hsplit : xs ++ [x] = (pre ++ y :: post') ++ [z] := by rw [hxs, append_assoc, cons_append]
      exact (append_inj' hsplit rfl).1

/-- **A kept value.** It is current after every turn exactly when, from one turn to the next, the value stays as good while the
key stays. -/
theorem kept_current_iff (hR : Equivalence R) (a : A) (xs : List (K × A)) :
    Current R (none, a) xs ↔ xs.IsChain fun x y => x.1 = y.1 → R x.2 y.2 := by
  induction xs using reverseRecOn with
  | nil =>
    refine ⟨fun _ => .nil, fun _ pre x post h => ?_⟩
    cases pre <;> cases h
  | append_singleton xs x ih =>
    rw [current_concat_iff, isChain_append, ih]
    refine and_congr_right fun hchain => ?_
    have hcurrent := ih.2 hchain
    rw [foldl_append, foldl_cons]
    -- what is kept before the last turn is as good as the value of the turn before
    rcases eq_nil_or_concat' xs with rfl | ⟨ys, y, rfl⟩
    · simp [keep, hR.refl]
    · have hbefore := (current_concat_iff ys y).1 hcurrent |>.2
      have hkey : ((ys ++ [y]).foldl keep (none, a)).1 = some y.1 := by rw [foldl_append, foldl_cons, foldl_nil, keep]
      simp only [keep, hkey, Option.some.injEq, getLast?_append, getLast?_singleton, Option.some_or,
        Option.mem_def, forall_eq', head?_cons, isChain_singleton, true_and]
      by_cases heq : y.1 = x.1
      · rw [if_pos heq]
        refine ⟨fun h _ => hR.trans (hR.symm hbefore) h, fun h => hR.trans hbefore (h heq)⟩
      · rw [if_neg heq]
        exact ⟨fun _ h => absurd h heq, fun _ => hR.refl _⟩

end SunbeamProxy
