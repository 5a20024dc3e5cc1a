/-
Picking an index by weight, over lists of natural numbers.
-/
import Mathlib.Data.Nat.Count
import Mathlib.Data.Nat.Periodic
import Mathlib.Tactic

namespace SunbeamProxy.Weighted

open List

def pick : List ℕ → ℕ → Option ℕ
  | [], _ => none
  | w :: ws, n => if n < w then some 0 else (pick ws (n - w)).map (· + 1)

variable (ws : List ℕ)

theorem pick_cons_of_lt {w n : ℕ} (h : n < w) : pick (w :: ws) n = some 0 := if_pos h

theorem pick_cons_add (w n : ℕ) (ws : List ℕ) : pick (w :: ws) (w + n) = (pick ws n).map (· + 1) := by
  rw [pick, if_neg (by omega), Nat.add_sub_cancel_left]

theorem pick_isSome_iff (n : ℕ) : (pick ws n).isSome = true ↔ n < ws.sum := by
  induction ws generalizing n with
  | nil => simp [pick]
  | cons w ws ih =>
    rw [sum_cons]
    by_cases h : n < w
    · rw [pick_cons_of_lt ws h]
      exact iff_of_true rfl (by omega)
    · rw [pick, if_neg h, Option.isSome_map, ih]
      omega

theorem pos_of_pick {ws : List ℕ} {n i : ℕ} (h : pick ws n = some i) : ∃ w, ws[i]? = some w ∧ 0 < w := by
  induction ws generalizing n i with
  | nil => cases h
  | cons w ws ih =>
    rw [pick] at h
    split_ifs at h with hlt
    · cases h
      exact ⟨w, rfl, by omega⟩
    · obtain ⟨j, hj, rfl⟩ := Option.map_eq_some_iff.1 h
      exact ih hj

theorem exists_pick {ws : List ℕ} {i w : ℕ} (hi : ws[i]? = some w) (hw : 0 < w) : ∃ n, pick ws n = some i := by
  induction ws generalizing i with
  | nil => cases hi
  | cons v ws ih =>
    cases i with
    | zero =>
      cases hi
      exact ⟨0, pick_cons_of_lt ws hw⟩
    | succ i =>
      obtain ⟨n, hn⟩ := ih hi
      exact ⟨v + n, by rw [pick_cons_add, hn]; rfl⟩

theorem count_window_eq {α : Type} [BEq α] [LawfulBEq α] [DecidableEq α] (f : ℕ → α) (period c : ℕ) (a : α) :
    ((List.range' c period).map fun n => f (n % period)).count a = Nat.count (fun n => f n = a) period := by
  have hperiodic : Function.Periodic (fun n => f (n % period) = a) period := by
    intro n
    simp [Nat.add_mod_right]
  calc ((List.range' c period).map fun n => f (n % period)).count a
      = (List.range' c period).countP (fun n => f (n % period) = a) := by
        rw [List.count, countP_map]
        exact countP_congr fun n _ => by simp
    _ = Multiset.card ((Multiset.Ico c (c + period)).filter fun n => f (n % period) = a) := by
        rw [Multiset.Ico, Nat.Ico_eq_range']
        simp [countP_eq_length_filter]
    _ = Nat.count (fun n => f (n % period) = a) period := Nat.filter_multiset_Ico_card_eq_of_periodic c period _ hperiodic
    _ = Nat.count (fun n => f n = a) period := by
        simp only [Nat.count_eq_card_filter_range]
        congr 1
        refine Finset.filter_congr fun n hn => ?_
        rw [Nat.mod_eq_of_lt (Finset.mem_range.1 hn)]

theorem count_pick_cons (p : Option ℕ → Prop) [DecidablePred p] (w : ℕ) (ws : List ℕ) :
    Nat.count (fun n => p (pick (w :: ws) n)) (w :: ws).sum
      = (if p (some 0) then w else 0) + Nat.count (fun n => p ((pick ws n).map (· + 1))) ws.sum := by
  have hfirst : Nat.count (fun n => p (pick (w :: ws) n)) w = if p (some 0) then w else 0 := by
    split_ifs with hp
    · refine Nat.count_iff_forall.2 fun n hn => ?_
      rwa [pick_cons_of_lt ws hn]
    · refine Nat.count_iff_forall_not.2 fun n hn => ?_
      rwa [pick_cons_of_lt ws hn]
  rw [sum_cons, Nat.count_add, hfirst]
  simp [pick_cons_add]

theorem count_pick_window (c i : ℕ) :
    ((List.range' c ws.sum).map fun n => pick ws (n % ws.sum)).count (some i) = (ws[i]?).getD 0 := by
  rw [count_window_eq (pick ws)]
  induction ws generalizing i with
  | nil => simp
  | cons w ws ih =>
    rw [count_pick_cons (· = some i)]
    cases i <;> simp [ih]

theorem count_pick_label_window {τ : Type} [DecidableEq τ] (entries : List (τ × ℕ)) (c : ℕ) (t : τ) :
    ((List.range' c (entries.map (·.2)).sum).map fun n =>
        (pick (entries.map (·.2)) (n % (entries.map (·.2)).sum)).bind fun i => (entries[i]?).map (·.1)).count (some t)
      = ((entries.filter (·.1 = t)).map (·.2)).sum := by
  rw [count_window_eq (fun n => (pick (entries.map (·.2)) n).bind fun i => (entries[i]?).map (·.1))]
  induction entries with
  | nil => simp
  | cons e entries ih =>
    rw [map_cons, count_pick_cons fun picked => picked.bind (fun i => ((e :: entries)[i]?).map (·.1)) = some t]
    simp only [Option.bind_map, Function.comp_def, getElem?_cons_succ, ih]
    by_cases hlabel : e.1 = t <;> simp [hlabel]

theorem count_pick_skip {ws : List ℕ} {n i : ℕ} (hn : pick ws n = some i) (hzero : pick ws 0 ≠ some i) :
    ((List.range' 0 n ++ List.range' (n + 1) (ws.sum - n)).map fun m => pick ws (m % ws.sum)).count (some i) + 1
      = (ws[i]?).getD 0 := by
  have hlt := (pick_isSome_iff ws n).1 (by rw [hn]; rfl)
  set f := fun m => pick ws (m % ws.sum) with hf
  have hat : f n = some i := by
    rw [hf]
    simp [Nat.mod_eq_of_lt hlt, hn]
  have hlast : f ws.sum ≠ some i := by
    rw [hf]
    simpa [Nat.mod_self] using hzero
  have hall : List.range' 0 n ++ n :: List.range' (n + 1) (ws.sum - n) = List.range' 0 ws.sum ++ [ws.sum] := by
    calc List.range' 0 n ++ n :: List.range' (n + 1) (ws.sum - n)
        = List.range' 0 n ++ List.range' (0 + n) (ws.sum - n + 1) := by rw [range'_succ, Nat.zero_add]
      _ = List.range' 0 (n + (ws.sum - n + 1)) := range'_append_1
      _ = List.range' 0 (ws.sum + 1) := by congr 1; omega
      _ = List.range' 0 ws.sum ++ [ws.sum] := by rw [range'_concat, Nat.one_mul, Nat.zero_add]
  have hcount := congrArg (fun l => (l.map f).count (some i)) hall
  simp only [map_append, map_cons, map_nil, count_append, hat, count_cons_self,
    count_singleton, beq_eq_false_iff_ne.2 hlast, Bool.false_eq_true, if_false, Nat.add_zero] at hcount
  rw [← count_pick_window ws 0 i, ← hcount, map_append, count_append, Nat.add_assoc]

end SunbeamProxy.Weighted
