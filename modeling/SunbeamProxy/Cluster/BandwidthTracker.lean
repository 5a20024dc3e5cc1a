/-
The byte counters of a node (`cluster/bandwidth.rs`), with calls that run at the same time.

`record` adds to five atomic counters one after the other, and `snapshot_and_reset` takes three of them and reads the other two
in the same order, so a snapshot may cut through any number of records. What is conserved is conserved counter by counter.
-/
import Mathlib.Algebra.BigOperators.Group.Finset.Basic
import Mathlib.Data.UInt
import Mathlib.Tactic

namespace SunbeamProxy.Cluster

open Finset

inductive Counter where
  | bytesIn | bytesOut | requestCount | cumulativeIn | cumulativeOut
deriving DecidableEq, Repr

namespace Counter

def index : Counter → ℕ
  | bytesIn => 0
  | bytesOut => 1
  | requestCount => 2
  | cumulativeIn => 3
  | cumulativeOut => 4

def resets : Counter → Bool
  | bytesIn | bytesOut | requestCount => true
  | cumulativeIn | cumulativeOut => false

def amount (recordedIn recordedOut : UInt64) : Counter → UInt64
  | bytesIn | cumulativeIn => recordedIn
  | bytesOut | cumulativeOut => recordedOut
  | requestCount => 1

def all : List Counter := [bytesIn, bytesOut, requestCount, cumulativeIn, cumulativeOut]

theorem index_of_getElem? {n : ℕ} {c : Counter} (h : all[n]? = some c) : c.index = n := by
  obtain ⟨hn, hc⟩ := List.getElem?_eq_some_iff.1 h
  change n < 5 at hn
  interval_cases n <;> cases hc <;> rfl

theorem index_injective : Function.Injective index := by
  intro a b h
  cases a <;> cases b <;> first | rfl | cases h

end Counter

inductive TrackerCall where
  | record (bytesIn bytesOut : UInt64)
  | snapshotAndReset

section Tracker

variable {ι : Type} [DecidableEq ι] (calls : ι → TrackerCall)

structure BandwidthTracker (ι : Type) where
  counters : Counter → UInt64 := fun _ => 0
  executed : ι → ℕ := fun _ => 0
  snapshot : ι → Counter → UInt64 := fun _ _ => 0

variable (s : BandwidthTracker ι)

def BandwidthTracker.step (i : ι) : BandwidthTracker ι :=
  match Counter.all[s.executed i]? with
  | none => s
  | some c =>
    match calls i with
    | .record recordedIn recordedOut =>
      { s with
        counters := Function.update s.counters c (s.counters c + c.amount recordedIn recordedOut)
        executed := Function.update s.executed i (s.executed i + 1) }
    | .snapshotAndReset =>
      { counters := if c.resets then Function.update s.counters c 0 else s.counters
        executed := Function.update s.executed i (s.executed i + 1)
        snapshot := Function.update s.snapshot i (Function.update (s.snapshot i) c (s.counters c)) }

variable (schedule : List ι)

def BandwidthTracker.run : BandwidthTracker ι := schedule.foldl (step calls) {}

/-- what call `i` has added to the counter -/
def added (c : Counter) (i : ι) : UInt64 :=
  match calls i with
  | .record recordedIn recordedOut => if c.index < s.executed i then c.amount recordedIn recordedOut else 0
  | .snapshotAndReset => 0

def taken (c : Counter) (i : ι) : UInt64 :=
  match calls i with
  | .record _ _ => 0
  | .snapshotAndReset => if c.resets then s.snapshot i c else 0

/-- every call to `record` has made all its additions -/
def RecordsReturned : Prop := ∀ i a b, calls i = .record a b → Counter.all.length ≤ s.executed i

theorem step_frame {i j : ι} (hj : j ≠ i) :
    (s.step calls i).executed j = s.executed j ∧ (s.step calls i).snapshot j = s.snapshot j := by
  unfold BandwidthTracker.step
  split
  · exact ⟨rfl, rfl⟩
  · split <;> simp [hj]

theorem step_moves (i : ι) (hunread : ∀ c : Counter, s.executed i ≤ c.index → s.snapshot i c = 0)
    (c : Counter) : ∃ out into, taken calls (s.step calls i) c i = taken calls s c i + out
      ∧ added calls (s.step calls i) c i = added calls s c i + into
      ∧ (s.step calls i).counters c + out = s.counters c + into := by
  cases hnext : Counter.all[s.executed i]? with
  | none => exact ⟨0, 0, by simp [BandwidthTracker.step, hnext]⟩
  | some next =>
    have hindex := Counter.index_of_getElem? hnext
    by_cases hc : c = next
    · subst hc
      cases hcall : calls i with
      | record a b =>
        exact ⟨0, c.amount a b, by simp [BandwidthTracker.step, hnext, hcall, taken, added, hindex]⟩
      | snapshotAndReset =>
        refine ⟨if c.resets then s.counters c else 0, 0, ?_⟩
        by_cases hreset : c.resets <;>
          simp [BandwidthTracker.step, hnext, hcall, taken, added, hreset, hunread c hindex.ge]
    · have hlt : c.index < s.executed i + 1 ↔ c.index < s.executed i := by
        have hne : c.index ≠ s.executed i := fun h => hc (Counter.index_injective (h.trans hindex.symm))
        omega
      refine ⟨0, 0, ?_⟩
      cases hcall : calls i with
      | record a b => simp [BandwidthTracker.step, hnext, hcall, taken, added, hc, hlt]
      | snapshotAndReset => by_cases hreset : next.resets <;> simp [BandwidthTracker.step, hnext, hcall, taken, added, hc, hreset]

theorem step_unread {s : BandwidthTracker ι} (h : ∀ i (c : Counter), s.executed i ≤ c.index → s.snapshot i c = 0) (i j : ι)
    (c : Counter) (hj : (s.step calls i).executed j ≤ c.index) : (s.step calls i).snapshot j c = 0 := by
  by_cases hji : j = i
  · subst hji
    unfold BandwidthTracker.step at hj ⊢
    split at hj
    · exact h j c hj
    next next hnext =>
      have hindex := Counter.index_of_getElem? hnext
      have hlt : s.executed j + 1 ≤ c.index := by
        split at hj <;> simpa using hj
      have hne : c ≠ next := by
        intro heq
        rw [heq, hindex] at hlt
        omega
      split <;> simp [hne, h j c (by omega)]
  · obtain ⟨hexecuted, hsnapshot⟩ := step_frame calls s hji
    rw [hsnapshot]
    exact h j c (hexecuted ▸ hj)

/-- a call has made as many of its steps as it was scheduled for -/
theorem executed_run (j : ι) :
    (BandwidthTracker.run calls schedule).executed j = min Counter.all.length (schedule.count j) := by
  induction schedule using List.reverseRecOn with
  | nil => rfl
  | append_singleton schedule i ih =>
    rw [BandwidthTracker.run, List.foldl_append, ← BandwidthTracker.run, List.foldl_cons, List.foldl_nil, List.count_append]
    by_cases hj : j = i
    · subst hj
      rw [List.count_singleton_self]
      unfold BandwidthTracker.step
      split
      next hdone =>
        have hlen := List.getElem?_eq_none_iff.1 hdone
        omega
      next hnext =>
        obtain ⟨hlt, -⟩ := List.getElem?_eq_some_iff.1 hnext
        have hcount : (BandwidthTracker.run calls schedule).executed j + 1
            = min Counter.all.length (schedule.count j + 1) := by omega
        split <;> simpa using hcount
    · rw [(step_frame calls _ hj).1, ih, List.count_singleton, if_neg (by simpa using Ne.symm hj), Nat.add_zero]

variable [Fintype ι]

/-- what snapshots took and what the counters hold is what was recorded -/
structure Conserved (s : BandwidthTracker ι) : Prop where
  unread : ∀ i (c : Counter), s.executed i ≤ c.index → s.snapshot i c = 0
  balance : ∀ c, ∑ i, taken calls s c i + s.counters c = ∑ i, added calls s c i

theorem sum_changed {f g : ι → UInt64} {i : ι} {d : UInt64} (hi : g i = f i + d) (hne : ∀ j, j ≠ i → g j = f j) :
    ∑ j, g j = ∑ j, f j + d := by
  have hrest : ∑ j ∈ univ.erase i, g j = ∑ j ∈ univ.erase i, f j :=
    sum_congr rfl fun j hj => hne j (ne_of_mem_erase hj)
  rw [← add_sum_erase _ g (mem_univ i), ← add_sum_erase _ f (mem_univ i), hi, hrest, add_right_comm]

theorem Conserved.step {s : BandwidthTracker ι} (h : Conserved calls s) (i : ι) : Conserved calls (s.step calls i) := by
  refine ⟨step_unread calls h.unread i, ?_⟩
  intro c
  obtain ⟨out, into, htaken, hadded, hmoved⟩ := step_moves calls s i (h.unread i) c
  have hothers : ∀ j, j ≠ i → taken calls (s.step calls i) c j = taken calls s c j
      ∧ added calls (s.step calls i) c j = added calls s c j := by
    intro j hj
    obtain ⟨hexecuted, hsnapshot⟩ := step_frame calls s hj
    simp only [taken, added, hexecuted, hsnapshot, and_self]
  calc ∑ j, taken calls (s.step calls i) c j + (s.step calls i).counters c
      = ∑ j, taken calls s c j + ((s.step calls i).counters c + out) := by
        rw [sum_changed htaken fun j hj => (hothers j hj).1, add_assoc, add_comm out]
    _ = ∑ j, added calls s c j + into := by rw [hmoved, ← add_assoc, h.balance]
    _ = ∑ j, added calls (s.step calls i) c j := (sum_changed hadded fun j hj => (hothers j hj).2).symm

theorem conserved_run : Conserved calls (BandwidthTracker.run calls schedule) := by
  induction schedule using List.reverseRecOn with
  | nil =>
    refine ⟨fun _ _ _ => rfl, fun c => ?_⟩
    have hzero : ∀ i, taken calls (BandwidthTracker.run calls []) c i = 0 ∧ added calls (BandwidthTracker.run calls []) c i = 0 := by
      intro i
      cases hcall : calls i <;> simp [taken, added, hcall, BandwidthTracker.run]
    simp only [hzero, sum_const_zero]
    rfl
  | append_singleton schedule i ih =>
    rw [BandwidthTracker.run, List.foldl_append]
    exact ih.step calls i

/-- **No bytes are lost.** At every point of every interleaving, what the snapshots have taken out of a counter and what is in it
make up what the records have added to it; once the records have returned, this is the cumulative counter. -/
theorem bandwidth_conserved (calls : ι → TrackerCall) (schedule : List ι) :
    let s := BandwidthTracker.run calls schedule
    (∀ i, s.executed i = min Counter.all.length (schedule.count i))
      ∧ (∀ c ∈ [Counter.bytesIn, .bytesOut, .requestCount], ∑ i, taken calls s c i + s.counters c = ∑ i, added calls s c i)
      ∧ (RecordsReturned calls s →
          ∑ i, taken calls s .bytesIn i + s.counters .bytesIn = s.counters .cumulativeIn
            ∧ ∑ i, taken calls s .bytesOut i + s.counters .bytesOut = s.counters .cumulativeOut) := by
  intro s
  have hbalance := (conserved_run calls schedule).balance
  refine ⟨executed_run calls schedule, fun c _ => hbalance c, ?_⟩
  intro hreturned
  have hkept : ∀ c : Counter, c.resets = false → s.counters c = ∑ i, added calls s c i := by
    intro c hc
    have htaken : ∀ i, taken calls s c i = 0 := by
      intro i
      cases hcall : calls i <;> simp [taken, hcall, hc]
    have hsum := hbalance c
    rwa [sum_eq_zero fun i _ => htaken i, zero_add] at hsum
  have hall : ∀ (c c' : Counter), (∀ a b, c.amount a b = c'.amount a b) → ∀ i, added calls s c i = added calls s c' i := by
    intro c c' hamount i
    cases hcall : calls i with
    | snapshotAndReset => simp [added, hcall]
    | record a b =>
      have hlen := hreturned i a b hcall
      have hlt : ∀ c : Counter, c.index < s.executed i := by
        intro c
        exact lt_of_lt_of_le (by cases c <;> decide) hlen
      simp [added, hcall, hlt, hamount]
  rw [hbalance, hbalance, hkept _ rfl, hkept _ rfl]
  exact ⟨sum_congr rfl fun i _ => hall .bytesIn .cumulativeIn (fun _ _ => rfl) i,
    sum_congr rfl fun i _ => hall .bytesOut .cumulativeOut (fun _ _ => rfl) i⟩

end Tracker

/-- a snapshot cuts through a record of 5 and 7 bytes after its first step, and a second one follows -/
theorem snapshot_cuts_record :
    let calls : Fin 3 → TrackerCall := ![.record 5 7, .snapshotAndReset, .snapshotAndReset]
    let s := BandwidthTracker.run calls ([0, 1, 1, 1, 1, 1, 0, 0, 0, 0] ++ List.replicate 5 2)
    s.snapshot 1 .bytesIn = 5 ∧ s.snapshot 1 .bytesOut = 0
      ∧ ∑ i, taken calls s .bytesOut i + s.counters .bytesOut = s.counters .cumulativeOut :=
  ⟨by decide, by decide, ((bandwidth_conserved _ _).2.2 fun i _ _ _ => by fin_cases i <;> decide).2⟩

end SunbeamProxy.Cluster
