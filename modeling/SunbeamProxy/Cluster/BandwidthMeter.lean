/-
The bandwidth meter and the cap on it (`cluster/bandwidth.rs`).

Samples come from the tracker of the node and from the reports of its peers. The time of a sample is read before the lock is taken,
so samples need not be stored in the order of their times. Rates are exact rationals.
-/
import SunbeamProxy.Cluster.Delivery
import SunbeamProxy.Proxy.Session

namespace SunbeamProxy.Cluster

open List

structure Sample where
  time : ℚ
  bytesIn : ℕ
  bytesOut : ℕ

structure AggregateRate where
  bytesInPerSec : ℚ
  bytesOutPerSec : ℚ
  totalPerSec : ℚ
  sampleCount : ℕ

variable (window : ℚ)

def recordSample (samples : List Sample) (s : Sample) : List Sample :=
  (samples ++ [s]).dropWhile fun old => decide (old.time < s.time - window)

/-- the loop of `aggregate_rate`: bytes in, bytes out, and how many samples -/
def windowTotals (cutoff : ℚ) (samples : List Sample) : ℕ × ℕ × ℕ :=
  samples.foldl (fun acc s => if cutoff ≤ s.time then
    (saturatingAdd acc.1 s.bytesIn, saturatingAdd acc.2.1 s.bytesOut, acc.2.2 + 1) else acc) (0, 0, 0)

def aggregateRate (samples : List Sample) (now : ℚ) : AggregateRate :=
  let totals := windowTotals (now - window) samples
  ⟨totals.1 / window, totals.2.1 / window, totals.1 / window + totals.2.1 / window, totals.2.2⟩

def limiterCheck (limit : ℕ) (rate : AggregateRate) : BandwidthLimitResult :=
  if limit = 0 then .allow else if limit < rate.totalPerSec then .reject else .allow

/-- what has been dropped from the front was too old for the window of some sample stored since -/
theorem exists_dropped (recorded : List Sample) : ∃ gone, recorded = gone ++ recorded.foldl (recordSample window) []
    ∧ ∀ g ∈ gone, ∃ s ∈ recorded, g.time < s.time - window := by
  induction recorded using reverseRecOn with
  | nil => exact ⟨[], rfl, by simp⟩
  | append_singleton recorded s ih =>
    obtain ⟨gone, hkept, hgone⟩ := ih
    rw [foldl_append, foldl_cons, foldl_nil]
    generalize recorded.foldl (recordSample window) [] = queue at hkept ⊢
    refine ⟨gone ++ (queue ++ [s]).takeWhile fun old => decide (old.time < s.time - window), ?_, ?_⟩
    · calc recorded ++ [s] = gone ++ (queue ++ [s]) := by rw [hkept, append_assoc]
        _ = _ := by rw [recordSample, append_assoc, takeWhile_append_dropWhile]
    · intro g hg
      rcases mem_append.1 hg with hold | hnew
      · obtain ⟨x, hx, hlt⟩ := hgone g hold
        exact ⟨x, mem_append_left _ hx, hlt⟩
      · have hold := mem_takeWhile_imp hnew
        exact ⟨s, by simp, of_decide_eq_true hold⟩

theorem windowTotals_eq (cutoff : ℚ) (samples : List Sample) : windowTotals cutoff samples
    = (min ((samples.filter (cutoff ≤ ·.time)).map (·.bytesIn)).sum (2 ^ 64 - 1),
      min ((samples.filter (cutoff ≤ ·.time)).map (·.bytesOut)).sum (2 ^ 64 - 1), (samples.filter (cutoff ≤ ·.time)).length) := by
  induction samples using reverseRecOn with
  | nil => rfl
  | append_singleton samples s ih =>
    rw [windowTotals, foldl_append, ← windowTotals, ih, foldl_cons, foldl_nil, filter_append]
    by_cases hs : cutoff ≤ s.time
    · simp only [if_pos hs, filter_cons, decide_eq_true hs, filter_nil, if_true, map_append, sum_append, length_append, map_singleton,
        sum_singleton, length_singleton, saturatingAdd, Prod.mk.injEq, and_true]
      omega
    · simp [hs]

/-- **The cap is on the whole window.** In whatever order samples are stored, the rate at a later time is that of all samples
recorded within the window, those dropped from the queue included; requests are turned away exactly when a cap is set and it is
exceeded. -/
theorem bandwidth_cap_on_window (window : ℚ) (_hwindow : 0 < window) (recorded : List Sample) (limit : ℕ) {now : ℚ}
    (hnow : ∀ s ∈ recorded, s.time ≤ now) :
    let recent := recorded.filter (now - window ≤ ·.time)
    let total (bytes : Sample → ℕ) : ℕ := min (recent.map bytes).sum (2 ^ 64 - 1)
    let rate := aggregateRate window (recorded.foldl (recordSample window) []) now
    rate.sampleCount = recent.length ∧ rate.bytesInPerSec = total (·.bytesIn) / window
      ∧ rate.bytesOutPerSec = total (·.bytesOut) / window
      ∧ (limiterCheck limit rate = .reject ↔
        limit ≠ 0 ∧ (limit : ℚ) < total (·.bytesIn) / window + total (·.bytesOut) / window) := by
  intro recent total rate
  obtain ⟨gone, hkept, hgone⟩ := exists_dropped window recorded
  have hnone : gone.filter (now - window ≤ ·.time) = [] := by
    rw [filter_eq_nil_iff]
    intro g hg
    obtain ⟨s, hs, hlt⟩ := hgone g hg
    have hlater := hnow s hs
    rw [decide_eq_true_eq]
    linarith
  have hrecent : recent = (recorded.foldl (recordSample window) []).filter (now - window ≤ ·.time) :=
    calc recent = (gone ++ recorded.foldl (recordSample window) []).filter (now - window ≤ ·.time) := by rw [← hkept]
      _ = _ := by rw [filter_append, hnone, nil_append]
  have hrate : rate = ⟨total (·.bytesIn) / window, total (·.bytesOut) / window,
      total (·.bytesIn) / window + total (·.bytesOut) / window, recent.length⟩ := by
    simp only [rate, total, aggregateRate, windowTotals_eq, hrecent]
  rw [hrate]
  refine ⟨rfl, rfl, rfl, ?_⟩
  unfold limiterCheck
  split_ifs with hzero hover
  · simp [hzero]
  · simpa using ⟨hzero, hover⟩
  · simpa using fun _ => not_lt.1 hover

theorem cap_on_late_sample : limiterCheck 5 (aggregateRate 10 ([⟨20, 40, 0⟩, ⟨15, 20, 0⟩].foldl (recordSample 10) []) 20) = .reject := by
  refine (bandwidth_cap_on_window 10 (by norm_num) [⟨20, 40, 0⟩, ⟨15, 20, 0⟩] 5 ?_).2.2.2.2 ⟨by decide, ?_⟩
  · norm_num
  · norm_num

end SunbeamProxy.Cluster
