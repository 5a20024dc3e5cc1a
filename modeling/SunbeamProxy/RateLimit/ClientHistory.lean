/-
What the detector classifies a client by (`ddos/features.rs`, `ddos/detector.rs`): the latest requests of an address, in a ring, and
the features that come from their times.
-/
import SunbeamProxy.RateLimit.ClientTables

namespace SunbeamProxy

open List

section Ring

variable {α : Type} {l : List α}

theorem rotate_set_succ {i : ℕ} (hi : i < l.length) (a : α) : (l.set i a).rotate (i + 1) = (l.rotate i).tail ++ [a] := by
  have hset : i < (l.set i a).length := by rwa [length_set]
  rw [rotate_eq_drop_append_take hset, rotate_eq_drop_append_take hi.le, drop_eq_getElem_cons hi, cons_append, tail_cons,
    drop_set_of_lt (Nat.lt_succ_self i), ← take_append_getElem hset, take_set_of_le le_rfl, getElem_set_self, append_assoc]

theorem filter_drop_latest {p : α → Bool} (h : l.Pairwise fun a b => p a = true → p b = true) (n : ℕ) :
    (l.drop (l.length - n)).filter p = (l.filter p).drop ((l.filter p).length - n) := by
  induction l with
  | nil => simp
  | cons a l ih =>
    obtain ⟨hfirst, hrest⟩ := pairwise_cons.1 h
    by_cases ha : p a = true
    · -- from the first one in the window on, all are
      have hall : ∀ b ∈ a :: l, p b = true := forall_mem_cons.2 ⟨ha, fun b hb => hfirst b hb ha⟩
      rw [filter_eq_self.2 hall, filter_eq_self.2 fun b hb => hall b (mem_of_mem_drop hb)]
    · rw [filter_cons_of_neg ha, ← ih hrest, length_cons]
      rcases Nat.lt_or_ge l.length n with hlt | hge
      · rw [Nat.sub_eq_zero_of_le hlt, Nat.sub_eq_zero_of_le hlt.le, drop_zero, drop_zero, filter_cons_of_neg ha]
      · rw [Nat.succ_sub hge, drop_succ_cons]

end Ring

namespace IpState

/-- read from its cursor, the ring holds the latest of the address's own events -/
structure Holds (s : IpState) (capacity : ℕ) (own : List ℚ) : Prop where
  size : s.capacity = capacity
  cursor : s.cursor = own.length % capacity
  events : s.events.rotate s.cursor = own.drop (own.length - capacity)

variable {s : IpState} {capacity : ℕ} {own : List ℚ}

theorem Holds.len (h : s.Holds capacity own) : s.events.length = min own.length capacity := by
  have hlen := congrArg length h.events
  rw [length_rotate, length_drop] at hlen
  omega

theorem Holds.push (h : s.Holds capacity own) (hcap : 0 < capacity) (event : ℚ) : (s.push event).Holds capacity (own ++ [event]) := by
  have hlen := h.len
  obtain ⟨rfl, hcursor, hevents⟩ := h
  refine ⟨rfl, by simp [IpState.push, hcursor], ?_⟩
  by_cases hfree : s.events.length < s.capacity
  · -- the cells are still in the order of the requests
    have hn : own.length < s.capacity := by omega
    have hown : s.events = own := by
      rwa [hcursor, Nat.mod_eq_of_lt hn, show own.length = s.events.length by omega, rotate_length,
        Nat.sub_eq_zero_of_le hfree.le, drop_zero] at hevents
    have hdrop : (own ++ [event]).length - s.capacity = 0 := by
      rw [length_append, length_singleton]
      omega
    simp only [IpState.push, hown, if_pos hn, hdrop, drop_zero, hcursor, Nat.mod_add_mod]
    rcases Nat.lt_or_eq_of_le (Nat.succ_le_of_lt hn) with hlt | heq
    · rw [Nat.mod_eq_of_lt hlt, show own.length.succ = (own ++ [event]).length by simp, rotate_length]
    · rw [show own.length + 1 = s.capacity from heq, Nat.mod_self, rotate_zero]
  · have hin : s.cursor < s.events.length := by
      rw [hcursor]
      exact lt_of_lt_of_le (Nat.mod_lt _ hcap) (not_lt.1 hfree)
    have hsize : s.capacity = (s.events.set s.cursor event).length := by
      rw [length_set]
      omega
    have hmod : (s.cursor + 1) % s.capacity = (s.cursor + 1) % (s.events.set s.cursor event).length := by rw [← hsize]
    simp only [IpState.push, if_neg hfree]
    rw [hmod, rotate_mod, rotate_set_succ hin, hevents, tail_drop, length_append, length_singleton,
      Nat.succ_sub (by omega), drop_append_of_le_length (by omega)]

def activeEvents (s : IpState) (now : ℚ) (windowSecs : ℕ) : List ℚ := s.events.filter fun e => durationSince now e ≤ windowSecs

/-- `request_rate` and `burst_score` -/
def timeFeatures (windowSecs : ℕ) (events : List ℚ) : ℚ × ℚ :=
  if events.length < 1 then (0, 0)
  else
    let timestamps := events.mergeSort fun a b => a ≤ b
    let totalSpan := durationSince (timestamps.getLast?.getD 0) (timestamps.head?.getD 0)
    (events.length / windowSecs,
      if 2 ≤ events.length then if 0 < totalSpan then (events.length - 1) / totalSpan else events.length else 0)

/-- what `check` gives the ensemble; with too few events it allows the request at once -/
def toClassify (minEvents windowSecs : ℕ) (s : IpState) (now : ℚ) : Option (ℚ × ℚ) :=
  if s.events.length < minEvents then none else some (timeFeatures windowSecs (s.activeEvents now windowSecs))

theorem timeFeatures_perm {events events' : List ℚ} (h : events.Perm events') (windowSecs : ℕ) :
    timeFeatures windowSecs events = timeFeatures windowSecs events' := by
  have hsort : (events.mergeSort fun a b => a ≤ b) = events'.mergeSort fun a b => a ≤ b :=
    ((mergeSort_perm _ _).trans (h.trans (mergeSort_perm _ _).symm)).eq_of_sortedLE sortedLE_mergeSort sortedLE_mergeSort
  rw [timeFeatures, timeFeatures, hsort, h.length_eq]

end IpState

namespace DDoSDetector

variable {hash : IpAddr → UInt64} {capacity : ℕ} {requests : List (ℚ × IpAddr)}

def ownTimes (requests : List (ℚ × IpAddr)) (ip : IpAddr) : List ℚ := (requests.filter (·.2 = ip)).map (·.1)

theorem entry_check_eq (d : DDoSDetector) (request : ℚ × IpAddr) (ip : IpAddr) : (d.check hash request).entry hash ip
      = if ip = request.2 then some (((d.entry hash ip).getD { capacity := d.windowCapacity }).push request.1) else d.entry hash ip := by
  by_cases hip : ip = request.2
  · simp [check, entry, hip, HashMap.get_insert]
  · by_cases hshard : shardIndex hash ip = shardIndex hash request.2
    · simp [check, entry, hshard, HashMap.get_insert, hip]
    · simp [check, entry, Function.update_of_ne hshard, hip]

theorem holds_run (hash : IpAddr → UInt64) (hcap : 0 < capacity) (requests : List (ℚ × IpAddr)) :
    (run hash capacity requests).windowCapacity = capacity ∧ ∀ ip, (((run hash capacity requests).entry hash ip).getD
      { capacity := capacity }).Holds capacity (ownTimes requests ip) := by
  induction requests using List.reverseRecOn with
  | nil => exact ⟨rfl, fun ip => ⟨rfl, (Nat.zero_mod _).symm, by simp [run, new, entry, ownTimes]⟩⟩
  | append_singleton requests request ih =>
    rw [run, foldl_append, foldl_cons, foldl_nil, ← run]
    refine ⟨ih.1, fun ip => ?_⟩
    rw [entry_check_eq, ih.1, ownTimes, filter_append, map_append]
    by_cases hip : ip = request.2
    · subst hip
      simpa [ownTimes] using (ih.2 _).push hcap request.1
    · simpa [ownTimes, hip, Ne.symm hip] using ih.2 ip

/-- **An address is classified by its own latest requests.** With requests of all addresses in the order of their times, its ring
has, of those it made within the window, the latest `window_capacity`; it is not classified while fewer than `min_events` fit in
the ring. -/
theorem classified_by_latest (hash : IpAddr → UInt64) (hcap : 0 < capacity) (hordered : requests.Pairwise (·.1 ≤ ·.1)) (ip : IpAddr)
    {s : IpState} (hs : (run hash capacity requests).entry hash ip = some s) (minEvents windowSecs : ℕ) (now : ℚ) :
    let recent := (ownTimes requests ip).filter fun e => durationSince now e ≤ windowSecs
    (s.activeEvents now windowSecs).Perm (recent.drop (recent.length - capacity))
      ∧ s.toClassify minEvents windowSecs now = if min (ownTimes requests ip).length capacity < minEvents then none
        else some (IpState.timeFeatures windowSecs (recent.drop (recent.length - capacity))) := by
  intro recent
  have hholds : s.Holds capacity (ownTimes requests ip) := by simpa [hs] using (holds_run hash hcap requests).2 ip
  have htimes : (ownTimes requests ip).Pairwise (· ≤ ·) := pairwise_map.2 (hordered.filter _)
  have hperm : (s.activeEvents now windowSecs).Perm (recent.drop (recent.length - capacity)) := by
    rw [← filter_drop_latest, ← hholds.events]
    · exact ((rotate_perm _ _).filter _).symm
    · refine htimes.imp fun {a b} hab ha => ?_
      simp only [durationSince, decide_eq_true_eq, max_le_iff] at ha ⊢
      exact ⟨ha.1, by linarith⟩
  exact ⟨hperm, by rw [IpState.toClassify, hholds.len, IpState.timeFeatures_perm hperm]⟩

/-- room for two; the third request of an address takes the cell of its first, and another address has a ring of its own -/
theorem latest_two_of_three :
    (⟨[3, 2], 1, 3, 2⟩ : IpState).toClassify 2 60 3 = some (IpState.timeFeatures 60 [2, 3]) := by
  have hrun : (run (fun _ => 0) 2 [(1, .v4 1), (1, .v4 2), (2, .v4 1), (3, .v4 1)]).entry (fun _ => 0) (.v4 1)
      = some ⟨[3, 2], 1, 3, 2⟩ := rfl
  have hown : ownTimes [(1, .v4 1), (1, .v4 2), (2, .v4 1), (3, .v4 1)] (.v4 1) = [1, 2, 3] := rfl
  rw [(classified_by_latest (fun _ => 0) (by decide) (by norm_num) (.v4 1) hrun 2 60 3).2, hown]
  norm_num [durationSince]

end DDoSDetector

end SunbeamProxy
