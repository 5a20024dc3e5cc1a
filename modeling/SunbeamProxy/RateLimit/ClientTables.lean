/-
How much the tables that are kept for each client hold (`rate_limit/limiter.rs`, `ddos/detector.rs`, `scanner/allowlist.rs`).
-/
import Mathlib.Data.Set.Card
import SunbeamProxy.RateLimit.RetryAfter
import SunbeamProxy.Scanner.Allowlist

namespace SunbeamProxy

open List

theorem encard_le_iff_subset {α : Type} {all part : Set α} (hfinite : all.Finite) (hpart : part ⊆ all) :
    all.encard ≤ part.encard ↔ all ⊆ part := by
  apply Iff.intro
  · intro h
    exact ((hfinite.subset hpart).eq_of_subset_of_encard_le hpart h).ge
  · exact Set.encard_le_encard

namespace RateLimiter

variable {hash : RateLimitKey → UInt64} {config : RateLimitConfig}

def heldKeys (hash : RateLimitKey → UInt64) (lim : RateLimiter) : Set RateLimitKey := { key | (lim.entry hash key).isSome = true }

def recentKeys (calls : List Call) (now span : ℚ) : Set RateLimitKey :=
  { key | ∃ t ip, .check t ip key ∈ calls ∧ now - t < span }

/-- the thread of `run_serve`: from the start of the process on, some eviction in every interval up to now -/
def EvictsEvery (interval now : ℚ) (calls : List Call) : Prop :=
  ∀ t, 0 ≤ t → t + interval ≤ now → ∃ τ, .evictStale τ ∈ calls ∧ t < τ ∧ τ ≤ t + interval

/-- times are counted from the start of the process -/
def FromStart (calls : List Call) : Prop := ∀ call ∈ calls, 0 ≤ call.time

theorem check_of_entry {calls : List Call} {key : RateLimitKey} {b : Bucket}
    (h : (calls.foldl (step hash) (new config)).entry hash key = some b) :
    ∃ before ip after, calls = before ++ .check b.lastRefill ip key :: after
      ∧ ∀ τ, .evictStale τ ∈ after → durationSince τ b.lastRefill < config.staleAfterSecs := by
  induction calls using reverseRecOn generalizing b with
  | nil => simp [new, entry] at h
  | append_singleton calls call ih =>
    rw [foldl_append, foldl_cons, foldl_nil] at h
    cases call with
    | check now ip k =>
      rw [step, entry_check] at h
      split_ifs at h with hown
      · obtain ⟨rfl, -⟩ := hown
        have hnow : b.lastRefill = now := by
          rw [← Option.some.inj h, useBucket]
          split_ifs <;> rfl
        exact ⟨calls, ip, [], by rw [hnow], by simp⟩
      · obtain ⟨before, ip', after, hcalls, hevict⟩ := ih h
        exact ⟨before, ip', after ++ [.check now ip k], by simp [hcalls], by simpa using hevict⟩
    | evictStale now =>
      have hstale : (calls.foldl (step hash) (new config)).staleAfterSecs = config.staleAfterSecs := by
        have hidle : ((calls.foldl (step hash) (new config)).staleAfterSecs : ℚ) = config.staleAfterSecs :=
          congrArg TokenBucket.Config.idle (run_settings hash (new config) key calls).2
        exact_mod_cast hidle
      rw [step, entry_evictStale, Option.filter_eq_some_iff, hstale, decide_eq_true_iff] at h
      obtain ⟨before, ip, after, hcalls, hevict⟩ := ih h.1
      refine ⟨before, ip, after ++ [.evictStale now], by simp [hcalls], ?_⟩
      intro τ hτ
      rcases mem_append.1 hτ with hτ | hτ
      · exact hevict τ hτ
      · cases mem_singleton.1 hτ
        exact h.2

theorem heldKeys_subset {calls : List Call} {interval now : ℚ} (horder : InOrder calls) (hstart : FromStart calls)
    (hthread : EvictsEvery interval now calls) :
    heldKeys hash (calls.foldl (step hash) (new config)) ⊆ recentKeys calls now (config.staleAfterSecs + interval) := by
  intro key hkey
  obtain ⟨b, hb⟩ := Option.isSome_iff_exists.1 hkey
  obtain ⟨before, ip, after, hcalls, hevict⟩ := check_of_entry hb
  refine ⟨b.lastRefill, ip, by simp [hcalls], ?_⟩
  by_contra hold
  have hstale : (0 : ℚ) ≤ config.staleAfterSecs := Nat.cast_nonneg _
  have hcheck : 0 ≤ b.lastRefill := hstart (.check b.lastRefill ip key) (by simp [hcalls])
  -- an eviction at that time comes after the check, and removes the bucket
  obtain ⟨τ, hτ, hlate, -⟩ := hthread (b.lastRefill + config.staleAfterSecs) (by linarith) (by linarith)
  rw [InOrder, hcalls, pairwise_append] at horder
  rw [hcalls] at hτ
  rcases mem_append.1 hτ with hbefore | hafter
  · have hle : τ ≤ b.lastRefill := horder.2.2 _ hbefore _ mem_cons_self
    linarith
  · rcases mem_cons.1 hafter with hcheck | hafter
    · cases hcheck
    · have hyoung := lt_of_le_of_lt (le_max_right _ _) (hevict τ hafter)
      linarith

end RateLimiter

/-! ## The detector -/

structure IpState where
  events : List ℚ := []
  cursor : ℕ := 0
  count : ℕ := 0
  capacity : ℕ

def IpState.push (s : IpState) (event : ℚ) : IpState :=
  { s with
    events := if s.events.length < s.capacity then s.events ++ [event] else s.events.set s.cursor event
    cursor := (s.cursor + 1) % s.capacity
    count := s.count + 1 }

structure DDoSDetector where
  shards : Fin numShards → HashMap IpAddr IpState
  windowCapacity : ℕ

namespace DDoSDetector

-- `FxHasher` on an address
variable (hash : IpAddr → UInt64)

variable (windowCapacity : ℕ)

def new : DDoSDetector := ⟨fun _ => ∅, windowCapacity⟩

def shardIndex (ip : IpAddr) : Fin numShards := ⟨(hash ip).toNat % numShards, Nat.mod_lt _ (by decide)⟩

variable (d : DDoSDetector)

def entry (ip : IpAddr) : Option IpState := (d.shards (shardIndex hash ip)).get ip

def check (request : ℚ × IpAddr) : DDoSDetector :=
  let state := ((d.entry hash request.2).getD { capacity := d.windowCapacity }).push request.1
  let shard := (d.shards (shardIndex hash request.2)).insert request.2 state
  { d with shards := Function.update d.shards (shardIndex hash request.2) shard }

def run (requests : List (ℚ × IpAddr)) : DDoSDetector := requests.foldl (check hash) (new windowCapacity)

variable {hash}

theorem entry_check (request : ℚ × IpAddr) (ip : IpAddr) :
    ((d.check hash request).entry hash ip).isSome = true ↔ ip = request.2 ∨ (d.entry hash ip).isSome = true := by
  by_cases hip : ip = request.2
  · simp [check, entry, hip, HashMap.get_insert]
  · by_cases hshard : shardIndex hash ip = shardIndex hash request.2
    · simp [check, entry, hshard, HashMap.get_insert, hip]
    · simp [check, entry, Function.update_of_ne hshard, hip]

theorem entry_run (requests : List (ℚ × IpAddr)) (ip : IpAddr) :
    ((run hash windowCapacity requests).entry hash ip).isSome = true ↔ ∃ t, (t, ip) ∈ requests := by
  induction requests using reverseRecOn with
  | nil => simp [run, new, entry]
  | append_singleton requests request ih =>
    rw [run, foldl_append, foldl_cons, foldl_nil, entry_check, ← run, ih]
    simp [mem_append, exists_or, Prod.ext_iff, or_comm, eq_comm]

end DDoSDetector

def recentAddresses (requests : List (ℚ × IpAddr)) (now span : ℚ) : Set IpAddr := { ip | ∃ t, (t, ip) ∈ requests ∧ now - t < span }

theorem recentAddresses_bound_iff (requests : List (ℚ × IpAddr)) (now span : ℚ) :
    { ip | ∃ t, (t, ip) ∈ requests }.encard ≤ (recentAddresses requests now span).encard
      ↔ ∀ t ip, (t, ip) ∈ requests → ip ∈ recentAddresses requests now span := by
  have hfinite : { ip | ∃ t, (t, ip) ∈ requests }.Finite := by
    refine (requests.map (·.2)).finite_toSet.subset ?_
    rintro ip ⟨t, ht⟩
    exact mem_map.2 ⟨_, ht, rfl⟩
  have hpart : recentAddresses requests now span ⊆ { ip | ∃ t, (t, ip) ∈ requests } := fun ip ⟨t, ht, _⟩ => ⟨t, ht⟩
  rw [encard_le_iff_subset hfinite hpart]
  exact ⟨fun h t ip ht => h ⟨t, ht⟩, fun h ip ⟨t, ht⟩ => h t ip ht⟩

namespace Scanner

def System.verified (s : System) : List (ℚ × IpAddr) := s.log.map fun v => (v.made, v.ip)

theorem cache_of_log {rules : List BotAllowlistRule} {ttl : ℕ} {events : List Event} (h : ∀ e ∈ events, ∀ t, e ≠ .evictStale t)
    (ip : IpAddr) : (((System.start rules ttl).run events).list.verifiedCache.get ip).isSome = true
      ↔ ∃ t, (t, ip) ∈ ((System.start rules ttl).run events).verified := by
  induction events using reverseRecOn with
  | nil => simp [System.run, System.start, System.verified, BotAllowlist.spawn]
  | append_singleton events e ih =>
    have hih := ih fun e' he' => h e' (mem_append_left _ he')
    rw [System.run, foldl_append, foldl_cons, foldl_nil, ← System.run]
    generalize (System.start rules ttl).run events = s at hih ⊢
    cases e with
    | check now userAgent ip' =>
      rw [System.step, BotAllowlist.check]
      rcases BotAllowlist.checkRules_state with hsame | ⟨p, -, -, hsent⟩
      · rw [hsame]
        exact hih
      · rw [hsent]
        exact hih
    | recv now =>
      rw [System.step, System.recv]
      split <;> exact hih
    | finish now dns =>
      rw [System.step, System.finish]
      split
      · exact hih
      · simp only [System.verified, map_append, map_cons, map_nil, mem_append, mem_singleton,
          Prod.ext_iff, exists_or, HashMap.get_insert] at hih ⊢
        split_ifs with hip <;> simp [hip, hih]
    | evictStale now => exact absurd rfl (h _ (by simp) now)

end Scanner

/-- **Tables of clients.** The rate limiter holds no more buckets than keys used recently; the detector and the cache hold no more
entries than recent addresses exactly when all addresses there ever were are recent. -/
theorem client_tables_bounded_iff (hash : RateLimitKey → UInt64) (config : RateLimitConfig) (calls : List RateLimiter.Call)
    (interval now : ℚ) (hashIp : IpAddr → UInt64) (windowCapacity windowSecs : ℕ) (requests : List (ℚ × IpAddr))
    (rules : List Scanner.BotAllowlistRule) (cacheTtlSecs : ℕ) (events : List Scanner.Event) :
    (RateLimiter.InOrder calls → RateLimiter.FromStart calls → RateLimiter.EvictsEvery interval now calls →
        (RateLimiter.heldKeys hash (calls.foldl (RateLimiter.step hash) (.new config))).encard
          ≤ (RateLimiter.recentKeys calls now (config.staleAfterSecs + interval)).encard)
      ∧ ({ ip | ((DDoSDetector.run hashIp windowCapacity requests).entry hashIp ip).isSome = true }.encard
          ≤ (recentAddresses requests now windowSecs).encard
        ↔ ∀ t ip, (t, ip) ∈ requests → ip ∈ recentAddresses requests now windowSecs)
      ∧ ((∀ e ∈ events, ∀ t, e ≠ .evictStale t) →
        let s := (Scanner.System.start rules cacheTtlSecs).run events
        ({ ip | (s.list.verifiedCache.get ip).isSome = true }.encard ≤ (recentAddresses s.verified now cacheTtlSecs).encard
          ↔ ∀ t ip, (t, ip) ∈ s.verified → ip ∈ recentAddresses s.verified now cacheTtlSecs)) := by
  refine ⟨fun horder hstart hthread => Set.encard_le_encard (RateLimiter.heldKeys_subset horder hstart hthread), ?_, fun hevents => ?_⟩
  · simp only [DDoSDetector.entry_run]
    exact recentAddresses_bound_iff requests now windowSecs
  · simp only [Scanner.cache_of_log hevents]
    exact recentAddresses_bound_iff _ now cacheTtlSecs

/-- two clients and an eviction every five minutes -/
def evictedCalls : List RateLimiter.Call :=
  [.check 0 (.v4 1) (.ip (.v4 1)), .evictStale 300, .evictStale 600, .check 700 (.v4 2) (.ip (.v4 2)), .evictStale 900,
    .evictStale 1200]

theorem evictedCalls_thread : RateLimiter.EvictsEvery 300 1200 evictedCalls := by
  intro t ht hnow
  -- the eviction of the interval that `t` falls in
  have hnext (τ : ℚ) (hτ : .evictStale τ ∈ evictedCalls) (hlt : t < τ) (hle : τ - 300 ≤ t) :
      ∃ τ, .evictStale τ ∈ evictedCalls ∧ t < τ ∧ τ ≤ t + 300 := ⟨τ, hτ, hlt, by linarith⟩
  rcases lt_or_ge t 300 with h300 | h300
  · exact hnext 300 (by simp [evictedCalls]) h300 (by linarith)
  rcases lt_or_ge t 600 with h600 | h600
  · exact hnext 600 (by simp [evictedCalls]) h600 (by linarith)
  rcases lt_or_ge t 900 with h900 | h900
  · exact hnext 900 (by simp [evictedCalls]) h900 (by linarith)
  · exact hnext 1200 (by simp [evictedCalls]) (by linarith) (by linarith)

theorem evictedCalls_bounded :
    (RateLimiter.heldKeys (fun _ => 0) (evictedCalls.foldl (RateLimiter.step fun _ => 0) (.new ⟨[], 600, ⟨2, 1⟩, ⟨2, 1⟩⟩))).encard
      ≤ (RateLimiter.recentKeys evictedCalls 1200 ((600 : ℕ) + 300)).encard :=
  (client_tables_bounded_iff _ _ _ 300 1200 (fun _ => 0) 1 1 [] [] 1 []).1
    (by simp [RateLimiter.InOrder, RateLimiter.Call.time, evictedCalls]; norm_num)
    (by simp [RateLimiter.FromStart, RateLimiter.Call.time, evictedCalls]) evictedCalls_thread

/-- two addresses, the first of them an hour ago; an hour later the detector still holds both -/
theorem detector_keeps_old_address :
    ¬{ ip | ((DDoSDetector.run (fun _ => 0) 100 [(0, .v4 1), (3600, .v4 2)]).entry (fun _ => 0) ip).isSome = true }.encard
      ≤ (recentAddresses [(0, .v4 1), (3600, .v4 2)] 3600 60).encard := by
  simp only [DDoSDetector.entry_run]
  rw [recentAddresses_bound_iff]
  intro h
  obtain ⟨t, ht, hrecent⟩ := h 0 (.v4 1) (by simp)
  simp at ht
  rw [ht] at hrecent
  norm_num at hrecent

end SunbeamProxy
