/-
When an eviction cannot be told from outside (`rate_limit/limiter.rs`): the limiter against one that keeps every bucket for ever.
-/
import SunbeamProxy.RateLimit.RetryAfter

namespace SunbeamProxy.RateLimiter

section Hash

variable (hash : RateLimitKey → UInt64)

def Call.isCheck : Call → Bool
  | .check _ _ _ => true
  | .evictStale _ => false

/-- what the callers of `check` are told, in order -/
def answers : RateLimiter → List Call → List RateLimitResult
  | _, [] => []
  | lim, .check now ip key :: calls => (lim.check hash now ip key).1 :: answers (lim.step hash (.check now ip key)) calls
  | lim, .evictStale now :: calls => answers (lim.step hash (.evictStale now)) calls

/-- the limiters have the same settings, and buckets alike at `t` -/
structure Alike (t : ℚ) (lim plain : RateLimiter) : Prop where
  cidrs : lim.bypassCidrs = plain.bypassCidrs
  config : ∀ key, lim.keyConfig key = plain.keyConfig key
  tagged : ∀ key, lim.Tagged hash key ∧ plain.Tagged hash key
  buckets : ∀ key, TokenBucket.Alike (lim.keyConfig key) t (lim.bucketOf hash key) (plain.bucketOf hash key)

/-- a bucket of either tier is full again by the time it is stale -/
def FillsInTime (lim : RateLimiter) : Prop :=
  ∀ key, 0 ≤ (lim.keyConfig key).rate ∧ (lim.keyConfig key).burst ≤ (lim.keyConfig key).rate * (lim.keyConfig key).idle

end Hash

variable {hash : RateLimitKey → UInt64} {t now : ℚ} {lim plain : RateLimiter}

theorem check_answer {key : RateLimitKey} (htagged : lim.Tagged hash key) (now : ℚ) (ip : IpAddr) :
    (lim.check hash now ip key).1 = if isBypassed ip lim.bypassCidrs then .allow
      else if 1 ≤ TokenBucket.potential (lim.keyConfig key) now (lim.bucketOf hash key) then .allow
      else .reject (retryAfterSecs (TokenBucket.potential (lim.keyConfig key) now (lim.bucketOf hash key)) (lim.keyConfig key).rate) := by
  have hlevel : lim.refilled now (lim.bucketFor hash now key)
      = TokenBucket.potential (lim.keyConfig key) now (lim.bucketOf hash key) := by
    rw [refilled, bucketFor_authenticated htagged, ← TokenBucket.level_getD, bucketFor, bucketOf]
    cases lim.entry hash key <;> rfl
  rw [check, useBucket, bucketFor_authenticated htagged, hlevel]
  split_ifs <;> rfl

theorem bucketOf_step {key : RateLimitKey} (htagged : lim.Tagged hash key) {call : Call} {op : TokenBucket.Op ℚ}
    (hop : opOf lim.bypassCidrs key call = some op) :
    (lim.step hash call).bucketOf hash key = (TokenBucket.step (lim.keyConfig key) (lim.bucketOf hash key) op).1 := by
  rw [step_bucketOf htagged hop]

theorem Alike.answer (h : Alike hash t lim plain) (ht : t ≤ now) (ip : IpAddr) (key : RateLimitKey) :
    (lim.check hash now ip key).1 = (plain.check hash now ip key).1 := by
  rw [check_answer (h.tagged key).1, check_answer (h.tagged key).2, h.cidrs, h.config, ← h.config,
    (h.buckets key).level now ht, h.config]

theorem Alike.step_check (h : Alike hash t lim plain) (hfills : lim.FillsInTime) (ht : t ≤ now) (ip : IpAddr) (k : RateLimitKey) :
    Alike hash now (lim.step hash (.check now ip k)) (plain.step hash (.check now ip k)) := by
  refine ⟨?_, fun key => ?_, fun key => ⟨step_tagged (h.tagged key).1 _, step_tagged (h.tagged key).2 _⟩, fun key => ?_⟩
  · rw [(step_settings hash lim _ k).1, (step_settings hash plain _ k).1, h.cidrs]
  · rw [(step_settings hash lim _ key).2, (step_settings hash plain _ key).2, h.config]
  · rw [(step_settings hash lim _ key).2]
    cases hop : opOf lim.bypassCidrs key (.check now ip k) with
    | none =>
      rw [(bucketOf_unseen hash hop).1, (bucketOf_unseen hash (h.cidrs ▸ hop)).1]
      exact (h.buckets key).mono ht
    | some op =>
      have htake : op = .take now := by
        rw [opOf] at hop
        split_ifs at hop
        exact (Option.some.inj hop).symm
      subst htake
      rw [bucketOf_step (h.tagged key).1 hop, bucketOf_step (h.tagged key).2 (h.cidrs ▸ hop), ← h.config]
      exact (h.buckets key).take ht (hfills key).1 (Nat.cast_nonneg _)

theorem Alike.step_evictStale (h : Alike hash t lim plain) (hfills : lim.FillsInTime) (ht : t ≤ now) :
    Alike hash now (lim.step hash (.evictStale now)) plain := by
  refine ⟨h.cidrs, h.config, fun key => ⟨step_tagged (h.tagged key).1 _, (h.tagged key).2⟩, fun key => ?_⟩
  have hop : opOf lim.bypassCidrs key (.evictStale now) = some (.forget now) := rfl
  rw [(step_settings hash lim _ key).2, bucketOf_step (h.tagged key).1 hop]
  exact (h.buckets key).forget ht (hfills key).1 (Nat.cast_nonneg _) (hfills key).2

theorem fillsInTime_step (hfills : lim.FillsInTime) (call : Call) : (lim.step hash call).FillsInTime := by
  intro key
  rw [(step_settings hash lim call key).2]
  exact hfills key

theorem Alike.answers_eq (h : Alike hash t lim plain) (hfills : lim.FillsInTime) {calls : List Call} (horder : InOrder calls)
    (hlater : ∀ call ∈ calls, t ≤ call.time) : answers hash lim calls = answers hash plain (calls.filter Call.isCheck) := by
  induction calls generalizing t lim plain with
  | nil => rfl
  | cons call calls ih =>
    obtain ⟨hfirst, hrest⟩ := List.pairwise_cons.1 horder
    have ht := hlater call List.mem_cons_self
    cases call with
    | check now ip key =>
      rw [List.filter_cons_of_pos rfl, answers, answers]
      exact congrArg₂ List.cons (h.answer ht ip key) (ih (h.step_check hfills ht ip key) (fillsInTime_step hfills _) hrest hfirst)
    | evictStale now =>
      rw [List.filter_cons_of_neg Bool.false_ne_true, answers]
      exact ih (h.step_evictStale hfills ht) (fillsInTime_step hfills _) hrest hfirst

/-- **Evictions are not seen.** Where a bucket of either tier is full again by the time it is stale, every run of calls in the order
of their times, with evictions anywhere in it, answers each check (a `retry_after` included) as the run without them does. -/
theorem evictions_unobservable (hash : RateLimitKey → UInt64) (config : RateLimitConfig)
    (hfills : ∀ tier ∈ [config.authenticated, config.unauthenticated], 0 ≤ tier.rate ∧ tier.burst ≤ tier.rate * config.staleAfterSecs)
    {calls : List Call} (horder : InOrder calls) :
    answers hash (new config) calls = answers hash (new config) (calls.filter Call.isCheck) := by
  have hfresh : ∀ key, (new config).bucketOf hash key = none := fun key => by simp [bucketOf, entry, new]
  have htagged : ∀ key, (new config).Tagged hash key := fun key b hb => by simp [entry, new] at hb
  have hnew : (new config).FillsInTime := by
    intro key
    cases key with
    | identity id => exact hfills _ List.mem_cons_self
    | ip addr => exact hfills _ (List.mem_cons_of_mem _ List.mem_cons_self)
  cases calls with
  | nil => rfl
  | cons call calls =>
    have hstart : Alike hash call.time (new config) (new config) := by
      refine ⟨rfl, fun _ => rfl, fun key => ⟨htagged key, htagged key⟩, fun key => ⟨?_, fun _ _ => rfl⟩⟩
      rw [hfresh key]
      exact TokenBucket.valid_none _ _
    refine hstart.answers_eq hnew horder (List.forall_mem_cons.2 ⟨le_rfl, (List.pairwise_cons.1 horder).1⟩)

/-- two tokens and one more in ten seconds; the bucket is evicted when it is just full, and asked for again -/
theorem eviction_of_full_bucket :
    answers (fun _ => 0) (new ⟨[], 20, ⟨2, 1 / 10⟩, ⟨2, 1 / 10⟩⟩)
        [.check 0 visitor (.ip visitor), .check 0 visitor (.ip visitor), .evictStale 20, .check 20 visitor (.ip visitor)]
      = answers (fun _ => 0) (new ⟨[], 20, ⟨2, 1 / 10⟩, ⟨2, 1 / 10⟩⟩)
        [.check 0 visitor (.ip visitor), .check 0 visitor (.ip visitor), .check 20 visitor (.ip visitor)] :=
  evictions_unobservable (fun _ => 0) ⟨[], 20, ⟨2, 1 / 10⟩, ⟨2, 1 / 10⟩⟩ (by norm_num) (by simp [InOrder, Call.time])

end SunbeamProxy.RateLimiter
