/-
The rate limiter (`rate_limit/limiter.rs`): one token bucket for each key, in shards, and an eviction of the ones that have not
been used for a while.

Times are seconds since the process started and token counts are exact rationals. Each call is one step; the lock of a shard is
held for the whole of a `check`, and a bucket is only ever touched under the lock of its shard.
-/
import SunbeamProxy.Core.TokenBucket
import SunbeamProxy.Proxy.Session

namespace SunbeamProxy

structure BucketConfig where
  burst : ℕ
  rate : ℚ
deriving DecidableEq, Repr

structure RateLimitConfig where
  bypassCidrs : List String := []
  staleAfterSecs : ℕ := 600
  authenticated : BucketConfig
  unauthenticated : BucketConfig
deriving DecidableEq, Repr

def RateLimitKey.isAuthenticated : RateLimitKey → Bool
  | .identity _ => true
  | .ip _ => false

structure RateLimiter.Bucket where
  tokens : ℚ
  lastRefill : ℚ
  authenticated : Bool
deriving DecidableEq, Repr

def numShards : ℕ := 256

structure RateLimiter where
  shards : Fin numShards → HashMap RateLimitKey RateLimiter.Bucket
  bypassCidrs : List CidrBlock
  authenticated : BucketConfig
  unauthenticated : BucketConfig
  staleAfterSecs : ℕ

def durationSince (now earlier : ℚ) : ℚ := max 0 (now - earlier)

namespace RateLimiter

def new (config : RateLimitConfig) : RateLimiter :=
  ⟨fun _ => ∅, parseCidrs config.bypassCidrs, config.authenticated, config.unauthenticated, config.staleAfterSecs⟩

variable (lim : RateLimiter)

def tier (authenticated : Bool) : BucketConfig :=
  if authenticated then lim.authenticated else lim.unauthenticated

def retryAfterSecs (tokens rate : ℚ) : ℕ := max 1 (if rate = 0 then 2 ^ 64 - 1 else min (2 ^ 64 - 1) ⌈(1 - tokens) / rate⌉₊)

def refilled (now : ℚ) (bucket : Bucket) : ℚ :=
  min (bucket.tokens + durationSince now bucket.lastRefill * (lim.tier bucket.authenticated).rate)
    (lim.tier bucket.authenticated).burst

def useBucket (now : ℚ) (bucket : Bucket) : RateLimitResult × Bucket :=
  if 1 ≤ lim.refilled now bucket then (.allow, { bucket with tokens := lim.refilled now bucket - 1, lastRefill := now })
  else
    (.reject (retryAfterSecs (lim.refilled now bucket) (lim.tier bucket.authenticated).rate),
      { bucket with tokens := lim.refilled now bucket, lastRefill := now })

section Hash

-- `FxHasher` on a key
variable (hash : RateLimitKey → UInt64)

def shardIndex (key : RateLimitKey) : Fin numShards := ⟨(hash key).toNat % numShards, Nat.mod_lt _ (by decide)⟩

variable (lim : RateLimiter)

def entry (key : RateLimitKey) : Option Bucket := (lim.shards (shardIndex hash key)).get key

def bucketFor (now : ℚ) (key : RateLimitKey) : Bucket :=
  (lim.entry hash key).getD ⟨(lim.tier key.isAuthenticated).burst, now, key.isAuthenticated⟩

def check (now : ℚ) (ip : IpAddr) (key : RateLimitKey) : RateLimitResult × RateLimiter :=
  if isBypassed ip lim.bypassCidrs then (.allow, lim)
  else
    let used := lim.useBucket now (lim.bucketFor hash now key)
    let shard := (lim.shards (shardIndex hash key)).insert key used.2
    (used.1, { lim with shards := Function.update lim.shards (shardIndex hash key) shard })

end Hash

def evictStale (now : ℚ) : RateLimiter :=
  { lim with shards := fun i =>
      (lim.shards i).retain fun _ bucket => decide (durationSince now bucket.lastRefill < lim.staleAfterSecs) }

inductive Call where
  | check (now : ℚ) (ip : IpAddr) (key : RateLimitKey)
  | evictStale (now : ℚ)
deriving DecidableEq, Repr

def Call.time : Call → ℚ
  | .check now _ _ => now
  | .evictStale now => now

section Hash

variable (hash : RateLimitKey → UInt64)

variable (lim : RateLimiter)

def step : Call → RateLimiter
  | .check now ip key => (lim.check hash now ip key).2
  | .evictStale now => lim.evictStale now

def allows (key : RateLimitKey) (lim : RateLimiter) : Call → Bool
  | .check now ip k => k == key && !isBypassed ip lim.bypassCidrs && (lim.check hash now ip k).1 == .allow
  | .evictStale _ => false

def allowed (key : RateLimitKey) (lo hi : ℚ) : RateLimiter → List Call → ℕ
  | _, [] => 0
  | lim, call :: calls =>
    (if lim.allows hash key call = true ∧ lo ≤ call.time ∧ call.time ≤ hi then 1 else 0)
      + allowed key lo hi (lim.step hash call) calls

/-! ## One key -/

def bucketOf (key : RateLimitKey) : Option (TokenBucket.Bucket ℚ) :=
  (lim.entry hash key).map fun b => ⟨b.tokens, b.lastRefill⟩

/-- the bucket of the key is one of the key's own tier -/
def Tagged (key : RateLimitKey) : Prop :=
  ∀ b, lim.entry hash key = some b → b.authenticated = key.isAuthenticated

def keyConfig (key : RateLimitKey) : TokenBucket.Config ℚ :=
  ⟨(lim.tier key.isAuthenticated).burst, (lim.tier key.isAuthenticated).rate, lim.staleAfterSecs⟩

def opOf (bypassCidrs : List CidrBlock) (key : RateLimitKey) : Call → Option (TokenBucket.Op ℚ)
  | .check now ip k => if k = key ∧ isBypassed ip bypassCidrs = false then some (.take now) else none
  | .evictStale now => some (.forget now)

theorem step_settings (call : Call) (key : RateLimitKey) :
    (lim.step hash call).bypassCidrs = lim.bypassCidrs ∧ (lim.step hash call).keyConfig key = lim.keyConfig key := by
  cases call with
  | check now ip k =>
    rw [step, check]
    split_ifs <;> exact ⟨rfl, rfl⟩
  | evictStale now => exact ⟨rfl, rfl⟩

variable {hash}

theorem entry_check (now : ℚ) (ip : IpAddr) (k key : RateLimitKey) :
    (lim.check hash now ip k).2.entry hash key = if k = key ∧ isBypassed ip lim.bypassCidrs = false
        then some (lim.useBucket now (lim.bucketFor hash now key)).2 else lim.entry hash key := by
  unfold check
  by_cases hbypass : isBypassed ip lim.bypassCidrs = true
  · rw [if_pos hbypass, if_neg fun h => by simp [hbypass] at h]
  · rw [if_neg hbypass]
    by_cases hkey : k = key
    · subst hkey
      rw [if_pos ⟨rfl, eq_false_of_ne_true hbypass⟩]
      simp [entry, HashMap.get_insert]
    · rw [if_neg fun h => hkey h.1]
      simp only [entry]
      by_cases hshard : shardIndex hash key = shardIndex hash k
      · rw [hshard, Function.update_self, HashMap.get_insert, if_neg (Ne.symm hkey)]
      · rw [Function.update_of_ne hshard]

theorem entry_evictStale (now : ℚ) (key : RateLimitKey) : (lim.evictStale now).entry hash key
      = (lim.entry hash key).filter fun b => decide (durationSince now b.lastRefill < lim.staleAfterSecs) :=
  HashMap.get_retain _ _ _

theorem useBucket_authenticated (now : ℚ) (b : Bucket) :
    (lim.useBucket now b).2.authenticated = b.authenticated := by
  unfold useBucket
  split_ifs <;> rfl

variable {key : RateLimitKey} {lim : RateLimiter}

theorem step_take_useBucket (now : ℚ) {b : Bucket} (hb : b.authenticated = key.isAuthenticated) :
    TokenBucket.step (lim.keyConfig key) (some ⟨b.tokens, b.lastRefill⟩) (.take now)
      = (some ⟨(lim.useBucket now b).2.tokens, (lim.useBucket now b).2.lastRefill⟩, (lim.useBucket now b).1 == .allow) := by
  have hlevel : TokenBucket.level (lim.keyConfig key) now ⟨b.tokens, b.lastRefill⟩ = lim.refilled now b := by
    rw [refilled, hb]
    rfl
  by_cases hone : 1 ≤ lim.refilled now b <;> simp [TokenBucket.step, useBucket, hlevel, hone]

theorem bucketFor_authenticated (h : lim.Tagged hash key) (now : ℚ) :
    (lim.bucketFor hash now key).authenticated = key.isAuthenticated := by
  unfold bucketFor
  cases hentry : lim.entry hash key with
  | none => rfl
  | some b => exact h b hentry

theorem opOf_time {bypassCidrs : List CidrBlock} {call : Call} {op : TokenBucket.Op ℚ}
    (h : opOf bypassCidrs key call = some op) : op.time = call.time := by
  cases call with
  | check now ip k =>
    simp only [opOf] at h
    split_ifs at h
    cases h
    rfl
  | evictStale now =>
    cases h
    rfl

/-- **The limiter is a bucket for each key.** A call the key's bucket sees acts on it as the bucket's own operation, with the same
answer. -/
theorem step_bucketOf (htagged : lim.Tagged hash key) {call : Call} {op : TokenBucket.Op ℚ}
    (hop : opOf lim.bypassCidrs key call = some op) :
    TokenBucket.step (lim.keyConfig key) (lim.bucketOf hash key) op
      = ((lim.step hash call).bucketOf hash key, lim.allows hash key call) := by
  cases call with
  | check now ip k =>
    simp only [opOf] at hop
    split_ifs at hop with hown
    obtain ⟨rfl, hip⟩ := hown
    cases hop
    have hused : (lim.step hash (.check now ip k)).entry hash k = some (lim.useBucket now (lim.bucketFor hash now k)).2 := by
      rw [step, entry_check, if_pos ⟨rfl, hip⟩]
    have hallows : lim.allows hash k (.check now ip k) = ((lim.useBucket now (lim.bucketFor hash now k)).1 == .allow) := by
      simp [allows, hip, check]
    -- a bucket that is not on record is a full one
    have hfull : TokenBucket.step (lim.keyConfig k) (lim.bucketOf hash k) (.take now) = TokenBucket.step (lim.keyConfig k)
          (some ⟨(lim.bucketFor hash now k).tokens, (lim.bucketFor hash now k).lastRefill⟩) (.take now) := by
      unfold bucketOf bucketFor
      cases lim.entry hash k <;> rfl
    rw [hfull, step_take_useBucket now (bucketFor_authenticated htagged now), hallows, bucketOf, hused]
    rfl
  | evictStale now =>
    cases hop
    simp only [step, bucketOf, entry_evictStale]
    cases lim.entry hash key with
    | none => rfl
    | some b =>
      rw [Option.map_some, TokenBucket.step_forget, Option.filter_some]
      by_cases hkept : durationSince now b.lastRefill < lim.staleAfterSecs
      · rw [if_pos (show max 0 (now - b.lastRefill) < (lim.keyConfig key).idle from hkept), if_pos (by simpa using hkept)]
        rfl
      · rw [if_neg (show ¬max 0 (now - b.lastRefill) < (lim.keyConfig key).idle from hkept), if_neg (by simpa using hkept)]
        rfl

variable (hash) in
theorem bucketOf_unseen {call : Call} (hop : opOf lim.bypassCidrs key call = none) :
    (lim.step hash call).bucketOf hash key = lim.bucketOf hash key ∧ lim.allows hash key call = false := by
  cases call with
  | check now ip k =>
    simp only [opOf] at hop
    split_ifs at hop with hown
    refine ⟨?_, ?_⟩
    · simp [step, bucketOf, entry_check, if_neg hown]
    · simp only [allows, Bool.and_eq_false_iff]
      left
      rcases not_and_or.1 hown with hkey | hip
      · exact .inl (by simpa using hkey)
      · exact .inr (by simpa using hip)
  | evictStale now => cases hop

theorem step_tagged (h : lim.Tagged hash key) (call : Call) : (lim.step hash call).Tagged hash key := by
  intro b hb
  cases call with
  | check now ip k =>
    rw [step, entry_check] at hb
    split_ifs at hb with hown
    · cases hb
      rw [useBucket_authenticated, bucketFor_authenticated h]
    · exact h b hb
  | evictStale now =>
    rw [step, entry_evictStale, Option.filter_eq_some_iff] at hb
    exact h b hb.1

/-- **What a key is allowed** is what its bucket grants. -/
theorem allowed_eq_grants (h : lim.Tagged hash key) (lo hi : ℚ) (calls : List Call) : allowed hash key lo hi lim calls
      = TokenBucket.grants (lim.keyConfig key) lo hi (lim.bucketOf hash key) (calls.filterMap (opOf lim.bypassCidrs key)) := by
  induction calls generalizing lim with
  | nil => rfl
  | cons call calls ih =>
    obtain ⟨hcidrs, hconfig⟩ := step_settings hash lim call key
    rw [allowed, ih (step_tagged h call), hcidrs, hconfig]
    cases hop : opOf lim.bypassCidrs key call with
    | none =>
      obtain ⟨hsame, hnot⟩ := bucketOf_unseen hash hop
      rw [List.filterMap_cons_none hop, hsame, hnot, if_neg fun hin => Bool.false_ne_true hin.1, Nat.zero_add]
    | some op => rw [List.filterMap_cons_some hop, TokenBucket.grants, step_bucketOf h hop, opOf_time hop]

/-! ## The budget -/

def InOrder (calls : List Call) : Prop := calls.Pairwise fun a b => a.time ≤ b.time

theorem inOrder_ops {calls : List Call} (h : InOrder calls) (bypassCidrs : List CidrBlock) (key : RateLimitKey) :
    TokenBucket.InOrder (calls.filterMap (opOf bypassCidrs key)) := by
  refine List.Pairwise.filterMap _ ?_ h
  intro a b hab op hop op' hop'
  rw [opOf_time hop, opOf_time hop']
  exact hab

variable (hash) in
/-- in every stretch of time the key is allowed at most a burst and what the rate adds in it -/
def Enforces (config : RateLimitConfig) (key : RateLimitKey) : Prop := ∀ calls, InOrder calls → ∀ lo hi, lo ≤ hi →
    (allowed hash key lo hi (new config) calls : ℚ)
      ≤ ((new config).tier key.isAuthenticated).burst + ((new config).tier key.isAuthenticated).rate * (hi - lo)

variable (hash) in
theorem allowed_new (config : RateLimitConfig) (key : RateLimitKey) (lo hi : ℚ) (calls : List Call) :
    allowed hash key lo hi (new config) calls = TokenBucket.grants ((new config).keyConfig key) lo hi none
        (calls.filterMap (opOf (parseCidrs config.bypassCidrs) key)) := by
  have htagged : (new config).Tagged hash key := by
    intro b hb
    cases hb
  exact allowed_eq_grants htagged lo hi calls

theorem allowed_bypassed {config : RateLimitConfig} (h : ¬∃ ip, isBypassed ip (new config).bypassCidrs = false)
    (key : RateLimitKey) (lo hi : ℚ) (calls : List Call) : allowed hash key lo hi (new config) calls = 0 := by
  have hnone : ∀ lim : RateLimiter, lim.bypassCidrs = (new config).bypassCidrs → allowed hash key lo hi lim calls = 0 := by
    induction calls with
    | nil => exact fun _ _ => rfl
    | cons call calls ih =>
      intro lim hlim
      have hnot : lim.allows hash key call = false := by
        cases call with
        | check now ip k => simpa [allows, hlim] using fun _ hip => absurd ⟨ip, hip⟩ h
        | evictStale now => rfl
      rw [allowed, ih _ ((step_settings hash lim call key).1.trans hlim), hnot, if_neg fun hin => Bool.false_ne_true hin.1]
  exact hnone _ rfl

theorem rate_nonneg_of_enforces {config : RateLimitConfig} (h : Enforces hash config key) :
    0 ≤ ((new config).tier key.isAuthenticated).rate := by
  by_contra hneg
  rw [not_le] at hneg
  have hbudget := h [] .nil 0 ((((new config).tier key.isAuthenticated).burst + 1)
    / -((new config).tier key.isAuthenticated).rate) (div_nonneg (by positivity) (by linarith))
  rw [sub_zero, div_neg, mul_neg, mul_div_cancel₀ _ hneg.ne] at hbudget
  norm_num [allowed] at hbudget

def evictedBurst (ip : IpAddr) (key : RateLimitKey) (n stale : ℕ) : List Call :=
  List.replicate n (.check 0 ip key) ++ .evictStale stale :: List.replicate n (.check stale ip key)

theorem ops_evictedBurst {bypassCidrs : List CidrBlock} {ip : IpAddr} (hip : isBypassed ip bypassCidrs = false)
    (key : RateLimitKey) (n stale : ℕ) :
    (evictedBurst ip key n stale).filterMap (opOf bypassCidrs key) = TokenBucket.burstTwice n (stale : ℚ) := by
  simp [evictedBurst, TokenBucket.burstTwice, opOf, hip]

theorem inOrder_evictedBurst (ip : IpAddr) (key : RateLimitKey) (n stale : ℕ) : InOrder (evictedBurst ip key n stale) :=
  TokenBucket.pairwise_replicate_append Call.time n (Nat.cast_nonneg stale) le_rfl

variable (hash) in
/-- **The budget of a key** is kept exactly when its rate is not negative and, unless no address is counted at all, a bucket that
is evicted would be full by then. -/
theorem budget_enforced_iff (config : RateLimitConfig) (key : RateLimitKey) : Enforces hash config key
      ↔ 0 ≤ ((new config).tier key.isAuthenticated).rate ∧ ((∃ ip, isBypassed ip (parseCidrs config.bypassCidrs) = false) →
          (((new config).tier key.isAuthenticated).burst : ℚ)
            ≤ ((new config).tier key.isAuthenticated).rate * config.staleAfterSecs) := by
  apply Iff.intro
  · intro h
    have hrate := rate_nonneg_of_enforces h
    refine ⟨hrate, ?_⟩
    rintro ⟨ip, hip⟩
    by_contra hfill
    let burst := ((new config).tier key.isAuthenticated).burst
    have hover := TokenBucket.exists_grants_gt (c := (new config).keyConfig key) (n := burst) rfl hrate
      (Nat.cast_nonneg _) (not_le.1 hfill)
    have hbudget := h _ (inOrder_evictedBurst ip key burst config.staleAfterSecs) 0 config.staleAfterSecs (Nat.cast_nonneg _)
    rw [allowed_new, ops_evictedBurst hip] at hbudget
    exact not_le.2 hover hbudget
  · rintro ⟨hrate, hfill⟩ calls hcalls lo hi hlo
    by_cases hip : ∃ ip, isBypassed ip (parseCidrs config.bypassCidrs) = false
    · rw [allowed_new]
      exact TokenBucket.grants_le (c := (new config).keyConfig key) hrate (Nat.cast_nonneg _) (hfill hip) hlo
        (inOrder_ops hcalls _ key)
    · rw [allowed_bypassed hip]
      exact add_nonneg (Nat.cast_nonneg _) (mul_nonneg hrate (sub_nonneg.2 hlo))

def slowConfig : RateLimitConfig := { authenticated := ⟨10, 1⟩, unauthenticated := ⟨2, 1 / 1000⟩ }

def visitor : IpAddr := .v4 0xCB007101

end Hash

theorem evicted_bucket_exceeds_budget : InOrder (evictedBurst visitor (.ip visitor) 2 600)
      ∧ allowed (fun _ => 0) (.ip visitor) 0 600 (new slowConfig) (evictedBurst visitor (.ip visitor) 2 600) = 4
      ∧ ¬Enforces (fun _ => 0) slowConfig (.ip visitor) := by
  have hip : isBypassed visitor (parseCidrs slowConfig.bypassCidrs) = false := rfl
  have hallowed : allowed (fun _ => 0) (.ip visitor) 0 600 (new slowConfig) (evictedBurst visitor (.ip visitor) 2 600) = 4 := by
    rw [allowed_new]
    exact TokenBucket.grants_burstTwice (c := (new slowConfig).keyConfig (.ip visitor)) (n := 2) (by decide) rfl
      (Nat.cast_nonneg 600)
  refine ⟨inOrder_evictedBurst _ _ _ _, hallowed, fun h => ?_⟩
  have hbudget := h _ (inOrder_evictedBurst visitor (.ip visitor) 2 600) 0 600 (by norm_num)
  rw [hallowed] at hbudget
  norm_num [new, slowConfig, tier, RateLimitKey.isAuthenticated] at hbudget

end RateLimiter

end SunbeamProxy
