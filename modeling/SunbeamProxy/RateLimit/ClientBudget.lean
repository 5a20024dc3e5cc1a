/-
What one client address is admitted in all (`rate_limit/key.rs` before `rate_limit/limiter.rs`).
-/
import SunbeamProxy.RateLimit.Limiter

namespace SunbeamProxy.RateLimiter

structure ClientRequest where
  time : ℚ
  ip : IpAddr
  cookie : Option String := none
  auth : Option String := none
deriving DecidableEq, Repr

section Hash

-- `FxHasher` on a credential and on a key
variable (fxHash : String → UInt64) (hash : RateLimitKey → UInt64)

def ClientRequest.key (r : ClientRequest) : RateLimitKey := extractKey fxHash r.cookie r.auth r.ip

def ClientRequest.call (r : ClientRequest) : Call := .check r.time r.ip (r.key fxHash)

/-- the request is one of the address, with a time from `lo` to `hi` -/
def ClientRequest.Counts (addr : IpAddr) (lo hi : ℚ) (r : ClientRequest) : Prop := r.ip = addr ∧ lo ≤ r.time ∧ r.time ≤ hi

instance ClientRequest.decidableCounts (addr : IpAddr) (lo hi : ℚ) (r : ClientRequest) : Decidable (r.Counts addr lo hi) :=
  inferInstanceAs (Decidable (_ ∧ _ ∧ _))

def admitted (addr : IpAddr) (lo hi : ℚ) : RateLimiter → List ClientRequest → ℕ
  | _, [] => 0
  | lim, r :: reqs =>
    (if r.Counts addr lo hi ∧ (lim.check hash r.time r.ip (r.key fxHash)).1 = .allow then 1 else 0)
      + admitted addr lo hi (lim.check hash r.time r.ip (r.key fxHash)).2 reqs

def presentedKeys (addr : IpAddr) (lo hi : ℚ) (reqs : List ClientRequest) : Finset RateLimitKey :=
  ((reqs.filter fun r => r.Counts addr lo hi).map (ClientRequest.key fxHash)).toFinset

variable (config : RateLimitConfig)

def maxBurst : ℚ := max config.authenticated.burst config.unauthenticated.burst

def maxRate : ℚ := max config.authenticated.rate config.unauthenticated.rate

variable {fxHash hash}

variable {reqs : List ClientRequest}

theorem admitted_le_sum {addr : IpAddr} {lim : RateLimiter} (haddr : isBypassed addr lim.bypassCidrs = false)
    {lo hi : ℚ} {keys : Finset RateLimitKey} (hkeys : ∀ r ∈ reqs, r.Counts addr lo hi → r.key fxHash ∈ keys) :
    admitted fxHash hash addr lo hi lim reqs
      ≤ ∑ key ∈ keys, allowed hash key lo hi lim (reqs.map (ClientRequest.call fxHash)) := by
  induction reqs generalizing lim with
  | nil => exact Nat.zero_le _
  | cons r reqs ih =>
    obtain ⟨hr, hreqs⟩ := List.forall_mem_cons.1 hkeys
    have hnext : isBypassed addr (lim.step hash (r.call fxHash)).bypassCidrs = false := by
      rwa [(step_settings hash lim (r.call fxHash) (r.key fxHash)).1]
    have htail := ih hnext hreqs
    simp only [List.map_cons, allowed, Finset.sum_add_distrib]
    refine Nat.add_le_add ?_ htail
    split_ifs with hadmitted
    · obtain ⟨hcounts, hallow⟩ := hadmitted
      have hallows : lim.allows hash (r.key fxHash) (r.call fxHash) = true := by
        simp [allows, ClientRequest.call, hcounts.1, haddr, ← hallow]
      refine le_trans ?_ (Finset.single_le_sum (fun _ _ => Nat.zero_le _) (hr hcounts))
      rw [if_pos ⟨hallows, hcounts.2⟩]
    · exact Nat.zero_le _

theorem mem_presentedKeys {addr : IpAddr} {lo hi : ℚ} {r : ClientRequest} (hr : r ∈ reqs)
    (hcounts : r.Counts addr lo hi) : r.key fxHash ∈ presentedKeys fxHash addr lo hi reqs := by
  rw [presentedKeys, List.mem_toFinset]
  exact List.mem_map_of_mem (List.mem_filter.2 ⟨hr, by simpa using hcounts⟩)

theorem take_of_mem_ops {bypassCidrs : List CidrBlock} {key : RateLimitKey} {op : TokenBucket.Op ℚ}
    (h : op ∈ (reqs.map (ClientRequest.call fxHash)).filterMap (opOf bypassCidrs key)) :
    ∃ t, op = .take t := by
  obtain ⟨call, hcall, hop⟩ := List.mem_filterMap.1 h
  obtain ⟨r, -, rfl⟩ := List.mem_map.1 hcall
  simp only [ClientRequest.call, opOf] at hop
  split_ifs at hop
  exact ⟨r.time, (Option.some.inj hop).symm⟩

theorem allowed_le_budget (key : RateLimitKey)
    (hreqs : InOrder (reqs.map (ClientRequest.call fxHash))) {lo hi : ℚ} (hlo : lo ≤ hi) :
    (allowed hash key lo hi (new config) (reqs.map (ClientRequest.call fxHash)) : ℚ)
      ≤ maxBurst config + max 0 (maxRate config) * (hi - lo) := by
  have hburst : (((new config).tier key.isAuthenticated).burst : ℚ) ≤ maxBurst config := by
    unfold tier maxBurst
    split_ifs
    · exact le_max_left _ _
    · exact le_max_right _ _
  have hrate : ((new config).tier key.isAuthenticated).rate ≤ maxRate config := by
    unfold tier maxRate
    split_ifs
    · exact le_max_left _ _
    · exact le_max_right _ _
  rw [allowed_new]
  calc _ ≤ (((new config).tier key.isAuthenticated).burst : ℚ)
        + max 0 ((new config).tier key.isAuthenticated).rate * (hi - lo) :=
        TokenBucket.takes_le (c := (new config).keyConfig key) (Nat.cast_nonneg _) hlo (fun _ h => take_of_mem_ops h)
          (inOrder_ops hreqs _ key)
    _ ≤ maxBurst config + max 0 (maxRate config) * (hi - lo) :=
        add_le_add hburst (mul_le_mul_of_nonneg_right (max_le_max_left 0 hrate) (sub_nonneg.2 hlo))

variable (fxHash hash) in
/-- **What an address is admitted.** However a client outside the bypass ranges chooses its credentials, in every stretch of time
it is admitted at most one budget for each key it presents. -/
theorem admitted_le_keys (config : RateLimitConfig) (addr : IpAddr)
    (haddr : isBypassed addr (parseCidrs config.bypassCidrs) = false) (reqs : List ClientRequest)
    (hreqs : reqs.Pairwise fun a b => a.time ≤ b.time) (lo hi : ℚ) (hlo : lo ≤ hi) :
    (admitted fxHash hash addr lo hi (new config) reqs : ℚ)
      ≤ (presentedKeys fxHash addr lo hi reqs).card * (maxBurst config + max 0 (maxRate config) * (hi - lo)) := by
  have horder : InOrder (reqs.map (ClientRequest.call fxHash)) := List.pairwise_map.2 hreqs
  have hsum : admitted fxHash hash addr lo hi (new config) reqs ≤ ∑ key ∈ presentedKeys fxHash addr lo hi reqs,
        allowed hash key lo hi (new config) (reqs.map (ClientRequest.call fxHash)) :=
    admitted_le_sum haddr fun _ hr hcounts => mem_presentedKeys hr hcounts
  calc (admitted fxHash hash addr lo hi (new config) reqs : ℚ) ≤ ∑ key ∈ presentedKeys fxHash addr lo hi reqs,
          (allowed hash key lo hi (new config) (reqs.map (ClientRequest.call fxHash)) : ℚ) := by exact_mod_cast hsum
    _ ≤ ∑ _key ∈ presentedKeys fxHash addr lo hi reqs, (maxBurst config + max 0 (maxRate config) * (hi - lo)) :=
        Finset.sum_le_sum fun key _ => allowed_le_budget config key horder hlo
    _ = _ := by rw [Finset.sum_const, nsmul_eq_mul]

end Hash

def tightConfig : RateLimitConfig := { authenticated := ⟨1, 1⟩, unauthenticated := ⟨1, 1⟩ }

def tokenSwitch : List ClientRequest :=
  [{ time := 0, ip := visitor, auth := some "Bearer a" }, { time := 0, ip := visitor, auth := some "Bearer bb" }]

def lengthHash (s : String) : UInt64 := UInt64.ofNat s.length

theorem token_switch_exceeds_budget : isBypassed visitor (parseCidrs tightConfig.bypassCidrs) = false
      ∧ maxBurst tightConfig + maxRate tightConfig * (0 - 0)
        < (admitted lengthHash (fun _ => 0) visitor 0 0 (new tightConfig) tokenSwitch : ℚ) := by
  refine ⟨rfl, ?_⟩
  have hadmitted : admitted lengthHash (fun _ => 0) visitor 0 0 (new tightConfig) tokenSwitch = 2 := by decide +kernel
  rw [hadmitted]
  norm_num [maxBurst, maxRate, tightConfig]

theorem token_switch_within_two_budgets : (admitted lengthHash (fun _ => 0) visitor 0 0 (new tightConfig) tokenSwitch : ℚ)
      ≤ (presentedKeys lengthHash visitor 0 0 tokenSwitch).card
        * (maxBurst tightConfig + max 0 (maxRate tightConfig) * (0 - 0)) :=
  admitted_le_keys lengthHash (fun _ => 0) tightConfig visitor rfl tokenSwitch (by decide +kernel) 0 0 le_rfl

end SunbeamProxy.RateLimiter
