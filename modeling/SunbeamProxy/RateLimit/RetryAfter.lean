/-
What `retry_after` promises a rejected client (`rate_limit/limiter.rs`).
-/
import SunbeamProxy.RateLimit.Limiter

namespace SunbeamProxy.RateLimiter

variable {hash : RateLimitKey → UInt64} {lim : RateLimiter} {key : RateLimitKey}

theorem check_allow_iff (htagged : lim.Tagged hash key) (now : ℚ) (ip : IpAddr) : (lim.check hash now ip key).1 = .allow
      ↔ isBypassed ip lim.bypassCidrs = true
        ∨ 1 ≤ TokenBucket.level (lim.keyConfig key) now ((lim.bucketOf hash key).getD ⟨(lim.keyConfig key).burst, now⟩) := by
  cases hip : isBypassed ip lim.bypassCidrs with
  | true => simp [check, hip]
  | false =>
    have hop : opOf lim.bypassCidrs key (.check now ip key) = some (.take now) := by simp [opOf, hip]
    have hstep := congrArg Prod.snd (step_bucketOf htagged hop)
    rw [allows, TokenBucket.step] at hstep
    by_cases hone : 1 ≤ TokenBucket.level (lim.keyConfig key) now ((lim.bucketOf hash key).getD ⟨(lim.keyConfig key).burst, now⟩)
    · simp_all
    · simp_all

theorem reject_bucket (htagged : lim.Tagged hash key) {now : ℚ} {ip : IpAddr} {r : ℕ}
    (h : (lim.check hash now ip key).1 = .reject r) :
    ∃ tokens : ℚ, (lim.check hash now ip key).2.bucketOf hash key = some ⟨tokens, now⟩
      ∧ r = retryAfterSecs tokens (lim.keyConfig key).rate := by
  have hbypass : ¬isBypassed ip lim.bypassCidrs = true := by
    intro hip
    simp [check, hip] at h
  have hused : (lim.useBucket now (lim.bucketFor hash now key)).1 = .reject r := by
    rw [check, if_neg hbypass] at h
    exact h
  rw [bucketOf, entry_check, if_pos ⟨rfl, eq_false_of_ne_true hbypass⟩]
  unfold useBucket at hused ⊢
  split_ifs at hused ⊢
  refine ⟨_, rfl, ?_⟩
  rw [bucketFor_authenticated htagged] at hused
  exact (RateLimitResult.reject.inj hused).symm

theorem run_tagged (h : lim.Tagged hash key) (calls : List Call) : (calls.foldl (step hash) lim).Tagged hash key := by
  induction calls generalizing lim with
  | nil => exact h
  | cons call calls ih => exact ih (step_tagged h call)

theorem run_settings (hash : RateLimitKey → UInt64) (lim : RateLimiter) (key : RateLimitKey) (calls : List Call) :
    (calls.foldl (step hash) lim).bypassCidrs = lim.bypassCidrs
      ∧ (calls.foldl (step hash) lim).keyConfig key = lim.keyConfig key := by
  induction calls generalizing lim with
  | nil => exact ⟨rfl, rfl⟩
  | cons call calls ih =>
    obtain ⟨hcidrs, hconfig⟩ := step_settings hash lim call key
    exact ⟨(ih _).1.trans hcidrs, (ih _).2.trans hconfig⟩

theorem bucketOf_between {calls : List Call} (h : ∀ call ∈ calls, ∀ now ip, call ≠ .check now ip key) :
    (calls.foldl (step hash) lim).bucketOf hash key = lim.bucketOf hash key
      ∨ (calls.foldl (step hash) lim).bucketOf hash key = none := by
  induction calls generalizing lim with
  | nil => exact .inl rfl
  | cons call calls ih =>
    have hone : (lim.step hash call).bucketOf hash key = lim.bucketOf hash key
        ∨ (lim.step hash call).bucketOf hash key = none := by
      cases call with
      | check now ip k =>
        have hkey : k ≠ key := fun hk => h _ List.mem_cons_self now ip (by rw [hk])
        exact .inl (bucketOf_unseen hash (by rw [opOf, if_neg fun hown => hkey hown.1])).1
      | evictStale now =>
        simp only [step, bucketOf, entry_evictStale]
        cases lim.entry hash key with
        | none => exact .inl rfl
        | some b =>
          rw [Option.filter_some]
          split_ifs
          · exact .inl rfl
          · exact .inr rfl
    rcases @ih (lim.step hash call) fun c hc => h c (List.mem_cons_of_mem _ hc) with hsame | hgone
    · exact hone.imp hsame.trans hsame.trans
    · exact .inr hgone

theorem one_le_of_wait {tokens rate d : ℚ} (hrate : 0 < rate) (hlarge : retryAfterSecs tokens rate < 2 ^ 64 - 1)
    (hd : (retryAfterSecs tokens rate : ℚ) ≤ d) : 1 ≤ tokens + d * rate := by
  have hceil : ⌈(1 - tokens) / rate⌉₊ ≤ retryAfterSecs tokens rate := by
    rw [retryAfterSecs, if_neg hrate.ne'] at hlarge ⊢
    omega
  have hwait := calc
    (1 - tokens) / rate ≤ ⌈(1 - tokens) / rate⌉₊ := Nat.le_ceil _
    _ ≤ retryAfterSecs tokens rate := by exact_mod_cast hceil
    _ ≤ d := hd
  linarith [(div_le_iff₀ hrate).1 hwait]

theorem lt_one_of_early {tokens rate d : ℚ} (hrate : 0 < rate) (hr : 1 < retryAfterSecs tokens rate)
    (hd : d < retryAfterSecs tokens rate - 1) : tokens + d * rate < 1 := by
  have hceil : retryAfterSecs tokens rate - 1 < ⌈(1 - tokens) / rate⌉₊ := by
    rw [retryAfterSecs, if_neg hrate.ne'] at hr ⊢
    omega
  have hwait := calc
    d < ((retryAfterSecs tokens rate - 1 : ℕ) : ℚ) := by rwa [Nat.cast_sub hr.le]
    _ < (1 - tokens) / rate := Nat.lt_ceil.1 hceil
  linarith [(lt_div_iff₀ hrate).1 hwait]

variable (hash) in
/-- **A rejected client may come back when told**, whatever comes in between, unless the time was cut off; more than a second
before, exactly when its address is bypassed or its bucket was evicted. -/
theorem retry_after_kept (config : RateLimitConfig) (key : RateLimitKey)
    (hburst : 1 ≤ ((new config).tier key.isAuthenticated).burst) (hrate : 0 < ((new config).tier key.isAuthenticated).rate)
    (before : List Call) (t : ℚ) (ip : IpAddr) (r : ℕ)
    (hreject : ((before.foldl (step hash) (new config)).check hash t ip key).1 = .reject r)
    (between : List Call) (hbetween : ∀ call ∈ between, ∀ now ip, call ≠ .check now ip key) (t' : ℚ) (ip' : IpAddr) :
    let lim := (before ++ .check t ip key :: between).foldl (step hash) (new config)
    (r < 2 ^ 64 - 1 → t + r ≤ t' → (lim.check hash t' ip' key).1 = .allow) ∧ (1 < r → t' < t + r - 1 →
        ((lim.check hash t' ip' key).1 = .allow
          ↔ isBypassed ip' (parseCidrs config.bypassCidrs) = true ∨ lim.entry hash key = none)) := by
  intro lim
  have hnew : (new config).Tagged hash key := fun b hb => by cases hb
  have htagged := run_tagged hnew before
  obtain ⟨tokens, hbucket, hr⟩ := reject_bucket htagged hreject
  have hrun : lim = between.foldl (step hash) ((before.foldl (step hash) (new config)).check hash t ip key).2 := List.foldl_append
  obtain ⟨hcidrs, hconfig⟩ := run_settings hash (new config) key (before ++ .check t ip key :: between)
  rw [(run_settings hash (new config) key before).2] at hr
  have hburst' : (1 : ℚ) ≤ ((new config).keyConfig key).burst := Nat.one_le_cast.2 hburst
  have hgone : lim.entry hash key = none ↔ lim.bucketOf hash key = none := Option.map_eq_none_iff.symm
  rw [check_allow_iff (run_tagged hnew _), hgone, show lim.bypassCidrs = _ from hcidrs, show lim.keyConfig key = _ from hconfig]
  rcases hrun ▸ @bucketOf_between hash _ _ _ hbetween with hsame | hnone
  · rw [hsame, hbucket, TokenBucket.level, le_min_iff]
    refine ⟨fun hlarge hwait => .inr ⟨?_, hburst'⟩, fun hone hearly => or_congr .rfl ?_⟩
    · have hd : (retryAfterSecs tokens ((new config).keyConfig key).rate : ℚ) ≤ max 0 (t' - t) := by
        rw [← hr]
        exact le_max_of_le_right (by linarith)
      exact one_le_of_wait hrate (hr ▸ hlarge) hd
    · have hd : max 0 (t' - t) < (retryAfterSecs tokens ((new config).keyConfig key).rate : ℚ) - 1 := by
        rw [← hr]
        exact max_lt (sub_pos.2 (Nat.one_lt_cast.2 hone)) (by linarith)
      exact iff_of_false (fun hlevel => not_le.2 (lt_one_of_early hrate (hr ▸ hone) hd) hlevel.1) (Option.some_ne_none _)
  · have hfull : 1 ≤ TokenBucket.level ((new config).keyConfig key) t' ⟨((new config).keyConfig key).burst, t'⟩ := by
      rw [TokenBucket.level, sub_self, max_self, zero_mul, add_zero, min_self]
      exact hburst'
    rw [hnone]
    exact ⟨fun _ _ => .inr hfull, fun _ _ => or_congr .rfl (iff_of_true hfull rfl)⟩

def emptied : List Call := List.replicate 2 (.check 0 visitor (.ip visitor))

theorem emptied_rejects :
    ((emptied.foldl (step fun _ => 0) (new slowConfig)).check (fun _ => 0) 0 visitor (.ip visitor)).1 = .reject 1000 := by
  decide +kernel

theorem retry_after_kept_slow :
    (((emptied ++ [Call.check 0 visitor (.ip visitor), .evictStale 60]).foldl (step fun _ => 0) (new slowConfig)).check
      (fun _ => 0) 1000 visitor (.ip visitor)).1 = .allow :=
  (retry_after_kept _ slowConfig (.ip visitor) (by decide) (by decide +kernel) emptied 0 visitor 1000 emptied_rejects
    [.evictStale 60] (by simp) 1000 visitor).1 (by decide) (by norm_num)

theorem evicted_client_early :
    ((emptied.foldl (step fun _ => 0) (new slowConfig)).check (fun _ => 0) 0 visitor (.ip visitor)).1 = .reject 1000
      ∧ (((emptied ++ [Call.check 0 visitor (.ip visitor), .evictStale 600]).foldl (step fun _ => 0) (new slowConfig)).check
        (fun _ => 0) 600 visitor (.ip visitor)).1 = .allow :=
  ⟨emptied_rejects, by decide +kernel⟩

end SunbeamProxy.RateLimiter
