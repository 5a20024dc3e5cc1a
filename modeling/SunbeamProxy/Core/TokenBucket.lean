/-
A token bucket over an ordered field.

A bucket holds at most `burst` tokens and gains `rate` of them per unit of time. A bucket that has not been asked for a while
may be forgotten, and a bucket asked for again is full.
-/
import Mathlib.Algebra.Order.Field.Basic
import Mathlib.Tactic

namespace SunbeamProxy.TokenBucket

open List

variable {K : Type} [Field K] [LinearOrder K]

structure Config (K : Type) where
  burst : K
  rate : K
  /-- how long a bucket has to be idle before it is forgotten -/
  idle : K

structure Bucket (K : Type) where
  tokens : K
  lastRefill : K

inductive Op (K : Type) where
  | take (time : K)
  | forget (time : K)

def Op.time : Op K → K
  | .take t => t
  | .forget t => t

def level (c : Config K) (t : K) (b : Bucket K) : K := min (b.tokens + max 0 (t - b.lastRefill) * c.rate) c.burst

def step (c : Config K) (s : Option (Bucket K)) : Op K → Option (Bucket K) × Bool
  | .take t =>
    let tokens := level c t (s.getD ⟨c.burst, t⟩)
    if 1 ≤ tokens then (some ⟨tokens - 1, t⟩, true) else (some ⟨tokens, t⟩, false)
  | .forget t => (s.filter fun b => max 0 (t - b.lastRefill) < c.idle, false)

/-- the grants with a time from `lo` to `hi` -/
def grants (c : Config K) (lo hi : K) : Option (Bucket K) → List (Op K) → ℕ
  | _, [] => 0
  | s, op :: ops =>
    (if (step c s op).2 = true ∧ lo ≤ op.time ∧ op.time ≤ hi then 1 else 0) + grants c lo hi (step c s op).1 ops

def InOrder (ops : List (Op K)) : Prop := ops.Pairwise fun a b => a.time ≤ b.time

variable {c : Config K} {ops : List (Op K)}

theorem grants_eq_zero {lo hi : K} (h : ∀ op ∈ ops, hi < op.time) (s : Option (Bucket K)) : grants c lo hi s ops = 0 := by
  induction ops generalizing s with
  | nil => rfl
  | cons op ops ih =>
    obtain ⟨hop, hops⟩ := forall_mem_cons.1 h
    rw [grants, ih hops, if_neg fun hin => not_le.2 hop hin.2.2]

/-! ## The level -/

def potential (c : Config K) (t : K) (s : Option (Bucket K)) : K := (s.map (level c t)).getD c.burst

/-- a bucket was last refilled before `t` and has no debt -/
structure Valid (c : Config K) (t : K) (s : Option (Bucket K)) : Prop where
  past : ∀ b ∈ s, b.lastRefill ≤ t
  nonneg : ∀ b ∈ s, 0 ≤ b.tokens

theorem valid_none (c : Config K) (t : K) : Valid c t none := ⟨nofun, nofun⟩

theorem Valid.mono {t t' : K} {s : Option (Bucket K)} (h : Valid c t s) (ht : t ≤ t') : Valid c t' s :=
  ⟨fun b hb => (h.past b hb).trans ht, h.nonneg⟩

theorem potential_le_burst (c : Config K) (t : K) (s : Option (Bucket K)) : potential c t s ≤ c.burst := by
  cases s with
  | none => exact le_rfl
  | some b => exact min_le_right _ _

theorem level_self (c : Config K) (tokens t : K) : level c t ⟨tokens, t⟩ = min tokens c.burst := by simp [level]

theorem level_getD (c : Config K) (t : K) (s : Option (Bucket K)) : level c t (s.getD ⟨c.burst, t⟩) = potential c t s := by
  cases s with
  | none =>
    rw [Option.getD_none, level_self, min_self]
    rfl
  | some b => rfl

theorem step_take (c : Config K) (s : Option (Bucket K)) (t : K) :
    step c s (.take t) = if 1 ≤ potential c t s then (some ⟨potential c t s - 1, t⟩, true)
      else (some ⟨potential c t s, t⟩, false) := by
  simp [step, level_getD]

theorem step_forget (c : Config K) (b : Bucket K) (t : K) :
    step c (some b) (.forget t) = (if max 0 (t - b.lastRefill) < c.idle then some b else none, false) := by
  rw [step, Option.filter_some]
  simp

variable [IsStrictOrderedRing K]

theorem level_eq {t : K} {b : Bucket K} (h : b.lastRefill ≤ t) :
    level c t b = min (b.tokens + (t - b.lastRefill) * c.rate) c.burst := by
  rw [level, max_eq_right (sub_nonneg.2 h)]

theorem potential_advance {rate : K} (hrate : 0 ≤ rate) (hle : c.rate ≤ rate) {t t' : K} (ht : t ≤ t')
    {s : Option (Bucket K)} (hpast : ∀ b ∈ s, b.lastRefill ≤ t) :
    potential c t' s ≤ potential c t s + rate * (t' - t) := by
  have hgain := mul_nonneg hrate (sub_nonneg.2 ht)
  have hbound := mul_le_mul_of_nonneg_right hle (sub_nonneg.2 ht)
  cases s with
  | none => exact le_add_of_nonneg_right hgain
  | some b =>
    change level c t' b ≤ level c t b + _
    rw [level_eq (hpast b rfl), level_eq ((hpast b rfl).trans ht), min_add]
    apply min_le_min
    · linarith
    · exact le_add_of_nonneg_right hgain

theorem step_take_potential (c : Config K) (s : Option (Bucket K)) (t : K) :
    (if (step c s (.take t)).2 = true then 1 else 0) + potential c t (step c s (.take t)).1 = potential c t s := by
  have hle := potential_le_burst c t s
  rw [step_take]
  by_cases hone : 1 ≤ potential c t s
  · rw [if_pos hone]
    change 1 + level c t ⟨potential c t s - 1, t⟩ = _
    rw [level_self, min_eq_left (by linarith)]
    ring
  · rw [if_neg hone]
    change 0 + level c t ⟨potential c t s, t⟩ = _
    rw [level_self, min_eq_left hle, zero_add]

section Filling

variable {c : Config K} (hrate : 0 ≤ c.rate)
include hrate

variable {s : Option (Bucket K)}

theorem potential_nonneg (hburst : 0 ≤ c.burst) {t : K} (h : Valid c t s) : 0 ≤ potential c t s := by
  cases s with
  | none => exact hburst
  | some b =>
    have hgain := mul_nonneg (sub_nonneg.2 (h.past b rfl)) hrate
    change 0 ≤ level c t b
    rw [level_eq (h.past b rfl)]
    exact le_min (add_nonneg (h.nonneg b rfl) hgain) hburst

theorem level_of_idle (hfill : c.burst ≤ c.rate * c.idle) {t : K} {b : Bucket K} (hb : 0 ≤ b.tokens)
    (hidle : c.idle ≤ max 0 (t - b.lastRefill)) : level c t b = c.burst := by
  have hgain : c.rate * c.idle ≤ max 0 (t - b.lastRefill) * c.rate := by
    rw [mul_comm c.rate]
    exact mul_le_mul_of_nonneg_right hidle hrate
  apply min_eq_right
  linarith

/-- **One operation.** A grant lowers the level by one, and nothing else changes it. -/
theorem step_potential (hfill : c.burst ≤ c.rate * c.idle) (op : Op K) (h : Valid c op.time s) :
    (if (step c s op).2 = true then 1 else 0) + potential c op.time (step c s op).1 = potential c op.time s := by
  cases op with
  | take t => exact step_take_potential c s t
  | forget t =>
    cases s with
    | none => exact zero_add _
    | some b =>
      rw [step_forget, if_neg Bool.false_ne_true, zero_add]
      split_ifs with hkept
      · rfl
      · exact (level_of_idle hrate hfill (h.nonneg b rfl) (not_lt.1 hkept)).symm

theorem step_valid (hburst : 0 ≤ c.burst) (op : Op K) (h : Valid c op.time s) : Valid c op.time (step c s op).1 := by
  cases op with
  | take t =>
    have hlevel := potential_nonneg hrate hburst h
    rw [step_take]
    split_ifs with hone
    · refine ⟨?_, ?_⟩
      · rintro b ⟨⟩
        exact le_rfl
      · rintro b ⟨⟩
        exact sub_nonneg.2 hone
    · refine ⟨?_, ?_⟩
      · rintro b ⟨⟩
        exact le_rfl
      · rintro b ⟨⟩
        exact hlevel
  | forget t =>
    have hkept : ∀ b ∈ (step c s (.forget t)).1, b ∈ s := fun b hb => (Option.mem_filter_iff.1 hb).1
    exact ⟨fun b hb => h.past b (hkept b hb), fun b hb => h.nonneg b (hkept b hb)⟩

end Filling

/-! ## Runs -/

/-- a potential that pays for every grant, raised by time at a rate at most, for the operations of a kind -/
structure Amortizes (c : Config K) (kind : Op K → Prop) (rate : K) (inv : K → Option (Bucket K) → Prop)
    (pot : K → Option (Bucket K) → K) : Prop where
  fresh : ∀ t, inv t none
  mono : ∀ {t t' s}, inv t s → t ≤ t' → inv t' s
  nonneg : ∀ {t s}, inv t s → 0 ≤ pot t s
  le_burst : ∀ t s, pot t s ≤ c.burst
  advance : ∀ {t t' s}, t ≤ t' → inv t s → pot t' s ≤ pot t s + rate * (t' - t)
  keeps : ∀ {s} op, kind op → inv op.time s → inv op.time (step c s op).1
  pays : ∀ {s} op, kind op → inv op.time s →
    (if (step c s op).2 = true then 1 else 0) + pot op.time (step c s op).1 ≤ pot op.time s

namespace Amortizes

variable {c : Config K} {kind : Op K → Prop} {rate : K} {inv : K → Option (Bucket K) → Prop}
  {pot : K → Option (Bucket K) → K} (ham : Amortizes c kind rate inv pot) (hrate : 0 ≤ rate)
include ham hrate

theorem grants_le_pot (lo : K) {hi t : K} {s : Option (Bucket K)} {ops : List (Op K)} (hinv : inv t s)
    (hkind : ∀ op ∈ ops, kind op) (hops : InOrder ops) (hlater : ∀ op ∈ ops, t ≤ op.time) (ht : t ≤ hi) :
    (grants c lo hi s ops : K) ≤ pot t s + rate * (hi - t) := by
  have hstart := add_nonneg (ham.nonneg hinv) (mul_nonneg hrate (sub_nonneg.2 ht))
  induction ops generalizing s t with
  | nil => rwa [grants, Nat.cast_zero]
  | cons op ops ih =>
    obtain ⟨hfirst, hrest⟩ := pairwise_cons.1 hops
    obtain ⟨hop, hkinds⟩ := forall_mem_cons.1 hkind
    have htime := hlater op mem_cons_self
    have hinv' := ham.mono hinv htime
    by_cases hend : op.time ≤ hi
    · have hone : ((if (step c s op).2 = true ∧ lo ≤ op.time ∧ op.time ≤ hi then 1 else 0 : ℕ) : K)
          ≤ if (step c s op).2 = true then 1 else 0 := by
        split_ifs <;> simp_all
      have hkept := ham.keeps op hop hinv'
      have htail := ih hkept hkinds hrest hfirst hend (add_nonneg (ham.nonneg hkept) (mul_nonneg hrate (sub_nonneg.2 hend)))
      have hpays := ham.pays op hop hinv'
      have hadvance := ham.advance htime hinv
      rw [grants, Nat.cast_add]
      calc _ ≤ (if (step c s op).2 = true then 1 else 0)
            + (pot op.time (step c s op).1 + rate * (hi - op.time)) := add_le_add hone htail
        _ ≤ pot op.time s + rate * (hi - op.time) := by linarith
        _ ≤ (pot t s + rate * (op.time - t)) + rate * (hi - op.time) := by linarith
        _ = pot t s + rate * (hi - t) := by ring
    · -- past the end of the stretch
      have hpast : ∀ o ∈ op :: ops, hi < o.time := by
        intro o ho
        rcases mem_cons.1 ho with rfl | ho
        · exact not_le.1 hend
        · exact lt_of_lt_of_le (not_le.1 hend) (hfirst o ho)
      rwa [grants_eq_zero hpast, Nat.cast_zero]

theorem grants_le_of_inv (hburst : 0 ≤ c.burst) {lo hi t : K} (hlo : lo ≤ hi) {s : Option (Bucket K)} {ops : List (Op K)}
    (hinv : inv t s) (hkind : ∀ op ∈ ops, kind op) (hops : InOrder ops) (hlater : ∀ op ∈ ops, t ≤ op.time)
    (ht : t ≤ lo) : (grants c lo hi s ops : K) ≤ c.burst + rate * (hi - lo) := by
  induction ops generalizing s t with
  | nil =>
    rw [grants, Nat.cast_zero]
    exact add_nonneg hburst (mul_nonneg hrate (sub_nonneg.2 hlo))
  | cons op ops ih =>
    obtain ⟨hfirst, hrest⟩ := pairwise_cons.1 hops
    obtain ⟨hop, hkinds⟩ := forall_mem_cons.1 hkind
    have htime := hlater op mem_cons_self
    rcases lt_or_ge op.time lo with hbefore | hin
    · rw [grants, if_neg fun h => not_le.2 hbefore h.2.1, Nat.zero_add]
      exact ih (ham.keeps op hop (ham.mono hinv htime)) hkinds hrest hfirst hbefore.le
    · have hall : ∀ o ∈ op :: ops, lo ≤ o.time := forall_mem_cons.2 ⟨hin, fun o ho => hin.trans (hfirst o ho)⟩
      have hle := ham.le_burst lo s
      have hgrants := ham.grants_le_pot hrate lo (ham.mono hinv ht) hkind hops hall hlo
      linarith

theorem grants_le_budget (hburst : 0 ≤ c.burst) {lo hi : K} (hlo : lo ≤ hi) {ops : List (Op K)}
    (hkind : ∀ op ∈ ops, kind op) (hops : InOrder ops) :
    (grants c lo hi none ops : K) ≤ c.burst + rate * (hi - lo) := by
  cases ops with
  | nil =>
    rw [grants, Nat.cast_zero]
    exact add_nonneg hburst (mul_nonneg hrate (sub_nonneg.2 hlo))
  | cons op ops =>
    refine ham.grants_le_of_inv hrate hburst hlo (ham.fresh (min op.time lo)) hkind hops ?_ (min_le_right _ _)
    intro o ho
    rcases mem_cons.1 ho with rfl | ho
    · exact min_le_left _ _
    · exact (min_le_left _ _).trans ((pairwise_cons.1 hops).1 o ho)

end Amortizes

/-- **The budget.** A bucket that is full by the time it may be forgotten grants, in a stretch of time, at most a burst and what
the rate adds in it. -/
theorem grants_le (hrate : 0 ≤ c.rate) (hburst : 0 ≤ c.burst) (hfill : c.burst ≤ c.rate * c.idle) {lo hi : K}
    (hlo : lo ≤ hi) (hops : InOrder ops) :
    (grants c lo hi none ops : K) ≤ c.burst + c.rate * (hi - lo) := by
  have ham : Amortizes c (fun _ => True) c.rate (Valid c) (potential c) :=
    { fresh := valid_none c
      mono := Valid.mono
      nonneg := potential_nonneg hrate hburst
      le_burst := potential_le_burst c
      advance := fun ht h => potential_advance hrate le_rfl ht h.past
      keeps := fun op _ h => step_valid hrate hburst op h
      pays := fun op _ h => (step_potential hrate hfill op h).le }
  exact ham.grants_le_budget hrate hburst hlo (fun _ _ => trivial) hops

/-- **The budget of a bucket that is never forgotten.** It needs no time to fill up, and a negative rate counts as none. -/
theorem takes_le (hburst : 0 ≤ c.burst) {lo hi : K} (hlo : lo ≤ hi) (htake : ∀ op ∈ ops, ∃ t, op = .take t) (hops : InOrder ops) :
    (grants c lo hi none ops : K) ≤ c.burst + max 0 c.rate * (hi - lo) := by
  have hrate : 0 ≤ max 0 c.rate := le_max_left _ _
  -- a negative rate takes the level below zero, where it no longer matters
  have ham : Amortizes c (fun op => ∃ t, op = .take t) (max 0 c.rate) (fun t s => ∀ b ∈ s, b.lastRefill ≤ t)
      (fun t s => max 0 (potential c t s)) := by
    refine ⟨fun _ => nofun, fun h ht b hb => (h b hb).trans ht, fun _ => le_max_left _ _, ?_, ?_, ?_, ?_⟩
    · intro t s
      exact max_le hburst (potential_le_burst c t s)
    · intro t t' s ht hpast
      have hadvance := potential_advance hrate (le_max_right 0 c.rate) ht hpast
      have hgain := mul_nonneg hrate (sub_nonneg.2 ht)
      have hpot := le_max_right 0 (potential c t s)
      apply max_le
      · exact add_nonneg (le_max_left _ _) hgain
      · linarith
    · rintro s _ ⟨t, rfl⟩ _ b hb
      rw [step_take] at hb
      split_ifs at hb <;> cases hb <;> exact le_rfl
    · rintro s _ ⟨t, rfl⟩ _
      have hstep := step_take_potential c s t
      rw [Op.time]
      by_cases hone : (step c s (.take t)).2 = true
      · rw [if_pos hone] at hstep ⊢
        have hafter : 0 ≤ potential c t (step c s (.take t)).1 := by
          have hlevel : 1 ≤ potential c t s := by
            by_contra hlow
            simp [step_take, hlow] at hone
          linarith
        rw [max_eq_right hafter, hstep]
        exact le_max_right _ _
      · rw [if_neg hone, zero_add] at hstep ⊢
        rw [hstep]
  exact ham.grants_le_budget hrate hburst hlo htake hops

/-- the second bucket was never forgotten, and from `t` on the first is as full at any time -/
structure Alike (c : Config K) (t : K) (s s' : Option (Bucket K)) : Prop where
  valid : Valid c t s
  level : ∀ u, t ≤ u → potential c u s = potential c u s'

namespace Alike

variable {c : Config K} {s s' : Option (Bucket K)} {t t' : K} (h : Alike c t s s') (ht : t ≤ t')
include h ht

omit [IsStrictOrderedRing K] in
theorem mono : Alike c t' s s' := ⟨h.valid.mono ht, fun u hu => h.level u (ht.trans hu)⟩

omit [IsStrictOrderedRing K] in
theorem step_take_eq : step c s (.take t') = step c s' (.take t') := by rw [step_take, step_take, h.level t' ht]

variable (hrate : 0 ≤ c.rate) (hburst : 0 ≤ c.burst)
include hrate hburst

theorem take : Alike c t' (step c s (.take t')).1 (step c s' (.take t')).1 :=
  ⟨step_valid hrate hburst (.take t') (h.valid.mono ht), fun u _ => by rw [h.step_take_eq ht]⟩

/-- **Forgetting in time.** A bucket that is full by then may be forgotten: it stays full. -/
theorem forget (hfill : c.burst ≤ c.rate * c.idle) : Alike c t' (step c s (.forget t')).1 s' := by
  refine ⟨step_valid hrate hburst (.forget t') (h.valid.mono ht), fun u hu => ?_⟩
  rw [← h.level u (ht.trans hu)]
  cases s with
  | none => rfl
  | some b =>
    rw [step_forget]
    split_ifs with hkept
    · rfl
    · have hidle : c.idle ≤ max 0 (u - b.lastRefill) := (not_lt.1 hkept).trans (max_le_max le_rfl (sub_le_sub_right hu _))
      exact (level_of_idle hrate hfill (h.valid.nonneg b rfl) hidle).symm

end Alike

theorem grants_replicate (c : Config K) {lo hi t : K} (hlo : lo ≤ t) (hhi : t ≤ hi) (n : ℕ) (rest : List (Op K)) {x : K}
    (hn : (n : K) ≤ x) (hx : x ≤ c.burst) :
    grants c lo hi (some ⟨x, t⟩) (replicate n (.take t) ++ rest) = n + grants c lo hi (some ⟨x - n, t⟩) rest := by
  induction n generalizing x with
  | zero => simp
  | succ n ih =>
    have hlevel : potential c t (some ⟨x, t⟩) = x := (level_self c x t).trans (min_eq_left hx)
    rw [Nat.cast_succ] at hn
    have hstep : step c (some ⟨x, t⟩) (.take t) = (some ⟨x - 1, t⟩, true) := by rw [step_take, hlevel, if_pos (by linarith)]
    rw [replicate_succ, cons_append, grants, hstep, if_pos ⟨rfl, hlo, hhi⟩, ih (by linarith) (by linarith),
      Nat.cast_succ, sub_sub, add_comm (1 : K)]
    ring

def burstTwice (n : ℕ) (idle : K) : List (Op K) :=
  List.replicate n (.take 0) ++ .forget idle :: List.replicate n (.take idle)

omit [Field K] [IsStrictOrderedRing K] in
theorem pairwise_replicate_append {α : Type} (time : α → K) (n : ℕ) {a b d : α} (hab : time a ≤ time b) (hbd : time b ≤ time d) :
    (replicate n a ++ b :: replicate n d).Pairwise fun x y => time x ≤ time y := by
  have hsame : ∀ x : α, (replicate n x).Pairwise fun x y => time x ≤ time y := fun x => pairwise_replicate.2 (.inr le_rfl)
  refine pairwise_append.2 ⟨hsame a, pairwise_cons.2 ⟨?_, hsame d⟩, ?_⟩
  · intro x hx
    rwa [eq_of_mem_replicate hx]
  · intro x hx y hy
    rw [eq_of_mem_replicate hx]
    rcases mem_cons.1 hy with rfl | hy
    · exact hab
    · rw [eq_of_mem_replicate hy]
      exact hab.trans hbd

theorem grants_burstTwice {n : ℕ} (hn : 0 < n) (hburst : c.burst = n) (hidle : 0 ≤ c.idle) :
    grants c 0 c.idle none (burstTwice n c.idle) = 2 * n := by
  have hfull : ∀ t (rest : List (Op K)), grants c 0 c.idle none (replicate n (.take t) ++ rest)
      = grants c 0 c.idle (some ⟨c.burst, t⟩) (replicate n (.take t) ++ rest) := by
    intro t rest
    obtain ⟨m, rfl⟩ := Nat.exists_eq_succ_of_ne_zero hn.ne'
    rfl
  have hforget : step c (some ⟨c.burst - n, 0⟩) (.forget c.idle) = (none, false) := by simp [step]
  have hsecond : grants c 0 c.idle none (replicate n (.take c.idle)) = n := by
    rw [← append_nil (replicate n _), hfull, grants_replicate c hidle le_rfl n [] hburst.ge le_rfl]
    rfl
  calc grants c 0 c.idle none (burstTwice n c.idle)
      = n + grants c 0 c.idle (some ⟨c.burst - n, 0⟩) (.forget c.idle :: replicate n (.take c.idle)) := by
        rw [burstTwice, hfull, grants_replicate c le_rfl hidle n _ hburst.ge le_rfl]
    _ = n + grants c 0 c.idle none (replicate n (.take c.idle)) := by
        rw [grants, hforget]
        simp
    _ = 2 * n := by rw [hsecond, two_mul]

/-- **Forgetting too soon.** A bucket that is not full by then grants more than its budget. -/
theorem exists_grants_gt {n : ℕ} (hburst : c.burst = n) (hrate : 0 ≤ c.rate) (hidle : 0 ≤ c.idle)
    (hfill : c.rate * c.idle < c.burst) :
    c.burst + c.rate * (c.idle - 0) < (grants c 0 c.idle none (burstTwice n c.idle) : K) := by
  have hpos := hburst ▸ lt_of_le_of_lt (mul_nonneg hrate hidle) hfill
  rw [grants_burstTwice (Nat.cast_pos.1 hpos) hburst hidle, Nat.cast_mul, Nat.cast_two]
  linarith

end SunbeamProxy.TokenBucket
