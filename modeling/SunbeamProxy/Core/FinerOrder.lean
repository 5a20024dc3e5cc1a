/-
Picking the first of the best by a finer order, over arbitrary types.
-/
import SunbeamProxy.Core.Selection

namespace SunbeamProxy

open List

section Orders

variable {α : Type}

def classFirst (c : α → Bool) (before : α → α → Bool) (a b : α) : Bool := if c a = c b then before a b else c a

def tieBreak (before : α → α → Bool) (score : α → ℕ) (a b : α) : Bool :=
  before a b && (!before b a || decide (score a ≤ score b))

variable {before : α → α → Bool}

theorem tieBreak_iff {score : α → ℕ} {a b : α} :
    tieBreak before score a b = true ↔ before a b = true ∧ (before b a = true → score a ≤ score b) := by
  cases h : before b a <;> simp [tieBreak, h]

variable [Std.Total fun a b => before a b = true] [IsTrans α fun a b => before a b = true]

instance classFirst_total (c : α → Bool) : Std.Total fun a b => classFirst c before a b = true where
  total a b := by
    unfold classFirst
    cases ha : c a <;> cases hb : c b
    · simpa using Std.Total.total (r := fun a b => before a b = true) a b
    · simp
    · simp
    · simpa using Std.Total.total (r := fun a b => before a b = true) a b

instance classFirst_trans (c : α → Bool) : IsTrans α fun a b => classFirst c before a b = true where
  trans x y z hxy hyz := by
    unfold classFirst at *
    cases hx : c x <;> cases hy : c y <;> cases hz : c z <;> simp_all
    · exact before_trans hxy hyz
    · exact before_trans hxy hyz

instance tieBreak_total (score : α → ℕ) : Std.Total fun a b => tieBreak before score a b = true where
  total a b := by
    simp only [tieBreak_iff]
    rcases Std.Total.total (r := fun a b => before a b = true) a b with h | h
    · by_cases hle : score a ≤ score b
      · exact .inl ⟨h, fun _ => hle⟩
      · by_cases hba : before b a = true
        · exact .inr ⟨hba, fun _ => by omega⟩
        · exact .inl ⟨h, fun h' => absurd h' hba⟩
    · by_cases hle : score b ≤ score a
      · exact .inr ⟨h, fun _ => hle⟩
      · by_cases hab : before a b = true
        · exact .inl ⟨hab, fun _ => by omega⟩
        · exact .inr ⟨h, fun h' => absurd h' hab⟩

instance tieBreak_trans (score : α → ℕ) : IsTrans α fun a b => tieBreak before score a b = true where
  trans x y z hxy hyz := by
    simp only [tieBreak_iff] at *
    refine ⟨before_trans hxy.1 hyz.1, fun hzx => ?_⟩
    -- a tie of the ends is a tie all the way
    have hyx : before y x = true := before_trans hyz.1 hzx
    have hzy : before z y = true := before_trans hzx hxy.1
    exact (hxy.2 hyx).trans (hyz.2 hzy)

end Orders

section Searches

variable {α : Type} {before : α → α → Bool} [Std.Total fun a b => before a b = true]
  [IsTrans α fun a b => before a b = true] {p : α → Bool}

/-- **One class before the others.** -/
theorem firstBest_or (c : α → Bool) (l : List α) :
    (firstBest before p (l.filter c)).or (firstBest before p (l.filter fun a => !c a)) = firstBest (classFirst c before) p l := by
  cases hbest : firstBest (classFirst c before) p l with
  | none =>
    have hnone := firstBest_eq_none_iff.1 hbest
    have hempty : ∀ c' : α → Bool, firstBest before p (l.filter c') = none := by
      intro c'
      exact firstBest_eq_none_iff.2 fun a ha => hnone a (mem_filter.1 ha).1
    simp [hempty]
  | some x =>
    have hpx := (firstBest_mem hbest).2
    have hle := firstBest_le hbest
    obtain ⟨s, t, rfl, hs⟩ := firstBest_split hbest
    -- the pick stands in the list of its class as it stands in the whole
    have hpick : ∀ c' : α → Bool, c' x = true → (∀ y, c' y = true → c y = c x) →
        firstBest before p ((s ++ x :: t).filter c') = some x := by
      intro c' hx hclass
      rw [filter_append, filter_cons_of_pos hx]
      refine firstBest_append_cons hpx ?_ ?_
      · intro y hy hpy
        obtain ⟨hy, hcy⟩ := mem_filter.1 hy
        have hyx := hs y hy hpy
        rwa [classFirst, if_pos (hclass y hcy)] at hyx
      · intro y hy hpy
        obtain ⟨hy, hcy⟩ := mem_filter.1 hy
        have hxy := hle y (mem_append_right _ (mem_cons_of_mem _ hy)) hpy
        rwa [classFirst, if_pos (hclass y hcy).symm] at hxy
    cases hcx : c x with
    | true => rw [hpick c hcx (fun y hy => hy.trans hcx.symm), Option.some_or]
    | false =>
      have hnone : firstBest before p ((s ++ x :: t).filter c) = none := by
        refine firstBest_eq_none_iff.2 fun y hy => ?_
        obtain ⟨hy, hcy⟩ := mem_filter.1 hy
        cases hpy : p y with
        | false => rfl
        | true =>
          have hxy := hle y hy hpy
          simp [classFirst, hcx, hcy] at hxy
      rw [hnone]
      refine hpick (fun a => !c a) (by simp [hcx]) fun y hy => ?_
      rw [hcx]
      simpa using hy

theorem filter_group_cut {κ : Type} [DecidableEq κ] {key : α → κ} {ks : List κ} {l s t : List α} {x : α} (hx : key x ∈ ks)
    (hl : (l.filter fun a => key a ∈ ks) = s ++ x :: t) :
    (l.filter fun a => key a = key x) = (s.filter fun a => key a = key x) ++ x :: t.filter fun a => key a = key x := by
  have hsub : (l.filter fun a => key a = key x) = (l.filter fun a => key a ∈ ks).filter fun a => key a = key x := by
    rw [filter_filter]
    refine filter_congr fun a _ => ?_
    by_cases ha : key a = key x <;> simp [ha, hx]
  rw [hsub, hl, filter_append, filter_cons_of_pos (by simp)]

/-- **Group by group.** The groups are walked in the order of their scores. -/
theorem firstBest_groups {κ : Type} [DecidableEq κ] (key : α → κ) (score : κ → ℕ) {ks : List κ}
    (hks : ks.Pairwise fun k k' => score k < score k') (l : List α) :
    firstBest before p (ks.flatMap fun k => l.filter fun a => key a = k)
      = firstBest (tieBreak before fun a => score (key a)) p (l.filter fun a => key a ∈ ks) := by
  cases hbest : firstBest (tieBreak before fun a => score (key a)) p (l.filter fun a => key a ∈ ks) with
  | none =>
    refine firstBest_eq_none_iff.2 fun a ha => firstBest_eq_none_iff.1 hbest a ?_
    obtain ⟨k, hk, ha⟩ := mem_flatMap.1 ha
    obtain ⟨ha, hkey⟩ := mem_filter.1 ha
    exact mem_filter.2 ⟨ha, by simpa [of_decide_eq_true hkey] using hk⟩
  | some x =>
    obtain ⟨hx, hpx⟩ := firstBest_mem hbest
    have hle := firstBest_le hbest
    have hkx : key x ∈ ks := by simpa using (mem_filter.1 hx).2
    obtain ⟨ks₁, ks₂, hsplit⟩ := append_of_mem hkx
    obtain ⟨s, t, hl, hs⟩ := firstBest_split hbest
    have hmem : ∀ k ∈ ks, ∀ y, y ∈ (l.filter fun a => key a = k) → key y = k ∧ y ∈ l.filter fun a => key a ∈ ks := by
      intro k hk y hy
      obtain ⟨hy, hkey⟩ := mem_filter.1 hy
      have hkey := of_decide_eq_true hkey
      exact ⟨hkey, mem_filter.2 ⟨hy, by simpa [hkey] using hk⟩⟩
    have hfront : ∀ k ∈ ks₁, score k < score (key x) := by
      rw [hsplit] at hks
      intro k hk
      exact (pairwise_append.1 hks).2.2 k hk _ (mem_cons_self ..)
    have hflat : (ks.flatMap fun k => l.filter fun a => key a = k)
        = ((ks₁.flatMap fun k => l.filter fun a => key a = k) ++ s.filter fun a => key a = key x)
          ++ x :: ((t.filter fun a => key a = key x) ++ ks₂.flatMap fun k => l.filter fun a => key a = k) := by
      rw [hsplit, flatMap_append, flatMap_cons, filter_group_cut hkx hl]
      simp
    rw [hflat]
    refine firstBest_append_cons hpx ?_ ?_
    · intro y hy hpy
      rcases mem_append.1 hy with hy | hy
      · obtain ⟨k, hk, hy⟩ := mem_flatMap.1 hy
        have hk' := hsplit ▸ mem_append_left _ hk
        obtain ⟨rfl, hlisted⟩ := hmem k hk' y hy
        -- an earlier group would have won a tie
        cases hyx : before y x with
        | false => rfl
        | true =>
          have hscore := (tieBreak_iff.1 (hle y hlisted hpy)).2 hyx
          exact absurd (hfront _ hk) (by omega)
      · obtain ⟨hy, hkey⟩ := mem_filter.1 hy
        have hkey := of_decide_eq_true hkey
        cases hyx : before y x with
        | false => rfl
        | true =>
          have hfine := hs y hy hpy
          rw [tieBreak_iff.2 ⟨hyx, fun _ => by rw [hkey]⟩] at hfine
          cases hfine
    · intro y hy hpy
      have hy : y ∈ l.filter fun a => key a ∈ ks := by
        rcases mem_append.1 hy with hy | hy
        · rw [hl]
          exact mem_append_right _ (mem_cons_of_mem _ (mem_filter.1 hy).1)
        · obtain ⟨k, hk, hy⟩ := mem_flatMap.1 hy
          exact (hmem k (hsplit ▸ mem_append_right _ (mem_cons_of_mem _ hk)) y hy).2
      exact (tieBreak_iff.1 (hle y hy hpy)).1

end Searches

end SunbeamProxy
