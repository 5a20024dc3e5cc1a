/-
Callers that update one shared value from copies of their own, over arbitrary types.
-/
import Mathlib.Data.List.Basic
import Mathlib.Tactic

namespace SunbeamProxy.SharedUpdate

open List

inductive Action (κ : Type) where
  | read
  | publish (k : κ)
  | write
  | skip
deriving DecidableEq, Repr

structure State (ι κ σ : Type) where
  steps : ι → ℕ
  value : σ
  copy : ι → σ
  register : κ → σ

def State.init {ι κ σ : Type} (v : σ) : State ι κ σ := ⟨fun _ => 0, v, fun _ => v, fun _ => v⟩

/-- a program that reads first, writes back at step `w`, and publishes to every register in between -/
structure IsSection {κ : Type} (program : ℕ → Action κ) (w : ℕ) : Prop where
  read_iff : ∀ n, program n = .read ↔ n = 0
  write_iff : ∀ n, program n = .write ↔ n = w
  publish_lt : ∀ n k, program n = .publish k → n < w
  publishes : ∀ k, ∃ n, program n = .publish k

theorem IsSection.pos {κ : Type} {program : ℕ → Action κ} {w : ℕ} (hp : IsSection program w) : 0 < w := by
  rcases Nat.eq_zero_or_pos w with h | h
  · have hread := (hp.read_iff w).2 h
    rw [(hp.write_iff w).2 rfl] at hread
    cases hread
  · exact h

section Lineage

variable {ι κ : Type}

/-- along a lineage each caller's copy is the lineage from there on -/
def Chained (s : State ι κ (List ι)) (l : List ι) : Prop := ∀ newer x older, l = newer ++ x :: older → s.copy x = x :: older

/-- what holds of the lineages of every schedule -/
structure Grown (w : ℕ) (s : State ι κ (List ι)) : Prop where
  chained_value : Chained s s.value
  chained_copy : ∀ i, 0 < s.steps i → Chained s (s.copy i)
  self_mem : ∀ i, 0 < s.steps i → i ∈ s.copy i
  /-- nobody is built on before it has written back -/
  of_mem_value : ∀ i ∈ s.value, w < s.steps i
  of_mem_copy : ∀ i j, 0 < s.steps i → j ∈ s.copy i → j = i ∨ w < s.steps j

variable {s s' : State ι κ (List ι)} {l : List ι}

theorem Chained.congr (h : Chained s l) (hcopy : ∀ x ∈ l, s'.copy x = s.copy x) : Chained s' l := by
  intro newer x older hl
  rw [hcopy x (by simp [hl]), h newer x older hl]

theorem Chained.cons {i : ι} (h : Chained s l) (hi : s.copy i = i :: l) : Chained s (i :: l) := by
  intro newer x older hl
  rcases cons_eq_append_iff.1 hl with ⟨-, hx⟩ | ⟨newer', -, hl'⟩
  · obtain ⟨rfl, rfl⟩ := cons.inj hx
    exact hi
  · exact h newer' x older hl'

theorem grown_init (w : ℕ) : Grown w (State.init [] : State ι κ (List ι)) where
  chained_value := by simp [Chained, State.init]
  chained_copy := by simp [State.init]
  self_mem := by simp [State.init]
  of_mem_value := by simp [State.init]
  of_mem_copy := by simp [State.init]

theorem Chained.mem_or_mem (h : Chained s l) {i j : ι} (hi : i ∈ l) (hj : j ∈ l) (hne : i ≠ j) : j ∈ s.copy i ∨ i ∈ s.copy j := by
  obtain ⟨newer, older, hl⟩ := append_of_mem hi
  have hcopy := h newer i older hl
  rw [hl, mem_append, mem_cons] at hj
  rcases hj with hj | hj | hj
  · obtain ⟨newest, newer', hnewer⟩ := append_of_mem hj
    rw [h newest j (newer' ++ i :: older) (by simp [hl, hnewer])]
    simp
  · exact absurd hj.symm hne
  · left
    rw [hcopy]
    exact mem_cons_of_mem _ hj

theorem Grown.advance {w : ℕ} (hs : Grown w s) (hcopy : s'.copy = s.copy) (hle : ∀ x, s.steps x ≤ s'.steps x)
    (hstarted : ∀ x, 0 < s'.steps x → 0 < s.steps x)
    (hvalue : s'.value = s.value ∨ ∃ i, 0 < s.steps i ∧ w < s'.steps i ∧ s'.value = s.copy i) : Grown w s' where
  chained_value := by
    rcases hvalue with h | ⟨i, hi, -, h⟩
    · rw [h]
      exact hs.chained_value.congr fun x _ => congrFun hcopy x
    · rw [h]
      exact (hs.chained_copy i hi).congr fun x _ => congrFun hcopy x
  chained_copy i hi := by
    rw [hcopy]
    exact (hs.chained_copy i (hstarted i hi)).congr fun x _ => congrFun hcopy x
  self_mem i hi := by
    rw [hcopy]
    exact hs.self_mem i (hstarted i hi)
  of_mem_value j hj := by
    rcases hvalue with h | ⟨i, hi, hwritten, h⟩
    · rw [h] at hj
      exact (hs.of_mem_value j hj).trans_le (hle j)
    · rw [h] at hj
      rcases hs.of_mem_copy i j hi hj with rfl | hj
      · exact hwritten
      · exact hj.trans_le (hle j)
  of_mem_copy i j hi hj := by
    rw [hcopy] at hj
    exact (hs.of_mem_copy i j (hstarted i hi) hj).imp_right (·.trans_le (hle j))

theorem Grown.start {w : ℕ} {i : ι} (hs : Grown w s) (hzero : s.steps i = 0) (hself : s'.copy i = i :: s.value)
    (hcopy : ∀ x, x ≠ i → s'.copy x = s.copy x) (hsteps : ∀ x, x ≠ i → s'.steps x = s.steps x)
    (hvalue : s'.value = s.value) : Grown w s' := by
  -- nothing is built on `i` yet, so no lineage notices its new copy
  have hvalue_ne : ∀ x ∈ s.value, x ≠ i := by
    intro x hx hxi
    have := hs.of_mem_value x hx
    rw [hxi] at this
    omega
  have hcopy_ne : ∀ j, j ≠ i → 0 < s.steps j → ∀ x ∈ s.copy j, x ≠ i := by
    intro j hji hj x hx hxi
    rcases hs.of_mem_copy j x hj hx with rfl | h
    · exact hji hxi
    · rw [hxi] at h
      omega
  have hvalue_chained := hs.chained_value.congr fun x hx => hcopy x (hvalue_ne x hx)
  refine ⟨hvalue ▸ hvalue_chained, fun j hj => ?_, fun j hj => ?_, fun j hj => ?_, fun j x hj hx => ?_⟩
  · by_cases h : j = i
    · rw [h, hself]
      exact hvalue_chained.cons hself
    · rw [hsteps j h] at hj
      rw [hcopy j h]
      exact (hs.chained_copy j hj).congr fun x hx => hcopy x (hcopy_ne j h hj x hx)
  · by_cases h : j = i
    · rw [h, hself]
      exact mem_cons_self ..
    · rw [hsteps j h] at hj
      rw [hcopy j h]
      exact hs.self_mem j hj
  · rw [hvalue] at hj
    rw [hsteps j (hvalue_ne j hj)]
    exact hs.of_mem_value j hj
  · by_cases h : j = i
    · rw [h, hself] at hx
      rcases mem_cons.1 hx with hx | hx
      · exact .inl (hx.trans h.symm)
      · rw [hsteps x (hvalue_ne x hx)]
        exact .inr (hs.of_mem_value x hx)
    · rw [hsteps j h] at hj
      rw [hcopy j h] at hx
      rw [hsteps x (hcopy_ne j h hj x hx)]
      exact hs.of_mem_copy j x hj hx

/-- what holds while callers do not overlap -/
structure Settled (program : ℕ → Action κ) (w : ℕ) (s : State ι κ (List ι)) : Prop where
  of_written : ∀ i, w < s.steps i → i ∈ s.value
  active_copy : ∀ a, 0 < s.steps a → s.steps a ≤ w → ∀ i, w < s.steps i → i ∈ s.copy a
  active_unique : ∀ a b, 0 < s.steps a → s.steps a ≤ w → 0 < s.steps b → s.steps b ≤ w → a = b
  of_published : ∀ i k n, program n = .publish k → n < s.steps i → i ∈ s.register k

theorem settled_init (program : ℕ → Action κ) (w : ℕ) : Settled program w (State.init [] : State ι κ (List ι)) where
  of_written := by simp [State.init]
  active_copy := by simp [State.init]
  active_unique := by simp [State.init]
  of_published := by simp [State.init]

variable {program : ℕ → Action κ} {w : ℕ}

theorem Settled.start (hp : IsSection program w) {i : ι} (hs : Settled program w s)
    (hstart : ∀ j, 0 < s.steps j → w < s.steps j) (hself : s'.steps i = 1)
    (hother : ∀ x, x ≠ i → s'.steps x = s.steps x) (hcopy : s'.copy i = i :: s.value) (hvalue : s'.value = s.value)
    (hregister : s'.register = s.register) :
    Settled program w s' := by
  have hwpos := hp.pos
  have honly : ∀ x, 0 < s'.steps x → s'.steps x ≤ w → x = i := by
    intro x h₁ h₂
    by_contra hx
    rw [hother x hx] at h₁ h₂
    have := hstart x h₁
    omega
  have hwritten : ∀ x, w < s'.steps x → w < s.steps x := by
    intro x hx
    by_cases hxi : x = i
    · rw [hxi] at hx
      omega
    · rwa [hother x hxi] at hx
  refine ⟨fun x hx => ?_, fun a ha haw x hx => ?_, fun a b ha haw hb hbw => ?_, fun x k n hn hx => ?_⟩
  · rw [hvalue]
    exact hs.of_written x (hwritten x hx)
  · rw [honly a ha haw, hcopy]
    exact mem_cons_of_mem _ (hs.of_written x (hwritten x hx))
  · exact (honly a ha haw).trans (honly b hb hbw).symm
  · by_cases hxi : x = i
    · rw [hxi] at hx
      rw [(hp.read_iff n).2 (by omega)] at hn
      cases hn
    · rw [hregister]
      exact hs.of_published x k n hn (by rwa [← hother x hxi])

theorem Settled.advance {i : ι} (hs : Settled program w s) (hpos : 0 < s.steps i) (hne : s.steps i ≠ w)
    (hself : s'.steps i = s.steps i + 1) (hother : ∀ x, x ≠ i → s'.steps x = s.steps x) (hcopy : s'.copy = s.copy)
    (hvalue : s'.value = s.value) (hregister : ∀ x k n, program n = .publish k → n < s'.steps x → x ∈ s'.register k) :
    Settled program w s' := by
  have hwritten : ∀ x, w < s'.steps x → w < s.steps x := by
    intro x hx
    by_cases hxi : x = i
    · rw [hxi] at hx
      rw [hxi]
      omega
    · rwa [hother x hxi] at hx
  have hactive : ∀ x, 0 < s'.steps x → s'.steps x ≤ w → 0 < s.steps x ∧ s.steps x ≤ w := by
    intro x h₁ h₂
    by_cases hxi : x = i
    · rw [hxi] at h₂
      rw [hxi]
      omega
    · rw [hother x hxi] at h₁ h₂
      exact ⟨h₁, h₂⟩
  refine ⟨fun x hx => ?_, fun a ha haw x hx => ?_, fun a b ha haw hb hbw => ?_, hregister⟩
  · rw [hvalue]
    exact hs.of_written x (hwritten x hx)
  · rw [hcopy]
    exact hs.active_copy a (hactive a ha haw).1 (hactive a ha haw).2 x (hwritten x hx)
  · exact hs.active_unique a b (hactive a ha haw).1 (hactive a ha haw).2 (hactive b hb hbw).1 (hactive b hb hbw).2

theorem Settled.writeBack (hp : IsSection program w) {i : ι} (hs : Settled program w s) (hgrown : Grown w s)
    (hw : s.steps i = w) (hself : s'.steps i = s.steps i + 1) (hother : ∀ x, x ≠ i → s'.steps x = s.steps x)
    (hvalue : s'.value = s.copy i) (hregister : s'.register = s.register) : Settled program w s' := by
  have hpos := hw ▸ hp.pos
  have hnone : ∀ x, 0 < s'.steps x → ¬ s'.steps x ≤ w := by
    intro x h₁ h₂
    by_cases hxi : x = i
    · rw [hxi] at h₂
      omega
    · rw [hother x hxi] at h₁ h₂
      exact hxi (hs.active_unique x i h₁ h₂ hpos hw.le)
  refine ⟨fun x hx => ?_, fun a ha haw => absurd haw (hnone a ha), fun a _ ha haw => absurd haw (hnone a ha),
    fun x k n hn hx => ?_⟩
  · rw [hvalue]
    by_cases hxi : x = i
    · rw [hxi]
      exact hgrown.self_mem i hpos
    · rw [hother x hxi] at hx
      exact hs.active_copy i hpos hw.le x hx
  · rw [hregister]
    have hnw : n ≠ w := fun h => (hp.publish_lt n k hn).ne h
    by_cases hxi : x = i
    · rw [hxi] at hx
      exact hs.of_published x k n hn (by rw [hxi]; omega)
    · exact hs.of_published x k n hn (by rwa [← hother x hxi])

end Lineage

variable {ι κ σ τ : Type} [DecidableEq ι] [DecidableEq κ]

def step (program : ℕ → Action κ) (update : ι → σ → σ) (s : State ι κ σ) (i : ι) : State ι κ σ :=
  let steps := Function.update s.steps i (s.steps i + 1)
  match program (s.steps i) with
  | .read => { s with steps, copy := Function.update s.copy i (update i s.value) }
  | .publish k => { s with steps, register := Function.update s.register k (s.copy i) }
  | .write => { s with steps, value := s.copy i }
  | .skip => { s with steps }

def run (program : ℕ → Action κ) (update : ι → σ → σ) (s : State ι κ σ) (schedule : List ι) : State ι κ σ :=
  schedule.foldl (step program update) s

variable {program : ℕ → Action κ} {update : ι → σ → σ}

theorem run_append (s : State ι κ σ) (l₁ l₂ : List ι) :
    run program update s (l₁ ++ l₂) = run program update (run program update s l₁) l₂ := foldl_append

@[simp]
theorem steps_step (s : State ι κ σ) (i : ι) : (step program update s i).steps = Function.update s.steps i (s.steps i + 1) := by
  rw [step]
  split <;> rfl

theorem steps_run (v : σ) (schedule : List ι) (i : ι) : (run program update (.init v) schedule).steps i = schedule.count i := by
  induction schedule using reverseRecOn with
  | nil => rfl
  | append_singleton l j ih =>
    rw [run_append, run, foldl_cons, foldl_nil, steps_step, count_append, count_singleton]
    by_cases h : i = j
    · subst h
      rw [Function.update_self, ih, if_pos (by simp)]
    · rw [Function.update_of_ne h, ih, if_neg (by simpa using Ne.symm h), Nat.add_zero]

def State.map (f : σ → τ) (s : State ι κ σ) : State ι κ τ := ⟨s.steps, f s.value, f ∘ s.copy, f ∘ s.register⟩

theorem step_map {f : σ → τ} {update' : ι → τ → τ} (hf : ∀ i x, f (update i x) = update' i (f x)) (s : State ι κ σ) (i : ι) :
    (step program update s i).map f = step program update' (s.map f) i := by
  unfold step
  simp only [State.map]
  split <;> simp [Function.comp_update, hf]

theorem run_map {f : σ → τ} {update' : ι → τ → τ} (hf : ∀ i x, f (update i x) = update' i (f x)) (s : State ι κ σ)
    (schedule : List ι) : (run program update s schedule).map f = run program update' (s.map f) schedule := by
  induction schedule generalizing s with
  | nil => rfl
  | cons i l ih =>
    rw [run, foldl_cons, ← run, ih, step_map hf]
    rfl

def lineage (program : ℕ → Action κ) (schedule : List ι) : State ι κ (List ι) :=
  run program (fun i l => i :: l) (.init []) schedule

/-- **Lineage.** Every value is the initial one updated along its lineage. -/
theorem run_eq_foldr (v : σ) (schedule : List ι) :
    run program update (.init v) schedule = (lineage program schedule).map (fun l => l.foldr update v) :=
  (run_map (f := fun l : List ι => l.foldr update v) (fun _ _ => rfl) (.init []) schedule).symm

section Section

variable {w : ℕ}

variable (hp : IsSection program w)

include hp

theorem step_cases (update : ι → σ → σ) (s : State ι κ σ) (i : ι) : let steps := Function.update s.steps i (s.steps i + 1)
    (s.steps i = 0 ∧ step program update s i = { s with steps, copy := Function.update s.copy i (update i s.value) })
      ∨ (∃ k, program (s.steps i) = .publish k ∧ 0 < s.steps i ∧ s.steps i < w
        ∧ step program update s i = { s with steps, register := Function.update s.register k (s.copy i) })
      ∨ (s.steps i = w ∧ step program update s i = { s with steps, value := s.copy i })
      ∨ (program (s.steps i) = .skip ∧ 0 < s.steps i ∧ s.steps i ≠ w ∧ step program update s i = { s with steps }) := by
  have hpos : ∀ n, program n ≠ .read → 0 < n := fun n h => Nat.pos_of_ne_zero fun hz => h ((hp.read_iff n).2 hz)
  cases h : program (s.steps i) with
  | read => exact .inl ⟨(hp.read_iff _).1 h, by rw [step, h]⟩
  | publish k => exact .inr (.inl ⟨k, rfl, hpos _ (by simp [h]), hp.publish_lt _ k h, by rw [step, h]⟩)
  | write => exact .inr (.inr (.inl ⟨(hp.write_iff _).1 h, by rw [step, h]⟩))
  | skip =>
    refine .inr (.inr (.inr ⟨rfl, hpos _ (by simp [h]), fun hw => ?_, by rw [step, h]⟩))
    rw [(hp.write_iff _).2 hw] at h
    cases h

theorem Grown.step {s : State ι κ (List ι)} (hs : Grown w s) (i : ι) :
    Grown w (SharedUpdate.step program (fun i l => i :: l) s i) := by
  have hle : ∀ x, s.steps x ≤ Function.update s.steps i (s.steps i + 1) x := by
    intro x
    by_cases h : x = i
    · rw [h, Function.update_self]
      omega
    · rw [Function.update_of_ne h]
  have hstarted : 0 < s.steps i → ∀ x, 0 < Function.update s.steps i (s.steps i + 1) x → 0 < s.steps x := by
    intro hi x hx
    by_cases h : x = i
    · rwa [h]
    · rwa [Function.update_of_ne h] at hx
  rcases step_cases hp (fun i l => i :: l) s i with ⟨hzero, h⟩ | ⟨k, -, hpos, -, h⟩ | ⟨hw, h⟩ | ⟨-, hpos, -, h⟩
  · rw [h]
    exact hs.start hzero (Function.update_self ..) (fun x hx => Function.update_of_ne hx ..)
      (fun x hx => Function.update_of_ne hx ..) rfl
  · rw [h]
    exact hs.advance rfl hle (hstarted hpos) (.inl rfl)
  · have hpos := hw ▸ hp.pos
    rw [h]
    refine hs.advance rfl hle (hstarted hpos) (.inr ⟨i, hpos, ?_, rfl⟩)
    simp [hw]
  · rw [h]
    exact hs.advance rfl hle (hstarted hpos) (.inl rfl)

theorem grown_lineage (schedule : List ι) : Grown w (lineage program schedule) := by
  induction schedule using reverseRecOn with
  | nil => exact grown_init w
  | append_singleton l i ih =>
    rw [lineage, run_append]
    exact ih.step hp i

theorem copy_run_of_started (s : State ι κ σ) (schedule : List ι) {i : ι} (hi : 0 < s.steps i) :
    (run program update s schedule).copy i = s.copy i := by
  induction schedule generalizing s with
  | nil => rfl
  | cons j l ih =>
    have hi' : 0 < (step program update s j).steps i := by
      rw [steps_step]
      by_cases h : i = j
      · rw [h, Function.update_self]
        omega
      · rwa [Function.update_of_ne h]
    have hcopy : (step program update s j).copy i = s.copy i := by
      rcases step_cases hp update s j with ⟨hzero, h⟩ | ⟨k, -, -, -, h⟩ | ⟨-, h⟩ | ⟨-, -, -, h⟩
      · have hij : i ≠ j := by
          intro hij
          rw [hij] at hi
          omega
        rw [h]
        exact Function.update_of_ne hij ..
      all_goals rw [h]
    exact (ih _ hi').trans hcopy

end Section

/-! ## Overlap -/

/-- whenever a caller starts, everyone who started before has written back -/
def NonOverlapping (w : ℕ) (schedule : List ι) : Prop :=
  ∀ before i after, schedule = before ++ i :: after → i ∉ before → ∀ j ∈ before, w < before.count j

section Overlap

variable {w : ℕ} (hp : IsSection program w)

include hp

variable {schedule : List ι}

theorem nonOverlapping_of_mem_value (h : ∀ i ∈ schedule, i ∈ (lineage program schedule).value) : NonOverlapping w schedule := by
  intro before i after hschedule hi j hj
  by_contra hover
  have hgrown := grown_lineage hp before
  have hsteps : ∀ x, (lineage program before).steps x = before.count x := steps_run [] before
  have hi_steps : (lineage program before).steps i = 0 := by rw [hsteps, count_eq_zero.2 hi]
  have hj_steps : 0 < (lineage program before).steps j := by rw [hsteps]; exact count_pos_iff.2 hj
  have hne : i ≠ j := fun hij => hi (hij ▸ hj)
  have hsplit : lineage program schedule = run program (fun i l => i :: l) (lineage program before) (i :: after) := by
    rw [hschedule]
    exact run_append ..
  have hread : (step program (fun i l => i :: l) (lineage program before) i).copy i = i :: (lineage program before).value := by
    rcases step_cases hp (fun i l => i :: l) (lineage program before) i with ⟨-, h⟩ | ⟨k, -, h, -⟩ | ⟨h, -⟩ | ⟨-, h, -⟩
    · rw [h]
      exact Function.update_self ..
    · omega
    · have := hp.pos
      omega
    · omega
  have hcopy_i : (lineage program schedule).copy i = i :: (lineage program before).value := by
    rw [hsplit, run, ← hread]
    exact copy_run_of_started hp _ after (by simp)
  have hcopy_j : (lineage program schedule).copy j = (lineage program before).copy j := by
    rw [hsplit]
    exact copy_run_of_started hp _ (i :: after) hj_steps
  -- when `i` reads, `j` has not written, and when `j` read, `i` had not even started
  rcases (grown_lineage hp schedule).chained_value.mem_or_mem (h i (by simp [hschedule])) (h j (by simp [hschedule, hj])) hne
    with hji | hij
  · rw [hcopy_i] at hji
    have := hgrown.of_mem_value j ((mem_cons.1 hji).resolve_left hne.symm)
    rw [hsteps] at this
    exact hover this
  · rw [hcopy_j] at hij
    rcases hgrown.of_mem_copy j i hj_steps hij with hij | hij
    · exact hne hij
    · omega

theorem Settled.step {s : State ι κ (List ι)} (hs : Settled program w s) (hgrown : Grown w s) (i : ι)
    (hstart : s.steps i = 0 → ∀ j, 0 < s.steps j → w < s.steps j) :
    Settled program w (SharedUpdate.step program (fun i l => i :: l) s i) := by
  have hself : Function.update s.steps i (s.steps i + 1) i = s.steps i + 1 := Function.update_self ..
  have hother : ∀ x, x ≠ i → Function.update s.steps i (s.steps i + 1) x = s.steps x := fun x hx => Function.update_of_ne hx ..
  -- publishing at another place than now
  have hold : ∀ x k n, program n = .publish k → program (s.steps i) ≠ .publish k
      → n < Function.update s.steps i (s.steps i + 1) x → x ∈ s.register k := by
    intro x k n hn hi hx
    by_cases hxi : x = i
    · have hne : n ≠ s.steps i := fun h => hi (h ▸ hn)
      rw [hxi] at hx
      exact hs.of_published x k n hn (by rw [hxi]; omega)
    · exact hs.of_published x k n hn (by rwa [← hother x hxi])
  rcases step_cases hp (fun i l => i :: l) s i with ⟨hzero, h⟩ | ⟨k, hk, hpos, hlt, h⟩ | ⟨hw, h⟩ | ⟨hskip, hpos, hne, h⟩
  · rw [h]
    exact hs.start hp (hstart hzero) (by simp [hzero]) hother (Function.update_self ..) rfl rfl
  · rw [h]
    refine hs.advance hpos hlt.ne hself hother rfl rfl fun x k' n hn hx => ?_
    by_cases hkk : k' = k
    · subst hkk
      change x ∈ Function.update s.register k' (s.copy i) k'
      rw [Function.update_self]
      by_cases hxi : x = i
      · rw [hxi]
        exact hgrown.self_mem i hpos
      · change n < Function.update s.steps i (s.steps i + 1) x at hx
        rw [hother x hxi] at hx
        have hwritten : w < s.steps x := by
          by_contra hle
          exact hxi (hs.active_unique x i (by omega) (by omega) hpos hlt.le)
        exact hs.active_copy i hpos hlt.le x hwritten
    · change x ∈ Function.update s.register k (s.copy i) k'
      rw [Function.update_of_ne hkk]
      exact hold x k' n hn (by rw [hk]; exact fun h => hkk (Action.publish.inj h).symm) hx
  · rw [h]
    exact hs.writeBack hp hgrown hw hself hother rfl rfl
  · rw [h]
    exact hs.advance hpos hne hself hother rfl rfl fun x k n hn hx => hold x k n hn (by simp [hskip]) hx

theorem settled_lineage (h : NonOverlapping w schedule) : Settled program w (lineage program schedule) := by
  induction schedule using reverseRecOn with
  | nil => exact settled_init program w
  | append_singleton l i ih =>
    have hl : NonOverlapping w l := by
      intro before j after hlj
      exact h before j (after ++ [i]) (by simp [hlj])
    rw [lineage, run_append]
    refine (ih hl).step hp (grown_lineage hp l) i fun hzero j hj => ?_
    rw [lineage, steps_run] at hzero hj ⊢
    exact h l i [] rfl (count_eq_zero.1 hzero) j (count_pos_iff.1 hj)

/-- **Overlap.** When every caller has written back, every update is in the shared value and in every register exactly when
no two callers overlap. -/
theorem all_kept_iff (hdone : ∀ i, w < schedule.count i) :
    (∀ i, i ∈ (lineage program schedule).value ∧ ∀ k, i ∈ (lineage program schedule).register k) ↔ NonOverlapping w schedule := by
  constructor
  · exact fun h => nonOverlapping_of_mem_value hp fun i _ => (h i).1
  · intro h i
    have hs := settled_lineage hp h
    have hi : w < (lineage program schedule).steps i := by
      rw [lineage, steps_run]
      exact hdone i
    refine ⟨hs.of_written i hi, fun k => ?_⟩
    obtain ⟨n, hn⟩ := hp.publishes k
    exact hs.of_published i k n hn ((hp.publish_lt n k hn).trans hi)

end Overlap

end SunbeamProxy.SharedUpdate
