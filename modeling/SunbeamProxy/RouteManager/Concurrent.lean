/-
`apply` calls that run side by side.
-/
import SunbeamProxy.Core.SharedUpdate
import SunbeamProxy.RouteManager.Model

namespace SunbeamProxy.Concurrent

open Function

open SharedUpdate (IsSection NonOverlapping lineage)

structure Job where
  source : SourceId
  table : RouteTable
  ω : IterOrder := .stored
  id : ℕ := 0
  appliedAt : ℕ := 0

inductive Component where
  | current | l4Config | rewrites
deriving DecidableEq, Repr

inductive Phase where
  | start
  | cloned (tentative : HashMap SourceId RouteTable)
  | storing (c : Component) (tentative : HashMap SourceId RouteTable) (compiled : Compiled)
  | signalling (tentative : HashMap SourceId RouteTable) (compiled : Compiled)
  | recording (tentative : HashMap SourceId RouteTable) (compiled : Compiled)
  | pushing (compiled : Compiled)
  | returned (result : Except CompileError Unit)

structure System (ι : Type) where
  manager : RouteManager
  phase : ι → Phase
  origin : Component → HashMap SourceId RouteTable

def System.start {ι : Type} (m : RouteManager) : System ι := ⟨m, fun _ => .start, fun _ => m.sources⟩

variable {ι : Type} [DecidableEq ι]

def System.to (s : System ι) (i : ι) (p : Phase) : System ι := { s with phase := update s.phase i p }

@[simp]
theorem System.phase_to_self (s : System ι) (i : ι) (p : Phase) : (s.to i p).phase i = p := update_self ..

theorem System.phase_to_of_ne (s : System ι) {i j : ι} (h : j ≠ i) (p : Phase) : (s.to i p).phase j = s.phase j :=
  update_of_ne h ..

def System.swap {ι : Type} (s : System ι) (c : Component) (tentative : HashMap SourceId RouteTable) (compiled : Compiled) : System ι :=
  { s with
    origin := update s.origin c tentative
    manager := match c with
      | .current => { s.manager with current := compiled.table }
      | .l4Config => { s.manager with l4Config := compiled.l4Config }
      | .rewrites => { s.manager with rewrites := compiled.rewrites } }

section

variable (s : System ι) (c : Component) (tentative : HashMap SourceId RouteTable) (compiled : Compiled)

omit [DecidableEq ι]

theorem System.origin_swap : (s.swap c tentative compiled).origin = update s.origin c tentative := by cases c <;> rfl

theorem System.priorities_swap : (s.swap c tentative compiled).manager.priorities = s.manager.priorities := by cases c <;> rfl

end

def step (re : RegexEngine) (jobs : ι → Job) (s : System ι) (i : ι) : System ι :=
  match s.phase i with
  | .start => s.to i (.cloned (s.manager.sources.insert (jobs i).source (jobs i).table))
  | .cloned tentative =>
    match compileMerged (jobs i).ω re (mergeSources tentative s.manager.priorities) with
    | .error e => s.to i (.returned (.error e))
    | .ok compiled => s.to i (.storing .current tentative compiled)
  | .storing .current tentative compiled =>
    (s.swap .current tentative compiled).to i (.storing .l4Config tentative compiled)
  | .storing .l4Config tentative compiled =>
    (s.swap .l4Config tentative compiled).to i (.storing .rewrites tentative compiled)
  | .storing .rewrites tentative compiled => (s.swap .rewrites tentative compiled).to i (.signalling tentative compiled)
  | .signalling tentative compiled =>
    { s with manager := { s.manager with l4Changed := true } }.to i (.recording tentative compiled)
  | .recording tentative compiled => { s with manager := { s.manager with sources := tentative } }.to i (.pushing compiled)
  | .pushing compiled =>
    let version : Version := { compiled with id := (jobs i).id, source := (jobs i).source, appliedAt := (jobs i).appliedAt }
    { s with manager := { s.manager with
      history := RouteManager.pushVersion s.manager.maxHistory s.manager.history version } }.to i (.returned (.ok ()))
  | .returned _ => s

def run (re : RegexEngine) (jobs : ι → Job) (s : System ι) (schedule : List ι) : System ι := schedule.foldl (step re jobs) s

variable {re : RegexEngine} {jobs : ι → Job}

/-! ## Calls as updates of a shared value -/

def program : ℕ → SharedUpdate.Action Component
  | 0 => .read
  | 2 => .publish .current
  | 3 => .publish .l4Config
  | 4 => .publish .rewrites
  | 6 => .write
  | _ => .skip

theorem program_of_le {n : ℕ} (h : 7 ≤ n) : program n = .skip := by
  unfold program
  split
  all_goals first | omega | rfl

theorem isSection_program : IsSection program 6 where
  read_iff n := by unfold program; split <;> simp_all
  write_iff n := by unfold program; split <;> simp_all
  publish_lt n k := by unfold program; split <;> simp_all
  publishes k := by
    cases k with
    | current => exact ⟨2, rfl⟩
    | l4Config => exact ⟨3, rfl⟩
    | rewrites => exact ⟨4, rfl⟩

def record (jobs : ι → Job) (i : ι) (sources : HashMap SourceId RouteTable) : HashMap SourceId RouteTable :=
  sources.insert (jobs i).source (jobs i).table

def Phase.At (n : ℕ) (copy : HashMap SourceId RouteTable) : Phase → Prop
  | .start => n = 0
  | .cloned tentative => n = 1 ∧ copy = tentative
  | .storing .current tentative _ => n = 2 ∧ copy = tentative
  | .storing .l4Config tentative _ => n = 3 ∧ copy = tentative
  | .storing .rewrites tentative _ => n = 4 ∧ copy = tentative
  | .signalling tentative _ => n = 5 ∧ copy = tentative
  | .recording tentative _ => n = 6 ∧ copy = tentative
  | .pushing _ => n = 7
  | .returned (.ok _) => 8 ≤ n
  | .returned (.error _) => False

/-- the system as an instance of the shared update: its value and its register -/
structure Simulates (s : System ι) (a : SharedUpdate.State ι Component (HashMap SourceId RouteTable)) : Prop where
  sources : a.value = s.manager.sources
  origin : a.register = s.origin
  phase : ∀ i, (s.phase i).At (a.steps i) (a.copy i)

omit [DecidableEq ι] in
theorem simulates_start (m : RouteManager) : Simulates (System.start m : System ι) (.init m.sources) := ⟨rfl, rfl, fun _ => rfl⟩

def System.Unfailed (s : System ι) : Prop := ∀ i e, s.phase i ≠ .returned (.error e)

variable {s : System ι}

theorem Simulates.phase_update {a : SharedUpdate.State ι Component (HashMap SourceId RouteTable)} (h : Simulates s a)
    {i : ι} {p : Phase} {n : ℕ} {copy : HashMap SourceId RouteTable} (hp : p.At n copy) (j : ι) :
    (update s.phase i p j).At (update a.steps i n j) (update a.copy i copy j) := by
  by_cases hj : j = i
  · subst hj
    simpa using hp
  · simpa [hj] using h.phase j

theorem Simulates.step {a : SharedUpdate.State ι Component (HashMap SourceId RouteTable)} (h : Simulates s a) (i : ι)
    (hok : (step re jobs s i).Unfailed) :
    Simulates (step re jobs s i) (SharedUpdate.step program (record jobs) a i) := by
  have hi := h.phase i
  -- a step that does not read leaves the copies
  have hkeep : ∀ p n, p.At n (a.copy i) → ∀ j, (update s.phase i p j).At (update a.steps i n j) (a.copy j) := by
    intro p n hp j
    simpa using h.phase_update (i := i) hp j
  cases hphase : s.phase i with
  | start =>
    rw [hphase] at hi
    have hn := hi
    rw [Concurrent.step, hphase, SharedUpdate.step, hn]
    exact ⟨h.sources, h.origin, h.phase_update ⟨rfl, by rw [record, h.sources]⟩⟩
  | cloned tentative =>
    rw [hphase] at hi
    obtain ⟨hn, hcopy⟩ := hi
    cases hc : compileMerged (jobs i).ω re (mergeSources tentative s.manager.priorities) with
    | error e =>
      refine absurd ?_ (hok i e)
      rw [Concurrent.step, hphase]
      simp [hc]
    | ok compiled =>
      rw [Concurrent.step, hphase, SharedUpdate.step, hn]
      simp only [hc]
      exact ⟨h.sources, h.origin, hkeep _ _ ⟨rfl, hcopy⟩⟩
  | storing c tentative compiled =>
    rw [hphase] at hi
    cases c
    all_goals
      obtain ⟨hn, hcopy⟩ := hi
      rw [Concurrent.step, hphase, SharedUpdate.step, hn]
      exact ⟨h.sources, by rw [h.origin, hcopy]; rfl, hkeep _ _ ⟨rfl, hcopy⟩⟩
  | signalling tentative compiled =>
    rw [hphase] at hi
    obtain ⟨hn, hcopy⟩ := hi
    rw [Concurrent.step, hphase, SharedUpdate.step, hn]
    exact ⟨h.sources, h.origin, hkeep _ _ ⟨rfl, hcopy⟩⟩
  | recording tentative compiled =>
    rw [hphase] at hi
    obtain ⟨hn, hcopy⟩ := hi
    rw [Concurrent.step, hphase, SharedUpdate.step, hn]
    exact ⟨hcopy, h.origin, hkeep _ _ rfl⟩
  | pushing compiled =>
    rw [hphase] at hi
    have hn := hi
    rw [Concurrent.step, hphase, SharedUpdate.step, hn]
    exact ⟨h.sources, h.origin, hkeep _ _ (le_refl 8)⟩
  | returned result =>
    rw [hphase] at hi
    cases result with
    | error e => exact hi.elim
    | ok u =>
      have hn : 8 ≤ a.steps i := hi
      have hsame := hkeep (s.phase i) (a.steps i + 1) (by rw [hphase]; exact Nat.le_succ_of_le hn)
      rw [update_eq_self] at hsame
      rw [Concurrent.step, hphase, SharedUpdate.step, program_of_le (by omega)]
      exact ⟨h.sources, h.origin, hsame⟩

theorem phase_step_of_returned {i : ι} {r : Except CompileError Unit} (h : s.phase i = .returned r) (j : ι) :
    (step re jobs s j).phase i = .returned r := by
  by_cases hj : i = j
  · subst hj
    rw [step, h]
    exact h
  · have hto : ∀ (s' : System ι) p, s'.phase i = .returned r → (s'.to j p).phase i = .returned r := by
      intro s' p hs'
      rw [System.phase_to_of_ne s' hj, hs']
    rw [step]
    split
    · exact hto s _ h
    · split <;> exact hto s _ h
    all_goals first | exact hto _ _ h | exact h

theorem simulates_run (m : RouteManager) (schedule : List ι) (hok : (run re jobs (.start m) schedule).Unfailed) :
    Simulates (run re jobs (.start m) schedule) (SharedUpdate.run program (record jobs) (.init m.sources) schedule) := by
  induction schedule using List.reverseRecOn with
  | nil => exact simulates_start m
  | append_singleton l i ih =>
    have hstep : run re jobs (.start m) (l ++ [i]) = step re jobs (run re jobs (.start m) l) i := by simp [run]
    rw [hstep] at hok ⊢
    rw [SharedUpdate.run_append]
    refine (ih fun j e hj => ?_).step i hok
    exact hok j e (phase_step_of_returned hj i)

def Agrees (m : RouteManager) (compiled : Compiled) : Component → Prop
  | .current => m.current = compiled.table
  | .l4Config => m.l4Config = compiled.l4Config
  | .rewrites => m.rewrites = compiled.rewrites

/-- what is served of the component was compiled from the sources noted for it -/
def CompiledFromOrigin (re : RegexEngine) (s : System ι) (c : Component) : Prop :=
  ∃ ω compiled, compileMerged ω re (mergeSources (s.origin c) s.manager.priorities) = .ok compiled
    ∧ Agrees s.manager compiled c

def Phase.HasStored (c : Component) : Phase → Prop
  | .storing .l4Config .. => c = .current
  | .storing .rewrites .. => c ≠ .rewrites
  | .signalling .. | .recording .. | .pushing _ | .returned (.ok _) => True
  | _ => False

/-- what a call stores was compiled from its own copy of the sources -/
structure Sound (re : RegexEngine) (s : System ι) : Prop where
  carries : ∀ i c tentative compiled, s.phase i = .storing c tentative compiled →
    ∃ ω, compileMerged ω re (mergeSources tentative s.manager.priorities) = .ok compiled
  stored : ∀ i c, (s.phase i).HasStored c → CompiledFromOrigin re s c

theorem Sound.to (h : Sound re s) (i : ι) {p : Phase} (hcarries : ∀ c tentative compiled, p = .storing c tentative compiled →
      ∃ ω, compileMerged ω re (mergeSources tentative s.manager.priorities) = .ok compiled)
    (hstored : ∀ c, p.HasStored c → CompiledFromOrigin re s c) : Sound re (s.to i p) := by
  refine ⟨fun j c tentative compiled hj => ?_, fun j c hj => ?_⟩
  · by_cases hji : j = i
    · subst hji
      rw [System.phase_to_self] at hj
      exact hcarries c tentative compiled hj
    · rw [System.phase_to_of_ne s hji] at hj
      exact h.carries j c tentative compiled hj
  · by_cases hji : j = i
    · subst hji
      rw [System.phase_to_self] at hj
      exact hstored c hj
    · rw [System.phase_to_of_ne s hji] at hj
      exact h.stored j c hj

omit [DecidableEq ι] in
theorem compiledFromOrigin_swap {c : Component} {tentative : HashMap SourceId RouteTable} {compiled : Compiled}
    (hc : ∃ ω, compileMerged ω re (mergeSources tentative s.manager.priorities) = .ok compiled) (c' : Component)
    (h : c' = c ∨ CompiledFromOrigin re s c') : CompiledFromOrigin re (s.swap c tentative compiled) c' := by
  by_cases hcc : c' = c
  · subst hcc
    obtain ⟨ω, hω⟩ := hc
    refine ⟨ω, compiled, ?_, by cases c' <;> rfl⟩
    rw [System.priorities_swap, System.origin_swap, update_self, hω]
  · obtain ⟨ω, compiled', hω, hagree⟩ := h.resolve_left hcc
    refine ⟨ω, compiled', ?_, ?_⟩
    · rw [System.priorities_swap, System.origin_swap, update_of_ne hcc, hω]
    · cases c <;> cases c' <;> first | exact absurd rfl hcc | exact hagree

omit [DecidableEq ι] in
theorem Sound.swap (h : Sound re s) {c : Component} {tentative : HashMap SourceId RouteTable} {compiled : Compiled}
    (hc : ∃ ω, compileMerged ω re (mergeSources tentative s.manager.priorities) = .ok compiled) :
    Sound re (s.swap c tentative compiled) := by
  refine ⟨fun j c' t k hj => ?_, fun j c' hj => ?_⟩
  · rw [System.priorities_swap]
    exact h.carries j c' t k hj
  · exact compiledFromOrigin_swap hc c' (.inr (h.stored j c' hj))

theorem Sound.step (h : Sound re s) (i : ι) : Sound re (step re jobs s i) := by
  rw [Concurrent.step]
  split
  · exact h.to i (by simp) (by simp [Phase.HasStored])
  · split
    · exact h.to i (by simp) (by simp [Phase.HasStored])
    · rename_i compiled hc
      refine h.to i (fun c t k hp => ?_) (by simp [Phase.HasStored])
      cases hp
      exact ⟨_, hc⟩
  · rename_i tentative compiled hphase
    have hc := h.carries i _ tentative compiled hphase
    refine (h.swap hc).to i (fun c t k hp => ?_) fun c hcs => compiledFromOrigin_swap hc c (.inl hcs)
    cases hp
    exact hc
  · rename_i tentative compiled hphase
    have hc := h.carries i _ tentative compiled hphase
    refine (h.swap hc).to i (fun c t k hp => ?_) fun c hcs => compiledFromOrigin_swap hc c ?_
    · cases hp
      exact hc
    · cases c with
      | current => exact .inr (h.stored i .current (by rw [hphase]; rfl))
      | l4Config => exact .inl rfl
      | rewrites => exact absurd rfl hcs
  · rename_i tentative compiled hphase
    have hc := h.carries i _ tentative compiled hphase
    refine (h.swap hc).to i (by simp) fun c _ => compiledFromOrigin_swap hc c ?_
    by_cases hcr : c = .rewrites
    · exact .inl hcr
    · exact .inr (h.stored i c (by rw [hphase]; exact hcr))
  all_goals first
    | exact h
    | rename_i hphase
      have hstored := fun c => h.stored i c (by rw [hphase]; trivial)
      refine Sound.to ?_ i (by simp) fun c _ => hstored c
      exact ⟨h.carries, h.stored⟩

theorem sound_run (m : RouteManager) (schedule : List ι) : Sound re (run re jobs (.start m) schedule) := by
  have hrun : ∀ s : System ι, Sound re s → Sound re (run re jobs s schedule) := by
    induction schedule with
    | nil => exact fun s h => h
    | cons i l ih => exact fun s h => ih _ (h.step i)
  exact hrun _ ⟨by simp [System.start], by simp [System.start, Phase.HasStored]⟩

/-! ## What survives -/

theorem get_foldr_record (hsources : Function.Injective fun i => (jobs i).source) (m : HashMap SourceId RouteTable) (l : List ι)
    (i : ι) : (l.foldr (record jobs) m).get (jobs i).source = if i ∈ l then some (jobs i).table else m.get (jobs i).source := by
  induction l with
  | nil => simp
  | cons j l ih =>
    rw [List.foldr_cons, record, HashMap.get_insert]
    by_cases hij : i = j
    · simp [hij]
    · have hne := fun h => hij (hsources h)
      rw [if_neg hne, ih]
      simp [hij]

/-- every call's table is recorded, and each component in service is compiled from a merge that has it -/
def AllKept (re : RegexEngine) (jobs : ι → Job) (s : System ι) : Prop :=
  ∀ i, s.manager.sources.get (jobs i).source = some (jobs i).table
    ∧ ∀ c, CompiledFromOrigin re s c ∧ (s.origin c).get (jobs i).source = some (jobs i).table

def AlreadyRecorded (m : RouteManager) (job : Job) : Prop := m.sources.get job.source = some job.table

/-- the calls that wrote the sources and swapped each component last have built on this one, or are this one -/
def BuiltOn (schedule : List ι) (i : ι) : Prop :=
  i ∈ (lineage program schedule).value ∧ ∀ c, i ∈ (lineage program schedule).register c

section Returned

variable {m : RouteManager} {schedule : List ι} (hsources : Function.Injective fun i => (jobs i).source)
  (hdone : ∀ i, (run re jobs (.start m) schedule).phase i = .returned (.ok ()))

include hdone

theorem simulates_returned : Simulates (run re jobs (.start m) schedule)
    (SharedUpdate.run program (record jobs) (.init m.sources) schedule) := by
  apply simulates_run
  intro i e h
  rw [hdone i] at h
  cases h

include hsources

theorem kept_iff_built_on : AllKept re jobs (run re jobs (.start m) schedule)
    ↔ ∀ i, AlreadyRecorded m (jobs i) ∨ BuiltOn schedule i := by
  have hsim := simulates_returned hdone
  rw [SharedUpdate.run_eq_foldr] at hsim
  -- what is recorded for a call, and what is in the merge behind a component
  have hvalue : ∀ i, (run re jobs (.start m) schedule).manager.sources.get (jobs i).source
      = if i ∈ (lineage program schedule).value then some (jobs i).table else m.sources.get (jobs i).source := by
    intro i
    rw [← hsim.sources]
    exact get_foldr_record hsources m.sources _ i
  have horigin : ∀ c i, ((run re jobs (.start m) schedule).origin c).get (jobs i).source
      = if i ∈ (lineage program schedule).register c then some (jobs i).table else m.sources.get (jobs i).source := by
    intro c i
    rw [← hsim.origin]
    exact get_foldr_record hsources m.sources _ i
  have hcompiled : ∀ (i : ι) (c : Component), CompiledFromOrigin re (run re jobs (.start m) schedule) c := by
    intro i c
    apply (sound_run m schedule).stored i c
    rw [hdone i]
    trivial
  refine forall_congr' fun i => ?_
  rw [hvalue, AlreadyRecorded, BuiltOn]
  by_cases hrec : m.sources.get (jobs i).source = some (jobs i).table <;> simp [hrec, horigin, hcompiled i]

theorem kept_iff_nonOverlapping (hnew : ∀ i, ¬ AlreadyRecorded m (jobs i)) :
    AllKept re jobs (run re jobs (.start m) schedule) ↔ NonOverlapping 6 schedule := by
  have hwritten : ∀ i, 6 < schedule.count i := by
    intro i
    have hphase := (simulates_returned hdone).phase i
    rw [hdone i, SharedUpdate.steps_run] at hphase
    have : 8 ≤ schedule.count i := hphase
    omega
  rw [kept_iff_built_on hsources hdone, ← SharedUpdate.all_kept_iff isSection_program hwritten]
  simp [hnew, BuiltOn]

end Returned

/-- **Lost updates.** When calls from different sources have all returned, every table is recorded and in service exactly when
each was recorded before or is built on by the calls that wrote last. -/
theorem concurrent_applies_kept_iff (re : RegexEngine) (m : RouteManager) (jobs : ι → Job) (schedule : List ι)
    (hsources : Function.Injective fun i => (jobs i).source)
    (hdone : ∀ i, (run re jobs (.start m) schedule).phase i = .returned (.ok ())) :
    (AllKept re jobs (run re jobs (.start m) schedule) ↔ ∀ i, AlreadyRecorded m (jobs i) ∨ BuiltOn schedule i)
      ∧ ((∀ i, ¬ AlreadyRecorded m (jobs i)) → (AllKept re jobs (run re jobs (.start m) schedule) ↔ NonOverlapping 6 schedule)) :=
  ⟨kept_iff_built_on hsources hdone, kept_iff_nonOverlapping hsources hdone⟩

def firstReports : Fin 2 → Job
  | 0 => { source := "gateway-api", table := { hosts := [{ hostname := .exact "a.example", rules := [] }] } }
  | 1 => { source := "caddyfile", table := { hosts := [{ hostname := .exact "b.example", rules := [] }] } }

def emptyManager : RouteManager := .new .stored ⟨fun _ => none⟩ 4

theorem one_after_the_other_kept : AllKept ⟨fun _ => none⟩ firstReports
      (run ⟨fun _ => none⟩ firstReports (.start emptyManager) (List.replicate 8 0 ++ List.replicate 8 1)) := by
  have h := concurrent_applies_kept_iff ⟨fun _ => none⟩ emptyManager firstReports (List.replicate 8 0 ++ List.replicate 8 1)
    (by intro i j h; fin_cases i <;> fin_cases j <;> first | rfl | exact absurd h (by decide))
    (by intro i; fin_cases i <;> rfl)
  rw [h.1]
  intro i
  right
  fin_cases i
  all_goals exact ⟨by decide, by intro c; cases c <;> decide⟩

/-- both clone the sources before either writes them back; both return without error and the first report is lost -/
theorem overlapping_apply_lost :
    let s := run ⟨fun _ => none⟩ firstReports (.start emptyManager) ([0, 1] ++ List.replicate 7 0 ++ List.replicate 7 1)
    (∀ i, s.phase i = .returned (.ok ())) ∧ s.manager.sources.get "gateway-api" = none
      ∧ ¬ AllKept ⟨fun _ => none⟩ firstReports s := by
  refine ⟨by intro i; fin_cases i <;> rfl, rfl, fun h => ?_⟩
  have hfirst := (h 0).1
  cases hfirst

end SunbeamProxy.Concurrent
