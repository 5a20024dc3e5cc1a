/-
Leader election over one Lease (`gateway/election.rs`).
-/
import Mathlib.Logic.Function.Basic
import Mathlib.Tactic

namespace SunbeamProxy.Election

open Function List

inductive LeaderState where
  | leader | notLeader
deriving DecidableEq, Repr

structure Lease where
  name : String
  namespace_ : String
  holderIdentity : Option String
  leaseDurationSeconds : Option ℕ
  renewTime : Option ℕ
deriving DecidableEq, Repr

def buildLease (name namespace_ identity : String) (now : ℕ) : Lease :=
  { name, namespace_, holderIdentity := some identity, leaseDurationSeconds := some 15, renewTime := some now }

structure Replica where
  isLeader : Bool := false
  tokenValid : Bool := false
  state : LeaderState := .notLeader
deriving DecidableEq, Repr

abbrev PatchResult := Except String Lease

def handlePatchResult (result : PatchResult) (r : Replica) : Replica :=
  match result with
  | .ok _ => if !r.isLeader then ⟨true, true, .leader⟩ else r
  | .error _ => if r.isLeader then ⟨false, false, .notLeader⟩ else r

def takeToken (r : Replica) : Replica := if r.state = .leader then { r with tokenValid := true } else r

def dropToken (r : Replica) : Replica := { r with tokenValid := false }

structure Group (ι : Type) where
  lease : Option Lease
  replica : ι → Replica
  inFlight : ι → Option PatchResult
  lastAnswer : ι → Option Bool

inductive Event (ι : Type) where
  /-- a patch made at the given time is stored -/
  | patch (i : ι) (now : ℕ)
  /-- a patch fails -/
  | fail (i : ι) (reason : String)
  | handle (i : ι)
  | takeToken (i : ι)
  | dropToken (i : ι)

def Group.new {ι : Type} (lease : Option Lease) : Group ι := ⟨lease, fun _ => {}, fun _ => none, fun _ => none⟩

variable {ι : Type} [DecidableEq ι]

def step (name namespace_ : String) (identity : ι → String) (g : Group ι) : Event ι → Group ι
  | .patch i now =>
    if (g.inFlight i).isSome then g
    else
      let stored := buildLease name namespace_ (identity i) now
      { g with lease := some stored, inFlight := update g.inFlight i (some (.ok stored)) }
  | .fail i reason =>
    if (g.inFlight i).isSome then g
    else { g with inFlight := update g.inFlight i (some (.error reason)) }
  | .handle i =>
    match g.inFlight i with
    | none => g
    | some result =>
      { g with
        replica := update g.replica i (handlePatchResult result (g.replica i))
        inFlight := update g.inFlight i none
        lastAnswer := update g.lastAnswer i (some result.isOk) }
  | .takeToken i => { g with replica := update g.replica i (takeToken (g.replica i)) }
  | .dropToken i => { g with replica := update g.replica i (dropToken (g.replica i)) }

def run (name namespace_ : String) (identity : ι → String) (g : Group ι) (events : List (Event ι)) : Group ι :=
  events.foldl (step name namespace_ identity) g

/-- at most one replica takes itself for the leader -/
def OneLeader {ι : Type} (g : Group ι) : Prop :=
  ∀ i j, (g.replica i).state = .leader → (g.replica j).state = .leader → i = j

section Replica

variable {r : Replica} {result : PatchResult}

/-- the published state says what the flag says -/
def Replica.InSync (r : Replica) : Prop := r.state = .leader ↔ r.isLeader = true

theorem isLeader_handlePatchResult (result : PatchResult) (r : Replica) :
    (handlePatchResult result r).isLeader = result.isOk := by
  cases result <;> cases h : r.isLeader <;> simp [handlePatchResult, h, Except.toBool]

theorem Replica.InSync.handlePatchResult (h : r.InSync) : (handlePatchResult result r).InSync := by
  cases result
  all_goals
    rw [Election.handlePatchResult]
    split_ifs
    · simp [InSync]
    · exact h

theorem isLeader_takeToken (r : Replica) : (takeToken r).isLeader = r.isLeader := by
  rw [takeToken]
  split_ifs <;> rfl

theorem Replica.InSync.takeToken (h : r.InSync) : (takeToken r).InSync := by
  rw [Election.takeToken]
  split_ifs <;> exact h

end Replica

/-- a replica's flag says what the lease answered it last -/
structure Told {ι : Type} (g : Group ι) : Prop where
  inSync : ∀ i, (g.replica i).InSync
  isLeader : ∀ i, (g.replica i).isLeader = true ↔ g.lastAnswer i = some true

theorem Told.leader_iff {ι : Type} {g : Group ι} (h : Told g) (i : ι) :
    (g.replica i).state = .leader ↔ g.lastAnswer i = some true := (h.inSync i).trans (h.isLeader i)

variable (lease : Option Lease)

theorem told_new {ι : Type} : Told (Group.new lease : Group ι) :=
  ⟨fun i => by simp [Group.new, Replica.InSync], fun i => by simp [Group.new]⟩

variable {name namespace_ : String} {identity : ι → String} {g : Group ι}

theorem Told.update (h : Told g) (i : ι) {r : Replica} {answer : Option Bool} (hsync : r.InSync)
    (hanswer : r.isLeader = true ↔ answer = some true) (lease : Option Lease) (inFlight : ι → Option PatchResult) :
    Told ⟨lease, update g.replica i r, inFlight, update g.lastAnswer i answer⟩ := by
  refine ⟨fun j => ?_, fun j => ?_⟩
  · by_cases hj : j = i
    · subst hj
      simpa using hsync
    · simpa [hj] using h.inSync j
  · by_cases hj : j = i
    · subst hj
      simpa using hanswer
    · simpa [hj] using h.isLeader j

theorem Told.step (h : Told g) (e : Event ι) : Told (step name namespace_ identity g e) := by
  cases e with
  | patch i now | fail i reason =>
    rw [Election.step]
    split_ifs
    · exact h
    · exact ⟨h.inSync, h.isLeader⟩
  | handle i =>
    rw [Election.step]
    split
    · exact h
    · apply h.update i (h.inSync i).handlePatchResult
      rw [isLeader_handlePatchResult]
      simp
  | takeToken i =>
    have hflag : (takeToken (g.replica i)).isLeader = true ↔ g.lastAnswer i = some true := by
      rw [isLeader_takeToken]
      exact h.isLeader i
    have hr := h.update i (h.inSync i).takeToken hflag g.lease g.inFlight
    rwa [update_eq_self] at hr
  | dropToken i =>
    have hflag := h.isLeader i
    have hr := h.update i (show (dropToken (g.replica i)).InSync from h.inSync i) hflag g.lease g.inFlight
    rwa [update_eq_self] at hr

theorem run_concat (events : List (Event ι)) (e : Event ι) :
    run name namespace_ identity g (events ++ [e]) = step name namespace_ identity (run name namespace_ identity g events) e := by
  simp [run]

theorem run_keeps {P : Group ι → Prop} (hkeep : ∀ g e, P g → P (step name namespace_ identity g e)) (h : P g)
    (events : List (Event ι)) : P (run name namespace_ identity g events) := by
  induction events using reverseRecOn with
  | nil => exact h
  | append_singleton events e ih =>
    rw [run_concat]
    exact hkeep _ _ ih

theorem told_run (lease : Option Lease) (events : List (Event ι)) :
    Told (run name namespace_ identity (.new lease) events) := run_keeps (fun _ e h => h.step e) (told_new lease) events

/-- **Leadership.** A replica leads exactly when the last answer it handled was not an error. -/
theorem leader_iff_lastAnswer (events : List (Event ι)) (i : ι) :
    ((run name namespace_ identity (.new lease) events).replica i).state = .leader
      ↔ (run name namespace_ identity (.new lease) events).lastAnswer i = some true := (told_run lease events).leader_iff i

theorem step_cases (name namespace_ : String) (identity : ι → String) (g : Group ι) (e : Event ι) :
    (step name namespace_ identity g e).inFlight = g.inFlight ∧ (step name namespace_ identity g e).lastAnswer = g.lastAnswer
      ∨ (∃ i result, ((∃ now, e = .patch i now ∧ result.isOk = true) ∨ ∃ reason, e = .fail i reason)
        ∧ (step name namespace_ identity g e).inFlight = update g.inFlight i (some result)
        ∧ (step name namespace_ identity g e).lastAnswer = g.lastAnswer)
      ∨ ∃ i result, e = .handle i ∧ g.inFlight i = some result
        ∧ (step name namespace_ identity g e).inFlight = update g.inFlight i none
        ∧ (step name namespace_ identity g e).lastAnswer = update g.lastAnswer i (some result.isOk) := by
  cases e with
  | patch i now =>
    rw [step]
    split_ifs
    · exact .inl ⟨rfl, rfl⟩
    · exact .inr (.inl ⟨i, _, .inl ⟨now, rfl, rfl⟩, rfl, rfl⟩)
  | fail i reason =>
    rw [step]
    split_ifs
    · exact .inl ⟨rfl, rfl⟩
    · exact .inr (.inl ⟨i, _, .inr ⟨reason, rfl⟩, rfl, rfl⟩)
  | handle i =>
    rw [step]
    split
    · exact .inl ⟨rfl, rfl⟩
    · rename_i result hflight
      exact .inr (.inr ⟨i, result, rfl, hflight, rfl, rfl⟩)
  | takeToken i | dropToken i => exact .inl ⟨rfl, rfl⟩

theorem lastAnswer_step_cases (name namespace_ : String) (identity : ι → String) (g : Group ι) (e : Event ι) :
    (step name namespace_ identity g e).lastAnswer = g.lastAnswer ∨ ∃ i result, e = .handle i ∧ g.inFlight i = some result
        ∧ (step name namespace_ identity g e).lastAnswer = update g.lastAnswer i (some result.isOk) := by
  rcases step_cases name namespace_ identity g e with ⟨_, hsame⟩ | ⟨_, _, _, _, hsame⟩ | ⟨i, result, he, hflight, _, hnote⟩
  · exact .inl hsame
  · exact .inl hsame
  · exact .inr ⟨i, result, he, hflight, hnote⟩

theorem lastAnswer_handle {i : ι} {result : PatchResult} (h : g.inFlight i = some result) :
    (step name namespace_ identity g (.handle i)).lastAnswer = update g.lastAnswer i (some result.isOk) := by
  simp [step, h]

/-- the replica whose stored Lease is handled finds no other one told that it leads -/
def FindsNoLeader (g : Group ι) (i : ι) : Prop :=
  (∃ lease, g.inFlight i = some (.ok lease)) → ∀ j, j ≠ i → g.lastAnswer j ≠ some true

variable {e : Event ι}

theorem oneLeader_step (htold : Told g) (hone : OneLeader g) (hfinds : ∀ i, e = .handle i → FindsNoLeader g i) :
    OneLeader (step name namespace_ identity g e) := by
  have htold' : Told (step name namespace_ identity g e) := htold.step e
  intro a b ha hb
  rw [htold'.leader_iff] at ha hb
  rcases lastAnswer_step_cases name namespace_ identity g e with hsame | ⟨i, result, he, hflight, hnote⟩
  · rw [hsame] at ha hb
    exact hone a b ((htold.leader_iff a).2 ha) ((htold.leader_iff b).2 hb)
  · rw [hnote] at ha hb
    -- a replica other than the one that handles its answer was told before
    have hother : ∀ j, j ≠ i → update g.lastAnswer i (some result.isOk) j = some true → g.lastAnswer j = some true := by
      intro j hj hans
      rwa [update_of_ne hj] at hans
    have hok : update g.lastAnswer i (some result.isOk) i = some true → ∃ lease, g.inFlight i = some (.ok lease) := by
      intro hans
      cases result with
      | ok lease => exact ⟨lease, hflight⟩
      | error e => simp [Except.toBool] at hans
    by_cases hai : a = i
    · by_cases hbi : b = i
      · rw [hai, hbi]
      · subst hai
        exact absurd (hother b hbi hb) (hfinds a he (hok ha) b hbi)
    · by_cases hbi : b = i
      · subst hbi
        exact absurd (hother a hai ha) (hfinds b he (hok hb) a hai)
      · exact hone a b ((htold.leader_iff a).2 (hother a hai ha)) ((htold.leader_iff b).2 (hother b hbi hb))

theorem oneLeader_prefixes_iff (events : List (Event ι)) :
    (∀ before, before <+: events → OneLeader (run name namespace_ identity (.new lease) before))
      ↔ ∀ before i, before ++ [.handle i] <+: events → FindsNoLeader (run name namespace_ identity (.new lease) before) i := by
  apply Iff.intro
  · intro hone before i hbegins hok j hj hans
    obtain ⟨stored, hflight⟩ := hok
    have hafter := hone _ hbegins j i
    rw [(told_run lease _).leader_iff, (told_run lease _).leader_iff, run_concat, lastAnswer_handle hflight,
      update_of_ne hj, update_self] at hafter
    exact hj (hafter hans rfl)
  · intro hfinds before
    induction before using reverseRecOn with
    | nil =>
      intro _ i j hi
      cases hi
    | append_singleton before e ih =>
      intro hbegins
      rw [run_concat]
      apply oneLeader_step (told_run lease before) (ih ((prefix_append before [e]).trans hbegins))
      intro i he
      subst he
      exact hfinds before i hbegins

/-! ## Runs in which the server stores every patch -/

/-- the replica patches the Lease and later handles an answer -/
def Answered {ι : Type} (events : List (Event ι)) (i : ι) : Prop :=
  ∃ before after, events = before ++ after ∧ (∃ now, .patch i now ∈ before) ∧ .handle i ∈ after

/-- what the answers in flight and the handled ones say of the events so far, when none of them is a failure -/
structure Traced {ι : Type} (g : Group ι) (events : List (Event ι)) : Prop where
  inFlight : ∀ i result, g.inFlight i = some result → result.isOk = true ∧ ∃ now, .patch i now ∈ events
  lastAnswer : ∀ i told, g.lastAnswer i = some told → told = true ∧ Answered events i

theorem Answered.concat {ι : Type} {events : List (Event ι)} {i : ι} (h : Answered events i) (e : Event ι) :
    Answered (events ++ [e]) i := by
  obtain ⟨before, after, hsplit, hpatch, hhandle⟩ := h
  refine ⟨before, after ++ [e], ?_, hpatch, mem_append_left _ hhandle⟩
  rw [hsplit, append_assoc]

variable {events : List (Event ι)}

theorem Traced.step (h : Traced g events) (hfail : ∀ i reason, e ≠ .fail i reason) :
    Traced (step name namespace_ identity g e) (events ++ [e]) := by
  have hflight_old : ∀ i result, g.inFlight i = some result → result.isOk = true ∧ ∃ now, .patch i now ∈ events ++ [e] := by
    intro i result hflight
    obtain ⟨hok, now, hpatch⟩ := h.inFlight i result hflight
    exact ⟨hok, now, mem_append_left _ hpatch⟩
  have hanswer_old : ∀ i told, g.lastAnswer i = some told → told = true ∧ Answered (events ++ [e]) i := by
    intro i told hans
    obtain ⟨htrue, hanswered⟩ := h.lastAnswer i told hans
    exact ⟨htrue, hanswered.concat e⟩
  rcases step_cases name namespace_ identity g e with
    ⟨hflight, hans⟩ | ⟨i, result, he, hflight, hans⟩ | ⟨i, result, he, hin, hflight, hans⟩
  · exact ⟨by rwa [hflight], by rwa [hans]⟩
  · refine ⟨?_, by rwa [hans]⟩
    intro j answer hj
    rw [hflight] at hj
    rcases he with ⟨now, he, hok⟩ | ⟨reason, he⟩
    · by_cases hji : j = i
      · subst hji
        rw [update_self] at hj
        cases hj
        exact ⟨hok, now, by simp [he]⟩
      · rw [update_of_ne hji] at hj
        exact hflight_old j answer hj
    · exact absurd he (hfail i reason)
  · obtain ⟨hok, hpatch⟩ := h.inFlight i result hin
    refine ⟨?_, ?_⟩
    · intro j answer hj
      rw [hflight] at hj
      by_cases hji : j = i
      · subst hji
        simp at hj
      · rw [update_of_ne hji] at hj
        exact hflight_old j answer hj
    · intro j told hj
      rw [hans] at hj
      by_cases hji : j = i
      · subst hji
        rw [update_self, hok] at hj
        cases hj
        exact ⟨rfl, events, [e], rfl, hpatch, by simp [he]⟩
      · rw [update_of_ne hji] at hj
        exact hanswer_old j told hj

theorem traced_run (events : List (Event ι)) (hstored : ∀ i reason, .fail i reason ∉ events) :
    Traced (run name namespace_ identity (.new lease) events) events := by
  induction events using reverseRecOn with
  | nil => exact ⟨fun i result h => (by cases h), fun i told h => (by cases h)⟩
  | append_singleton events e ih =>
    rw [run_concat]
    apply (ih fun i reason hmem => hstored i reason (mem_append_left _ hmem)).step
    intro i reason he
    apply hstored i reason
    simp [he]

/-- a patch of the replica is in flight or was answered -/
def Started {ι : Type} (g : Group ι) (i : ι) : Prop := g.inFlight i ≠ none ∨ g.lastAnswer i ≠ none

theorem lastAnswer_step_ne_none {i : ι} (h : g.lastAnswer i ≠ none) (e : Event ι) :
    (step name namespace_ identity g e).lastAnswer i ≠ none := by
  rcases lastAnswer_step_cases name namespace_ identity g e with hsame | ⟨j, result, _, _, hnote⟩
  · rwa [hsame]
  · rw [hnote]
    by_cases hj : i = j
    · subst hj
      simp
    · rwa [update_of_ne hj]

theorem Started.step {i : ι} (h : Started g i) (e : Event ι) : Started (step name namespace_ identity g e) i := by
  rcases h with hin | hans
  · rcases step_cases name namespace_ identity g e with
      ⟨hflight, _⟩ | ⟨j, result, _, hflight, _⟩ | ⟨j, result, _, _, hflight, hnote⟩
    · exact .inl (by rwa [hflight])
    · refine .inl ?_
      rw [hflight]
      by_cases hij : i = j
      · subst hij
        simp
      · rwa [update_of_ne hij]
    · by_cases hij : i = j
      · subst hij
        exact .inr (by simp [hnote])
      · refine .inl ?_
        rwa [hflight, update_of_ne hij]
  · exact .inr (lastAnswer_step_ne_none hans e)

theorem started_patch (g : Group ι) (i : ι) (now : ℕ) : Started (step name namespace_ identity g (.patch i now)) i := by
  rw [Election.step]
  split_ifs with hin
  · exact .inl (Option.isSome_iff_ne_none.1 hin)
  · exact .inl (by simp)

theorem Started.handle {i : ι} (h : Started g i) : (Election.step name namespace_ identity g (.handle i)).lastAnswer i ≠ none := by
  rcases h with hin | hans
  · obtain ⟨result, hflight⟩ := Option.ne_none_iff_exists'.1 hin
    rw [lastAnswer_handle hflight]
    simp
  · exact lastAnswer_step_ne_none hans _

theorem run_of_mem {P : Group ι → Prop} (hkeep : ∀ g e, P g → P (step name namespace_ identity g e))
    (hmem : e ∈ events) (g : Group ι)
    (hmake : ∀ before, P (step name namespace_ identity (run name namespace_ identity g before) e)) :
    P (run name namespace_ identity g events) := by
  induction events using reverseRecOn with
  | nil => cases hmem
  | append_singleton events last ih =>
    rw [run_concat]
    rcases mem_append.1 hmem with hbefore | hlast
    · exact hkeep _ _ (ih hbefore)
    · rw [← mem_singleton.1 hlast]
      exact hmake events

theorem run_append (before after : List (Event ι)) : run name namespace_ identity g (before ++ after)
      = run name namespace_ identity (run name namespace_ identity g before) after := by
  simp [run]

theorem Answered.lastAnswer {i : ι} (h : Answered events i) (g : Group ι) :
    (run name namespace_ identity g events).lastAnswer i ≠ none := by
  obtain ⟨before, after, hsplit, ⟨now, hpatch⟩, hhandle⟩ := h
  have hstarted : Started (run name namespace_ identity g before) i :=
    run_of_mem (P := fun g => Started g i) (fun _ e hs => hs.step e) hpatch g fun _ => started_patch _ i now
  rw [hsplit, run_append]
  apply run_of_mem (P := fun g => g.lastAnswer i ≠ none) (fun _ e hs => lastAnswer_step_ne_none hs e) hhandle
  intro between
  exact (run_keeps (P := fun g => Started g i) (fun _ e hs => hs.step e) hstarted between).handle

theorem leader_iff_answered (events : List (Event ι)) (hstored : ∀ i reason, .fail i reason ∉ events) (i : ι) :
    ((run name namespace_ identity (.new lease) events).replica i).state = .leader ↔ Answered events i := by
  rw [leader_iff_lastAnswer]
  have htraced : Traced (run name namespace_ identity (.new lease) events) events := traced_run lease events hstored
  apply Iff.intro
  · intro htold
    exact (htraced.lastAnswer i true htold).2
  · intro hanswered
    obtain ⟨told, htold⟩ := Option.ne_none_iff_exists'.1 (hanswered.lastAnswer (.new lease))
    rw [htold, (htraced.lastAnswer i told htold).1]

theorem Answered.extend {ι : Type} {before events : List (Event ι)} {i : ι} (h : Answered before i)
    (hbegins : before <+: events) : Answered events i := by
  obtain ⟨first, second, hsplit, hpatch, hhandle⟩ := h
  obtain ⟨rest, hrest⟩ := hbegins
  refine ⟨first, second ++ rest, ?_, hpatch, mem_append_left _ hhandle⟩
  rw [← hrest, hsplit, append_assoc]

/-- **At most one leader.** No two replicas lead at any moment of a run exactly when each one that handles a stored Lease finds no
other whose last answer was one. -/
theorem one_leader_iff (name namespace_ : String) (identity : ι → String) (lease : Option Lease) (events : List (Event ι)) :
    ((∀ before, before <+: events → OneLeader (run name namespace_ identity (.new lease) before))
        ↔ ∀ before i, before ++ [.handle i] <+: events → FindsNoLeader (run name namespace_ identity (.new lease) before) i)
      ∧ ((∀ i reason, .fail i reason ∉ events) →
        ((∀ before, before <+: events → OneLeader (run name namespace_ identity (.new lease) before))
          ↔ ∀ i j, Answered events i → Answered events j → i = j)) := by
  refine ⟨oneLeader_prefixes_iff lease events, fun hstored => ?_⟩
  apply Iff.intro
  · intro hone i j hi hj
    apply hone events (prefix_refl events) i j
    · exact (leader_iff_answered lease events hstored i).2 hi
    · exact (leader_iff_answered lease events hstored j).2 hj
  · intro hone before hbegins i j hi hj
    have hbefore := fun i reason hmem => hstored i reason (hbegins.subset hmem)
    rw [leader_iff_answered lease before hbefore] at hi hj
    exact hone i j (hi.extend hbegins) (hj.extend hbegins)

theorem two_replicas_lead : let events : List (Event (Fin 2)) := [.patch 0 100, .handle 0, .patch 1 101, .handle 1]
    let g := run "sunbeam-proxy-leader" "default" (fun i => if i = 0 then "pod-0" else "pod-1") (.new none) events
    (∀ i reason, .fail i reason ∉ events) ∧ (g.replica 0).state = .leader ∧ (g.replica 1).state = .leader
      ∧ g.lease.bind (·.holderIdentity) = some "pod-1" := by
  refine ⟨?_, rfl, rfl, rfl⟩
  intro i reason hmem
  simp at hmem

end SunbeamProxy.Election
