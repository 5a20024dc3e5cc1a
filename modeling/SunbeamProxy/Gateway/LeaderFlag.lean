/-
The leadership flag of the reconcile loop (`run_reconcile_loop` in `gateway/reconcile/leader.rs` with `gateway/election.rs`).

The election task stores the validity of tokens and then sends the state, in two steps; the loop reads the state, takes or drops
its token, and then checks that the token is valid. Taking a token makes the shared flag true and dropping one makes it false.
What the loop does to its own token and flag is joined to the access to shared memory it goes with.
-/
import SunbeamProxy.Gateway.Election

namespace SunbeamProxy.Election

inductive LoopPc where
  /-- before `is_leader` is made from the state -/
  | starting
  | top
  /-- the state has been read -/
  | matched (state : LeaderState)
  /-- `token()` has found Leader -/
  | granting
  | checking
  /-- the token was found invalid -/
  | dropping
deriving DecidableEq, Repr

structure Leadership where
  tokenValid : Bool := false
  state : LeaderState := .notLeader
  /-- `is_leader` of the task -/
  elected : Bool := false
  /-- stored by the task and not sent yet -/
  unsent : Option LeaderState := none
  pc : LoopPc := .starting
  hasToken : Bool := false
  isLeader : Bool := false
deriving DecidableEq, Repr

inductive LeadershipOp where
  /-- the answer to a patch, an error or not: the store of `handle_patch_result`, if the answer changes anything -/
  | answer (ok : Bool)
  /-- its `send` -/
  | send
  | loop
deriving DecidableEq, Repr

namespace Leadership

def loopStep (s : Leadership) : Leadership :=
  match s.pc with
  | .starting => { s with isLeader := s.state = .leader, pc := .top }
  | .top => { s with pc := .matched s.state }
  | .matched .leader =>
    -- `token()` reads the state once more
    if s.hasToken then { s with pc := .checking }
    else if s.state = .leader then { s with pc := .granting } else { s with pc := .checking }
  | .matched .notLeader =>
    if s.hasToken then { s with tokenValid := false, hasToken := false, isLeader := false, pc := .checking }
    else { s with pc := .checking }
  | .granting => { s with tokenValid := true, hasToken := true, isLeader := true, pc := .checking }
  | .checking => if s.hasToken && !s.tokenValid then { s with pc := .dropping } else { s with pc := .top }
  | .dropping => { s with tokenValid := false, hasToken := false, isLeader := false, pc := .top }

def step (s : Leadership) : LeadershipOp → Leadership
  | .answer ok =>
    if s.unsent = none ∧ s.elected ≠ ok then
      { s with elected := ok, tokenValid := ok, unsent := some (if ok then .leader else .notLeader) }
    else s
  | .send =>
    match s.unsent with
    | some state => { s with state, unsent := none }
    | none => s
  | .loop => s.loopStep

def run (s : Leadership) (ops : List LeadershipOp) : Leadership := ops.foldl step s

def quiet (s : Leadership) : ℕ → Leadership
  | 0 => s
  | n + 1 => if s.loopStep.pc = .top then s.loopStep else s.loopStep.quiet n

/-- what holds between any two steps -/
structure Inv (s : Leadership) : Prop where
  /-- the flag is up with a token; without one it may be up from the start -/
  flag : s.hasToken = true → s.isLeader = true
  started : s.pc = .starting → s.hasToken = false ∧ s.isLeader = false
  /-- a token is valid while the task leads -/
  valid : s.hasToken = true → s.elected = true → s.tokenValid = true
  sent : s.unsent = none → (s.state = .leader ↔ s.elected = true)
  unsent : s.unsent = none ∨ s.unsent = some (if s.elected then .leader else .notLeader)
  /-- a token is only granted to a loop without one -/
  granting : s.pc = .granting → s.hasToken = false

variable {s : Leadership}

theorem Inv.moveTo {pc : LoopPc} (h : s.Inv) (hpc : pc ≠ .granting ∧ pc ≠ .starting) : Inv { s with pc } :=
  ⟨h.flag, fun e => absurd e hpc.2, h.valid, h.sent, h.unsent, fun e => absurd e hpc.1⟩

theorem Inv.dropToken {pc : LoopPc} (h : s.Inv) (hpc : pc ≠ .granting) :
    Inv { s with tokenValid := false, hasToken := false, isLeader := false, pc } :=
  ⟨by simp, fun _ => ⟨rfl, rfl⟩, by simp, h.sent, h.unsent, fun e => absurd e hpc⟩

theorem inv_loopStep (h : s.Inv) : s.loopStep.Inv := by
  unfold loopStep
  split
  · rename_i hpc
    exact ⟨by simp [(h.started hpc).1], by simp, h.valid, h.sent, h.unsent, by simp⟩
  · exact h.moveTo (by simp)
  · split_ifs with htoken
    · exact h.moveTo (by decide)
    · exact ⟨h.flag, by simp, h.valid, h.sent, h.unsent, fun _ => by simpa using htoken⟩
    · exact h.moveTo (by decide)
  · split_ifs
    · exact h.dropToken (by decide)
    · exact h.moveTo (by decide)
  · exact ⟨fun _ => rfl, by simp, fun _ _ => rfl, h.sent, h.unsent, by simp⟩
  · split_ifs <;> exact h.moveTo (by decide)
  · exact h.dropToken (by decide)

theorem inv_step (h : s.Inv) (op : LeadershipOp) : (s.step op).Inv := by
  cases op with
  | answer ok =>
    rw [step]
    by_cases hchange : s.unsent = none ∧ s.elected ≠ ok
    · rw [if_pos hchange]
      exact ⟨h.flag, h.started, fun _ hok => hok, by simp, .inr rfl, h.granting⟩
    · rw [if_neg hchange]
      exact h
  | send =>
    rw [step]
    split
    · rename_i state hstate
      refine ⟨h.flag, h.started, h.valid, fun _ => ?_, .inl rfl, h.granting⟩
      rcases h.unsent with hnone | hsome
      · cases hnone.symm.trans hstate
      · cases hstate.symm.trans hsome
        cases s.elected <;> simp
    · exact h
  | loop => exact inv_loopStep h

theorem inv_run (ops : List LeadershipOp) : (run {} ops).Inv := by
  have hrun : ∀ s : Leadership, s.Inv → (s.run ops).Inv := by
    induction ops with
    | nil => exact fun s h => h
    | cons op ops ih => exact fun s h => ih _ (inv_step h op)
  exact hrun {} ⟨by simp, by simp, by simp, by simp, .inl rfl, by simp⟩

/-- the flag is up only with a token -/
def Backed (s : Leadership) : Prop := s.isLeader = true → s.hasToken = true

theorem backed_loopStep (hpc : s.pc ≠ .starting) (h : s.Backed) : s.loopStep.pc ≠ .starting ∧ s.loopStep.Backed := by
  unfold loopStep
  split
  · exact absurd ‹_› hpc
  · exact ⟨by simp, h⟩
  · split_ifs <;> exact ⟨by simp, h⟩
  · split_ifs
    · exact ⟨by simp, by simp [Backed]⟩
    · exact ⟨by simp, h⟩
  · exact ⟨by simp, fun _ => rfl⟩
  · split_ifs <;> exact ⟨by simp, h⟩
  · exact ⟨by simp, by simp [Backed]⟩

/-- a step of the task leaves the loop alone -/
theorem step_frame {op : LeadershipOp} (hop : op ≠ .loop) :
    (s.step op).pc = s.pc ∧ (s.step op).hasToken = s.hasToken ∧ (s.step op).isLeader = s.isLeader := by
  cases op with
  | answer ok =>
    rw [step]
    split_ifs <;> exact ⟨rfl, rfl, rfl⟩
  | send =>
    rw [step]
    split <;> exact ⟨rfl, rfl, rfl⟩
  | loop => exact absurd rfl hop

/-- the state was NotLeader when the loop began -/
def BeganNotLeader (ops : List LeadershipOp) : Prop :=
  ∀ pre post, ops = pre ++ .loop :: post → .loop ∉ pre → (run {} pre).state = .notLeader

theorem backed_run {ops : List LeadershipOp} (h : BeganNotLeader ops) :
    ((run {} ops).pc = .starting ∧ .loop ∉ ops) ∨ ((run {} ops).pc ≠ .starting ∧ (run {} ops).Backed) := by
  induction ops using List.reverseRecOn with
  | nil => exact .inl ⟨rfl, by simp⟩
  | append_singleton ops op ih =>
    have hbefore : BeganNotLeader ops := fun pre post hops => h pre (post ++ [op]) (by rw [hops, List.append_assoc, List.cons_append])
    have hrun : run {} (ops ++ [op]) = (run {} ops).step op := by simp [run]
    rw [hrun]
    by_cases hop : op = .loop
    · subst hop
      refine .inr ?_
      rcases ih hbefore with ⟨hpc, hnone⟩ | ⟨hpc, hbacked⟩
      · have hstate := h ops [] rfl hnone
        simp [step, loopStep, hpc, hstate, Backed]
      · exact backed_loopStep hpc hbacked
    · obtain ⟨hpc, htoken, hleader⟩ := @step_frame (run {} ops) op hop
      rw [Backed, hpc, htoken, hleader]
      exact (ih hbefore).imp_left fun hstart => ⟨hstart.1, by simpa [Ne.symm hop] using hstart.2⟩

theorem quiet_iteration (h : s.Inv) (htop : s.pc = .top) :
    (s.quiet 4).pc = .top ∧ (s.quiet 4).state = s.state
      ∧ ((s.quiet 4).isLeader = true ↔ if s.state = .leader then s.hasToken = true → s.tokenValid = true
        else s.isLeader = true ∧ s.hasToken = false) := by
  have hflag := h.flag
  obtain ⟨tokenValid, state, elected, unsent, pc, hasToken, isLeader⟩ := s
  cases htop
  cases state <;> cases hasToken <;> cases tokenValid <;> simp_all [quiet, loopStep]

theorem quiet_follows_iff (h : s.Inv) (htop : s.pc = .top) : ((s.quiet 4).isLeader = true ↔ s.state = .leader)
    ↔ (s.state = .leader → s.hasToken = true → s.tokenValid = true) ∧ (s.state = .notLeader → s.Backed) := by
  rw [(quiet_iteration h htop).2.2, Backed]
  cases s.state with
  | leader => simp
  | notLeader => cases s.isLeader <;> cases s.hasToken <;> simp

def task (s : Leadership) (answers : List (Option Bool)) : Leadership :=
  s.run (answers.map fun a => a.elim .send .answer)

theorem task_frame (answers : List (Option Bool)) :
    (s.task answers).pc = s.pc ∧ (s.task answers).hasToken = s.hasToken ∧ (s.task answers).isLeader = s.isLeader := by
  induction answers generalizing s with
  | nil => exact ⟨rfl, rfl, rfl⟩
  | cons a answers ih =>
    obtain ⟨hpc, htoken, hleader⟩ := @ih (s.step (a.elim .send .answer))
    obtain ⟨hpc', htoken', hleader'⟩ := @step_frame s (a.elim .send .answer) (by cases a <;> simp)
    exact ⟨hpc.trans hpc', htoken.trans htoken', hleader.trans hleader'⟩

theorem lost_within_iteration (htop : s.pc = .top) (hstate : s.state = .notLeader) (answers answers' : List (Option Bool)) :
    let t := ((s.loopStep.task answers).loopStep.task answers').loopStep
    t.pc = .top ∧ (t.isLeader = false ↔ s.Backed) := by
  intro t
  have hread : s.loopStep = { s with pc := .matched .notLeader } := by simp [loopStep, htop, hstate]
  obtain ⟨hpc, hhas, hleader⟩ := @task_frame s.loopStep answers
  have hdropped : (s.loopStep.task answers).loopStep.pc = .checking ∧ (s.loopStep.task answers).loopStep.hasToken = false
      ∧ ((s.loopStep.task answers).loopStep.isLeader = false ↔ s.Backed) := by
    have hpc' : (s.loopStep.task answers).pc = .matched .notLeader := by rw [hpc, hread]
    have hhas' : (s.loopStep.task answers).hasToken = s.hasToken := by rw [hhas, hread]
    have hleader' : (s.loopStep.task answers).isLeader = s.isLeader := by rw [hleader, hread]
    rw [loopStep, hpc', hhas']
    dsimp only
    cases htoken : s.hasToken with
    | true => simp [Backed, htoken]
    | false => simp [Backed, htoken, hleader']
  obtain ⟨hpc', hhas', hleader'⟩ := @task_frame (s.loopStep.task answers).loopStep answers'
  have ht : t = { (s.loopStep.task answers).loopStep.task answers' with pc := .top } := by
    simp only [t]
    rw [loopStep, hpc', hdropped.1]
    simp [hhas', hdropped.2.1]
  rw [ht]
  refine ⟨rfl, ?_⟩
  rw [hleader']
  exact hdropped.2.2

/-- **The flag follows the election.** After an iteration without a step of the task the flag is true just in the state Leader exactly
when the loop's token, if it has one, is valid then, and in the state NotLeader a flag that is up is backed by a token; an iteration
that starts with NotLeader ends with the flag false exactly when it is so backed, which it is if the loop began with NotLeader. -/
theorem flag_follows_election_iff (ops : List LeadershipOp) (htop : (run {} ops).pc = .top) :
    let s := run {} ops
    (s.quiet 4).pc = .top ∧ (s.quiet 4).state = s.state
      ∧ (((s.quiet 4).isLeader = true ↔ s.state = .leader)
        ↔ (s.state = .leader → s.hasToken = true → s.tokenValid = true) ∧ (s.state = .notLeader → s.Backed))
      ∧ (s.state = .leader → s.unsent ≠ some .notLeader → (s.quiet 4).isLeader = true)
      ∧ (s.state = .notLeader → ∀ answers answers',
        let t := ((s.loopStep.task answers).loopStep.task answers').loopStep
        t.pc = .top ∧ (t.isLeader = false ↔ s.Backed))
      ∧ (BeganNotLeader ops → s.Backed) := by
  intro s
  have hinv := inv_run ops
  obtain ⟨hpc, hstate, hflag⟩ := quiet_iteration hinv htop
  refine ⟨hpc, hstate, quiet_follows_iff hinv htop, fun hleader hunsent => ?_, fun hnot => lost_within_iteration htop hnot,
    fun hbegan => ?_⟩
  · rw [hflag, if_pos hleader]
    intro htoken
    apply hinv.valid htoken
    rcases hinv.unsent with hnone | hsome
    · exact (hinv.sent hnone).1 hleader
    · cases helected : s.elected with
      | true => rfl
      | false => exact absurd (by rw [hsome, helected]; rfl) hunsent
  · rcases backed_run hbegan with ⟨hstart, -⟩ | ⟨-, hbacked⟩
    · cases htop.symm.trans hstart
    · exact hbacked

def leading : List LeadershipOp := [.loop, .answer true, .send, .loop, .loop, .loop, .loop]

theorem flag_follows_leading : ((run {} leading).quiet 4).isLeader = true ∧ (run {} leading).state = .leader := by
  have hfollows := flag_follows_election_iff leading (by decide)
  have hleader : (run {} leading).state = .leader := by decide
  exact ⟨(hfollows.2.2.1.2 ⟨fun _ _ => by decide, fun hnot => by cases hleader.symm.trans hnot⟩).2 hleader, hleader⟩

/-- the loop begins as Leader, the lease is lost before its first iteration, and no iteration takes the flag down -/
theorem flag_up_without_lease : let s := run {} [.answer true, .send, .loop, .answer false, .send]
    s.pc = .top ∧ s.state = .notLeader ∧ (s.quiet 4).isLeader = true ∧ ((s.quiet 4).quiet 4) = s.quiet 4 := by decide

end Leadership

end SunbeamProxy.Election
