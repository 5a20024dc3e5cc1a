/-
The thread that applies the tables of the gateway controller (`RouteManager::spawn` in `route_manager.rs`).

Tables are sent on a channel. The thread takes one, goes on taking until the channel is empty, and applies the last one it took
unless it is the one it applied last. Its call of `apply` and those of other sources take their steps in any order, as in
`Concurrent`. No step reads `Worker.sent` and `Worker.tried`.
-/
import SunbeamProxy.RouteManager.Concurrent

namespace SunbeamProxy

open List
open Concurrent (Job Phase System)

instance routeTableDecidableEq : DecidableEq RouteTable := fun a b =>
  decidable_of_iff (a.listeners = b.listeners ∧ a.hosts = b.hosts ∧ a.acmeRoutes.entries = b.acmeRoutes.entries
    ∧ a.l4Routes = b.l4Routes ∧ a.tlsCerts = b.tlsCerts) (by cases a; cases b; simp [AList.ext_iff])

def defaultSource : SourceId := "gateway-api"

/-- the copy of the sources that a call has made and not written back yet -/
def Concurrent.Phase.copy : Phase → Option (HashMap SourceId RouteTable)
  | .cloned tentative | .storing _ tentative _ | .signalling tentative _ | .recording tentative _ => some tentative
  | _ => none

/-- what the thread compiled, and the table recorded at that time -/
structure Attempt where
  recorded : Option RouteTable
  table : RouteTable
  tentative : HashMap SourceId RouteTable
  priorities : HashMap SourceId ℤ
  ω : IterOrder

def Attempt.compiles (re : RegexEngine) (a : Attempt) : Bool :=
  (compileMerged a.ω re (mergeSources a.tentative a.priorities)).isOk

inductive ThreadPc where
  | idle
  /-- `latest`, while the channel is drained -/
  | draining (latest : RouteTable)
  | applying (latest : RouteTable)

def ThreadPc.held : ThreadPc → Option RouteTable
  | .idle => none
  | .draining latest | .applying latest => some latest

structure Worker (ι : Type) where
  /-- the call of the thread is that of `none` -/
  system : System (Option ι)
  channel : List RouteTable := []
  thread : ThreadPc := .idle
  last : Option RouteTable := none
  sent : List RouteTable := []
  tried : List Attempt := []

inductive WorkerOp (ι : Type) where
  | send (table : RouteTable)
  /-- a step of the thread; the rest is for the version its call makes -/
  | thread (ω : IterOrder) (id now : ℕ)
  /-- a step of a call for another source -/
  | other (i : ι)

namespace Worker

variable {ι : Type} [DecidableEq ι] (re : RegexEngine) (others : ι → Job)

variable (s : Worker ι)

def recorded : Option RouteTable := s.system.manager.sources.get defaultSource

/-- what is compiled in a step of the thread's call -/
def attempt (table : RouteTable) (ω : IterOrder) : List Attempt :=
  match s.system.phase none with
  | .cloned tentative => [⟨s.recorded, table, tentative, s.system.manager.priorities, ω⟩]
  | _ => []

def threadStep (ω : IterOrder) (id now : ℕ) : Worker ι :=
  match s.thread with
  | .idle =>
    match s.channel with
    | [] => s
    | table :: rest => { s with channel := rest, thread := .draining table }
  | .draining latest =>
    match s.channel with
    | table :: rest => { s with channel := rest, thread := .draining table }
    | [] =>
      if s.last = some latest then { s with thread := .idle }
      else { s with thread := .applying latest, system := s.system.to none .start }
  | .applying latest =>
    match s.system.phase none with
    | .returned (.ok _) => { s with thread := .idle, last := some latest }
    | .returned (.error _) => { s with thread := .idle }
    | _ => { s with
      system := Concurrent.step re (fun _ => ⟨defaultSource, latest, ω, id, now⟩) s.system none
      tried := s.tried ++ s.attempt latest ω }

def step : WorkerOp ι → Worker ι
  | .send table => { s with channel := s.channel ++ [table], sent := s.sent ++ [table] }
  | .thread ω id now => s.threadStep re ω id now
  | .other i => { s with system := Concurrent.step re (fun _ => others i) s.system (some i) }

def run (ops : List (WorkerOp ι)) : Worker ι := ops.foldl (step re others) s

def spawn (maxHistory : ℕ) : Worker ι := { system := .start (.new .stored re maxHistory) }

/-- from its copy of the sources to its write-back, the call of the thread runs alone -/
def Apart (maxHistory : ℕ) (ops : List (WorkerOp ι)) : Prop := ∀ n ≤ ops.length, ∀ i,
  ¬(((run re others (spawn re maxHistory) (ops.take n)).system.phase none).copy.isSome = true
    ∧ ((run re others (spawn re maxHistory) (ops.take n)).system.phase (some i)).copy.isSome = true)

def lastApplied (tried : List Attempt) : Option RouteTable := ((tried.filter (·.compiles re)).getLast?).map (·.table)

/-- the table was tried last and refused -/
def Refused (tried : List Attempt) (table : RouteTable) : Prop :=
  ∃ a, tried.getLast? = some a ∧ a.table = table ∧ a.compiles re = false

/-- what holds in the phases of the thread's call -/
def Doing (recorded last : Option RouteTable) (tried : List Attempt) (latest : RouteTable) : Phase → Prop
  | .start => recorded = last ∧ lastApplied re tried = last
  | .cloned tentative => (recorded = last ∧ lastApplied re tried = last) ∧ tentative.get defaultSource = some latest
  | .storing _ tentative _ | .signalling tentative _ | .recording tentative _ =>
    (recorded = last ∧ lastApplied re tried = some latest) ∧ tentative.get defaultSource = some latest
  | .pushing _ | .returned (.ok _) => recorded = some latest ∧ lastApplied re tried = some latest
  | .returned (.error _) => (recorded = last ∧ lastApplied re tried = last) ∧ Refused re tried latest

/-- what holds between any two steps while the calls of the thread run alone -/
structure Inv (s : Worker ι) : Prop where
  thread : match s.thread with
    | .applying latest => s.last ≠ some latest ∧ Doing re s.recorded s.last s.tried latest (s.system.phase none)
    | _ => s.recorded = s.last ∧ lastApplied re s.tried = s.last
  /-- a copy that another call is going to write back has the table that is recorded -/
  copies : ∀ i, ∀ tentative ∈ (s.system.phase (some i)).copy, tentative.get defaultSource = s.recorded
  fresh : ∀ a ∈ s.tried, a.recorded ≠ some a.table
  /-- the last table sent is on the channel, held, or settled -/
  settled : ∀ table ∈ s.sent.getLast?, s.channel.getLast?.or s.thread.held = some table
    ∨ s.channel = [] ∧ s.thread = .idle ∧ (s.last = some table ∨ Refused re s.tried table)

variable {re others} {s : Worker ι}

theorem phase_step_of_ne {jobs : Option ι → Job} {x : System (Option ι)} {i j : Option ι} (h : j ≠ i) :
    (Concurrent.step re jobs x i).phase j = x.phase j := by
  rw [Concurrent.step]
  split <;> (try split) <;> simp [System.to, System.swap, h]

/-- a step that does not write back leaves the sources and makes no copy but one of them -/
theorem step_copy (re : RegexEngine) (jobs : Option ι → Job) (x : System (Option ι)) (i : Option ι) :
    (∃ tentative compiled, x.phase i = .recording tentative compiled
        ∧ (Concurrent.step re jobs x i).manager.sources = tentative ∧ (Concurrent.step re jobs x i).phase i = .pushing compiled)
      ∨ (Concurrent.step re jobs x i).manager.sources = x.manager.sources
        ∧ ∀ copy ∈ ((Concurrent.step re jobs x i).phase i).copy,
          copy ∈ (x.phase i).copy ∨ copy = x.manager.sources.insert (jobs i).source (jobs i).table := by
  cases hphase : x.phase i with
  | recording tentative compiled => exact .inl ⟨tentative, compiled, rfl, by simp [Concurrent.step, hphase, System.to]⟩
  | cloned tentative =>
    refine .inr ?_
    rw [Concurrent.step, hphase]
    dsimp only
    split <;> simp [System.to, Phase.copy]
  | storing c tentative compiled =>
    refine .inr ?_
    cases c <;> simp [Concurrent.step, hphase, System.to, System.swap, Phase.copy]
  | _ =>
    refine .inr ?_
    simp [Concurrent.step, hphase, System.to, Phase.copy]

theorem inv_other (h : s.Inv re) (i : ι) (hi : (others i).source ≠ defaultSource) : (s.step re others (.other i)).Inv re := by
  have hrecorded : (s.step re others (.other i)).recorded = s.recorded := by
    rcases step_copy re (fun _ => others i) s.system (some i) with ⟨t, compiled, hphase, hsources, -⟩ | ⟨hsources, -⟩
    · rw [recorded, step, hsources]
      exact h.copies i t (by rw [hphase]; rfl)
    · rw [recorded, step, hsources, recorded]
  have hnone : (s.step re others (.other i)).system.phase none = s.system.phase none := phase_step_of_ne (by simp)
  refine ⟨?_, ?_, h.fresh, h.settled⟩
  · rw [hrecorded, hnone]
    exact h.thread
  · intro j tentative hj
    rw [hrecorded]
    by_cases hij : j = i
    · subst hij
      rcases step_copy re (fun _ => others j) s.system (some j) with ⟨t, compiled, -, -, hpushing⟩ | ⟨-, hcopy⟩
      · rw [step, hpushing] at hj
        cases hj
      · rcases hcopy tentative hj with hold | rfl
        · exact h.copies j tentative hold
        · rw [HashMap.get_insert, if_neg (Ne.symm hi)]
          rfl
    · rw [step, phase_step_of_ne (by simpa using hij)] at hj
      exact h.copies j tentative hj

variable {latest : RouteTable}

omit [DecidableEq ι] in
/-- a step of the thread's call keeps the rest -/
theorem Inv.call (h : s.Inv re) (ht : s.thread = .applying latest) {x : System (Option ι)} {more : List Attempt}
    (hothers : ∀ i, x.phase (some i) = s.system.phase (some i))
    (hdoing : Doing re (x.manager.sources.get defaultSource) s.last (s.tried ++ more) latest (x.phase none))
    (hcopies : ∀ i, ∀ t ∈ (s.system.phase (some i)).copy, t.get defaultSource = x.manager.sources.get defaultSource)
    (hmore : ∀ a ∈ more, a.recorded ≠ some a.table) : ({ s with system := x, tried := s.tried ++ more } : Worker ι).Inv re := by
  have hthread := h.thread
  rw [ht] at hthread
  refine ⟨?_, fun i => ?_, fun a ha => (mem_append.1 ha).elim (h.fresh a) (hmore a), fun table htable => ?_⟩
  · simp only [ht]
    exact ⟨hthread.1, hdoing⟩
  · rw [hothers]
    exact hcopies i
  · rcases h.settled table htable with hheld | ⟨-, hidle, -⟩
    · exact .inl hheld
    · cases ht.symm.trans hidle

theorem inv_call (h : s.Inv re) (ht : s.thread = .applying latest) (ω : IterOrder) (id now : ℕ)
    (hapart : ∀ i, ¬((s.system.phase none).copy.isSome = true ∧ (s.system.phase (some i)).copy.isSome = true))
    (hreturned : ∀ r, s.system.phase none ≠ .returned r) :
    ({ s with
      system := Concurrent.step re (fun _ => ⟨defaultSource, latest, ω, id, now⟩) s.system none
      tried := s.tried ++ s.attempt latest ω } : Worker ι).Inv re := by
  have hthread := h.thread
  rw [ht] at hthread
  obtain ⟨hlast, hdoing⟩ := hthread
  have hothers (i : ι) : (Concurrent.step re (fun _ => ⟨defaultSource, latest, ω, id, now⟩) s.system none).phase (some i)
      = s.system.phase (some i) := phase_step_of_ne (by simp)
  cases hphase : s.system.phase none
  case cloned tentative =>
    rw [hphase] at hdoing
    have hfresh : ∀ a ∈ s.attempt latest ω, a.recorded ≠ some a.table := by
      simp only [attempt, hphase, mem_singleton, forall_eq]
      rw [hdoing.1.1]
      exact hlast
    refine h.call ht hothers ?_ ?_ hfresh
    · simp only [attempt, hphase, Concurrent.step]
      cases hc : compileMerged ω re (mergeSources tentative s.system.manager.priorities) with
      | error e =>
        refine ⟨⟨hdoing.1.1, ?_⟩, _, getLast?_concat .., rfl, by simp [Attempt.compiles, hc, Except.isOk, Except.toBool]⟩
        simpa [lastApplied, Attempt.compiles, hc, Except.isOk, Except.toBool] using hdoing.1.2
      | ok compiled =>
        refine ⟨⟨hdoing.1.1, ?_⟩, hdoing.2⟩
        simp [lastApplied, Attempt.compiles, hc, Except.isOk, Except.toBool]
    · simp only [Concurrent.step, hphase]
      split <;> exact h.copies
  case recording tentative compiled =>
    rw [hphase] at hdoing
    refine h.call ht hothers ?_ (fun i t hi => ?_) (by simp [attempt, hphase])
    · simpa [attempt, hphase, Concurrent.step, Doing, System.to] using ⟨hdoing.2, hdoing.1.2⟩
    · exact absurd ⟨by rw [hphase]; rfl, Option.isSome_iff_exists.2 ⟨t, hi⟩⟩ (hapart i)
  case returned r => exact absurd hphase (hreturned r)
  case' storing c tentative compiled => cases c
  all_goals
    refine h.call ht hothers ?_ ?_ (by simp [attempt, hphase])
    · simpa [attempt, hphase, Concurrent.step, Doing, System.swap, System.to, recorded, HashMap.get_insert] using hdoing
    · simpa [Concurrent.step, hphase, System.swap, System.to, recorded] using h.copies

omit [DecidableEq ι] in
theorem Inv.take (h : s.Inv re) {table : RouteTable} {rest : List RouteTable} (hchannel : s.channel = table :: rest)
    (hthread : s.recorded = s.last ∧ lastApplied re s.tried = s.last) :
    ({ s with channel := rest, thread := .draining table } : Worker ι).Inv re := by
  refine ⟨hthread, h.copies, h.fresh, fun t ht => .inl ?_⟩
  rcases h.settled t ht with hlast | ⟨hnil, -⟩
  · rw [hchannel, getLast?_cons] at hlast
    cases hrest : rest.getLast? <;> simpa [hrest, ThreadPc.held] using hlast
  · cases hchannel.symm.trans hnil

omit [DecidableEq ι] in
/-- the thread lets go of its table -/
theorem Inv.release (h : s.Inv re) {last : Option RouteTable} (hheld : s.thread.held = some latest)
    (hthread : s.recorded = last ∧ lastApplied re s.tried = last) (hsettled : last = some latest ∨ Refused re s.tried latest) :
    ({ s with thread := .idle, last } : Worker ι).Inv re := by
  refine ⟨hthread, h.copies, h.fresh, fun table htable => ?_⟩
  rcases h.settled table htable with hlast | ⟨-, hidle, -⟩
  · rw [hheld] at hlast
    cases hchannel : s.channel with
    | nil =>
      rw [hchannel] at hlast
      cases hlast
      exact .inr ⟨rfl, rfl, hsettled⟩
    | cons t rest =>
      rw [hchannel, getLast?_cons] at hlast
      exact .inl (by simpa [getLast?_cons] using hlast)
  · rw [hidle] at hheld
    cases hheld

theorem inv_thread (h : s.Inv re) (ω : IterOrder) (id now : ℕ)
    (hapart : ∀ i, ¬((s.system.phase none).copy.isSome = true ∧ (s.system.phase (some i)).copy.isSome = true)) :
    (s.threadStep re ω id now).Inv re := by
  have hthread := h.thread
  unfold threadStep
  cases ht : s.thread with
  | idle =>
    rw [ht] at hthread
    cases hchannel : s.channel with
    | nil => exact h
    | cons table rest => exact h.take hchannel hthread
  | draining latest =>
    rw [ht] at hthread
    cases hchannel : s.channel with
    | cons table rest => exact h.take hchannel hthread
    | nil =>
      dsimp only
      split_ifs with hlast
      · rw [← hchannel]
        exact h.release (by rw [ht]; rfl) hthread (.inl hlast)
      · refine ⟨⟨hlast, ?_⟩, fun i => ?_, h.fresh, ?_⟩
        · rw [System.phase_to_self]
          exact hthread
        · rw [System.phase_to_of_ne _ (by simp)]
          exact h.copies i
        · intro table htable
          rcases h.settled table htable with hheld | ⟨-, hidle, -⟩
          · rw [ht, hchannel] at hheld
            exact .inl hheld
          · cases ht.symm.trans hidle
  | applying latest =>
    rw [ht] at hthread
    obtain ⟨-, hdoing⟩ := hthread
    cases hphase : s.system.phase none with
    | returned r =>
      rw [hphase] at hdoing
      cases r with
      | ok u => exact h.release (by rw [ht]; rfl) hdoing (.inl rfl)
      | error e => exact h.release (by rw [ht]; rfl) hdoing.1 (.inr hdoing.2)
    | _ =>
      have hcall := inv_call h ht ω id now hapart (by simp [hphase])
      rwa [ht] at hcall

theorem inv_run (hothers : ∀ i, (others i).source ≠ defaultSource) {maxHistory : ℕ} {ops : List (WorkerOp ι)}
    (h : Apart re others maxHistory ops) : (run re others (spawn re maxHistory) ops).Inv re := by
  induction ops using List.reverseRecOn with
  | nil => exact ⟨⟨rfl, rfl⟩, by simp [run, spawn, System.start, Phase.copy], by simp [run, spawn], by simp [run, spawn]⟩
  | append_singleton ops op ih =>
    have htake (n : ℕ) (hn : n ≤ ops.length) : (ops ++ [op]).take n = ops.take n := take_append_of_le_length hn
    have hbefore : Apart re others maxHistory ops := by
      intro n hn i
      rw [← htake n hn]
      exact h n (by simp; omega) i
    have hapart := h ops.length (by simp)
    rw [htake _ le_rfl, take_length] at hapart
    have hrun : run re others (spawn re maxHistory) (ops ++ [op]) = (run re others (spawn re maxHistory) ops).step re others op := by
      simp [run]
    rw [hrun]
    have hinv := ih hbefore
    cases op with
    | send table => exact ⟨hinv.thread, hinv.copies, hinv.fresh, fun t ht => .inl (by simpa [step] using ht)⟩
    | thread ω id now => exact inv_thread hinv ω id now hapart
    | other i => exact inv_other hinv i (hothers i)

/-- **The latest table.** While the thread's calls run alone, once the channel is drained and the thread is idle, the table recorded
is the last one that compiled when it was tried, and this is the last one sent unless that was tried last and did not compile; no
table was tried that was recorded already, and one that is not recorded is tried in its turn. -/
theorem thread_applies_latest (re : RegexEngine) (others : ι → Job) (maxHistory : ℕ) (ops : List (WorkerOp ι))
    (hothers : ∀ i, (others i).source ≠ defaultSource) (hapart : Apart re others maxHistory ops) :
    let s := run re others (spawn re maxHistory) ops
    (s.channel = [] → s.thread = .idle → s.recorded = lastApplied re s.tried
        ∧ ∀ table ∈ s.sent.getLast?, s.recorded = some table ∨ Refused re s.tried table)
      ∧ (∀ a ∈ s.tried, a.recorded ≠ some a.table)
      ∧ ∀ table ω id now, s.channel = [] → s.thread = .draining table → s.recorded ≠ some table →
        (s.run re others (replicate 3 (.thread ω id now))).tried = s.tried
          ++ [⟨s.recorded, table, s.system.manager.sources.insert defaultSource table, s.system.manager.priorities, ω⟩] := by
  intro s
  have hinv : s.Inv re := inv_run hothers hapart
  have hthread := hinv.thread
  refine ⟨?_, hinv.fresh, ?_⟩
  · intro hchannel hidle
    rw [hidle] at hthread
    refine ⟨hthread.1.trans hthread.2.symm, fun table htable => ?_⟩
    rcases hinv.settled table htable with hheld | ⟨-, -, hlast | hrefused⟩
    · rw [hchannel, hidle] at hheld
      cases hheld
    · exact .inl (hthread.1.trans hlast)
    · exact .inr hrefused
  · intro table ω id now hchannel hdraining hrecorded
    rw [hdraining] at hthread
    have hlast : ¬s.last = some table := hthread.1 ▸ hrecorded
    simp [run, step, threadStep, hdraining, hchannel, hlast, Concurrent.step, attempt, recorded, System.to]

def caddyfileReport (_ : Fin 1) : Job := Concurrent.firstReports 1

def gatewayReport : RouteTable := (Concurrent.firstReports 0).table

def threadSteps (n : ℕ) : List (WorkerOp (Fin 1)) := replicate n (.thread .stored 0 0)

def reported (ops : List (WorkerOp (Fin 1))) : Worker (Fin 1) := run ⟨fun _ => none⟩ caddyfileReport (spawn ⟨fun _ => none⟩ 4) ops

/-- the other source is applied before the first table is sent; the second table is one that was sent before -/
theorem thread_applies_second :
    let s := reported (replicate 8 (.other 0) ++ [.send gatewayReport, .send {}] ++ threadSteps 12 ++ [.send gatewayReport]
      ++ threadSteps 11)
    s.recorded = lastApplied ⟨fun _ => none⟩ s.tried ∧ s.recorded = some gatewayReport := by
  refine ⟨((thread_applies_latest _ _ 4 _ (by decide) ?_).1 (by rfl) (by rfl)).1, by decide +kernel⟩
  unfold Apart
  decide +kernel

/-- the other call clones the sources before the thread writes back and writes back after it: the table that compiled is lost -/
theorem latest_table_lost :
    let s := reported ([.send gatewayReport] ++ threadSteps 3 ++ [.other 0] ++ threadSteps 8 ++ replicate 7 (.other 0))
    s.channel.isEmpty = true ∧ s.thread.held = none ∧ s.last = some gatewayReport
      ∧ lastApplied ⟨fun _ => none⟩ s.tried = some gatewayReport ∧ s.recorded = none := by
  decide +kernel

end Worker

end SunbeamProxy
