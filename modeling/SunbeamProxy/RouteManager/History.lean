/-
Runs of the route manager: any sequence of `set_priority`, `apply` and `rollback` calls, accepted or refused.
-/
import SunbeamProxy.Core.Selection
import SunbeamProxy.RouteManager.Model

namespace SunbeamProxy

open List

namespace RouteManager

variable {ω : IterOrder} {re : RegexEngine} {m : RouteManager}

theorem apply_cases (ω : IterOrder) (re : RegexEngine) (m : RouteManager) (source : SourceId) (table : RouteTable) (id now : ℕ) :
    (∃ e, compileMerged ω re (mergeSources (m.sources.insert source table) m.priorities) = .error e
        ∧ m.apply ω re source table id now = (.error e, m))
      ∨ ∃ c, compileMerged ω re (mergeSources (m.sources.insert source table) m.priorities) = .ok c
        ∧ m.apply ω re source table id now
          = (.ok (), m.commit (m.sources.insert source table) { c with id, source, appliedAt := now }) := by
  cases h : compileMerged ω re (mergeSources (m.sources.insert source table) m.priorities) with
  | error e => exact .inl ⟨e, rfl, by simp [apply, h]⟩
  | ok c => exact .inr ⟨c, rfl, by simp [apply, h]⟩

theorem rollback_cases (m : RouteManager) (steps : ℕ) : (steps = 0 ∨ m.history.length ≤ steps) ∧ m.rollback steps = (false, m)
      ∨ ∃ target, 0 < steps ∧ steps < m.history.length ∧ m.history[m.history.length - steps - 1]? = some target
        ∧ m.rollback steps = (true, m.restore (m.history.length - steps) target) := by
  by_cases hzero : steps = 0
  · exact .inl ⟨.inl hzero, by simp [rollback, hzero]⟩
  by_cases hlen : m.history.length ≤ steps
  · exact .inl ⟨.inr hlen, by simp [rollback, hlen]⟩
  have hidx : m.history.length - steps - 1 < m.history.length := by omega
  refine .inr ⟨m.history[m.history.length - steps - 1], by omega, by omega, getElem?_eq_getElem hidx, ?_⟩
  simp [rollback, hzero, hlen, getElem?_eq_getElem hidx]

section Queue

variable {α : Type} {limit : ℕ} {history : List α}

theorem getLast?_pushVersion (limit : ℕ) (history : List α) (v : α) : (pushVersion limit history v).getLast? = some v := by
  simp [pushVersion]

theorem length_pushVersion_le (v : α) (h : history.length ≤ max 1 limit) :
    (pushVersion limit history v).length ≤ max 1 limit := by
  rw [pushVersion, length_append]
  split_ifs with hfull
  · rw [length_tail, length_singleton]
    omega
  · rw [length_singleton]
    omega

theorem pushVersion_sublist {l : List α} (v : α) (h : history.Sublist l) : (pushVersion limit history v).Sublist (l ++ [v]) := by
  apply Sublist.append _ (.refl [v])
  split_ifs
  · exact (tail_sublist history).trans h
  · exact h

theorem pushVersion_forall₂ {β : Type} {R : α → β → Prop} {l : List β} {a : α} {b : β} (h : Forall₂ R history l)
    (hab : R a b) : Forall₂ R (pushVersion limit history a) (pushVersion limit l b) := by
  have hlen := h.length_eq
  have htail : Forall₂ R history.tail l.tail := by
    cases h with
    | nil => exact .nil
    | cons _ h => exact h
  rw [pushVersion, hlen]
  apply rel_append _ (.cons hab .nil)
  split_ifs
  · exact htail
  · exact h

theorem getLast?_take {n : ℕ} {v : α} (h : history[n - 1]? = some v) (hpos : 0 < n) : (history.take n).getLast? = some v := by
  have hlt := (List.getElem?_eq_some_iff.1 h).1
  rw [getLast?_eq_getElem?, length_take, Nat.min_eq_left (by omega), getElem?_take_of_lt (by omega)]
  exact h

end Queue

@[simp]
theorem serving_restore (m : RouteManager) (newLen : ℕ) (target : Version) :
    (m.restore newLen target).serving = target.toCompiled := rfl

end RouteManager

/-! ## Runs -/

inductive Op where
  | setPriority (source : SourceId) (priority : ℤ)
  | apply (ω : IterOrder) (source : SourceId) (table : RouteTable) (id : ℕ)
  | rollback (steps : ℕ)

def Op.updates : Op → Bool
  | .setPriority .. => false
  | _ => true

structure Call where
  op : Op
  elapsed : ℕ := 0

def Op.perform (re : RegexEngine) (m : RouteManager) (now : ℕ) : Op → Bool × RouteManager
  | .setPriority source priority => (true, m.setPriority source priority)
  | .apply ω source table id =>
    let r := m.apply ω re source table id now
    (r.1.isOk, r.2)
  | .rollback steps => m.rollback steps

theorem Op.perform_of_refused {re : RegexEngine} {m : RouteManager} {now : ℕ} (op : Op)
    (h : (op.perform re m now).1 = false) : (op.perform re m now).2 = m := by
  cases op with
  | setPriority source priority => cases h
  | apply ω source table id =>
    rcases m.apply_cases ω re source table id now with ⟨e, -, ha⟩ | ⟨c, -, ha⟩
    · simp [perform, ha]
    · simp [perform, ha, Except.toBool] at h
  | rollback steps =>
    rcases m.rollback_cases steps with ⟨-, hr⟩ | ⟨target, -, -, -, hr⟩
    · simp [perform, hr]
    · simp [perform, hr] at h

structure Timeline where
  manager : RouteManager
  now : ℕ := 0
  applied : List Version := []
  merges : List RouteTable := []

namespace Timeline

def new (ω : IterOrder) (re : RegexEngine) (maxHistory : ℕ) : Timeline := { manager := .new ω re maxHistory }

def step (re : RegexEngine) (w : Timeline) (c : Call) : Timeline :=
  let now := w.now + c.elapsed
  match c.op with
  | .setPriority source priority => { w with now, manager := w.manager.setPriority source priority }
  | .apply ω source table id =>
    match w.manager.apply ω re source table id now with
    | (.error _, m) => { w with now, manager := m }
    | (.ok _, m) =>
      { now, manager := m
        applied := w.applied ++ m.history.getLast?.toList
        merges := RouteManager.pushVersion m.maxHistory w.merges (mergeSources m.sources m.priorities) }
  | .rollback steps =>
    match w.manager.rollback steps with
    | (false, m) => { w with now, manager := m }
    | (true, m) => { w with now, manager := m, merges := w.merges.take m.history.length }

def run (re : RegexEngine) (w : Timeline) (calls : List Call) : Timeline := calls.foldl (step re) w

variable {re : RegexEngine} {w : Timeline}

theorem step_cases (re : RegexEngine) (w : Timeline) (c : Call) :
    (∃ ω source table id e, c.op = .apply ω source table id
        ∧ compileMerged ω re (mergeSources (w.manager.sources.insert source table) w.manager.priorities) = .error e
        ∧ w.step re c = { w with now := w.now + c.elapsed })
      ∨ (∃ steps, c.op = .rollback steps ∧ (steps = 0 ∨ w.manager.history.length ≤ steps)
        ∧ w.step re c = { w with now := w.now + c.elapsed })
      ∨ (∃ source priority, c.op = .setPriority source priority
        ∧ w.step re c = { w with now := w.now + c.elapsed, manager := w.manager.setPriority source priority })
      ∨ (∃ ω source table id compiled, c.op = .apply ω source table id
        ∧ compileMerged ω re (mergeSources (w.manager.sources.insert source table) w.manager.priorities) = .ok compiled
        ∧ w.step re c =
          let v : Version := { compiled with id, source, appliedAt := w.now + c.elapsed }
          { now := w.now + c.elapsed
            manager := w.manager.commit (w.manager.sources.insert source table) v
            applied := w.applied ++ [v]
            merges := RouteManager.pushVersion w.manager.maxHistory w.merges
              (mergeSources (w.manager.sources.insert source table) w.manager.priorities) })
      ∨ ∃ steps target, c.op = .rollback steps ∧ 0 < steps ∧ steps < w.manager.history.length
        ∧ w.manager.history[w.manager.history.length - steps - 1]? = some target
        ∧ w.step re c =
          { w with
            now := w.now + c.elapsed
            manager := w.manager.restore (w.manager.history.length - steps) target
            merges := w.merges.take (w.manager.history.length - steps) } := by
  obtain ⟨op, elapsed⟩ := c
  cases op with
  | setPriority source priority => exact .inr (.inr (.inl ⟨source, priority, rfl, rfl⟩))
  | apply ω source table id =>
    rcases w.manager.apply_cases ω re source table id (w.now + elapsed) with ⟨e, he, h⟩ | ⟨compiled, hc, h⟩
    · exact .inl ⟨ω, source, table, id, e, rfl, he, by simp [step, h]⟩
    · refine .inr (.inr (.inr (.inl ⟨ω, source, table, id, compiled, rfl, hc, ?_⟩)))
      simp [step, h, RouteManager.commit, RouteManager.pushVersion, RouteManager.store]
  | rollback steps =>
    rcases w.manager.rollback_cases steps with ⟨hsteps, h⟩ | ⟨target, hpos, hlt, htarget, h⟩
    · exact .inr (.inl ⟨steps, rfl, hsteps, by simp [step, h]⟩)
    · refine .inr (.inr (.inr (.inr ⟨steps, target, rfl, hpos, hlt, htarget, ?_⟩)))
      simp [step, h, RouteManager.restore]

/-- the history holds the latest versions applied, and its last one is served -/
structure InStep (ω₀ : IterOrder) (re : RegexEngine) (maxHistory : ℕ) (w : Timeline) : Prop where
  limit : w.manager.maxHistory = maxHistory
  serving : w.manager.serving = (w.manager.history.getLast?.map (·.toCompiled)).getD (Compiled.empty ω₀ re)
  bounded : w.manager.history.length ≤ max 1 maxHistory
  oldestFirst : w.manager.history.Sublist w.applied
  times : w.applied.Pairwise fun a b => a.appliedAt ≤ b.appliedAt
  past : ∀ v ∈ w.applied, v.appliedAt ≤ w.now
  /-- each version kept is the compilation of the merge noted for it -/
  origins : List.Forall₂ (fun v merged => ∃ ω, compileMerged ω re merged = .ok v.toCompiled) w.manager.history w.merges

theorem inStep_new (ω₀ : IterOrder) (re : RegexEngine) (maxHistory : ℕ) : InStep ω₀ re maxHistory (new ω₀ re maxHistory) where
  limit := rfl
  serving := rfl
  bounded := Nat.zero_le _
  oldestFirst := .refl []
  times := .nil
  past := by simp [new]
  origins := .nil

theorem InStep.step {ω₀ : IterOrder} {maxHistory : ℕ} (h : InStep ω₀ re maxHistory w) (c : Call) :
    InStep ω₀ re maxHistory (w.step re c) := by
  have hpast : ∀ v ∈ w.applied, v.appliedAt ≤ w.now + c.elapsed := fun v hv => (h.past v hv).trans (Nat.le_add_right ..)
  rcases step_cases re w c with ⟨_, _, _, _, _, -, -, hw⟩ | ⟨_, -, -, hw⟩ | ⟨source, priority, -, hw⟩
      | ⟨ω, source, table, id, compiled, -, hc, hw⟩ | ⟨steps, target, -, hpos, hlt, htarget, hw⟩
  · rw [hw]
    exact { h with past := hpast }
  · rw [hw]
    exact { h with past := hpast }
  · rw [hw]
    exact { h with past := hpast }
  · obtain rfl := h.limit
    rw [hw]
    refine ⟨rfl, ?_, ?_, ?_, ?_, ?_, ?_⟩
    · simp [RouteManager.commit, RouteManager.getLast?_pushVersion, RouteManager.serving, RouteManager.store]
    · exact RouteManager.length_pushVersion_le _ h.bounded
    · exact RouteManager.pushVersion_sublist _ h.oldestFirst
    · refine pairwise_append.2 ⟨h.times, pairwise_singleton .., fun a ha b hb => ?_⟩
      rw [mem_singleton.1 hb]
      exact hpast a ha
    · intro v hv
      rcases mem_append.1 hv with hv | hv
      · exact hpast v hv
      · rw [mem_singleton.1 hv]
    · exact RouteManager.pushVersion_forall₂ h.origins ⟨ω, hc⟩
  · rw [hw]
    have hlast := RouteManager.getLast?_take htarget (by omega)
    refine ⟨h.limit, ?_, ?_, ?_, h.times, hpast, forall₂_take _ h.origins⟩
    · rw [RouteManager.serving_restore]
      simp [RouteManager.restore, hlast]
    · exact (take_sublist ..).length_le.trans h.bounded
    · exact (take_sublist ..).trans h.oldestFirst

theorem run_inStep (ω₀ : IterOrder) (re : RegexEngine) (maxHistory : ℕ) (calls : List Call) :
    InStep ω₀ re maxHistory (run re (new ω₀ re maxHistory) calls) := by
  have hrun : ∀ w, InStep ω₀ re maxHistory w → InStep ω₀ re maxHistory (run re w calls) := by
    induction calls with
    | nil => exact fun w h => h
    | cons c calls ih => exact fun w h => ih _ (h.step c)
  exact hrun _ (inStep_new ω₀ re maxHistory)

/-- **One version in service.** After any calls the three components in service are those of the newest version kept, or of the
empty one; the history is within its limit and in order; a refused call changes nothing. -/
theorem routing_state_in_step (ω₀ : IterOrder) (re : RegexEngine) (maxHistory : ℕ) (calls : List Call) :
    let w := run re (new ω₀ re maxHistory) calls
    w.manager.serving = (w.manager.history.getLast?.map (·.toCompiled)).getD (Compiled.empty ω₀ re)
      ∧ w.manager.history.length ≤ max 1 maxHistory
      ∧ w.manager.history.Sublist w.applied
      ∧ w.manager.history.Pairwise (fun a b => a.appliedAt ≤ b.appliedAt)
      ∧ ∀ (now : ℕ) (op : Op), (op.perform re w.manager now).1 = false → (op.perform re w.manager now).2 = w.manager := by
  have h := run_inStep ω₀ re maxHistory calls
  exact ⟨h.serving, h.bounded, h.oldestFirst, h.times.sublist h.oldestFirst, fun now op => op.perform_of_refused⟩

/-! ## What is in service and what is recorded -/

def servedMerge (w : Timeline) : RouteTable := w.merges.getLast?.getD {}

def recordedMerge (w : Timeline) : RouteTable := mergeSources w.manager.sources w.manager.priorities

theorem compileMerged_empty (ω : IterOrder) (re : RegexEngine) : compileMerged ω re {} = .ok (Compiled.empty ω re) := by
  have hl4 : CompiledL4Config.compile ω {} = .ok {} := by
    simp [CompiledL4Config.compile, mergeGroups, groupListeners, HashMap.pushAll, HashMap.pairs, stableSort]
  rw [compileMerged, hl4]
  rfl

theorem InStep.compileMerged_servedMerge {ω₀ : IterOrder} {maxHistory : ℕ} (h : InStep ω₀ re maxHistory w) :
    ∃ ω, compileMerged ω re w.servedMerge = .ok w.manager.serving := by
  have hlast := getLast?_rel h.origins
  rw [h.serving, servedMerge]
  cases hv : w.manager.history.getLast? with
  | none =>
    rw [hv] at hlast
    cases hm : w.merges.getLast? with
    | none => exact ⟨ω₀, compileMerged_empty ω₀ re⟩
    | some merged => rw [hm] at hlast; cases hlast
  | some v =>
    rw [hv] at hlast
    cases hm : w.merges.getLast? with
    | none => rw [hm] at hlast; cases hlast
    | some merged =>
      rw [hm] at hlast
      cases hlast with
      | some horigin => exact horigin

/-- table and L4 configuration in service are the compilation of these sources -/
def Serves (m : RouteManager) (sources : HashMap SourceId RouteTable) (priorities : HashMap SourceId ℤ) : Prop :=
  ∃ ω, CompiledRouteTable.compile ω (mergeSources sources priorities) = m.current
    ∧ CompiledL4Config.compile ω (mergeSources sources priorities) = .ok m.l4Config

theorem serves_of_compileMerged {ω : IterOrder} {m : RouteManager} {sources : HashMap SourceId RouteTable}
    {priorities : HashMap SourceId ℤ} (h : compileMerged ω re (mergeSources sources priorities) = .ok m.serving) :
    Serves m sources priorities := by
  refine ⟨ω, ?_⟩
  rw [compileMerged] at h
  split at h
  · cases h
  · rename_i l4Config hl4
    have hserving := Except.ok.inj h
    exact ⟨congrArg Compiled.table hserving, hl4.trans (congrArg Except.ok (congrArg Compiled.l4Config hserving))⟩

theorem serves_apply {ω : IterOrder} {m m' : RouteManager} {source : SourceId} {table : RouteTable} {id now : ℕ}
    (h : m.apply ω re source table id now = (.ok (), m')) : Serves m' (m.sources.insert source table) m.priorities := by
  rcases m.apply_cases ω re source table id now with ⟨e, -, ha⟩ | ⟨c, hc, ha⟩
  · rw [ha] at h
    cases h
  · obtain rfl := (Prod.mk.inj (ha.symm.trans h)).2
    exact @serves_of_compileMerged re _ _ _ _ hc

def KeepsMerge (re : RegexEngine) (w : Timeline) : Op → Prop
  | .setPriority .. => True
  | .apply ω source table _ =>
    (∃ c, compileMerged ω re (mergeSources (w.manager.sources.insert source table) w.manager.priorities) = .ok c)
      ∨ w.servedMerge = w.recordedMerge
  | .rollback steps =>
    if 0 < steps ∧ steps < w.manager.history.length then
      w.merges[w.manager.history.length - steps - 1]? = some w.recordedMerge
    else w.servedMerge = w.recordedMerge

theorem servedMerge_step {c : Call} (hop : c.op.updates = true) (hkeep : w.KeepsMerge re c.op) :
    (w.step re c).servedMerge = (w.step re c).recordedMerge := by
  rcases step_cases re w c with ⟨ω, source, table, id, e, hc, he, hw⟩ | ⟨steps, hc, hsteps, hw⟩ | ⟨source, priority, hc, -⟩
      | ⟨ω, source, table, id, compiled, -, -, hw⟩ | ⟨steps, target, hc, hpos, hlt, -, hw⟩
  · rw [hc, KeepsMerge, he] at hkeep
    rw [hw]
    rcases hkeep with ⟨c, hok⟩ | hkeep
    · cases hok
    · exact hkeep
  · rw [hc, KeepsMerge, if_neg (by omega)] at hkeep
    rw [hw]
    exact hkeep
  · rw [hc] at hop
    cases hop
  · rw [hw, servedMerge, RouteManager.getLast?_pushVersion]
    rfl
  · rw [hc, KeepsMerge, if_pos ⟨hpos, hlt⟩] at hkeep
    rw [hw, servedMerge, RouteManager.getLast?_take hkeep (by omega)]
    rfl

/-- **The merge in service.** In a run of calls that keep the merge, what is in service after each `apply` and each `rollback` is
the compilation of the recorded sources. -/
theorem serving_merge_of_recorded (ω₀ : IterOrder) (re : RegexEngine) (maxHistory : ℕ) (calls : List Call)
    (hkeep : ∀ before c after, calls = before ++ c :: after → (run re (new ω₀ re maxHistory) before).KeepsMerge re c.op) :
    ∀ before c after, calls = before ++ c :: after → c.op.updates = true →
      let m := (run re (new ω₀ re maxHistory) (before ++ [c])).manager
      Serves m m.sources m.priorities ∧ ∀ ω source table id now m', m.apply ω re source table id now = (.ok (), m') →
          Serves m' (m.sources.insert source table) m.priorities := by
  intro before c after hcalls hop m
  refine ⟨?_, fun ω source table id now m' h => serves_apply h⟩
  have hrun : run re (new ω₀ re maxHistory) (before ++ [c]) = (run re (new ω₀ re maxHistory) before).step re c := by simp [run]
  have hstep := (run_inStep ω₀ re maxHistory before).step c
  have hmerge := servedMerge_step hop (hkeep before c after hcalls)
  obtain ⟨ω, hω⟩ := hstep.compileMerged_servedMerge
  rw [hmerge, ← hrun] at hω
  exact serves_of_compileMerged hω

theorem forall_calls_cons {P : List Call → Call → Prop} {c : Call} {calls : List Call} (h : P [] c)
    (hrest : ∀ before c' after, calls = before ++ c' :: after → P (c :: before) c') :
    ∀ before c' after, c :: calls = before ++ c' :: after → P before c' := by
  intro before c' after heq
  rcases cons_eq_append_iff.1 heq with ⟨rfl, hc⟩ | ⟨before', rfl, hcalls⟩
  · obtain ⟨rfl, -⟩ := cons.inj hc
    exact h
  · exact hrest before' c' after hcalls

def noRegex : RegexEngine := ⟨fun _ => none⟩

def catchAllTable : RouteTable := { hosts := [{ hostname := .any, rules := [] }] }

def reapplied : List Call :=
  [⟨.apply .stored "gateway-api" catchAllTable 1, 0⟩, ⟨.apply .stored "gateway-api" catchAllTable 2, 5⟩, ⟨.rollback 1, 5⟩]

theorem reapplied_serves : let m := (run noRegex (new .stored noRegex 4) reapplied).manager
    Serves m m.sources m.priorities ∧ m.current.anyHost.isSome = true := by
  have hkeep : ∀ before c after, reapplied = before ++ c :: after →
      (run noRegex (new .stored noRegex 4) before).KeepsMerge noRegex c.op := by
    refine forall_calls_cons (.inl ⟨_, rfl⟩) (forall_calls_cons (.inl ⟨_, rfl⟩) (forall_calls_cons rfl ?_))
    simp
  exact ⟨(serving_merge_of_recorded .stored noRegex 4 reapplied hkeep (reapplied.take 2) ⟨.rollback 1, 5⟩ [] rfl rfl).1, rfl⟩

def rolledBack : List Call :=
  [⟨.apply .stored "gateway-api" {} 1, 0⟩, ⟨.apply .stored "gateway-api" catchAllTable 2, 5⟩, ⟨.rollback 1, 5⟩]

/-- after the rollback the catch-all host is out of service and still recorded, and a report of another source brings it
back -/
theorem rollback_keeps_sources : let m := (run noRegex (new .stored noRegex 4) rolledBack).manager
    ¬ Serves m m.sources m.priorities ∧ m.current.anyHost.isSome = false
      ∧ (m.apply .stored noRegex "caddyfile" {} 3 20).2.current.anyHost.isSome = true := by
  refine ⟨fun ⟨ω, htable, _⟩ => ?_, rfl, rfl⟩
  have h := congrArg (fun t : CompiledRouteTable => t.anyHost.isSome) htable
  cases h

end Timeline

end SunbeamProxy
