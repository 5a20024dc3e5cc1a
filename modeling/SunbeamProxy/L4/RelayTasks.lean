/-
The relays of the L4 router as tasks that run side by side (`http_relay` and `terminate_and_http` of `l4/router.rs`).

Every statement that touches a shared map is a step, any task may be between any two of them, and the local address of a relay is
free again as soon as the router has dropped its socket. Pingora may read `http_context` and take an entry out of `sni_context`
at any later time, under the address it saw.
-/
import SunbeamProxy.L4.Relay

namespace SunbeamProxy.RelayTasks

open Option HashMap

/-- where a relay is: before filing the SNI, before filing the context, copying, before removing the SNI, before removing the
context, before dropping the socket, done -/
inductive Phase where
  | connected | named | copying | ended | unnamed | removed | closed
deriving DecidableEq, Repr

def Phase.isOpen : Phase → Bool
  | .closed => false
  | _ => true

def Phase.filed : Phase → Bool
  | .copying => true
  | .ended => true
  | .unnamed => true
  | _ => false

def Phase.sniFiled : Phase → Bool
  | .named => true
  | .copying => true
  | .ended => true
  | _ => false

structure Task where
  ctx : L4Context
  tls : Bool
  sni : Option String
  /-- `upstream.local_addr()` -/
  addr : SocketAddr
  phase : Phase := .connected
  /-- bytes of a request have been handed on -/
  forwarded : Bool := false
deriving DecidableEq, Repr

def Task.relayContext (t : Task) : HttpRelayContext := ⟨t.ctx.listenerId, t.ctx.localAddr.port, t.tls, t.ctx.remoteAddr⟩

structure St where
  tasks : HashMap ℕ Task := ∅
  sniContext : HashMap SocketAddr String := ∅
  httpContext : HashMap SocketAddr HttpRelayContext := ∅

inductive Op where
  | terminateAndHttp (id : ℕ) (addr : SocketAddr) (ctx : L4Context) (sni : Option String)
  | httpRelay (id : ℕ) (addr : SocketAddr) (ctx : L4Context)
  /-- the next statement of a task; while it copies, the end of the copying, with or without an error -/
  | advance (id : ℕ)
  | forward (id : ℕ)
  /-- Pingora reads the context for a request of the connection -/
  | lookup (id : ℕ)
  | takeSni (id : ℕ)
deriving DecidableEq, Repr

namespace St

variable (σ : St)

def isFree (addr : SocketAddr) : Bool := σ.tasks.pairs.all fun e => !e.2.phase.isOpen || decide (e.2.addr ≠ addr)

def connect (id : ℕ) (t : Task) : St :=
  if (σ.tasks.get id).isNone && σ.isFree t.addr then { σ with tasks := σ.tasks.insert id t } else σ

def advance (id : ℕ) (t : Task) : St :=
  match t.phase with
  | .connected =>
    { σ with
      sniContext := t.sni.elim σ.sniContext (σ.sniContext.insert t.addr)
      tasks := σ.tasks.insert id { t with phase := .named } }
  | .named =>
    { σ with
      httpContext := σ.httpContext.insert t.addr t.relayContext
      tasks := σ.tasks.insert id { t with phase := .copying } }
  | .copying => { σ with tasks := σ.tasks.insert id { t with phase := .ended } }
  | .ended =>
    { σ with
      sniContext := if t.tls then σ.sniContext.erase t.addr else σ.sniContext
      tasks := σ.tasks.insert id { t with phase := .unnamed } }
  | .unnamed =>
    { σ with
      httpContext := σ.httpContext.erase t.addr
      tasks := σ.tasks.insert id { t with phase := .removed } }
  | .removed => { σ with tasks := σ.tasks.insert id { t with phase := .closed } }
  | .closed => σ

def step : Op → St
  | .terminateAndHttp id addr ctx sni => σ.connect id { ctx, tls := true, sni, addr }
  | .httpRelay id addr ctx => σ.connect id { ctx, tls := false, sni := none, addr }
  | .advance id => (σ.tasks.get id).elim σ (σ.advance id)
  | .forward id => (σ.tasks.get id).elim σ fun t =>
    if t.phase = .copying then { σ with tasks := σ.tasks.insert id { t with forwarded := true } } else σ
  | .lookup _ => σ
  | .takeSni id => (σ.tasks.get id).elim σ fun t =>
    if t.forwarded then { σ with sniContext := σ.sniContext.erase t.addr } else σ

def run (ops : List Op) : St := ops.foldl step σ

end St

/-! ## What the maps hold -/

variable (σ : St)

/-- a task has stored the context under the address -/
def OnFile (addr : SocketAddr) (c : HttpRelayContext) : Prop :=
  ∃ i u, σ.tasks.get i = some u ∧ u.addr = addr ∧ u.phase.filed = true ∧ u.relayContext = c

/-- open tasks differ in their addresses, and the maps hold what they stored -/
structure Inv (σ : St) : Prop where
  distinct : ∀ i j t u, σ.tasks.get i = some t → σ.tasks.get j = some u → t.phase.isOpen = true → u.phase.isOpen = true →
    t.addr = u.addr → i = j
  context : ∀ addr c, σ.httpContext.get addr = some c ↔ OnFile σ addr c
  sni : ∀ addr s, σ.sniContext.get addr = some s →
    ∃ i u, σ.tasks.get i = some u ∧ u.addr = addr ∧ u.phase.sniFiled = true ∧ u.tls = true
  plain : ∀ i t, σ.tasks.get i = some t → t.tls = false → t.sni = none

theorem isOpen_of_filed {p : Phase} (h : p.filed = true) : p.isOpen = true := by cases p <;> first | rfl | cases h

theorem isOpen_of_sniFiled {p : Phase} (h : p.sniFiled = true) : p.isOpen = true := by cases p <;> first | rfl | cases h

theorem inv_start : Inv {} := by
  refine ⟨?_, ?_, ?_, ?_⟩
  · intro i j t u hi
    cases hi
  · intro addr c
    apply Iff.intro
    · intro h
      cases h
    · rintro ⟨i, u, hu, -⟩
      cases hu
  · intro addr s h
    cases h
  · intro i t h
    cases h

theorem get_insert_iff {tasks : HashMap ℕ Task} {id i : ℕ} {t u : Task} :
    get (tasks.insert id t) i = some u ↔ (i = id ∧ u = t) ∨ (i ≠ id ∧ tasks.get i = some u) := by
  rw [get_insert]
  by_cases hi : i = id <;> simp [hi, eq_comm]

section Update

variable {σ σ' : St} {id : ℕ} {t t' : Task}

theorem onFile_iff (h : Inv σ) (ht : σ.tasks.get id = some t) (hopen : t.phase.isOpen = true) (c : HttpRelayContext) :
    OnFile σ t.addr c ↔ t.phase.filed = true ∧ t.relayContext = c := by
  apply Iff.intro
  · rintro ⟨i, u, hu, haddr, hfiled, hc⟩
    obtain rfl := h.distinct i id u t hu ht (isOpen_of_filed hfiled) hopen haddr
    cases hu.symm.trans ht
    exact ⟨hfiled, hc⟩
  · rintro ⟨hfiled, hc⟩
    exact ⟨id, t, ht, rfl, hfiled, hc⟩

theorem context_own (h : Inv σ) (ht : σ.tasks.get id = some t) (hopen : t.phase.isOpen = true) (c : HttpRelayContext) :
    σ.httpContext.get t.addr = some c ↔ t.phase.filed = true ∧ t.relayContext = c :=
  (h.context t.addr c).trans (onFile_iff h ht hopen c)

theorem sni_own (h : Inv σ) (ht : σ.tasks.get id = some t) (hopen : t.phase.isOpen = true) {s : String}
    (hs : σ.sniContext.get t.addr = some s) : t.phase.sniFiled = true ∧ t.tls = true := by
  obtain ⟨i, u, hu, haddr, hfiled, htls⟩ := h.sni t.addr s hs
  obtain rfl := h.distinct i id u t hu ht (isOpen_of_sniFiled hfiled) hopen haddr
  cases hu.symm.trans ht
  exact ⟨hfiled, htls⟩

theorem Inv.update (h : Inv σ) (ht : σ.tasks.get id = some t) (hopen : t.phase.isOpen = true)
    (htasks : σ'.tasks = σ.tasks.insert id t') (haddr : t'.addr = t.addr) (hsame : t'.tls = t.tls ∧ t'.sni = t.sni)
    (hframe : ∀ a, a ≠ t.addr → σ'.sniContext.get a = σ.sniContext.get a ∧ σ'.httpContext.get a = σ.httpContext.get a)
    (hcontext : ∀ c, σ'.httpContext.get t.addr = some c ↔ t'.phase.filed = true ∧ t'.relayContext = c)
    (hsni : ∀ s, σ'.sniContext.get t.addr = some s → t'.phase.sniFiled = true ∧ t'.tls = true) : Inv σ' := by
  have hget : ∀ i u, σ'.tasks.get i = some u ↔ (i = id ∧ u = t') ∨ (i ≠ id ∧ σ.tasks.get i = some u) := by
    intro i u
    rw [htasks]
    exact get_insert_iff
  -- at the address of another task nothing changes
  have hapart : ∀ a, a ≠ t.addr → ∀ P : Task → Prop,
      (∃ i u, σ'.tasks.get i = some u ∧ u.addr = a ∧ P u) ↔ ∃ i u, σ.tasks.get i = some u ∧ u.addr = a ∧ P u := by
    intro a ha P
    apply Iff.intro
    · rintro ⟨i, u, hu, hua, hP⟩
      rcases (hget i u).1 hu with ⟨-, rfl⟩ | ⟨-, hold⟩
      · exact absurd (hua.symm.trans haddr) ha
      · exact ⟨i, u, hold, hua, hP⟩
    · rintro ⟨i, u, hu, hua, hP⟩
      refine ⟨i, u, (hget i u).2 (.inr ⟨?_, hu⟩), hua, hP⟩
      rintro rfl
      cases hu.symm.trans ht
      exact ha hua.symm
  have hclash := fun i u hu hu' hua => h.distinct i id u t hu ht hu' hopen hua
  refine ⟨?_, ?_, ?_, ?_⟩
  · intro i j u v hu hv hu' hv' huv
    rcases (hget i u).1 hu with ⟨rfl, rfl⟩ | ⟨hi, huold⟩
    · rcases (hget j v).1 hv with ⟨rfl, rfl⟩ | ⟨hj, hvold⟩
      · rfl
      · exact absurd (hclash j v hvold hv' (huv.symm.trans haddr)) hj
    · rcases (hget j v).1 hv with ⟨rfl, rfl⟩ | ⟨hj, hvold⟩
      · exact absurd (hclash i u huold hu' (huv.trans haddr)) hi
      · exact h.distinct i j u v huold hvold hu' hv' huv
  · intro a c
    by_cases ha : a = t.addr
    · subst ha
      rw [hcontext]
      apply Iff.intro
      · rintro ⟨hfiled, hc⟩
        exact ⟨id, t', (hget id t').2 (.inl ⟨rfl, rfl⟩), haddr, hfiled, hc⟩
      · rintro ⟨i, u, hu, hua, hfiled, hc⟩
        rcases (hget i u).1 hu with ⟨-, rfl⟩ | ⟨hi, hold⟩
        · exact ⟨hfiled, hc⟩
        · exact absurd (hclash i u hold (isOpen_of_filed hfiled) hua) hi
    · rw [(hframe a ha).2, h.context]
      exact (hapart a ha fun u => u.phase.filed = true ∧ u.relayContext = c).symm
  · intro a s hs
    by_cases ha : a = t.addr
    · subst ha
      obtain ⟨hfiled, htls⟩ := hsni s hs
      exact ⟨id, t', (hget id t').2 (.inl ⟨rfl, rfl⟩), haddr, hfiled, htls⟩
    · rw [(hframe a ha).1] at hs
      exact (hapart a ha fun u => u.phase.sniFiled = true ∧ u.tls = true).2 (h.sni a s hs)
  · intro i u hu htls
    rcases (hget i u).1 hu with ⟨-, rfl⟩ | ⟨-, hold⟩
    · rw [hsame.2]
      exact h.plain id t ht (hsame.1 ▸ htls)
    · exact h.plain i u hold htls

theorem connect_inv (h : Inv σ) (hphase : t.phase = .connected) (hplain : t.tls = false → t.sni = none) :
    Inv (σ.connect id t) := by
  unfold St.connect
  split_ifs with hnew
  · rw [Bool.and_eq_true, isNone_iff_eq_none] at hnew
    obtain ⟨hnone, hfree⟩ := hnew
    have hold : ∀ i u, σ.tasks.get i = some u → get (σ.tasks.insert id t) i = some u := by
      intro i u hu
      refine get_insert_iff.2 (.inr ⟨?_, hu⟩)
      rintro rfl
      rw [hnone] at hu
      cases hu
    have hclash : ∀ i u, σ.tasks.get i = some u → u.phase.isOpen = true → u.addr ≠ t.addr := by
      intro i u hu hopen
      have hpair := List.all_eq_true.1 hfree _ (mem_pairs_iff.2 hu)
      simpa [hopen] using hpair
    refine ⟨?_, ?_, ?_, ?_⟩
    · intro i j u v hu hv hu' hv' huv
      rcases get_insert_iff.1 hu with ⟨rfl, rfl⟩ | ⟨-, huold⟩
      · rcases get_insert_iff.1 hv with ⟨rfl, -⟩ | ⟨-, hvold⟩
        · rfl
        · exact absurd huv.symm (hclash j v hvold hv')
      · rcases get_insert_iff.1 hv with ⟨rfl, rfl⟩ | ⟨-, hvold⟩
        · exact absurd huv (hclash i u huold hu')
        · exact h.distinct i j u v huold hvold hu' hv' huv
    · intro a c
      refine (h.context a c).trans ⟨?_, ?_⟩
      · rintro ⟨i, u, hu, hrest⟩
        exact ⟨i, u, hold i u hu, hrest⟩
      · rintro ⟨i, u, hu, hua, hfiled, hc⟩
        rcases get_insert_iff.1 hu with ⟨rfl, rfl⟩ | ⟨-, huold⟩
        · rw [hphase] at hfiled
          cases hfiled
        · exact ⟨i, u, huold, hua, hfiled, hc⟩
    · intro a s hs
      obtain ⟨i, u, hu, hrest⟩ := h.sni a s hs
      exact ⟨i, u, hold i u hu, hrest⟩
    · intro i u hu htls
      rcases get_insert_iff.1 hu with ⟨-, rfl⟩ | ⟨-, huold⟩
      · exact hplain htls
      · exact h.plain i u huold htls
  · exact h

theorem advance_inv (h : Inv σ) (ht : σ.tasks.get id = some t) : Inv (σ.advance id t) := by
  by_cases hclosed : t.phase = .closed
  · rw [St.advance, hclosed]
    exact h
  · have hopen : t.phase.isOpen = true := by cases hphase : t.phase <;> first | rfl | exact absurd hphase hclosed
    -- what the maps have under the address of the task goes by its phase
    have hcontext := context_own h ht hopen
    have hsni : ∀ s, σ.sniContext.get t.addr = some s → t.phase.sniFiled = true ∧ t.tls = true := fun _ => sni_own h ht hopen
    cases hphase : t.phase with
    | connected =>
      rw [hphase] at hcontext hsni
      rw [St.advance, hphase]
      refine h.update ht hopen rfl rfl ⟨rfl, rfl⟩ ?_ hcontext ?_
      · intro a ha
        refine ⟨?_, rfl⟩
        cases t.sni with
        | none => rfl
        | some s => exact (get_insert _ _ _ _).trans (if_neg ha)
      · intro s hs
        refine ⟨rfl, ?_⟩
        cases htls : t.tls with
        | true => rfl
        | false =>
          -- a plain relay has no SNI to file, and found none
          rw [h.plain id t ht htls] at hs
          cases (hsni s hs).1
    | named =>
      rw [hphase] at hsni
      rw [St.advance, hphase]
      refine h.update ht hopen rfl rfl ⟨rfl, rfl⟩ ?_ ?_ hsni
      · intro a ha
        exact ⟨rfl, (get_insert _ _ _ _).trans (if_neg ha)⟩
      · intro c
        rw [get_insert, if_pos rfl, some.injEq]
        exact ⟨fun hc => ⟨rfl, hc⟩, fun hc => hc.2⟩
    | copying =>
      rw [hphase] at hcontext hsni
      rw [St.advance, hphase]
      exact h.update ht hopen rfl rfl ⟨rfl, rfl⟩ (fun _ _ => ⟨rfl, rfl⟩) hcontext hsni
    | ended =>
      rw [hphase] at hcontext
      rw [St.advance, hphase]
      refine h.update ht hopen rfl rfl ⟨rfl, rfl⟩ ?_ hcontext ?_
      · intro a ha
        refine ⟨?_, rfl⟩
        cases t.tls with
        | false => rfl
        | true => exact (get_erase _ _ _).trans (if_neg ha)
      · intro s hs
        cases htls : t.tls with
        | false =>
          rw [htls] at hs
          rw [(hsni s hs).2] at htls
          cases htls
        | true =>
          rw [htls, if_pos rfl, get_erase, if_pos rfl] at hs
          cases hs
    | unnamed =>
      rw [hphase] at hsni
      rw [St.advance, hphase]
      refine h.update ht hopen rfl rfl ⟨rfl, rfl⟩ ?_ ?_ hsni
      · intro a ha
        exact ⟨rfl, (get_erase _ _ _).trans (if_neg ha)⟩
      · intro c
        rw [get_erase, if_pos rfl]
        exact iff_of_false (fun hc => nomatch hc) (fun hc => nomatch hc.1)
    | removed =>
      rw [hphase] at hcontext hsni
      rw [St.advance, hphase]
      exact h.update ht hopen rfl rfl ⟨rfl, rfl⟩ (fun _ _ => ⟨rfl, rfl⟩) hcontext hsni
    | closed => exact absurd hphase hclosed

theorem step_inv (h : Inv σ) (op : Op) : Inv (σ.step op) := by
  cases op with
  | terminateAndHttp id addr ctx sni => exact connect_inv h rfl fun htls => nomatch htls
  | httpRelay id addr ctx => exact connect_inv h rfl fun _ => rfl
  | advance id =>
    rw [St.step]
    cases ht : σ.tasks.get id with
    | none => exact h
    | some t => exact advance_inv h ht
  | forward id =>
    rw [St.step]
    cases ht : σ.tasks.get id with
    | none => exact h
    | some t =>
      rw [elim_some]
      split_ifs with hphase
      · have hopen : t.phase.isOpen = true := by rw [hphase]; rfl
        have hcontext := context_own h ht hopen
        have hsni := fun s => sni_own (s := s) h ht hopen
        exact h.update ht hopen rfl rfl ⟨rfl, rfl⟩ (fun _ _ => ⟨rfl, rfl⟩) hcontext hsni
      · exact h
  | lookup id => exact h
  | takeSni id =>
    rw [St.step]
    cases ht : σ.tasks.get id with
    | none => exact h
    | some t =>
      rw [elim_some]
      split_ifs
      · refine ⟨h.distinct, h.context, ?_, h.plain⟩
        intro a s hs
        rw [get_erase] at hs
        split_ifs at hs
        exact h.sni a s hs
      · exact h

end Update

def Idle : Prop := ∀ id t, σ.tasks.get id = some t → t.phase = .closed

def Empty : Prop := ∀ addr, σ.httpContext.get addr = none ∧ σ.sniContext.get addr = none

theorem empty_of_idle {σ : St} (h : Inv σ) (hidle : Idle σ) : Empty σ := by
  intro addr
  refine ⟨eq_none_iff_forall_ne_some.2 fun c hc => ?_, eq_none_iff_forall_ne_some.2 fun s hs => ?_⟩
  · obtain ⟨i, u, hu, -, hfiled, -⟩ := (h.context addr c).1 hc
    rw [hidle i u hu] at hfiled
    cases hfiled
  · obtain ⟨i, u, hu, -, hfiled, -⟩ := h.sni addr s hs
    rw [hidle i u hu] at hfiled
    cases hfiled

def FindsOwn : Op → Prop
  | .lookup id => ∀ t, σ.tasks.get id = some t → t.forwarded = true → σ.httpContext.get t.addr = some t.relayContext
  | _ => True

def InTime : Op → Prop
  | .lookup id => ∀ t, σ.tasks.get id = some t → t.forwarded = true → t.phase.filed = true ∨ OnFile σ t.addr t.relayContext
  | _ => True

theorem findsOwn_iff {σ : St} (h : Inv σ) (op : Op) : FindsOwn σ op ↔ InTime σ op := by
  cases op with
  | lookup id =>
    refine forall_congr' fun t => forall_congr' fun ht => forall_congr' fun _ => ?_
    rw [h.context]
    exact ⟨.inr, fun hin => hin.elim (fun hfiled => ⟨id, t, ht, rfl, hfiled, rfl⟩) fun hfile => hfile⟩
  | _ => exact .rfl

def OwnContexts : St → List Op → Prop
  | _, [] => True
  | σ, op :: ops => FindsOwn σ op ∧ (Idle (σ.step op) → Empty (σ.step op)) ∧ OwnContexts (σ.step op) ops

def InTimeThroughout : St → List Op → Prop
  | _, [] => True
  | σ, op :: ops => InTime σ op ∧ InTimeThroughout (σ.step op) ops

/-- **Relay contexts belong to live connections**, in every interleaving in which no request is looked up late. -/
theorem contexts_live_iff (ops : List Op) : OwnContexts {} ops ↔ InTimeThroughout {} ops := by
  have hrun : ∀ σ, Inv σ → (OwnContexts σ ops ↔ InTimeThroughout σ ops) := by
    induction ops with
    | nil => exact fun _ _ => .rfl
    | cons op ops ih =>
      intro σ hσ
      have hnext := step_inv hσ op
      rw [OwnContexts, findsOwn_iff hσ, ih _ hnext]
      exact and_congr_right fun _ => and_iff_right (empty_of_idle hnext)
  exact hrun _ inv_start

theorem findsOwn_of_append {σ : St} {op : Op} {before after : List Op} (h : OwnContexts σ (before ++ op :: after)) :
    FindsOwn (σ.run before) op := by
  induction before generalizing σ with
  | nil => exact h.1
  | cons first before ih => exact ih h.2.2

def relayAddr : SocketAddr := ⟨.v4 0x7f000001, 40000⟩

def firstClient : L4Context := ⟨"http", ⟨.v4 0, 80⟩, ⟨.v4 0xcb007101, 5000⟩⟩

def secondClient : L4Context := ⟨"http", ⟨.v4 0, 80⟩, ⟨.v4 0xcb007102, 6000⟩⟩

def resetRun : List Op :=
  [.httpRelay 0 relayAddr firstClient, .advance 0, .advance 0, .forward 0, .advance 0, .advance 0, .advance 0]

def reuseRun : List Op := resetRun ++ [.advance 0, .httpRelay 1 relayAddr secondClient, .advance 1, .advance 1]

theorem late_request_finds_another : (St.run {} resetRun).httpContext.get relayAddr = none
      ∧ (St.run {} reuseRun).httpContext.get relayAddr = some ⟨"http", 80, false, secondClient.remoteAddr⟩
      ∧ ¬OwnContexts {} (resetRun ++ [.lookup 0]) ∧ ¬OwnContexts {} (reuseRun ++ [.lookup 0]) := by
  have hreset : (St.run {} resetRun).httpContext.get relayAddr = none := by decide
  have hreuse : (St.run {} reuseRun).httpContext.get relayAddr = some ⟨"http", 80, false, secondClient.remoteAddr⟩ := by decide
  refine ⟨hreset, hreuse, ?_, ?_⟩
  · intro h
    have hfound := findsOwn_of_append h ⟨firstClient, false, none, relayAddr, .removed, true⟩ (by decide) rfl
    cases hfound
  · intro h
    have hfound := findsOwn_of_append h ⟨firstClient, false, none, relayAddr, .closed, true⟩ (by decide) rfl
    exact absurd (Option.some.inj hfound) (by decide)

end SunbeamProxy.RelayTasks
