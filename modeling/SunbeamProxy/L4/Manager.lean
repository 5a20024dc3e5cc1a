/-
The L4 socket manager (`l4/manager.rs`): it receives compiled configurations and keeps one task per listener, which binds a
socket and accepts on it.
-/
import SunbeamProxy.IR.L4Faithful

namespace SunbeamProxy

open List HashMap

inductive SocketKind where
  | tcpListener
  | dualStackUdp
deriving DecidableEq, Repr

def Protocol.socketKind : Protocol → SocketKind
  | .tcp => .tcpListener
  | .tls => .tcpListener
  | .https => .tcpListener
  | .udp => .dualStackUdp
  | .http => .tcpListener

theorem SameSocket.socketKind {addr addr' : String} {p q : Protocol} (h : SameSocket addr addr' p q) :
    p.socketKind = q.socketKind := by
  rcases h.2 with rfl | ⟨hp, hq⟩
  · rfl
  · cases p <;> cases q <;> simp_all [Protocol.isTls, Protocol.socketKind]

def CompiledL4Config.tcpListeners (config : CompiledL4Config) : List CompiledListener :=
  config.listeners.filter fun c => c.protocol.socketKind = .tcpListener

/-- listeners of a table on one address, both served by a `TcpListener`, share the socket -/
def TcpAddressesShared (ir : RouteTable) : Prop :=
  ∀ l ∈ ir.listeners, ∀ l' ∈ ir.listeners, l.bindAddr = l'.bindAddr → l.protocol.socketKind = .tcpListener →
    l'.protocol.socketKind = .tcpListener → l.protocol = l'.protocol ∨ l.protocol.isTls = true ∧ l'.protocol.isTls = true

open CompiledL4Config in
/-- **One TCP socket per address.** In what a table compiles to no two listeners need a `TcpListener` on one address, exactly
when all listeners of the table that need one on an address have one protocol, or all speak TLS. -/
theorem tcp_addresses_distinct_iff (ir : RouteTable) :
    (∀ ω config, compile ω ir = .ok config → (config.tcpListeners.map (·.bindAddr)).Nodup)
      ↔ (TlsConfigured ir → TcpAddressesShared ir) := by
  apply Iff.intro
  · intro h hok l hl l' hl' haddr hl_tcp hl'_tcp
    obtain ⟨config, hconfig⟩ := (compile_isOk_iff .stored ir).2 hok
    obtain ⟨c, hc, hrep⟩ := (existsUnique_represents hconfig hl).exists
    obtain ⟨c', hc', hrep'⟩ := (existsUnique_represents hconfig hl').exists
    have htcp : c ∈ config.tcpListeners := mem_filter.2 ⟨hc, by simpa using hrep.socketKind.trans hl_tcp⟩
    have htcp' : c' ∈ config.tcpListeners := mem_filter.2 ⟨hc', by simpa using hrep'.socketKind.trans hl'_tcp⟩
    have hsame := inj_on_of_nodup_map (h _ _ hconfig) htcp htcp' (by rw [hrep.1, hrep'.1, haddr])
    subst hsame
    have hkey := ((represents_iff hconfig hc hl).1 hrep).symm.trans ((represents_iff hconfig hc hl').1 hrep')
    exact ((socketKey_eq_iff hl hl').1 hkey).2
  · intro h ω config hconfig
    have hshared := h ((compile_isOk_iff ω ir).1 ⟨config, hconfig⟩)
    refine Nodup.map_on ?_ ((nodup_ids hconfig).of_map.filter _)
    intro c hc c' hc' haddr
    obtain ⟨hc, htcp⟩ := mem_filter.1 hc
    obtain ⟨hc', htcp'⟩ := mem_filter.1 hc'
    obtain ⟨l, hl, hkey, hrep⟩ := exists_source hconfig hc
    obtain ⟨l', hl', hkey', hrep'⟩ := exists_source hconfig hc'
    have haddr' : l.bindAddr = l'.bindAddr := by rw [← hrep.1, ← hrep'.1, haddr]
    have hsocket := hshared l hl l' hl' haddr' (hrep.socketKind.symm.trans (by simpa using htcp))
      (hrep'.socketKind.symm.trans (by simpa using htcp'))
    refine eq_of_id_eq hconfig hc hc' ?_
    rw [← hkey, ← hkey', (socketKey_eq_iff hl hl').2 ⟨haddr', hsocket⟩]

def httpAndTcp : RouteTable := { listeners := [{ id := "shop/edge/web", bindAddr := "0.0.0.0:8080", protocol := .http },
      { id := "infra/db/sql", bindAddr := "0.0.0.0:8080", protocol := .tcp }] }

theorem http_and_tcp_bind_twice : ∃ config, CompiledL4Config.compile .stored httpAndTcp = .ok config
      ∧ config.tcpListeners.map (·.bindAddr) = ["0.0.0.0:8080", "0.0.0.0:8080"] := by
  refine ⟨_, rfl, ?_⟩
  decide

/-! ## The manager -/

structure ListenerHandle where
  config : CompiledListener
  /-- the task, by the order in which tasks were spawned -/
  task : ℕ

/-- the locals of `run_manager`, with the tasks that accept -/
structure L4Manager where
  active : HashMap String ListenerHandle := ∅
  current : CompiledL4Config := {}
  accepting : List (ℕ × CompiledListener) := []
  spawned : ℕ := 0

def CompiledConfig : Type := { config : CompiledL4Config // ∃ ω ir, CompiledL4Config.compile ω ir = .ok config }

/-- one `recv`, what `try_recv` then drains, and which binds succeed -/
structure Received where
  config : CompiledConfig
  drained : List CompiledConfig := []
  binds : CompiledListener → Bool

def Received.latest (r : Received) : CompiledL4Config := (r.drained.foldl (fun _ c => c) r.config).1

theorem Received.nodup_ids (r : Received) : (r.latest.listeners.map (·.id)).Nodup := by
  obtain ⟨ω, ir, hconfig⟩ := (r.drained.foldl (fun _ c => c) r.config).2
  exact CompiledL4Config.nodup_ids hconfig

def desiredMap (config : CompiledL4Config) : HashMap String CompiledListener :=
  ofPairs (config.listeners.map fun l => (l.id, l))

/-- a listener that need not be bound again -/
def SameBinding (l l' : CompiledListener) : Prop := l.id = l'.id ∧ l.bindAddr = l'.bindAddr ∧ l.protocol = l'.protocol

instance SameBinding.decidable (l l' : CompiledListener) : Decidable (SameBinding l l') :=
  inferInstanceAs (Decidable (_ ∧ _ ∧ _))

theorem SameBinding.symm {l l' : CompiledListener} (h : SameBinding l l') : SameBinding l' l := ⟨h.1.symm, h.2.1.symm, h.2.2.symm⟩

theorem SameBinding.trans {l l' l'' : CompiledListener} (h : SameBinding l l') (h' : SameBinding l' l'') : SameBinding l l'' :=
  ⟨h.1.trans h'.1, h.2.1.trans h'.2.1, h.2.2.trans h'.2.2⟩

def keepsHandle (desired : HashMap String CompiledListener) (e : String × ListenerHandle) : Bool :=
  ((desired.get e.1).map fun l => decide (l.bindAddr = e.2.config.bindAddr ∧ l.protocol = e.2.config.protocol)).getD false

theorem keepsHandle_iff {config : CompiledL4Config} (hids : (config.listeners.map (·.id)).Nodup) (h : ListenerHandle) :
    keepsHandle (desiredMap config) (h.config.id, h) = true ↔ ∃ l ∈ config.listeners, SameBinding h.config l := by
  have hkeys : ((config.listeners.map fun l => (l.id, l)).map (·.1)).Nodup := by rwa [map_map]
  have hget : ∀ l, (desiredMap config).get h.config.id = some l ↔ l ∈ config.listeners ∧ l.id = h.config.id := by
    intro l
    rw [desiredMap, get_ofPairs_iff hkeys]
    simp
  apply Iff.intro
  · intro hkeep
    cases hd : (desiredMap config).get h.config.id with
    | none => simp [keepsHandle, hd] at hkeep
    | some l =>
      have hfits : l.bindAddr = h.config.bindAddr ∧ l.protocol = h.config.protocol := by simpa [keepsHandle, hd] using hkeep
      obtain ⟨hl, hid⟩ := (hget l).1 hd
      exact ⟨l, hl, hid.symm, hfits.1.symm, hfits.2.symm⟩
  · intro hfits
    obtain ⟨l, hl, hid, haddr, hprotocol⟩ := hfits
    simp [keepsHandle, (hget l).2 ⟨hl, hid.symm⟩, haddr, hprotocol]

namespace L4Manager

/-- handles whose listener is gone or binds otherwise are removed, and their tasks end -/
def stopChanged (m : L4Manager) (config : CompiledL4Config) : L4Manager :=
  let removed := m.active.pairs.filter fun e => !keepsHandle (desiredMap config) e
  { m with
    active := ofPairs (m.active.pairs.filter (keepsHandle (desiredMap config)))
    accepting := m.accepting.filter fun t => removed.all fun e => e.2.task ≠ t.1 }

def startListener (binds : CompiledListener → Bool) (m : L4Manager) (l : CompiledListener) : L4Manager :=
  if (m.active.get l.id).isSome then m
  else { m with
    active := m.active.insert l.id { config := l, task := m.spawned }
    accepting := if binds l then m.accepting ++ [(m.spawned, l)] else m.accepting
    spawned := m.spawned + 1 }

/-- one turn of the loop in `run_manager` -/
def receive (m : L4Manager) (r : Received) : L4Manager := if m.current = r.latest then m
  else r.latest.listeners.foldl (startListener r.binds) ({ m with current := r.latest }.stopChanged r.latest)

def after (rs : ℕ → Received) : ℕ → L4Manager
  | 0 => {}
  | n + 1 => (after rs n).receive (rs n)

/-! ### Handles and tasks -/

/-- each accepting task is that of one handle, under its listener's id -/
structure WellKept (m : L4Manager) : Prop where
  config_id : ∀ {id h}, m.active.get id = some h → h.config.id = id
  task_lt : ∀ {id h}, m.active.get id = some h → h.task < m.spawned
  task_inj : ∀ {id id' h h'}, m.active.get id = some h → m.active.get id' = some h' → h.task = h'.task → id = id'
  owned : ∀ t ∈ m.accepting, ∃ h, m.active.get t.2.id = some h ∧ (h.task, h.config) = t
  nodup : (m.accepting.map (·.1)).Nodup

variable {t : ℕ × CompiledListener}

theorem WellKept.accepting_lt {m : L4Manager} (hm : m.WellKept) (ht : t ∈ m.accepting) : t.1 < m.spawned := by
  obtain ⟨h, hget, rfl⟩ := hm.owned t ht
  exact hm.task_lt hget

theorem WellKept.nodup_accepting {m : L4Manager} (hm : m.WellKept) : (m.accepting.map (·.2.id)).Nodup := by
  refine Nodup.map_on ?_ hm.nodup.of_map
  intro t ht t' ht' hid
  obtain ⟨h, hget, heq⟩ := hm.owned t ht
  obtain ⟨h', hget', heq'⟩ := hm.owned t' ht'
  rw [hid, hget', Option.some.injEq] at hget
  rw [← heq, ← heq', hget]

theorem wellKept_new : WellKept {} where
  config_id h := by cases h
  task_lt h := by cases h
  task_inj h := by cases h
  owned t ht := by cases ht
  nodup := nodup_nil

/-! ### One turn -/

variable {m : L4Manager}

variable {config : CompiledL4Config}

theorem get_stopChanged (hm : m.WellKept) (hids : (config.listeners.map (·.id)).Nodup) {id : String} {h : ListenerHandle} :
    (m.stopChanged config).active.get id = some h
      ↔ m.active.get id = some h ∧ ∃ l ∈ config.listeners, SameBinding h.config l := by
  have hkeys : ((m.active.pairs.filter (keepsHandle (desiredMap config))).map (·.1)).Nodup :=
    (nodup_keys_pairs m.active).sublist (filter_sublist.map _)
  rw [stopChanged, get_ofPairs_iff hkeys, mem_filter, mem_pairs_iff]
  refine and_congr_right fun hget => ?_
  rw [← hm.config_id hget, keepsHandle_iff hids]

theorem mem_accepting_stopChanged (hm : m.WellKept) (hids : (config.listeners.map (·.id)).Nodup) :
    t ∈ (m.stopChanged config).accepting ↔ t ∈ m.accepting ∧ ∃ l ∈ config.listeners, SameBinding t.2 l := by
  simp only [stopChanged, mem_filter, all_eq_true, Bool.not_eq_true', decide_eq_true_eq]
  refine and_congr_right fun ht => ?_
  obtain ⟨h, hget, rfl⟩ := hm.owned t ht
  apply Iff.intro
  · intro hothers
    by_contra hgone
    have hdrop := Bool.eq_false_iff.2 fun hkeep => hgone ((keepsHandle_iff hids h).1 hkeep)
    exact hothers _ ⟨mem_pairs_iff.2 hget, hdrop⟩ rfl
  · intro hlisted e he htask
    -- the handle of the removed entry would be the one kept, as no two handles hold one task
    have hget' := mem_pairs_iff.1 he.1
    have hid := hm.task_inj hget' hget htask
    rw [hid, hget, Option.some.injEq] at hget'
    have hkeep := (keepsHandle_iff hids h).2 hlisted
    have hentry : e = (h.config.id, h) := Prod.ext hid hget'.symm
    rw [← hentry, he.2] at hkeep
    cases hkeep

theorem WellKept.stopChanged (hm : m.WellKept) (hids : (config.listeners.map (·.id)).Nodup) :
    (m.stopChanged config).WellKept where
  config_id hget := hm.config_id ((get_stopChanged hm hids).1 hget).1
  task_lt hget := hm.task_lt ((get_stopChanged hm hids).1 hget).1
  task_inj hget hget' := hm.task_inj ((get_stopChanged hm hids).1 hget).1 ((get_stopChanged hm hids).1 hget').1
  owned t ht := by
    obtain ⟨ht, hlisted⟩ := (mem_accepting_stopChanged hm hids).1 ht
    obtain ⟨h, hget, rfl⟩ := hm.owned t ht
    exact ⟨h, (get_stopChanged hm hids).2 ⟨hget, hlisted⟩, rfl⟩
  nodup := hm.nodup.sublist (filter_sublist.map _)

variable {binds : CompiledListener → Bool} {l : CompiledListener}

theorem startListener_of_present (h : (m.active.get l.id).isSome) : m.startListener binds l = m := if_pos h

theorem mem_accepting_start (h : m.active.get l.id = none) :
    t ∈ (m.startListener binds l).accepting ↔ t ∈ m.accepting ∨ binds l = true ∧ t = (m.spawned, l) := by
  have hnew : ¬(m.active.get l.id).isSome := by simp [h]
  rw [startListener, if_neg hnew]
  cases binds l <;> simp

theorem get_start (h : m.active.get l.id = none) (id : String) :
    (m.startListener binds l).active.get id = if id = l.id then some ⟨l, m.spawned⟩ else m.active.get id := by
  have hnew : ¬(m.active.get l.id).isSome := by simp [h]
  rw [startListener, if_neg hnew]
  exact get_insert ..

theorem spawned_start (h : m.active.get l.id = none) : (m.startListener binds l).spawned = m.spawned + 1 := by
  have hnew : ¬(m.active.get l.id).isSome := by simp [h]
  rw [startListener, if_neg hnew]

theorem WellKept.startListener (hm : m.WellKept) (binds : CompiledListener → Bool) (l : CompiledListener) :
    (m.startListener binds l).WellKept := by
  cases hnew : m.active.get l.id with
  | some h => rwa [startListener_of_present (by simp [hnew])]
  | none =>
    -- a handle of the new map is the new one, or an old one under another id
    have hcases : ∀ {id h}, (m.startListener binds l).active.get id = some h →
        (id = l.id ∧ h = ⟨l, m.spawned⟩) ∨ (id ≠ l.id ∧ m.active.get id = some h) := by
      intro id h hget
      rw [get_start hnew] at hget
      split at hget
      · exact .inl ⟨‹_›, (Option.some.inj hget).symm⟩
      · exact .inr ⟨‹_›, hget⟩
    have hkept : ∀ {id h}, m.active.get id = some h → (m.startListener binds l).active.get id = some h := by
      intro id h hget
      have hid : id ≠ l.id := fun heq => by rw [heq, hnew] at hget; cases hget
      rw [get_start hnew, if_neg hid, hget]
    constructor
    case config_id =>
      intro id h hget
      rcases hcases hget with ⟨hid, rfl⟩ | ⟨-, hget⟩
      · exact hid.symm
      · exact hm.config_id hget
    case task_lt =>
      intro id h hget
      rw [spawned_start hnew]
      rcases hcases hget with ⟨-, rfl⟩ | ⟨-, hget⟩
      · exact Nat.lt_succ_self _
      · exact Nat.lt_succ_of_lt (hm.task_lt hget)
    case task_inj =>
      intro id id' h h' hget hget' htask
      rcases hcases hget with ⟨hid, rfl⟩ | ⟨-, hget⟩ <;> rcases hcases hget' with ⟨hid', rfl⟩ | ⟨-, hget'⟩
      · rw [hid, hid']
      · exact absurd htask (hm.task_lt hget').ne'
      · exact absurd htask (hm.task_lt hget).ne
      · exact hm.task_inj hget hget' htask
    case owned =>
      intro t ht
      rcases (mem_accepting_start hnew).1 ht with ht | ⟨-, rfl⟩
      · obtain ⟨h, hget, heq⟩ := hm.owned t ht
        exact ⟨h, hkept hget, heq⟩
      · exact ⟨⟨l, m.spawned⟩, by rw [get_start hnew, if_pos rfl], rfl⟩
    case nodup =>
      have hfresh : m.spawned ∉ m.accepting.map (·.1) := by
        intro hmem
        obtain ⟨t, ht, hnum⟩ := mem_map.1 hmem
        exact absurd hnum (hm.accepting_lt ht).ne
      rw [L4Manager.startListener, if_neg (by simp [hnew])]
      cases binds l with
      | false => exact hm.nodup
      | true => simpa using Nodup.concat hfresh hm.nodup

/-- what starting the listeners without a handle does: the handles there are stay, and each new handle is of a listener whose
task accepts when its bind succeeds -/
structure Started (binds : CompiledListener → Bool) (listeners : List CompiledListener) (m m' : L4Manager) : Prop where
  kept : ∀ {id h}, m.active.get id = some h → m'.active.get id = some h
  covered : ∀ l ∈ listeners, (m'.active.get l.id).isSome
  fresh : ∀ {id h}, m'.active.get id = some h → m.active.get id = some h ∨
    m.active.get id = none ∧ m.spawned ≤ h.task ∧ h.config ∈ listeners
      ∧ ((h.task, h.config) ∈ m'.accepting ↔ binds h.config = true)
  accepting : ∀ t : ℕ × CompiledListener, t.1 < m.spawned → (t ∈ m'.accepting ↔ t ∈ m.accepting)
  spawned_le : m.spawned ≤ m'.spawned

theorem Started.snoc {listeners : List CompiledListener} {m m' : L4Manager} (h : Started binds listeners m m')
    (hm' : m'.WellKept) (l : CompiledListener) :
    Started binds (listeners ++ [l]) m (m'.startListener binds l) := by
  have hmem : ∀ {c}, c ∈ listeners → c ∈ listeners ++ [l] := fun hc => mem_append_left _ hc
  cases hnew : m'.active.get l.id with
  | some old =>
    rw [startListener_of_present (by simp [hnew])]
    refine ⟨h.kept, ?_, ?_, h.accepting, h.spawned_le⟩
    · intro c hc
      rcases mem_append.1 hc with hc | hc
      · exact h.covered c hc
      · rw [mem_singleton.1 hc, hnew, Option.isSome_some]
    · intro id handle hget
      rcases h.fresh hget with hold | ⟨hnone, hle, hc, hbinds⟩
      · exact .inl hold
      · exact .inr ⟨hnone, hle, hmem hc, hbinds⟩
  | none =>
    have hkept : ∀ {id handle}, m'.active.get id = some handle → (m'.startListener binds l).active.get id = some handle := by
      intro id handle hget
      have hid : id ≠ l.id := fun heq => by rw [heq, hnew] at hget; cases hget
      rw [get_start hnew, if_neg hid, hget]
    -- tasks there were before are not the new one
    have hsame : ∀ t : ℕ × CompiledListener, t.1 < m'.spawned →
        (t ∈ (m'.startListener binds l).accepting ↔ t ∈ m'.accepting) := by
      intro t ht
      rw [mem_accepting_start hnew]
      refine or_iff_left fun hlast => ?_
      rw [hlast.2] at ht
      exact lt_irrefl _ ht
    refine ⟨fun hget => hkept (h.kept hget), ?_, ?_, ?_, ?_⟩
    · intro c hc
      rcases mem_append.1 hc with hc | hc
      · obtain ⟨handle, hget⟩ := Option.isSome_iff_exists.1 (h.covered c hc)
        rw [hkept hget, Option.isSome_some]
      · rw [mem_singleton.1 hc, get_start hnew, if_pos rfl, Option.isSome_some]
    · intro id handle hget
      rw [get_start hnew] at hget
      split at hget
      · subst id
        cases Option.some.inj hget
        have hnone : m.active.get l.id = none := by
          cases hold : m.active.get l.id with
          | none => rfl
          | some old => rw [h.kept hold] at hnew; cases hnew
        refine .inr ⟨hnone, h.spawned_le, mem_append_right _ (mem_singleton.2 rfl), ?_⟩
        rw [mem_accepting_start hnew]
        have hbefore : ¬(m'.spawned, l) ∈ m'.accepting := fun ht => lt_irrefl _ (hm'.accepting_lt ht)
        simp [hbefore]
      · rcases h.fresh hget with hold | ⟨hnone, hle, hc, hbinds⟩
        · exact .inl hold
        · exact .inr ⟨hnone, hle, hmem hc, (hsame _ (hm'.task_lt hget)).trans hbinds⟩
    · intro t ht
      exact (hsame t (lt_of_lt_of_le ht h.spawned_le)).trans (h.accepting t ht)
    · rw [spawned_start hnew]
      exact Nat.le_succ_of_le h.spawned_le

theorem started_foldl (hm : m.WellKept) (binds : CompiledListener → Bool) (listeners : List CompiledListener) :
    (listeners.foldl (startListener binds) m).WellKept ∧ Started binds listeners m (listeners.foldl (startListener binds) m) := by
  induction listeners using reverseRecOn with
  | nil => exact ⟨hm, fun hget => hget, fun l hl => (by cases hl), .inl, fun t _ => .rfl, le_refl _⟩
  | append_singleton listeners l ih =>
    rw [foldl_append, foldl_cons]
    exact ⟨ih.1.startListener binds l, ih.2.snoc ih.1 l⟩

/-- between two turns the handles are those of the listeners of the current configuration -/
structure Steady (m : L4Manager) : Prop extends WellKept m where
  ids : (m.current.listeners.map (·.id)).Nodup
  listed : ∀ l ∈ m.current.listeners, ∃ h, m.active.get l.id = some h ∧ SameBinding h.config l
  handled : ∀ {id h}, m.active.get id = some h → ∃ l ∈ m.current.listeners, SameBinding h.config l

theorem steady_new : Steady {} where
  toWellKept := wellKept_new
  ids := nodup_nil
  listed l hl := by cases hl
  handled h := by cases h

/-- the handle a listener has after a turn: the one of before, its task as it was, or a new one whose task accepts when the
bind succeeds -/
inductive Outcome (m : L4Manager) (r : Received) (m' : L4Manager) (l : CompiledListener) (h : ListenerHandle) : Prop where
  | kept (hget : m.active.get l.id = some h)
      (haccepting : (h.task, h.config) ∈ m'.accepting ↔ (h.task, h.config) ∈ m.accepting)
  | started (hnew : ∀ c ∈ m.current.listeners, ¬SameBinding c l) (htask : m.spawned ≤ h.task)
      (haccepting : (h.task, h.config) ∈ m'.accepting ↔ r.binds l = true)

/-- what one received configuration leaves behind -/
structure Turn (m : L4Manager) (r : Received) (m' : L4Manager) : Prop where
  current : m'.current = r.latest
  steady : m'.Steady
  outcome : ∀ l ∈ r.latest.listeners, ∃ h, m'.active.get l.id = some h ∧ SameBinding h.config l ∧ Outcome m r m' l h

theorem Steady.receive (hm : m.Steady) (r : Received) : Turn m r (m.receive r) := by
  by_cases hsame : m.current = r.latest
  · rw [L4Manager.receive, if_pos hsame]
    refine ⟨hsame, hm, fun l hl => ?_⟩
    obtain ⟨h, hget, hbinding⟩ := hm.listed l (hsame ▸ hl)
    exact ⟨h, hget, hbinding, .kept hget .rfl⟩
  · rw [L4Manager.receive, if_neg hsame]
    have hids := r.nodup_ids
    have hset : WellKept { m with current := r.latest } := { hm.toWellKept with }
    have hstopped := hset.stopChanged hids
    obtain ⟨hkept, hstarted⟩ := started_foldl hstopped r.binds r.latest.listeners
    have hcurrent : (r.latest.listeners.foldl (startListener r.binds)
        ({ m with current := r.latest }.stopChanged r.latest)).current = r.latest := by
      refine List.foldlRecOn (motive := fun m' : L4Manager => m'.current = r.latest) _ _ rfl ?_
      intro m' hm' l _
      rw [startListener]
      split <;> exact hm'
    set m₁ := { m with current := r.latest }.stopChanged r.latest with hm₁
    set m' := r.latest.listeners.foldl (startListener r.binds) m₁
    have hget₁ : ∀ {id h}, m₁.active.get id = some h
        ↔ m.active.get id = some h ∧ ∃ l ∈ r.latest.listeners, SameBinding h.config l := get_stopChanged hset hids
    -- a handle of a listed id is one that was kept, or was started for that very listener
    have houtcome : ∀ l ∈ r.latest.listeners, ∃ h, m'.active.get l.id = some h ∧ SameBinding h.config l ∧ Outcome m r m' l h := by
      intro l hl
      obtain ⟨h, hget⟩ := Option.isSome_iff_exists.1 (hstarted.covered l hl)
      rcases hstarted.fresh hget with hold | ⟨hnone, htask, hc, hbinds⟩
      · obtain ⟨hget₀, c, hc, hbinding⟩ := hget₁.1 hold
        have hcl := inj_on_of_nodup_map hids hc hl (hbinding.1.symm.trans (hkept.config_id hget))
        subst hcl
        refine ⟨h, hget, hbinding, .kept hget₀ ?_⟩
        rw [hstarted.accepting _ (hstopped.task_lt hold), mem_accepting_stopChanged hset hids]
        exact and_iff_left ⟨c, hc, hbinding⟩
      · have hcl := inj_on_of_nodup_map hids hc hl (hkept.config_id hget)
        refine ⟨h, hget, hcl ▸ ⟨rfl, rfl, rfl⟩, .started ?_ htask (hcl ▸ hbinds)⟩
        intro c hc hbinding
        obtain ⟨h₀, hget₀, hbinding₀⟩ := hm.listed c hc
        have hkeep := hget₁.2 ⟨hget₀, l, hl, hbinding₀.trans hbinding⟩
        rw [hbinding.1, hnone] at hkeep
        cases hkeep
    refine ⟨hcurrent, { toWellKept := hkept, ids := ?_, listed := ?_, handled := ?_ }, houtcome⟩
    · rw [hcurrent]
      exact hids
    · intro l hl
      obtain ⟨h, hget, hbinding, -⟩ := houtcome l (hcurrent ▸ hl)
      exact ⟨h, hget, hbinding⟩
    · intro id h hget
      rw [hcurrent]
      rcases hstarted.fresh hget with hold | ⟨-, -, hc, -⟩
      · exact (hget₁.1 hold).2
      · exact ⟨h.config, hc, rfl, rfl, rfl⟩

variable (rs : ℕ → Received)

theorem steady_after (n : ℕ) : (after rs n).Steady := by
  induction n with
  | zero => exact steady_new
  | succ n ih => exact (ih.receive (rs n)).steady

/-! ### Convergence -/

/-- in this turn a task was started for the listener, and could not bind -/
def FailedNow (m : L4Manager) (r : Received) (m' : L4Manager) (l : CompiledListener) : Prop :=
  (∃ h, m'.active.get l.id = some h ∧ m.spawned ≤ h.task) ∧ r.binds l = false

/-- after a turn one task accepts for each listener of the latest configuration whose bind did not just fail, and no other -/
structure Settled (m : L4Manager) (r : Received) (m' : L4Manager) : Prop where
  only : ∀ t ∈ m'.accepting, ∃ l ∈ r.latest.listeners, SameBinding t.2 l
  one : (m'.accepting.map (·.2.id)).Nodup
  every : ∀ l ∈ r.latest.listeners, (∃ t ∈ m'.accepting, SameBinding t.2 l) ∨ FailedNow m r m' l

theorem WellKept.task_of_binding (hm : m.WellKept) (ht : t ∈ m.accepting) (hbinding : SameBinding t.2 l)
    {h : ListenerHandle} (hget : m.active.get l.id = some h) : (h.task, h.config) = t := by
  obtain ⟨h', hget', heq⟩ := hm.owned t ht
  rw [hbinding.1, hget, Option.some.injEq] at hget'
  rw [hget', heq]

theorem settled_iff (hm : m.Steady) (r : Received) :
    Settled m r (m.receive r) ↔ ∀ l ∈ r.latest.listeners, ∀ h, m.active.get l.id = some h → SameBinding h.config l →
      (h.task, h.config) ∈ m.accepting := by
  have hturn := hm.receive r
  apply Iff.intro
  · intro hsettled l hl h hget hbinding
    obtain ⟨h', hget', -, hout⟩ := hturn.outcome l hl
    cases hout with
    | started hnew _ _ =>
      obtain ⟨c, hc, hbinding'⟩ := hm.handled hget
      exact absurd (hbinding'.symm.trans hbinding) (hnew c hc)
    | kept hget'' haccepting =>
      have hsame := Option.some.inj (hget''.symm.trans hget)
      subst hsame
      rcases hsettled.every l hl with ⟨t, ht, htl⟩ | ⟨⟨h'', hget₂, htask⟩, -⟩
      · rw [← hturn.steady.task_of_binding ht htl hget'] at ht
        exact haccepting.1 ht
      · rw [hget', Option.some.injEq] at hget₂
        exact absurd (hm.task_lt hget) (not_lt.2 (hget₂ ▸ htask))
  · intro halive
    refine ⟨?_, hturn.steady.nodup_accepting, ?_⟩
    · intro t ht
      obtain ⟨h, hget, rfl⟩ := hturn.steady.owned t ht
      rw [← hturn.current]
      exact hturn.steady.handled hget
    · intro l hl
      obtain ⟨h, hget, hbinding, hout⟩ := hturn.outcome l hl
      cases hout with
      | kept hget' haccepting => exact .inl ⟨(h.task, h.config), haccepting.2 (halive l hl h hget' hbinding), hbinding⟩
      | started _ htask haccepting =>
        cases hbinds : r.binds l with
        | true => exact .inl ⟨(h.task, h.config), haccepting.2 hbinds, hbinding⟩
        | false => exact .inr ⟨⟨h, hget, htask⟩, hbinds⟩

theorem settled_next_iff (hm : m.Steady) (r r' : Received) (hsettled : Settled m r (m.receive r)) :
    Settled (m.receive r) r' ((m.receive r).receive r') ↔ ∀ l ∈ r.latest.listeners,
      (∀ c ∈ m.current.listeners, ¬SameBinding c l) → r.binds l = false → ∀ c ∈ r'.latest.listeners, ¬SameBinding l c := by
  have hturn := hm.receive r
  rw [settled_iff hturn.steady]
  apply Iff.intro
  · intro halive l hl hnew hbinds c hc hbinding
    obtain ⟨h, hget, hl', hout⟩ := hturn.outcome l hl
    cases hout with
    | kept hget' _ =>
      obtain ⟨d, hd, hbinding'⟩ := hm.handled hget'
      exact hnew d hd (hbinding'.symm.trans hl')
    | started _ _ haccepting =>
      have hrunning := halive c hc h (hbinding.1 ▸ hget) (hl'.trans hbinding)
      rw [haccepting, hbinds] at hrunning
      cases hrunning
  · intro hgone c hc h hget hbinding
    obtain ⟨l, hl, hl'⟩ := hturn.steady.handled hget
    rw [hturn.current] at hl
    obtain ⟨h', hget', -, hout⟩ := hturn.outcome l hl
    have hid := hbinding.1.symm.trans hl'.1
    rw [← hid, hget, Option.some.injEq] at hget'
    subst hget'
    cases hout with
    | kept hget₀ haccepting => exact haccepting.2 ((settled_iff hm r).1 hsettled l hl h hget₀ hl')
    | started hnew _ haccepting =>
      refine haccepting.2 (Bool.eq_true_of_not_eq_false fun hbinds => ?_)
      exact hgone l hl hnew hbinds c hc (hl'.symm.trans hbinding)

def listedBefore : ℕ → List CompiledListener
  | 0 => []
  | n + 1 => (rs n).latest.listeners

theorem current_after (n : ℕ) : (after rs n).current.listeners = listedBefore rs n := by
  cases n with
  | zero => rfl
  | succ n => rw [after, ((steady_after rs n).receive (rs n)).current, listedBefore]

/-- no listener that is new in the `n`-th turn and cannot be bound then is listed unchanged in the next turn -/
def FailedNotListedAgain (n : ℕ) : Prop :=
  ∀ l ∈ (rs n).latest.listeners, (∀ c ∈ listedBefore rs n, ¬SameBinding c l) → (rs n).binds l = false →
    ∀ c ∈ (rs (n + 1)).latest.listeners, ¬SameBinding l c

/-- **Convergence.** A manager is settled after each of its first `k` configurations exactly when no listener whose bind failed is
listed again, with its address and protocol, in the one that follows. -/
theorem manager_converges_iff (rs : ℕ → Received) (k : ℕ) :
    (∀ n < k, Settled (after rs n) (rs n) (after rs (n + 1))) ↔ ∀ n, n + 1 < k → FailedNotListedAgain rs n := by
  have hnext : ∀ n, Settled (after rs n) (rs n) (after rs (n + 1)) →
      (Settled (after rs (n + 1)) (rs (n + 1)) (after rs (n + 2)) ↔ FailedNotListedAgain rs n) := by
    intro n hsettled
    rw [FailedNotListedAgain, ← current_after]
    exact settled_next_iff (steady_after rs n) (rs n) (rs (n + 1)) hsettled
  apply Iff.intro
  · intro h n hn
    exact (hnext n (h n (Nat.lt_of_succ_lt hn))).1 (h (n + 1) hn)
  · intro h n
    -- each turn settles because the one before did and what failed there is not listed
    induction n with
    | zero =>
      intro _
      refine (settled_iff steady_new (rs 0)).2 fun l _ handle hget _ => ?_
      cases hget
    | succ n ih =>
      intro hn
      exact (hnext n (ih (Nat.lt_of_succ_lt hn))).2 (h n hn)

def databaseTable (others : List ListenerConfig) : RouteTable :=
  { listeners := { id := "infra/db/sql", bindAddr := "0.0.0.0:5432", protocol := .tcp } :: others }

def databaseAlone : CompiledConfig := ⟨_, .stored, databaseTable [], rfl⟩

def databaseAndDns : CompiledConfig :=
  ⟨_, .stored, databaseTable [{ id := "infra/dns/udp", bindAddr := "0.0.0.0:53", protocol := .udp }], rfl⟩

def busyAtFirst : ℕ → Received
  | 0 => { config := databaseAlone, binds := fun _ => false }
  | _ => { config := databaseAndDns, binds := fun _ => true }

theorem busy_port_not_retried : (busyAtFirst 1).latest.listeners.map (fun l => (l.bindAddr, (busyAtFirst 1).binds l))
        = [("0.0.0.0:53", true), ("0.0.0.0:5432", true)]
      ∧ (after busyAtFirst 2).accepting.map (·.2.bindAddr) = ["0.0.0.0:53"]
      ∧ ¬Settled (after busyAtFirst 1) (busyAtFirst 1) (after busyAtFirst 2) := by
  have hlisted : (busyAtFirst 1).latest.listeners.map (fun l => (l.bindAddr, (busyAtFirst 1).binds l))
      = [("0.0.0.0:53", true), ("0.0.0.0:5432", true)] := by decide
  have haccepting : (after busyAtFirst 2).accepting.map (·.2.bindAddr) = ["0.0.0.0:53"] := by decide
  refine ⟨hlisted, haccepting, ?_⟩
  intro hsettled
  have hmem : ("0.0.0.0:5432", true) ∈ (busyAtFirst 1).latest.listeners.map
      (fun l => (l.bindAddr, (busyAtFirst 1).binds l)) := by rw [hlisted]; decide
  obtain ⟨l, hl, heq⟩ := mem_map.1 hmem
  rw [Prod.mk.injEq] at heq
  rcases hsettled.every l hl with ⟨t, ht, hbinding⟩ | ⟨-, hfailed⟩
  · have hserved := mem_map_of_mem (f := fun t : ℕ × CompiledListener => t.2.bindAddr) ht
    rw [hbinding.2.1, heq.1] at hserved
    exact absurd hserved (by decide)
  · cases hfailed

end L4Manager

end SunbeamProxy
