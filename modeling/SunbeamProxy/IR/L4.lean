/-
The L4 compiler (`ir/compile.rs`): listeners that share a socket are merged, and L4 routes are sorted by what they do.

Listeners with the same bind address and protocol share a socket; an HTTPS and a TLS listener on one address share one too, told
apart by SNI. Groups are walked in hash order, so `compile` takes an `IterOrder`.
-/
import SunbeamProxy.IR.Model
import SunbeamProxy.Net

namespace SunbeamProxy

open Text List Option

structure CompileError where
  message : String
deriving DecidableEq, Repr

structure CompiledListener where
  id : String
  bindAddr : String
  protocol : Protocol
  tls : Option TlsConfig
  redirectHttpToHttps : Bool
  frontendValidation : Option FrontendValidation
deriving DecidableEq, Repr

structure CompiledL4Route where
  listenerId : String
  listenerHostname : HostnameMatch
  match_ : L4Match
  action : L4Action
  priority : ℤ := 0
deriving DecidableEq, Repr

structure CompiledL4Config where
  listeners : List CompiledListener := []
  tcpRoutes : List CompiledL4Route := []
  udpRoutes : List CompiledL4Route := []
  tlsRoutes : List CompiledL4Route := []
  httpsRoutes : List CompiledL4Route := []
  httpRoutes : List CompiledL4Route := []
deriving DecidableEq, Repr

def Protocol.isTls : Protocol → Bool
  | .https => true
  | .tls => true
  | _ => false

def compileListener (l : ListenerConfig) : Except CompileError CompiledListener := if l.protocol.isTls && l.tls.isNone then
    .error ⟨"listener " ++ l.id ++ " (" ++ l.protocol.name ++ ") requires TLS configuration"⟩
  else .ok ⟨l.id, l.bindAddr, l.protocol, l.tls, l.redirectHttpToHttps, l.frontendValidation⟩

abbrev ListenerGroups := HashMap (String × Protocol) (List CompiledListener)

def groupListeners (listeners : List CompiledListener) : ListenerGroups :=
  HashMap.pushAll (fun l => some (l.bindAddr, l.protocol)) listeners ∅

variable (groups : ListenerGroups)

def sharedTlsAddr (addr : String) : Bool :=
  (groups.get (addr, .https)).isSome && (groups.get (addr, .tls)).isSome

def canonicalKey (addr : String) (p : Protocol) : String :=
  if p.isTls && sharedTlsAddr groups addr then addr ++ "#tls" else addr ++ "#" ++ p.name

variable (ω : IterOrder)

def mergeGroups (groups : ListenerGroups) : HashMap String (List CompiledListener) :=
  (ω.order groups.pairs).foldl (fun m e =>
    let key := canonicalKey groups e.1.1 e.1.2
    m.insert key ((m.get key).getD [] ++ e.2)) ∅

def mergedValidation (group : List CompiledListener) : Option FrontendValidation :=
  ((group.filterMap (·.frontendValidation)).find? fun v => !v.allowInsecureFallback).or
    (group.findSome? (·.frontendValidation))

def mergedListener (key : String) : List CompiledListener → Option CompiledListener
  | [] => none
  | first :: rest => some
    { id := key
      bindAddr := first.bindAddr
      protocol := if (first :: rest).any (·.protocol = .tls) then .tls else first.protocol
      tls := (first :: rest).findSome? (·.tls)
      redirectHttpToHttps := (first :: rest).any (·.redirectHttpToHttps)
      frontendValidation := mergedValidation (first :: rest) }

def listenerIdMap (merged : List (String × List CompiledListener)) : HashMap String String :=
  merged.foldl (fun m e => e.2.foldl (fun m l => m.insert l.id e.1) m) ∅

namespace CompiledL4Config

def compileRoute (ids : HashMap String String) (route : L4Route) : CompiledL4Route :=
  { listenerId := (ids.get route.listenerId).getD route.listenerId
    listenerHostname := route.listenerHostname
    match_ := route.match_
    action := route.action }

def addRoute (c : CompiledL4Config) (r : CompiledL4Route) : CompiledL4Config :=
  match r.action with
  | .tcpRelay _ => { c with tcpRoutes := c.tcpRoutes ++ [r] }
  | .udpRelay _ => { c with udpRoutes := c.udpRoutes ++ [r] }
  | .tlsPassthrough _ => { c with tlsRoutes := c.tlsRoutes ++ [r] }
  | .tlsTerminate _ => { c with tlsRoutes := c.tlsRoutes ++ [r] }
  | .terminateAndHttp _ => { c with httpsRoutes := c.httpsRoutes ++ [r] }
  | .httpRelay _ => { c with httpRoutes := c.httpRoutes ++ [r] }

def compile (ω : IterOrder) (ir : RouteTable) : Except CompileError CompiledL4Config := do
  let listeners ← ir.listeners.mapM compileListener
  let merged := ω.order (mergeGroups ω (groupListeners listeners)).pairs
  let config : CompiledL4Config :=
    { listeners := stableSort (fun a b => decide (a.id ≤ b.id)) (merged.filterMap fun e => mergedListener e.1 e.2) }
  .ok ((ir.l4Routes.map (compileRoute (listenerIdMap merged))).foldl addRoute config)

def listenerHostnameFor (c : CompiledL4Config) (host : String) (port : UInt16) : Option HostnameMatch :=
  let listenerIds := (c.listeners.filter fun l => (bindPort l.bindAddr).any (· == port)).map (·.id)
  maxByKey irListenerSpecificityScore
    ((c.httpsRoutes.filter fun r => listenerIds.contains r.listenerId && irHostnameMatches host r.listenerHostname).map
      (·.listenerHostname))

end CompiledL4Config

def keySuffix (addr : String) (p : Protocol) : String :=
  if p.isTls && sharedTlsAddr groups addr then "tls" else p.name

section Keys

variable {groups : ListenerGroups} {a b : String} {p q : Protocol}

theorem canonicalKey_toList (groups : ListenerGroups) (addr : String) (p : Protocol) :
    (canonicalKey groups addr p).toList = addr.toList ++ '#' :: (keySuffix groups addr p).toList := by
  unfold canonicalKey keySuffix
  split_ifs
  · rw [String.toList_append]
    rfl
  · simp only [String.append_assoc, String.toList_append]
    rfl

theorem hash_notMem_keySuffix (groups : ListenerGroups) (addr : String) (p : Protocol) :
    '#' ∉ (keySuffix groups addr p).toList := by
  unfold keySuffix
  split_ifs
  · decide
  · cases p <;> decide

theorem keySuffix_eq_iff :
    keySuffix groups a p = keySuffix groups a q ↔ p = q ∨ sharedTlsAddr groups a = true ∧ p.isTls = true ∧ q.isTls = true := by
  unfold keySuffix
  cases sharedTlsAddr groups a <;> cases p <;> cases q <;> decide

theorem append_cons_inj_of_notMem_right {α : Type} {x : α} {a b s t : List α} (hs : x ∉ s) (ht : x ∉ t)
    (h : a ++ x :: s = b ++ x :: t) : a = b ∧ s = t := by
  rcases append_eq_append_iff.1 h with ⟨c, hb, hc⟩ | ⟨c, ha, hc⟩
  · cases c with
    | nil =>
      cases hc
      exact ⟨by rw [hb, append_nil], rfl⟩
    | cons y c =>
      cases hc
      simp at hs
  · cases c with
    | nil =>
      cases hc
      exact ⟨by rw [ha, append_nil], rfl⟩
    | cons y c =>
      cases hc
      simp at ht

theorem canonicalKey_eq_iff : canonicalKey groups a p = canonicalKey groups b q
      ↔ a = b ∧ (p = q ∨ sharedTlsAddr groups a = true ∧ p.isTls = true ∧ q.isTls = true) := by
  rw [← keySuffix_eq_iff]
  apply Iff.intro
  · intro h
    have hlist := congrArg String.toList h
    simp only [canonicalKey_toList] at hlist
    rcases append_cons_inj_of_notMem_right (hash_notMem_keySuffix groups a p) (hash_notMem_keySuffix groups b q) hlist with
      ⟨haddr, hsuffix⟩
    rw [String.toList_inj] at haddr hsuffix
    subst haddr
    exact ⟨rfl, hsuffix⟩
  · intro h
    obtain ⟨rfl, hsuffix⟩ := h
    simp [← String.toList_inj, canonicalKey_toList, hsuffix]

theorem canonicalKey_inj (h : canonicalKey groups a p = canonicalKey groups b q) : a = b ∧ p.isTls = q.isTls := by
  obtain ⟨haddr, rfl | ⟨-, hp, hq⟩⟩ := canonicalKey_eq_iff.1 h
  · exact ⟨haddr, rfl⟩
  · exact ⟨haddr, hp.trans hq.symm⟩

end Keys

/-! ## The group behind a socket -/

theorem mem_getD_nil {α : Type} {o : Option (List α)} {x : α} : x ∈ o.getD [] ↔ ∃ l, o = some l ∧ x ∈ l := by cases o <;> simp

variable {listeners : List CompiledListener} {x : CompiledListener}

theorem mem_groupListeners {k : String × Protocol} :
    x ∈ ((groupListeners listeners).get k).getD [] ↔ x ∈ listeners ∧ (x.bindAddr, x.protocol) = k := by
  simp [groupListeners, HashMap.get_pushAll]

theorem get_mergeGroups (groups : ListenerGroups) (key : String) : ((mergeGroups ω groups).get key).getD []
      = ((ω.order groups.pairs).filter fun e => canonicalKey groups e.1.1 e.1.2 = key).flatMap (·.2) := by
  have hgroup := HashMap.get_foldl_extend
    (fun e : (String × Protocol) × List CompiledListener => canonicalKey groups e.1.1 e.1.2) (fun e => e.2)
    (ω.order groups.pairs) ∅ key
  rw [mergeGroups, hgroup, HashMap.get_empty, getD_none, nil_append]

theorem mem_mergeGroups {ω : IterOrder} {key : String} : x ∈ ((mergeGroups ω (groupListeners listeners)).get key).getD []
      ↔ x ∈ listeners ∧ canonicalKey (groupListeners listeners) x.bindAddr x.protocol = key := by
  have hentry : ∀ e, e ∈ (ω.order (groupListeners listeners).pairs).filter (fun e =>
        canonicalKey (groupListeners listeners) e.1.1 e.1.2 = key)
      ↔ (groupListeners listeners).get e.1 = some e.2 ∧ canonicalKey (groupListeners listeners) e.1.1 e.1.2 = key := by
    intro e
    rw [mem_filter, (ω.order_perm _).mem_iff, ← HashMap.mem_pairs_iff, decide_eq_true_iff]
  rw [get_mergeGroups, mem_flatMap]
  apply Iff.intro
  · intro h
    obtain ⟨e, he, hx⟩ := h
    obtain ⟨hget, hkey⟩ := (hentry e).1 he
    obtain ⟨hmem, hk⟩ := mem_groupListeners.1 (mem_getD_nil.2 ⟨e.2, hget, hx⟩)
    rw [← hk] at hkey
    exact ⟨hmem, hkey⟩
  · intro h
    obtain ⟨group, hget, hx⟩ := mem_getD_nil.1 (mem_groupListeners.2 ⟨h.1, rfl⟩)
    exact ⟨((x.bindAddr, x.protocol), group), (hentry _).2 ⟨hget, h.2⟩, hx⟩

theorem canonicalKey_eq_of_tls {y : CompiledListener} (hx : x ∈ listeners) (hy : y ∈ listeners)
    (haddr : x.bindAddr = y.bindAddr) (hxtls : x.protocol.isTls = true) (hytls : y.protocol.isTls = true) :
    canonicalKey (groupListeners listeners) x.bindAddr x.protocol
      = canonicalKey (groupListeners listeners) y.bindAddr y.protocol := by
  obtain ⟨xs, hbx, -⟩ := mem_getD_nil.1 (mem_groupListeners.2 ⟨hx, rfl⟩)
  obtain ⟨ys, hby, -⟩ := mem_getD_nil.1 (mem_groupListeners.2 ⟨hy, rfl⟩)
  by_cases hp : x.protocol = y.protocol
  · rw [haddr, hp]
  · have hshared : sharedTlsAddr (groupListeners listeners) x.bindAddr = true := by
      cases hpx : x.protocol <;> cases hpy : y.protocol <;> simp_all [Protocol.isTls, sharedTlsAddr]
    exact canonicalKey_eq_iff.2 ⟨haddr, .inr ⟨hshared, hxtls, hytls⟩⟩

def copyListener (l : ListenerConfig) : CompiledListener :=
  ⟨l.id, l.bindAddr, l.protocol, l.tls, l.redirectHttpToHttps, l.frontendValidation⟩

theorem compileListener_eq_ok {l : ListenerConfig} {c : CompiledListener} (h : compileListener l = .ok c) :
    c = copyListener l := by
  unfold compileListener at h
  split_ifs at h
  exact (Except.ok.inj h).symm

theorem mapM_compileListener {ls : List ListenerConfig} {cs : List CompiledListener}
    (h : ls.mapM compileListener = .ok cs) : cs = ls.map copyListener := by
  have hcopies := mapM_ok_rel (fun _ _ _ hc => compileListener_eq_ok hc) h
  rwa [forall₂_eq_eq_eq] at hcopies

def socketListeners (ir : RouteTable) (id : String) : List CompiledListener :=
  ((mergeGroups ω (groupListeners (ir.listeners.map copyListener))).get id).getD []

theorem mem_socketListeners {ω : IterOrder} {ir : RouteTable} {id : String} :
    x ∈ socketListeners ω ir id ↔ x ∈ ir.listeners.map copyListener
      ∧ canonicalKey (groupListeners (ir.listeners.map copyListener)) x.bindAddr x.protocol = id := mem_mergeGroups

namespace CompiledL4Config

theorem foldl_addRoute_listeners (routes : List CompiledL4Route) (c : CompiledL4Config) :
    (routes.foldl addRoute c).listeners = c.listeners := by
  induction routes generalizing c with
  | nil => rfl
  | cons r routes ih =>
    rw [foldl_cons, ih, addRoute]
    cases r.action <;> rfl

theorem mergedListener_id {key : String} {group : List CompiledListener} {c : CompiledListener}
    (h : mergedListener key group = some c) : c.id = key := by
  cases group with
  | nil => cases h
  | cons x xs =>
    cases h
    rfl

def mergedPairs (ω : IterOrder) (ir : RouteTable) : List (String × List CompiledListener) :=
  ω.order (mergeGroups ω (groupListeners (ir.listeners.map copyListener))).pairs

theorem mem_mergedPairs {ω : IterOrder} {ir : RouteTable} {key : String} {group : List CompiledListener} :
    (key, group) ∈ mergedPairs ω ir ↔ (mergeGroups ω (groupListeners (ir.listeners.map copyListener))).get key = some group := by
  rw [mergedPairs, (ω.order_perm _).mem_iff, HashMap.mem_pairs_iff]

theorem mem_merged_iff {ω : IterOrder} {ir : RouteTable} {c : CompiledListener} :
    c ∈ (mergedPairs ω ir).filterMap (fun e => mergedListener e.1 e.2)
      ↔ mergedListener c.id (socketListeners ω ir c.id) = some c := by
  rw [mem_filterMap]
  apply Iff.intro
  · intro h
    obtain ⟨⟨key, group⟩, he, hc⟩ := h
    rw [mergedListener_id hc, socketListeners, mem_mergedPairs.1 he]
    exact hc
  · intro h
    rw [socketListeners] at h
    cases hget : (mergeGroups ω (groupListeners (ir.listeners.map copyListener))).get c.id with
    | none =>
      rw [hget] at h
      cases h
    | some group =>
      rw [hget] at h
      exact ⟨(c.id, group), mem_mergedPairs.2 hget, h⟩

section Compiled

variable {ω : IterOrder} {ir : RouteTable} {config : CompiledL4Config} (h : compile ω ir = .ok config)
include h

theorem compile_eq_ok : config = (ir.l4Routes.map (compileRoute (listenerIdMap (mergedPairs ω ir)))).foldl addRoute
      { listeners := stableSort (fun a b => decide (a.id ≤ b.id))
          ((mergedPairs ω ir).filterMap fun e => mergedListener e.1 e.2) } := by
  obtain ⟨compiled, hcompiled, h⟩ := bind_ok h
  rw [mapM_compileListener hcompiled] at h
  exact (Except.ok.inj h).symm

theorem mem_listeners_iff {c : CompiledListener} :
    c ∈ config.listeners ↔ mergedListener c.id (socketListeners ω ir c.id) = some c := by
  rw [compile_eq_ok h, foldl_addRoute_listeners, mem_stableSort, mem_merged_iff]

end Compiled

end CompiledL4Config

/-! ## Client validation of a socket -/

/-- whose client validation a group of merged listeners ends up with: the first that insists on a certificate, otherwise
the first that has any settings -/
inductive Prevails : Option FrontendValidation → List CompiledListener → Prop
  | strict {v : FrontendValidation} {s t : List CompiledListener} {x : CompiledListener}
      (hx : x.frontendValidation = some v) (hstrict : v.allowInsecureFallback = false)
      (hs : ∀ y ∈ s, ∀ w, y.frontendValidation = some w → w.allowInsecureFallback = true) : Prevails (some v) (s ++ x :: t)
  | lenient {v : FrontendValidation} {s t : List CompiledListener} {x : CompiledListener}
      (hx : x.frontendValidation = some v) (hs : ∀ y ∈ s, y.frontendValidation = none)
      (hall : ∀ y ∈ s ++ x :: t, ∀ w, y.frontendValidation = some w → w.allowInsecureFallback = true) :
      Prevails (some v) (s ++ x :: t)
  | absent {group : List CompiledListener} (hnone : ∀ y ∈ group, y.frontendValidation = none) : Prevails none group

variable {group : List CompiledListener}

theorem find_strict_eq_none (h : ∀ y ∈ group, ∀ w, y.frontendValidation = some w → w.allowInsecureFallback = true) :
    (group.filterMap (·.frontendValidation)).find? (fun v => !v.allowInsecureFallback) = none := by
  refine find?_eq_none.2 fun w hw => ?_
  obtain ⟨y, hy, hyw⟩ := mem_filterMap.1 hw
  simp [h y hy w hyw]

variable {v : Option FrontendValidation}

theorem mergedValidation_of_prevails (h : Prevails v group) : mergedValidation group = v := by
  cases h with
  | @strict v s t x hx hstrict hs => simp [mergedValidation, hx, find_strict_eq_none hs, hstrict]
  | @lenient v s t x hx hs hall =>
    have hbefore := findSome?_eq_none_iff.2 hs
    simp only [mergedValidation, find_strict_eq_none hall, none_or, findSome?_append, hbefore, findSome?_cons, hx]
  | absent hnone =>
    have hvalues := filterMap_eq_nil_iff.2 hnone
    have hfirst := findSome?_eq_none_iff.2 hnone
    rw [mergedValidation, hvalues, hfirst]
    rfl

theorem exists_prevails (group : List CompiledListener) : ∃ v, Prevails v group := by
  cases hstrict : group.find? fun y => y.frontendValidation.any fun w => !w.allowInsecureFallback with
  | some x =>
    obtain ⟨hx, s, t, rfl, hs⟩ := find?_eq_some_iff_append.1 hstrict
    obtain ⟨v, hv, hvstrict⟩ := (any_eq_true _ _).1 hx
    refine ⟨some v, .strict hv (by simpa using hvstrict) fun y hy w hw => ?_⟩
    simpa [hw] using hs y hy
  | none =>
    have hall : ∀ y ∈ group, ∀ w, y.frontendValidation = some w → w.allowInsecureFallback = true := by
      intro y hy w hw
      simpa [hw] using find?_eq_none.1 hstrict y hy
    cases hany : group.find? fun y => y.frontendValidation.isSome with
    | some x =>
      obtain ⟨hx, s, t, rfl, hs⟩ := find?_eq_some_iff_append.1 hany
      obtain ⟨v, hv⟩ := isSome_iff_exists.1 hx
      exact ⟨some v, .lenient hv (fun y hy => by simpa using hs y hy) hall⟩
    | none => exact ⟨none, .absent fun y hy => by simpa using find?_eq_none.1 hany y hy⟩

theorem mergedValidation_iff : mergedValidation group = v ↔ Prevails v group := by
  refine ⟨fun h => ?_, mergedValidation_of_prevails⟩
  obtain ⟨w, hw⟩ := exists_prevails group
  rwa [← h, mergedValidation_of_prevails hw]

namespace CompiledL4Config

section Sockets

variable {ω : IterOrder} {ir : RouteTable} {config : CompiledL4Config} (h : compile ω ir = .ok config) {c : CompiledListener}
  (hc : c ∈ config.listeners)
include h hc

theorem exists_group : ∃ first rest, socketListeners ω ir c.id = first :: rest
    ∧ mergedListener c.id (first :: rest) = some c := by
  have hmerged := (mem_listeners_iff h).1 hc
  cases hgroup : socketListeners ω ir c.id with
  | nil =>
    rw [hgroup] at hmerged
    cases hmerged
  | cons first rest => exact ⟨first, rest, rfl, hgroup ▸ hmerged⟩

theorem of_mem_socketListeners {x : CompiledListener} (hx : x ∈ socketListeners ω ir c.id) :
    x.bindAddr = c.bindAddr ∧ x.protocol.isTls = c.protocol.isTls := by
  have hkey : ∀ y ∈ socketListeners ω ir c.id, ∀ z ∈ socketListeners ω ir c.id,
      y.bindAddr = z.bindAddr ∧ y.protocol.isTls = z.protocol.isTls := by
    intro y hy z hz
    exact canonicalKey_inj ((mem_socketListeners.1 hy).2.trans (mem_socketListeners.1 hz).2.symm)
  obtain ⟨first, rest, hgroup, hmerged⟩ := exists_group h hc
  rw [hgroup] at hx hkey
  obtain ⟨haddr, htls⟩ := hkey x hx first (mem_cons_self ..)
  rw [mergedListener, some.injEq] at hmerged
  rw [← hmerged]
  refine ⟨haddr, ?_⟩
  split_ifs with hany
  · obtain ⟨y, hy, hytls⟩ := any_eq_true.1 hany
    rw [(hkey x hx y hy).2, of_decide_eq_true hytls]
  · exact htls

theorem frontendValidation_socket : c.frontendValidation = mergedValidation (socketListeners ω ir c.id) := by
  obtain ⟨first, rest, hgroup, hmerged⟩ := exists_group h hc
  rw [mergedListener, some.injEq] at hmerged
  rw [hgroup, ← hmerged]

theorem mem_socketListeners_of_tls (hctls : c.protocol.isTls = true) {l : ListenerConfig} (hl : l ∈ ir.listeners)
    (hbind : l.bindAddr = c.bindAddr) (hltls : l.protocol.isTls = true) : copyListener l ∈ socketListeners ω ir c.id := by
  obtain ⟨first, rest, hgroup, -⟩ := exists_group h hc
  have hfirst : first ∈ socketListeners ω ir c.id := by
    rw [hgroup]
    exact mem_cons_self ..
  obtain ⟨haddr, htls⟩ := of_mem_socketListeners h hc hfirst
  obtain ⟨hmem, hkey⟩ := mem_socketListeners.1 hfirst
  refine mem_socketListeners.2 ⟨mem_map_of_mem hl, ?_⟩
  rw [← hkey]
  exact canonicalKey_eq_of_tls (mem_map_of_mem hl) hmem (hbind.trans haddr.symm) hltls (htls.trans hctls)

end Sockets

def socketKey (ir : RouteTable) (l : ListenerConfig) : String :=
  canonicalKey (groupListeners (ir.listeners.map copyListener)) l.bindAddr l.protocol

section Listeners

variable {ω : IterOrder} {ir : RouteTable} {config : CompiledL4Config} {l : ListenerConfig} (hl : l ∈ ir.listeners)
include hl

theorem mem_socketListeners_socketKey : copyListener l ∈ socketListeners ω ir (socketKey ir l) :=
  mem_socketListeners.2 ⟨mem_map_of_mem hl, rfl⟩

theorem exists_compiled (h : compile ω ir = .ok config) : ∃ c ∈ config.listeners, c.id = socketKey ir l := by
  have hin : copyListener l ∈ socketListeners ω ir (socketKey ir l) := mem_socketListeners_socketKey hl
  cases hgroup : socketListeners ω ir (socketKey ir l) with
  | nil =>
    rw [hgroup] at hin
    cases hin
  | cons first rest =>
    obtain ⟨c, hc⟩ := isSome_iff_exists.1 (rfl : (mergedListener (socketKey ir l) (first :: rest)).isSome = true)
    have hid := mergedListener_id hc
    refine ⟨c, (mem_listeners_iff h).2 ?_, hid⟩
    rw [hid, hgroup, hc]

end Listeners

end CompiledL4Config

end SunbeamProxy
