/-
Which listeners of a view the proxy listens on (`gateway/translate/l4.rs` against `gateway/translate/hostnames.rs`).
-/
import SunbeamProxy.Gateway.Translate

namespace SunbeamProxy.Gateway

open L4RouteState RouteHostnames List

/-! ## Listeners that are met -/

def metListeners (view : GatewayView) : List (GatewayState × ListenerState) :=
  view.tcpRoutes.flatMap (tcpSelected view) ++ view.udpRoutes.flatMap (udpSelected view)
    ++ view.tlsRoutes.flatMap (tlsSelected view) ++ httpsSelected view ++ listenersOf view "HTTP"

def metId (e : GatewayState × ListenerState) : String := listenerId e.1.namespace_ e.1.name e.2

def opensAs (id : String) (e : GatewayState × ListenerState) : Bool :=
  e.2.programmed && (listenerProtocolToIr e.2.protocol).isSome && metId e == id

theorem get_addL4Listener (listeners : IrListeners) (e : GatewayState × ListenerState) (id : String) :
    (addL4Listener listeners e).get id
      = (listeners.get id).or (if opensAs id e then (listenerProtocolToIr e.2.protocol).map (irListener e.1 e.2) else none) := by
  obtain ⟨gw, l⟩ := e
  have hadd : addL4Listener listeners (gw, l) = if l.programmed = true ∧ listeners.get (metId (gw, l)) = none then
          (listenerProtocolToIr l.protocol).elim listeners fun protocol =>
            listeners.insert (metId (gw, l)) (irListener gw l protocol)
        else listeners := by
    simp only [addL4Listener]
    by_cases hprogrammed : l.programmed = true
    · cases hget : listeners.get (listenerId gw.namespace_ gw.name l) with
      | none =>
        simp only [hprogrammed, metId, hget]
        cases listenerProtocolToIr l.protocol <;> rfl
      | some cfg => simp [metId, hget]
    · simp [hprogrammed]
  rw [hadd]
  by_cases hopen : l.programmed = true ∧ listeners.get (metId (gw, l)) = none
  · rw [if_pos hopen]
    cases hprotocol : listenerProtocolToIr l.protocol with
    | none => simp
    | some protocol =>
      by_cases hid : metId (gw, l) = id
      · subst hid
        simp [opensAs, hprotocol, hopen, HashMap.get_insert]
      · simp [opensAs, hid, HashMap.get_insert, Ne.symm hid]
  · rw [if_neg hopen]
    by_cases hid : metId (gw, l) = id
    · subst hid
      by_cases hprogrammed : l.programmed = true
      · cases hget : listeners.get (metId (gw, l)) with
        | none => exact absurd ⟨hprogrammed, hget⟩ hopen
        | some cfg => rfl
      · simp [opensAs, hprogrammed]
    · simp [opensAs, hid]

theorem get_foldl_addL4Listener (met : List (GatewayState × ListenerState)) (listeners : IrListeners) (id : String) :
    (met.foldl addL4Listener listeners).get id = (listeners.get id).or ((met.find? (opensAs id)).bind fun e =>
      (listenerProtocolToIr e.2.protocol).map (irListener e.1 e.2)) := by
  induction met generalizing listeners with
  | nil => simp
  | cons e met ih =>
    rw [foldl_cons, ih, get_addL4Listener, find?_cons]
    cases hopens : opensAs id e with
    | false => simp
    | true =>
      have hprotocol : (listenerProtocolToIr e.2.protocol).isSome := by
        simp only [opensAs, Bool.and_eq_true] at hopens
        exact hopens.1.2
      obtain ⟨protocol, hp⟩ := Option.isSome_iff_exists.1 hprotocol
      simp [hp]

variable {e : GatewayState × ListenerState} {id : String}

theorem opensAs_iff :
    opensAs id e = true ↔ e.2.programmed = true ∧ (listenerProtocolToIr e.2.protocol).isSome ∧ metId e = id := by
  simp [opensAs, and_assoc]

/-- **What is opened.** For each id the first programmed listener met. -/
theorem mem_openListeners_iff {met : List (GatewayState × ListenerState)} {cfg : ListenerConfig} :
    cfg ∈ openListeners met ↔ ∃ e protocol, met.find? (opensAs cfg.id) = some e
      ∧ listenerProtocolToIr e.2.protocol = some protocol ∧ irListener e.1 e.2 protocol = cfg := by
  have hget : ∀ id, (met.foldl addL4Listener ∅).get id = (met.find? (opensAs id)).bind fun e =>
      (listenerProtocolToIr e.2.protocol).map (irListener e.1 e.2) := by
    intro id
    rw [get_foldl_addL4Listener, HashMap.get_empty, Option.none_or]
  rw [openListeners, mem_stableSort, mem_map]
  apply Iff.intro
  · intro h
    obtain ⟨⟨id, cfg'⟩, hmem, rfl⟩ := h
    have hcfg := HashMap.mem_pairs_iff.1 hmem
    rw [hget] at hcfg
    obtain ⟨e, hfind, hmap⟩ := Option.bind_eq_some_iff.1 hcfg
    obtain ⟨protocol, hprotocol, hcfg⟩ := Option.map_eq_some_iff.1 hmap
    have hid : cfg'.id = id := by
      rw [← hcfg]
      exact (opensAs_iff.1 (find?_some hfind)).2.2
    exact ⟨e, protocol, by rwa [hid], hprotocol, hcfg⟩
  · intro h
    obtain ⟨e, protocol, hfind, hprotocol, hcfg⟩ := h
    refine ⟨(cfg.id, cfg), HashMap.mem_pairs_iff.2 ?_, rfl⟩
    rw [hget, hfind, Option.bind_some, hprotocol, Option.map_some, hcfg]

variable {view : GatewayView} {l : ListenerState} {gw : GatewayState}

theorem mem_listenersOf {protocol : String} :
    (gw, l) ∈ listenersOf view protocol ↔ gw ∈ view.gateways ∧ l ∈ gw.listeners ∧ l.protocol = protocol := by
  simp only [listenersOf, mem_flatMap, mem_map, mem_filter, beq_iff_eq, Prod.mk.injEq]
  apply Iff.intro
  · intro h
    obtain ⟨gw', hgw, l', hl, rfl, rfl⟩ := h
    exact ⟨hgw, hl⟩
  · intro h
    exact ⟨gw, h.1, l, h.2, rfl, rfl⟩

theorem mem_metListeners : (gw, l) ∈ metListeners view
      ↔ (∃ route ∈ view.tcpRoutes, route.programmed = true ∧ Reaches view route "TCP" gw l)
        ∨ (∃ route ∈ view.udpRoutes, route.programmed = true ∧ Reaches view route "UDP" gw l)
        ∨ (∃ route ∈ view.tlsRoutes, route.programmed = true ∧ Reaches view route "TLS" gw l ∧ SharesName route l)
        ∨ (gw ∈ view.gateways ∧ l ∈ gw.listeners ∧ l.protocol = "HTTPS"
          ∧ listenerId gw.namespace_ gw.name l ∈ attachedListenerIds view)
        ∨ (gw ∈ view.gateways ∧ l ∈ gw.listeners ∧ l.protocol = "HTTP") := by
  have htcp : ∀ route, (gw, l) ∈ tcpSelected view route ↔ route.programmed = true ∧ Reaches view route "TCP" gw l := by
    intro route
    rw [tcpSelected, ← mem_selectedListeners]
    split <;> simp [*]
  have hudp : ∀ route, (gw, l) ∈ udpSelected view route ↔ route.programmed = true ∧ Reaches view route "UDP" gw l := by
    intro route
    rw [udpSelected, ← mem_selectedListeners]
    split <;> simp [*]
  simp only [metListeners, mem_append, mem_flatMap, htcp, hudp, mem_tlsSelected, httpsSelected, mem_filter,
    mem_listenersOf, contains_iff_mem, or_assoc, and_assoc]

theorem forall_metListeners_iff {P : GatewayState → ListenerState → Prop} : (∀ e ∈ metListeners view, P e.1 e.2)
      ↔ (∀ route ∈ view.tcpRoutes, route.programmed = true → ∀ gw l, Reaches view route "TCP" gw l → P gw l)
        ∧ (∀ route ∈ view.udpRoutes, route.programmed = true → ∀ gw l, Reaches view route "UDP" gw l → P gw l)
        ∧ (∀ route ∈ view.tlsRoutes, route.programmed = true → ∀ gw l, Reaches view route "TLS" gw l → SharesName route l →
          P gw l)
        ∧ (∀ gw ∈ view.gateways, ∀ l ∈ gw.listeners, l.protocol = "HTTPS" →
          listenerId gw.namespace_ gw.name l ∈ attachedListenerIds view → P gw l)
        ∧ ∀ gw ∈ view.gateways, ∀ l ∈ gw.listeners, l.protocol = "HTTP" → P gw l := by
  apply Iff.intro
  · intro h
    refine ⟨?_, ?_, ?_, ?_, ?_⟩
    · intro route hroute hp gw l hr
      exact h (gw, l) (mem_metListeners.2 (.inl ⟨route, hroute, hp, hr⟩))
    · intro route hroute hp gw l hr
      exact h (gw, l) (mem_metListeners.2 (.inr (.inl ⟨route, hroute, hp, hr⟩)))
    · intro route hroute hp gw l hr hname
      exact h (gw, l) (mem_metListeners.2 (.inr (.inr (.inl ⟨route, hroute, hp, hr, hname⟩))))
    · intro gw hgw l hl hprotocol hid
      exact h (gw, l) (mem_metListeners.2 (.inr (.inr (.inr (.inl ⟨hgw, hl, hprotocol, hid⟩)))))
    · intro gw hgw l hl hprotocol
      exact h (gw, l) (mem_metListeners.2 (.inr (.inr (.inr (.inr ⟨hgw, hl, hprotocol⟩)))))
  · intro h e he
    obtain ⟨htcp, hudp, htls, hhttps, hhttp⟩ := h
    rcases mem_metListeners.1 he with ⟨route, hroute, hp, hr⟩ | ⟨route, hroute, hp, hr⟩ | ⟨route, hroute, hp, hr, hname⟩
      | ⟨hgw, hl, hprotocol, hid⟩ | ⟨hgw, hl, hprotocol⟩
    · exact htcp route hroute hp _ _ hr
    · exact hudp route hroute hp _ _ hr
    · exact htls route hroute hp _ _ hr hname
    · exact hhttps _ hgw _ hl hprotocol hid
    · exact hhttp _ hgw _ hl hprotocol

theorem forall_l4Routes_listenerId (view : GatewayView) (P : String → Prop) :
    (∀ r ∈ (translateL4Routes view).2, P r.listenerId) ↔ ∀ e ∈ metListeners view, P (metId e) := by
  simp only [translateL4Routes, metListeners, forall_mem_append, forall_mem_flatMap]
  refine and_congr (and_congr (and_congr (and_congr ?_ ?_) ?_) ?_) ?_
  · refine forall₂_congr fun route _ => ?_
    rw [tcpL4Routes, tcpSelected]
    split
    · rw [l4RoutesForParents, forall_mem_map]
      rfl
    · simp
  · refine forall₂_congr fun route _ => ?_
    rw [udpL4Routes, udpSelected]
    split
    · rw [l4RoutesForParents, forall_mem_map]
      rfl
    · simp
  · refine forall₂_congr fun route _ => ?_
    rw [forall_tlsL4Routes]
    apply Iff.intro
    · intro h e he
      obtain ⟨hprogrammed, hreaches, hname⟩ := mem_tlsSelected.1 he
      exact h hprogrammed e.1 e.2 hreaches hname
    · intro h hprogrammed gw l hreaches hname
      exact h (gw, l) (mem_tlsSelected.2 ⟨hprogrammed, hreaches, hname⟩)
  · rw [httpsL4Routes, forall_mem_map]
    rfl
  · rw [httpL4Routes, forall_mem_map]
    rfl

/-- the route hands connections to the HTTP proxy, after TLS or as they are -/
def L4Action.relaysToHttp (a : L4Action) : Prop := a = .terminateAndHttp httpTarget ∨ a = .httpRelay httpTarget

theorem exists_relay_iff {h : SunbeamProxy.HostnameMatch} :
    (∃ r ∈ (translateL4Routes view).2, r.listenerId = id ∧ L4Action.relaysToHttp r.action ∧ r.listenerHostname = h)
      ↔ ∃ e ∈ httpsSelected view ++ listenersOf view "HTTP", metId e = id ∧ irListenerHostname e.2 = h := by
  have hplain : ∀ {S : Type} [L4RouteState S] (route : S) (protocol : String) (action : L4Action),
      ¬L4Action.relaysToHttp action → ∀ r ∈ l4RoutesForParents view.gateways route protocol action,
        ¬L4Action.relaysToHttp r.action := by
    intro S _ route protocol action haction r hr
    obtain ⟨e, -, rfl⟩ := mem_map.1 hr
    exact haction
  apply Iff.intro
  · intro hr
    obtain ⟨r, hr, hid, hrelay, hhost⟩ := hr
    simp only [translateL4Routes, mem_append, mem_flatMap] at hr
    rcases hr with (((⟨route, -, hr⟩ | ⟨route, -, hr⟩) | ⟨route, -, hr⟩) | hr) | hr
    · rw [tcpL4Routes] at hr
      split at hr
      · exact absurd hrelay (hplain route "TCP" _ (by simp [L4Action.relaysToHttp]) r hr)
      · cases hr
    · rw [udpL4Routes] at hr
      split at hr
      · exact absurd hrelay (hplain route "UDP" _ (by simp [L4Action.relaysToHttp]) r hr)
      · cases hr
    · simp only [tlsL4Routes, mem_flatMap, mem_map] at hr
      obtain ⟨e, -, name, -, rfl⟩ := hr
      split at hrelay <;> rcases hrelay with hrelay | hrelay <;> cases hrelay
    · obtain ⟨e, he, rfl⟩ := mem_map.1 hr
      exact ⟨e, mem_append_left _ he, hid, hhost⟩
    · obtain ⟨e, he, rfl⟩ := mem_map.1 hr
      exact ⟨e, mem_append_right _ he, hid, hhost⟩
  · intro he
    obtain ⟨e, he, hid, hhost⟩ := he
    rcases mem_append.1 he with he | he
    · refine ⟨_, mem_append_left _ (mem_append_right _ (mem_map.2 ⟨e, he, rfl⟩)), hid, .inl rfl, hhost⟩
    · exact ⟨_, mem_append_right _ (mem_map.2 ⟨e, he, rfl⟩), hid, .inr rfl, hhost⟩

/-- an entry of the route's effective host names is made for the listener -/
def NamesListener {R : Type} [RouteHostnames R] (view : GatewayView) (route : R) (routeKind id : String) (l : ListenerState) :
    Prop :=
  ∃ e ∈ computeEffectiveHostnames view route routeKind, e.listenerId = some id ∧ ∃ parent ∈ routeParentRefs route,
    l ∈ attachedListeners view route routeKind parent ∧ ∃ cert, ∃ m ∈ attachedHostnames route l,
      e = listenerEntry route parent cert l m

def AttachedTo (view : GatewayView) (id : String) (l : ListenerState) : Prop :=
  (∃ route ∈ view.httpRoutes, NamesListener view route "HTTPRoute" id l)
    ∨ ∃ route ∈ view.grpcRoutes, NamesListener view route "GRPCRoute" id l

theorem exists_namesListener_iff {R : Type} [RouteHostnames R] {route : R} {routeKind : String} :
    (∃ l, NamesListener view route routeKind id l)
      ↔ id ∈ (computeEffectiveHostnames view route routeKind).filterMap (·.listenerId) := by
  rw [mem_filterMap]
  apply Iff.intro
  · intro h
    obtain ⟨l, e, he, hid, -⟩ := h
    exact ⟨e, he, hid⟩
  · intro h
    obtain ⟨e, he, hid⟩ := h
    obtain ⟨parent, hparent, hentry⟩ := mem_flatMap.1 he
    rcases mem_parentEntries hentry with ⟨l, hl, cert, m, hm, heq⟩ | ⟨m, heq, -⟩
    · exact ⟨l, e, he, hid, parent, hparent, hl, cert, m, hm, heq⟩
    · rw [heq] at hid
      cases hid

theorem mem_attachedListenerIds_iff : id ∈ attachedListenerIds view ↔ ∃ l, AttachedTo view id l := by
  simp only [attachedListenerIds, mem_append, mem_flatMap, ← exists_namesListener_iff]
  apply Iff.intro
  · intro h
    rcases h with ⟨route, hroute, l, h⟩ | ⟨route, hroute, l, h⟩
    · exact ⟨l, .inl ⟨route, hroute, h⟩⟩
    · exact ⟨l, .inr ⟨route, hroute, h⟩⟩
  · intro h
    obtain ⟨l, ⟨route, hroute, h⟩ | ⟨route, hroute, h⟩⟩ := h
    · exact .inl ⟨route, hroute, l, h⟩
    · exact .inr ⟨route, hroute, l, h⟩

theorem AttachedTo.owner (h : AttachedTo view id l) :
    (∃ gw ∈ view.gateways, l ∈ gw.listeners ∧ metId (gw, l) = id ∧ l.programmed = true)
      ∨ ∃ ls ∈ view.listenerSets, l ∈ ls.listeners ∧ listenerId ls.namespace_ ls.name l = id := by
  have hnamed : ∀ {R : Type} [RouteHostnames R] (route : R) (routeKind : String), NamesListener view route routeKind id l →
      (∃ gw ∈ view.gateways, l ∈ gw.listeners ∧ metId (gw, l) = id ∧ l.programmed = true)
        ∨ ∃ ls ∈ view.listenerSets, l ∈ ls.listeners ∧ listenerId ls.namespace_ ls.name l = id := by
    intro R _ route routeKind hnames
    obtain ⟨e, -, hid, parent, -, hl, cert, m, -, rfl⟩ := hnames
    have hid := Option.some.inj hid
    rcases (mem_parentListeners (mem_attachedListeners hl).1).2 with
      ⟨-, hprogrammed, gw, hgw, hns, hname, hmem⟩ | ⟨ls, -, hls, hns, hname, -, hmem⟩
    · exact .inl ⟨gw, hgw, hmem, by rw [metId, hns, hname, hid], hprogrammed⟩
    · exact .inr ⟨ls, hls, hmem, by rw [hns, hname, hid]⟩
  rcases h with ⟨route, -, h⟩ | ⟨route, -, h⟩
  · exact hnamed route "HTTPRoute" h
  · exact hnamed route "GRPCRoute" h

/-! ## Served listeners -/

/-- the table binds the listener's socket and relays it to the HTTP proxy -/
def Served (table : RouteTable) (id : String) (l : ListenerState) : Prop :=
  (∃ cfg ∈ table.listeners, cfg.id = id ∧ cfg.bindAddr = listenerBindAddr l.port
      ∧ listenerProtocolToIr l.protocol = some cfg.protocol)
    ∧ ∃ r ∈ table.l4Routes, r.listenerId = id ∧ L4Action.relaysToHttp r.action ∧ r.listenerHostname = irListenerHostname l

/-- every listener a route is attached to is served, and every L4 route names a listener of the table -/
structure TableServes (view : GatewayView) : Prop where
  attached : ∀ id l, AttachedTo view id l → Served (translateViewToIr view) id l
  open_ : ∀ r ∈ (translateViewToIr view).l4Routes, ∃ cfg ∈ (translateViewToIr view).listeners, cfg.id = r.listenerId

/-- the first programmed listener met with an id is the one a route is attached to, as far as port and protocol go, an HTTP or
HTTPS listener of a Gateway has the id and its hostname, and every id that is met is met programmed -/
structure ServedByMet (view : GatewayView) : Prop where
  first : ∀ id l, AttachedTo view id l → ∃ e, (metListeners view).find? (opensAs id) = some e
    ∧ e.2.port = l.port ∧ e.2.protocol = l.protocol
  relay : ∀ id l, AttachedTo view id l → ∃ gw ∈ view.gateways, ∃ l' ∈ gw.listeners, metId (gw, l') = id
    ∧ (l'.protocol = "HTTPS" ∨ l'.protocol = "HTTP") ∧ irListenerHostname l' = irListenerHostname l
  programmed : ∀ e ∈ metListeners view, ∃ e' ∈ metListeners view, metId e' = metId e ∧ e'.2.programmed = true

theorem listenerProtocolToIr_inj {p q : String} {protocol : Protocol} (hp : listenerProtocolToIr p = some protocol)
    (hq : listenerProtocolToIr q = some protocol) : p = q := by
  unfold listenerProtocolToIr at hp hq
  split at hp <;> cases hp <;> split at hq <;> first | rfl | cases hq

theorem metListeners_protocol (h : e ∈ metListeners view) : (listenerProtocolToIr e.2.protocol).isSome := by
  rcases mem_metListeners.1 h with ⟨_, -, -, hr⟩ | ⟨_, -, -, hr⟩ | ⟨_, -, -, hr, -⟩ | ⟨-, -, hp, -⟩ | ⟨-, -, hp⟩
  · obtain ⟨_, -, -, -, hp, -⟩ := hr
    rw [hp]; rfl
  · obtain ⟨_, -, -, -, hp, -⟩ := hr
    rw [hp]; rfl
  · obtain ⟨_, -, -, -, hp, -⟩ := hr
    rw [hp]; rfl
  · rw [hp]; rfl
  · rw [hp]; rfl

theorem exists_opened_iff : (∃ cfg ∈ (translateViewToIr view).listeners, cfg.id = id)
      ↔ ∃ e ∈ metListeners view, metId e = id ∧ e.2.programmed = true := by
  apply Iff.intro
  · intro h
    obtain ⟨cfg, hcfg, rfl⟩ := h
    obtain ⟨e, protocol, hfind, -⟩ := mem_openListeners_iff.1 hcfg
    have hopens := opensAs_iff.1 (find?_some hfind)
    exact ⟨e, mem_of_find?_eq_some hfind, hopens.2.2, hopens.1⟩
  · intro h
    obtain ⟨e, he, hid, hprogrammed⟩ := h
    have hsome := find?_isSome.2 ⟨e, he, opensAs_iff.2 ⟨hprogrammed, metListeners_protocol he, hid⟩⟩
    obtain ⟨e', hfind⟩ := Option.isSome_iff_exists.1 hsome
    have hopens := opensAs_iff.1 (find?_some hfind)
    obtain ⟨protocol, hprotocol⟩ := Option.isSome_iff_exists.1 hopens.2.1
    have hid' : (irListener e'.1 e'.2 protocol).id = id := hopens.2.2
    exact ⟨irListener e'.1 e'.2 protocol, mem_openListeners_iff.2 ⟨e', protocol, hid'.symm ▸ hfind, hprotocol, rfl⟩, hid'⟩

theorem exists_socket_iff : (∃ cfg ∈ (translateViewToIr view).listeners, cfg.id = id ∧ cfg.bindAddr = listenerBindAddr l.port
        ∧ listenerProtocolToIr l.protocol = some cfg.protocol)
      ↔ ∃ e, (metListeners view).find? (opensAs id) = some e ∧ e.2.port = l.port ∧ e.2.protocol = l.protocol := by
  apply Iff.intro
  · intro h
    obtain ⟨cfg, hcfg, rfl, haddr, hprotocol⟩ := h
    obtain ⟨e, protocol, hfind, he, heq⟩ := mem_openListeners_iff.1 hcfg
    rw [← heq] at haddr hprotocol
    exact ⟨e, hfind, listenerBindAddr_inj haddr, listenerProtocolToIr_inj he hprotocol⟩
  · intro h
    obtain ⟨e, hfind, hport, hprotocol⟩ := h
    have hopens := opensAs_iff.1 (find?_some hfind)
    obtain ⟨protocol, he⟩ := Option.isSome_iff_exists.1 hopens.2.1
    have hid : (irListener e.1 e.2 protocol).id = id := hopens.2.2
    refine ⟨irListener e.1 e.2 protocol, mem_openListeners_iff.2 ⟨e, protocol, hid.symm ▸ hfind, he, rfl⟩, hid, ?_, ?_⟩
    · rw [← hport]
      rfl
    · rw [← hprotocol]
      exact he

theorem exists_relay_of_attached (h : AttachedTo view id l) :
    (∃ r ∈ (translateViewToIr view).l4Routes, r.listenerId = id ∧ L4Action.relaysToHttp r.action
        ∧ r.listenerHostname = irListenerHostname l)
      ↔ ∃ gw ∈ view.gateways, ∃ l' ∈ gw.listeners, metId (gw, l') = id
        ∧ (l'.protocol = "HTTPS" ∨ l'.protocol = "HTTP") ∧ irListenerHostname l' = irListenerHostname l := by
  have hattached := mem_attachedListenerIds_iff.2 ⟨l, h⟩
  have hrelay : ∀ gw l', metId (gw, l') = id → ((gw, l') ∈ httpsSelected view ++ listenersOf view "HTTP"
      ↔ gw ∈ view.gateways ∧ l' ∈ gw.listeners ∧ (l'.protocol = "HTTPS" ∨ l'.protocol = "HTTP")) := by
    intro gw l' hid
    have hcontains : (attachedListenerIds view).contains (listenerId gw.namespace_ gw.name l') = true := by
      have hid : listenerId gw.namespace_ gw.name l' = id := hid
      rw [contains_iff_mem, hid]
      exact hattached
    simp only [mem_append, httpsSelected, mem_filter, mem_listenersOf]
    simp only [hcontains, and_true, ← and_or_left]
  refine exists_relay_iff.trans ?_
  apply Iff.intro
  · intro he
    obtain ⟨⟨gw, l'⟩, he, hid, hhost⟩ := he
    obtain ⟨hgw, hl, hprotocol⟩ := (hrelay gw l' hid).1 he
    exact ⟨gw, hgw, l', hl, hid, hprotocol, hhost⟩
  · intro he
    obtain ⟨gw, hgw, l', hl, hid, hprotocol, hhost⟩ := he
    exact ⟨(gw, l'), (hrelay gw l' hid).2 ⟨hgw, hl, hprotocol⟩, hid, hhost⟩

theorem tableServes_iff (view : GatewayView) : TableServes view ↔ ServedByMet view := by
  have hopen : (∀ r ∈ (translateViewToIr view).l4Routes, ∃ cfg ∈ (translateViewToIr view).listeners, cfg.id = r.listenerId)
      ↔ ∀ e ∈ metListeners view, ∃ e' ∈ metListeners view, metId e' = metId e ∧ e'.2.programmed = true := by
    simp only [exists_opened_iff]
    exact forall_l4Routes_listenerId view fun id => ∃ e ∈ metListeners view, metId e = id ∧ e.2.programmed = true
  apply Iff.intro
  · intro h
    refine ⟨fun id l hl => ?_, fun id l hl => ?_, hopen.1 h.open_⟩
    · exact exists_socket_iff.1 (h.attached id l hl).1
    · exact (exists_relay_of_attached hl).1 (h.attached id l hl).2
  · intro h
    refine ⟨fun id l hl => ⟨?_, ?_⟩, hopen.2 h.programmed⟩
    · exact exists_socket_iff.2 (h.first id l hl)
    · exact (exists_relay_of_attached hl).2 (h.relay id l hl)

/-- ids tell the listeners of a view apart -/
structure UniqueIds (view : GatewayView) : Prop where
  gateways : ∀ gw ∈ view.gateways, ∀ l ∈ gw.listeners, ∀ gw' ∈ view.gateways, ∀ l' ∈ gw'.listeners,
    metId (gw', l') = metId (gw, l) → l' = l
  sets : ∀ gw ∈ view.gateways, ∀ l ∈ gw.listeners, ∀ ls ∈ view.listenerSets, ∀ l' ∈ ls.listeners,
    listenerId ls.namespace_ ls.name l' ≠ metId (gw, l)

structure OnlyHttpGateways (view : GatewayView) : Prop where
  attached : ∀ id l, AttachedTo view id l →
    (∃ gw ∈ view.gateways, l ∈ gw.listeners ∧ metId (gw, l) = id) ∧ (l.protocol = "HTTPS" ∨ l.protocol = "HTTP")
  http : ∀ gw ∈ view.gateways, ∀ l ∈ gw.listeners, l.protocol = "HTTP" → l.programmed = true
  tcp : ∀ route ∈ view.tcpRoutes, route.programmed = true → ∀ gw l, Reaches view route "TCP" gw l → l.programmed = true
  udp : ∀ route ∈ view.udpRoutes, route.programmed = true → ∀ gw l, Reaches view route "UDP" gw l → l.programmed = true
  tls : ∀ route ∈ view.tlsRoutes, route.programmed = true → ∀ gw l, Reaches view route "TLS" gw l → SharesName route l →
    l.programmed = true

theorem metListeners_owner (h : (gw, l) ∈ metListeners view) : gw ∈ view.gateways ∧ l ∈ gw.listeners := by
  have hreach : ∀ {S : Type} [L4RouteState S] (route : S) (protocol : String), Reaches view route protocol gw l →
      gw ∈ view.gateways ∧ l ∈ gw.listeners := by
    intro S _ route protocol hr
    obtain ⟨parent, -, hfind, hl, -⟩ := hr
    exact ⟨mem_of_find?_eq_some hfind, hl⟩
  rcases mem_metListeners.1 h with ⟨_, -, -, hr⟩ | ⟨_, -, -, hr⟩ | ⟨_, -, -, hr, -⟩ | ⟨hgw, hl, -⟩ | ⟨hgw, hl, -⟩
  · exact hreach _ _ hr
  · exact hreach _ _ hr
  · exact hreach _ _ hr
  · exact ⟨hgw, hl⟩
  · exact ⟨hgw, hl⟩

theorem programmed_of_same_id (hunique : UniqueIds view) {e' : GatewayState × ListenerState}
    (he : e ∈ metListeners view) (he' : e' ∈ metListeners view) (hid : metId e' = metId e)
    (hprogrammed : e'.2.programmed = true) : e.2.programmed = true := by
  obtain ⟨hgw, hl⟩ := metListeners_owner he
  obtain ⟨hgw', hl'⟩ := metListeners_owner he'
  rw [← hunique.gateways _ hgw _ hl _ hgw' _ hl' hid]
  exact hprogrammed

theorem OnlyHttpGateways.of_served (hunique : UniqueIds view) (h : ServedByMet view) : OnlyHttpGateways view := by
  have hprogrammed : ∀ e ∈ metListeners view, e.2.programmed = true := by
    intro e he
    obtain ⟨e', he', hid, hp⟩ := h.programmed e he
    exact programmed_of_same_id hunique he he' hid hp
  obtain ⟨htcp, hudp, htls, -, hhttp⟩ := (forall_metListeners_iff (P := fun _ l => l.programmed = true)).1 hprogrammed
  refine ⟨?_, hhttp, htcp, hudp, htls⟩
  intro id l hl
  obtain ⟨gw, hgw, l', hl', hid, hprotocol, -⟩ := h.relay id l hl
  -- the listener of the Gateway and the one the route is attached to are the same
  rcases hl.owner with ⟨gw₁, hgw₁, hl₁, hid₁, -⟩ | ⟨ls, hls, hl₁, hid₁⟩
  · have hsame := hunique.gateways gw₁ hgw₁ l hl₁ gw hgw l' hl' (hid.trans hid₁.symm)
    exact ⟨⟨gw₁, hgw₁, hl₁, hid₁⟩, hsame ▸ hprotocol⟩
  · exact absurd (hid₁.trans hid.symm) (hunique.sets gw hgw l' hl' ls hls l hl₁)

theorem OnlyHttpGateways.met (hunique : UniqueIds view) (h : OnlyHttpGateways view) (hl : AttachedTo view id l) :
    ∃ gw, (gw, l) ∈ metListeners view ∧ metId (gw, l) = id ∧ l.programmed = true := by
  obtain ⟨⟨gw, hgw, hmem, hid⟩, hprotocol⟩ := h.attached id l hl
  have hprogrammed : l.programmed = true := by
    rcases hl.owner with ⟨gw₁, hgw₁, hl₁, hid₁, hp⟩ | ⟨ls, hls, hl₁, hid₁⟩
    · exact hp
    · exact absurd (hid₁.trans hid.symm) (hunique.sets gw hgw l hmem ls hls l hl₁)
  have hid' : listenerId gw.namespace_ gw.name l = id := hid
  refine ⟨gw, mem_metListeners.2 ?_, hid, hprogrammed⟩
  rcases hprotocol with hprotocol | hprotocol
  · exact .inr (.inr (.inr (.inl ⟨hgw, hmem, hprotocol, hid' ▸ mem_attachedListenerIds_iff.2 ⟨l, hl⟩⟩)))
  · exact .inr (.inr (.inr (.inr ⟨hgw, hmem, hprotocol⟩)))

theorem ServedByMet.of_onlyHttpGateways (hunique : UniqueIds view) (h : OnlyHttpGateways view) : ServedByMet view := by
  refine ⟨?_, ?_, ?_⟩
  · intro id l hl
    obtain ⟨gw, he, hid, hprogrammed⟩ := h.met hunique hl
    have hsome := find?_isSome.2 ⟨(gw, l), he, opensAs_iff.2 ⟨hprogrammed, metListeners_protocol he, hid⟩⟩
    obtain ⟨⟨gw', l'⟩, hfind⟩ := Option.isSome_iff_exists.1 hsome
    obtain ⟨hgw, hmem⟩ := metListeners_owner he
    obtain ⟨hgw', hmem'⟩ := metListeners_owner (mem_of_find?_eq_some hfind)
    have hid' := (opensAs_iff.1 (find?_some hfind)).2.2
    have hsame := hunique.gateways gw hgw l hmem gw' hgw' l' hmem' (hid'.trans hid.symm)
    exact ⟨(gw', l'), hfind, congrArg ListenerState.port hsame, congrArg ListenerState.protocol hsame⟩
  · intro id l hl
    obtain ⟨⟨gw, hgw, hmem, hid⟩, hprotocol⟩ := h.attached id l hl
    exact ⟨gw, hgw, l, hmem, hid, hprotocol, rfl⟩
  · have hprogrammed : ∀ e ∈ metListeners view, e.2.programmed = true := by
      refine (forall_metListeners_iff (P := fun _ l => l.programmed = true)).2 ⟨h.tcp, h.udp, h.tls, ?_, h.http⟩
      intro gw hgw l hmem hprotocol hid
      obtain ⟨l', hl'⟩ := mem_attachedListenerIds_iff.1 hid
      obtain ⟨gw', he', hid', hp⟩ := h.met hunique hl'
      have he := mem_metListeners.2 (.inr (.inr (.inr (.inl ⟨hgw, hmem, hprotocol, hid⟩))))
      exact programmed_of_same_id hunique he he' hid' hp
    intro e he
    exact ⟨e, he, rfl, hprogrammed e he⟩

/-- **Attached listeners are served**, and no L4 route names one that is not open, exactly when what the translation meets covers
them; in a view without two listeners of one id, when routes are attached to HTTP and HTTPS listeners of Gateways only and what is
met is programmed. -/
theorem attached_listeners_served_iff (view : GatewayView) :
    (TableServes view ↔ ServedByMet view) ∧ (UniqueIds view → (TableServes view ↔ OnlyHttpGateways view)) :=
  ⟨tableServes_iff view, fun hunique => (tableServes_iff view).trans ⟨.of_served hunique, .of_onlyHttpGateways hunique⟩⟩

def cartRoute : HTTPRouteState :=
  { namespace_ := "shop", name := "cart", hostnames := [.exact "shop.example"]
    parentRefs := [{ kind := "ListenerSet", name := "extra" }] }

def listenerSetView : GatewayView :=
  { listenerSets := [{ namespace_ := "shop", name := "extra", listeners := [{ name := "web", port := 8080 }] }]
    httpRoutes := [cartRoute] }

theorem listener_set_not_served :
    (translateViewToIr listenerSetView).hosts.map (fun h => (h.hostname, h.listenerPort)) = [(.exact "shop.example", some 8080)]
      ∧ (translateViewToIr listenerSetView).listeners = [] ∧ (translateViewToIr listenerSetView).l4Routes = []
      ∧ ¬TableServes listenerSetView := by
  have hlisteners : (translateViewToIr listenerSetView).listeners = [] := by decide
  refine ⟨by decide, hlisteners, by decide, ?_⟩
  intro h
  have hid : "shop/extra/web" ∈ attachedListenerIds listenerSetView := by decide
  obtain ⟨l, hl⟩ := mem_attachedListenerIds_iff.1 hid
  obtain ⟨cfg, hcfg, -⟩ := (h.attached _ l hl).1
  cases hcfg

end SunbeamProxy.Gateway
