/-
TCP, UDP and TLS routes: their reconciliation (`gateway/reconcile/l4route/`) and their translation to L4 routes of the IR
(`gateway/translate/l4.rs`).
-/
import SunbeamProxy.Gateway.References

namespace SunbeamProxy.Gateway

open Text List

structure ParsedL4Route where
  namespace_ : String
  name : String
  generation : ℤ := 0
  hostnames : List HostnameMatch := []
  parentRefs : List ParsedParentRef := []
  backends : List BackendRef := []

structure L4ParentStatus where
  parentRef : ParentRef
  conditions : List StatusCondition
deriving DecidableEq, Repr

structure ReconciledL4Route where
  parentRefs : List ParentRef
  hostnames : List HostnameMatch
  programmed : Bool
  parentStatuses : List L4ParentStatus
deriving DecidableEq, Repr

structure ReconcileContext where
  gateways : List GatewayState := []
  namespaceLabels : NamespaceLabels := ∅
  listenerAllowed : ListenerAllowedMap := ∅

variable (ctx : ReconcileContext)

def l4ParentQuery (route : ParsedL4Route) (routeKind : String) (protocols : List String)
    (parsed : ParsedParentRef) (gw : GatewayState) : ParentQuery :=
  { parsed, routeNs := route.namespace_, observedGeneration := route.generation, routeHostnames := route.hostnames,
    listeners := gw.listeners, namespaceLabels := ctx.namespaceLabels, allowedMap := ctx.listenerAllowed,
    targetNs := parsed.namespace_.getD route.namespace_, ownerName := parsed.name, routeKind,
    expectedProtocols := some protocols }

def findGateway (gateways : List GatewayState) (ns name : String) : Option GatewayState :=
  gateways.find? fun g => g.namespace_ == ns && g.name == name

def resolveL4ParentRef (route : ParsedL4Route) (routeKind : String) (protocols : List String)
    (parsed : ParsedParentRef) : Option ParentRef × List StatusCondition :=
  let targetNs := parsed.namespace_.getD route.namespace_
  if parsed.group ≠ gatewayGroup ∨ parsed.kind ≠ "Gateway" then
    (none, [acceptedCondition .false "UnsupportedValue"
      ("parentRef group " ++ parsed.group ++ " kind " ++ parsed.kind ++ " is not supported") route.generation])
  else
    match findGateway ctx.gateways targetNs parsed.name with
    | none => (none, [acceptedCondition .false "NoMatchingParent"
        ("Gateway " ++ targetNs ++ "/" ++ parsed.name ++ " not found") route.generation])
    | some gw => resolveListenerParent (l4ParentQuery ctx route routeKind protocols parsed gw)

def statusParentRef (route : ParsedL4Route) (parsed : ParsedParentRef) : ParentRef :=
  { namespace_ := some (parsed.namespace_.getD route.namespace_), name := parsed.name, sectionName := parsed.sectionName,
    port := parsed.port.map fun p => UInt16.ofNat (p % 65536).toNat }

def parentStatus (route : ParsedL4Route) (parsed : ParsedParentRef) (resolved : Option ParentRef × List StatusCondition) :
    Option L4ParentStatus :=
  match resolved.1 with
  | some ref => some ⟨ref, resolved.2⟩
  | none => if resolved.2.isEmpty then none else some ⟨statusParentRef route parsed, resolved.2⟩

def L4ParentStatus.refused (ps : L4ParentStatus) : Bool :=
  ps.conditions.any fun c => c.conditionType = .accepted && c.status = .false

def reconcileL4Route (routeKind : String) (protocols : List String) (route : ParsedL4Route) :
    ReconciledL4Route :=
  let resolve := resolveL4ParentRef ctx route routeKind protocols
  let statuses := route.parentRefs.filterMap fun parsed => parentStatus route parsed (resolve parsed)
  let accepted := !statuses.isEmpty && !statuses.any (·.refused)
  let condition := if accepted then
      programmedCondition .true "Programmed" "Route programmed into proxy" route.generation
    else programmedCondition .false "NotProgrammed" "Route not programmed into proxy" route.generation
  { parentRefs := route.parentRefs.filterMap fun parsed => (resolve parsed).1
    hostnames := route.hostnames
    programmed := accepted
    parentStatuses := statuses.map fun ps => { ps with conditions := ps.conditions ++ [condition] } }

def resolveL4Backends (serviceExists : String → String → Bool) (index : GrantIndex) (routeNs routeKind : String)
    (generation : ℤ) (backends : List BackendRef) : List WeightedBackend × Option StatusCondition :=
  let failed (reason message : String) : StatusCondition := ⟨.resolvedRefs, .false, reason, message, generation⟩
  let failure (b : BackendRef) : Option StatusCondition :=
    match checkBackendPermitted b routeNs routeKind index with
    | some (.unsupported msg) => some (failed "InvalidKind" msg)
    | some status => some (failed "RefNotPermitted" status.message)
    | none =>
      if serviceExists (b.targetNs routeNs) b.name then none
      else some (failed "BackendNotFound" ("Service " ++ b.targetNs routeNs ++ "/" ++ b.name ++ " not found"))
  (backends.filterMap fun b => if (failure b).isSome then none else
      some { backend := serviceAddress b.name (b.targetNs routeNs) (b.port.getD 0)
             weight := (b.weight.map fun w => (max w 0).toNat).getD 1 },
    backends.findSome? failure)

/-! ## Translation -/

def listenerProtocolToIr : String → Option Protocol
  | "HTTP" => some .http
  | "HTTPS" => some .https
  | "TCP" => some .tcp
  | "UDP" => some .udp
  | "TLS" => some .tls
  | _ => none

abbrev IrListeners := HashMap String ListenerConfig

def addL4Listener (listeners : IrListeners) (e : GatewayState × ListenerState) : IrListeners :=
  let (gw, l) := e
  let id := listenerId gw.namespace_ gw.name l
  if !l.programmed || (listeners.get id).isSome then listeners
  else
    match listenerProtocolToIr l.protocol with
    | none => listeners
    | some protocol => listeners.insert id
        { id, bindAddr := "0.0.0.0:" ++ toString l.port.toNat, protocol
          tls := match protocol with
            | .https => some (.registry "gateway")
            | .tls => some (.registry "gateway")
            | _ => none
          frontendValidation := l.frontendValidation }

def toIrWeightedBackend (b : WeightedBackend) : SunbeamProxy.WeightedBackend :=
  { backend := b.backend, weight := b.weight, protocol := b.protocol
    tls := b.tls.map fun t =>
      { sni := t.hostname, verifyHostname := true
        caBundlePem := if t.caBundlePem = "" then none else some t.caBundlePem
        subjectAltNames := t.subjectAltNames } }

/-- what the L4 route kinds share -/
class L4RouteState (S : Type) where
  l4Namespace : S → String
  l4ParentRefs : S → List ParentRef

open L4RouteState

instance : L4RouteState TCPRouteState := ⟨(·.namespace_), (·.parentRefs)⟩

instance : L4RouteState UDPRouteState := ⟨(·.namespace_), (·.parentRefs)⟩

instance : L4RouteState TLSRouteState := ⟨(·.namespace_), (·.parentRefs)⟩

section Selection

variable {S : Type} [L4RouteState S]

def ParentRef.l4Selects (parent : ParentRef) (protocol : String) (l : ListenerState) : Bool :=
  l.protocol == protocol && match parent.sectionName with
    | some s => l.name == s
    | none => true

def l4ParentNamespace (route : S) (parent : ParentRef) : String := parent.namespace_.getD (l4Namespace route)

variable (gateways : List GatewayState)

def parentSelected (route : S) (protocol : String) (parent : ParentRef) :
    List (GatewayState × ListenerState) :=
  match findGateway gateways (l4ParentNamespace route parent) parent.name with
  | none => []
  | some gw => (gw.listeners.filter (parent.l4Selects protocol)).map fun l => (gw, l)

def selectedListeners (route : S) (protocol : String) :
    List (GatewayState × ListenerState) :=
  (l4ParentRefs route).flatMap (parentSelected gateways route protocol)

def l4RoutesForParents (route : S) (protocol : String) (action : L4Action) : List L4Route :=
  (selectedListeners gateways route protocol).map fun e => ⟨listenerId e.1.namespace_ e.1.name e.2, .any, .any, action⟩

end Selection

def tlsHostnames (route : TLSRouteState) (l : ListenerState) : List HostnameMatch :=
  let listenerMatch := (l.hostname.map parseListenerHostname).getD .any
  if route.hostnames.isEmpty then [listenerMatch]
  else route.hostnames.filterMap fun rh => intersectHostnamePair rh listenerMatch

variable (view : GatewayView)

def tcpSelected (route : TCPRouteState) : List (GatewayState × ListenerState) :=
  if route.programmed then selectedListeners view.gateways route "TCP" else []

def udpSelected (route : UDPRouteState) : List (GatewayState × ListenerState) :=
  if route.programmed then selectedListeners view.gateways route "UDP" else []

def tlsSelected (route : TLSRouteState) : List (GatewayState × ListenerState) :=
  if route.programmed then (selectedListeners view.gateways route "TLS").filter fun e => !(tlsHostnames route e.2).isEmpty
  else []

def tcpL4Routes (route : TCPRouteState) : List L4Route := if route.programmed then
    l4RoutesForParents view.gateways route "TCP" (.tcpRelay (route.backends.map toIrWeightedBackend))
  else []

def udpL4Routes (route : UDPRouteState) : List L4Route := if route.programmed then
    l4RoutesForParents view.gateways route "UDP" (.udpRelay (route.backends.map toIrWeightedBackend))
  else []

def tlsL4Routes (route : TLSRouteState) : List L4Route :=
  let backends := route.backends.map toIrWeightedBackend
  (tlsSelected view route).flatMap fun e => (tlsHostnames route e.2).map fun h =>
    ⟨listenerId e.1.namespace_ e.1.name e.2, toIrHostname ((e.2.hostname.map parseListenerHostname).getD .any),
      .sni (toIrHostname h),
      if e.2.tlsMode = some .terminate then .tlsTerminate backends else .tlsPassthrough backends⟩

def httpTarget : String := "127.0.0.1:10443"

def attachedListenerIds : List String :=
  (view.httpRoutes.flatMap fun r => (computeEffectiveHostnames view r "HTTPRoute").filterMap (·.listenerId))
    ++ view.grpcRoutes.flatMap fun r => (computeEffectiveHostnames view r "GRPCRoute").filterMap (·.listenerId)

def listenersOf (protocol : String) : List (GatewayState × ListenerState) :=
  view.gateways.flatMap fun gw => (gw.listeners.filter (·.protocol == protocol)).map fun l => (gw, l)

def httpsSelected : List (GatewayState × ListenerState) := (listenersOf view "HTTPS").filter fun e =>
    (attachedListenerIds view).contains (listenerId e.1.namespace_ e.1.name e.2)

def irListenerHostname (l : ListenerState) : SunbeamProxy.HostnameMatch :=
  (l.hostname.map fun h => toIrHostname (parseListenerHostname h)).getD .any

def httpsL4Routes : List L4Route := (httpsSelected view).map fun e =>
    ⟨listenerId e.1.namespace_ e.1.name e.2, irListenerHostname e.2,
      if e.2.hostname.isSome then .sni (irListenerHostname e.2) else .any, .terminateAndHttp httpTarget⟩

def httpL4Routes : List L4Route := (listenersOf view "HTTP").map fun e =>
    ⟨listenerId e.1.namespace_ e.1.name e.2, irListenerHostname e.2, .any, .httpRelay httpTarget⟩

def translateL4Routes : List ListenerConfig × List L4Route :=
  let met := view.tcpRoutes.flatMap (tcpSelected view) ++ view.udpRoutes.flatMap (udpSelected view)
    ++ view.tlsRoutes.flatMap (tlsSelected view) ++ httpsSelected view ++ listenersOf view "HTTP"
  let listeners := met.foldl addL4Listener ∅
  (stableSort (fun a b => decide (a.id ≤ b.id)) (listeners.pairs.map (·.2)),
    view.tcpRoutes.flatMap (tcpL4Routes view) ++ view.udpRoutes.flatMap (udpL4Routes view)
      ++ view.tlsRoutes.flatMap (tlsL4Routes view) ++ httpsL4Routes view ++ httpL4Routes view)

/-! ## Opened listeners -/

def listenerBindAddr (port : UInt16) : String := "0.0.0.0:" ++ toString port.toNat

theorem listenerBindAddr_inj {p q : UInt16} (h : listenerBindAddr p = listenerBindAddr q) : p = q := by
  have hdigits : Nat.toDigits 10 p.toNat = Nat.toDigits 10 q.toNat := by simpa [listenerBindAddr] using congrArg String.toList h
  have hnat := congrArg (Nat.ofDigitChars 10 · 0) hdigits
  simp only [Nat.ofDigitChars_ten_toDigits] at hnat
  exact UInt16.toNat_inj.1 hnat

def irListener (gw : GatewayState) (l : ListenerState) (protocol : Protocol) : ListenerConfig :=
  { id := listenerId gw.namespace_ gw.name l, bindAddr := listenerBindAddr l.port, protocol
    tls := match protocol with
      | .https => some (.registry "gateway")
      | .tls => some (.registry "gateway")
      | _ => none
    frontendValidation := l.frontendValidation }

def openListeners (met : List (GatewayState × ListenerState)) : List ListenerConfig :=
  stableSort (fun a b => decide (a.id ≤ b.id)) ((met.foldl addL4Listener ∅).pairs.map (·.2))

variable (view : GatewayView) (ctx : ReconcileContext) (route : ParsedL4Route) (routeKind : String)
  (protocols : List String)

theorem translateL4Routes_opens :
    ∃ met : List (GatewayState × ListenerState), (∀ e ∈ met, e.1 ∈ view.gateways ∧ e.2 ∈ e.1.listeners)
      ∧ (translateL4Routes view).1 = openListeners met := by
  have hparents : ∀ {S : Type} [L4RouteState S] (route : S) (protocol : String),
      ∀ e ∈ selectedListeners view.gateways route protocol, e.1 ∈ view.gateways ∧ e.2 ∈ e.1.listeners := by
    intro S _ route protocol e he
    obtain ⟨parent, -, he⟩ := mem_flatMap.1 he
    unfold parentSelected at he
    split at he
    · cases he
    · rename_i gw hgw
      obtain ⟨l, hl, rfl⟩ := mem_map.1 he
      exact ⟨mem_of_find?_eq_some hgw, (mem_filter.1 hl).1⟩
  have hall : ∀ protocol, ∀ e ∈ listenersOf view protocol, e.1 ∈ view.gateways ∧ e.2 ∈ e.1.listeners := by
    intro protocol e he
    obtain ⟨gw, hgw, he⟩ := mem_flatMap.1 he
    obtain ⟨l, hl, rfl⟩ := mem_map.1 he
    exact ⟨hgw, (mem_filter.1 hl).1⟩
  refine ⟨_, ?_, rfl⟩
  intro e he
  simp only [mem_append, mem_flatMap, tcpSelected, udpSelected, tlsSelected, httpsSelected, mem_filter] at he
  rcases he with (((⟨route, -, he⟩ | ⟨route, -, he⟩) | ⟨route, -, he⟩) | ⟨he, -⟩) | he
  · split_ifs at he
    · exact hparents route "TCP" e he
    · cases he
  · split_ifs at he
    · exact hparents route "UDP" e he
    · cases he
  · split_ifs at he
    · exact hparents route "TLS" e (mem_filter.1 he).1
    · cases he
  · exact hall "HTTPS" e he
  · exact hall "HTTP" e he

theorem foldl_addL4Listener_of_mem {met : List (GatewayState × ListenerState)} {listeners : IrListeners} {id : String}
    {cfg : ListenerConfig} (h : (met.foldl addL4Listener listeners).get id = some cfg) :
    listeners.get id = some cfg ∨ ∃ e ∈ met, e.2.programmed = true
      ∧ ∃ protocol, listenerProtocolToIr e.2.protocol = some protocol ∧ cfg = irListener e.1 e.2 protocol := by
  induction met generalizing listeners with
  | nil => exact .inl h
  | cons e met ih =>
    rcases ih h with h | ⟨e', he', hopened⟩
    · obtain ⟨gw, l⟩ := e
      unfold addL4Listener at h
      simp only at h
      split_ifs at h with hskip
      · exact .inl h
      · split at h
        · exact .inl h
        · rename_i protocol hprotocol
          rw [HashMap.get_insert] at h
          split_ifs at h with hid
          · cases h
            simp only [Bool.or_eq_true, Bool.not_eq_true', not_or, Bool.not_eq_false] at hskip
            exact .inr ⟨(gw, l), mem_cons_self .., hskip.1, protocol, hprotocol, rfl⟩
          · exact .inl h
    · exact .inr ⟨e', mem_cons_of_mem _ he', hopened⟩

theorem mem_openListeners {met : List (GatewayState × ListenerState)} {cfg : ListenerConfig} (h : cfg ∈ openListeners met) :
    ∃ e ∈ met, e.2.programmed = true
      ∧ ∃ protocol, listenerProtocolToIr e.2.protocol = some protocol ∧ cfg = irListener e.1 e.2 protocol := by
  rw [openListeners, mem_stableSort, mem_map] at h
  obtain ⟨⟨id, cfg'⟩, hmem, rfl⟩ := h
  exact (foldl_addL4Listener_of_mem (HashMap.mem_pairs_iff.1 hmem)).resolve_left (by simp)

variable {gw : GatewayState} {l : ListenerState}

theorem resolveListenerParent_conditions (q : ParentQuery) : (∃ ref reason message, resolveListenerParent q
        = (some ref, [acceptedCondition .true reason message q.observedGeneration]))
      ∨ ∃ reason message, resolveListenerParent q = (none, [acceptedCondition .false reason message q.observedGeneration]) := by
  unfold resolveListenerParent
  split
  · exact .inr ⟨_, _, rfl⟩
  split
  · exact .inr ⟨_, _, rfl⟩
  simp only
  split_ifs
  · exact .inr ⟨_, _, rfl⟩
  · exact .inr ⟨_, _, rfl⟩
  · exact .inl ⟨_, _, _, rfl⟩

theorem parentStatus_refused (parsed : ParsedParentRef) :
    ∃ ps, parentStatus route parsed (resolveL4ParentRef ctx route routeKind protocols parsed) = some ps
      ∧ ps.refused = (resolveL4ParentRef ctx route routeKind protocols parsed).1.isNone := by
  have hcond : (∃ ref c, resolveL4ParentRef ctx route routeKind protocols parsed = (some ref, [c]) ∧ c.status = .true)
      ∨ ∃ c, resolveL4ParentRef ctx route routeKind protocols parsed = (none, [c]) ∧ c.conditionType = .accepted
        ∧ c.status = .false := by
    unfold resolveL4ParentRef
    simp only
    split_ifs
    · exact .inr ⟨_, rfl, rfl, rfl⟩
    · cases findGateway ctx.gateways (parsed.namespace_.getD route.namespace_) parsed.name with
      | none => exact .inr ⟨_, rfl, rfl, rfl⟩
      | some gw =>
        rcases resolveListenerParent_conditions (l4ParentQuery ctx route routeKind protocols parsed gw) with
          ⟨ref, reason, message, h⟩ | ⟨reason, message, h⟩
        · exact .inl ⟨ref, _, h, rfl⟩
        · exact .inr ⟨_, h, rfl, rfl⟩
  rcases hcond with ⟨ref, c, h, hs⟩ | ⟨c, h, ht, hs⟩
  · exact ⟨⟨ref, [c]⟩, by simp [parentStatus, h], by simp [L4ParentStatus.refused, h, hs]⟩
  · exact ⟨⟨statusParentRef route parsed, [c]⟩, by simp [parentStatus, h], by simp [L4ParentStatus.refused, h, hs, ht]⟩

/-- the reference names a Gateway whose matching listeners cover the checks -/
def Resolvable (route : ParsedL4Route) (routeKind : String) (protocols : List String)
    (parsed : ParsedParentRef) : Prop :=
  parsed.group = gatewayGroup ∧ parsed.kind = "Gateway"
    ∧ ∃ gw, findGateway ctx.gateways (parsed.namespace_.getD route.namespace_) parsed.name = some gw
      ∧ (l4ParentQuery ctx route routeKind protocols parsed gw).Covered

theorem resolveL4ParentRef_isSome_iff (parsed : ParsedParentRef) :
    (resolveL4ParentRef ctx route routeKind protocols parsed).1.isSome = true
      ↔ Resolvable ctx route routeKind protocols parsed := by
  unfold resolveL4ParentRef Resolvable
  by_cases hkind : parsed.group ≠ gatewayGroup ∨ parsed.kind ≠ "Gateway"
  · simp only [if_pos hkind, Option.isSome_none, Bool.false_eq_true, false_iff]
    rintro ⟨hg, hk, -⟩
    exact hkind.elim (fun h => h hg) fun h => h hk
  · rw [if_neg hkind]
    simp only [not_or, not_not] at hkind
    cases findGateway ctx.gateways (parsed.namespace_.getD route.namespace_) parsed.name <;>
      simp [resolveListenerParent_isSome_iff, hkind]

/-- **Programmed L4 routes.** A route is programmed exactly when it has parent references and each of them resolves. -/
theorem reconcileL4Route_programmed_iff (route : ParsedL4Route) :
    (reconcileL4Route ctx routeKind protocols route).programmed = true ↔
      route.parentRefs ≠ [] ∧ ∀ parsed ∈ route.parentRefs, Resolvable ctx route routeKind protocols parsed := by
  simp only [reconcileL4Route, Bool.and_eq_true, Bool.not_eq_true', ← resolveL4ParentRef_isSome_iff]
  choose status hstatus hrefused using parentStatus_refused ctx route routeKind protocols
  -- every reference has an entry, so the entries are the references' own
  have hentries : (route.parentRefs.filterMap fun parsed =>
      parentStatus route parsed (resolveL4ParentRef ctx route routeKind protocols parsed))
      = route.parentRefs.map status := by
    rw [← filterMap_eq_map]
    exact filterMap_congr fun parsed _ => hstatus parsed
  rw [hentries]
  rw [any_eq_false]
  simp [hrefused]

/-! ## What the translation binds routes to -/

/-- a listener of this id belongs to a Gateway the route names; it is programmed, speaks the protocol, is the one the
reference selects by `sectionName` and `port`, and admits the route -/
def AdmittedL4 {S : Type} [L4RouteState S] (view : GatewayView) (route : S) (routeKind protocol id : String) : Prop :=
  ∃ parent ∈ l4ParentRefs route, parent.group = gatewayGroup ∧ parent.kind = "Gateway"
    ∧ ∃ gw ∈ view.gateways, gw.namespace_ = l4ParentNamespace route parent ∧ gw.name = parent.name
    ∧ ∃ l ∈ gw.listeners, listenerId gw.namespace_ gw.name l = id ∧ l.programmed = true ∧ l.protocol = protocol
      ∧ parent.selects l = true
      ∧ listenerAllowsKind (allowedRoutesOf view.listenerAllowed gw.namespace_ gw.name l) gatewayGroup routeKind = true
      ∧ namespaceAllowed (allowedRoutesOf view.listenerAllowed gw.namespace_ gw.name l).namespaces (l4Namespace route)
        gw.namespace_ view.namespaceLabels = true

/-- every L4 route the translation emits for a route of the view is bound to a listener that admits the route -/
def BindsToAdmitting : Prop :=
  (∀ route ∈ view.tcpRoutes, ∀ r ∈ tcpL4Routes view route, AdmittedL4 view route "TCPRoute" "TCP" r.listenerId)
    ∧ (∀ route ∈ view.udpRoutes, ∀ r ∈ udpL4Routes view route, AdmittedL4 view route "UDPRoute" "UDP" r.listenerId)
    ∧ ∀ route ∈ view.tlsRoutes, ∀ r ∈ tlsL4Routes view route, AdmittedL4 view route "TLSRoute" "TLS" r.listenerId

/-- a listener of the protocol on a Gateway that a reference of the route names, with its `sectionName` if it has one -/
def Reaches {S : Type} [L4RouteState S] (view : GatewayView) (route : S) (protocol : String) (gw : GatewayState)
    (l : ListenerState) : Prop :=
  ∃ parent ∈ l4ParentRefs route, findGateway view.gateways (l4ParentNamespace route parent) parent.name = some gw
    ∧ l ∈ gw.listeners ∧ l.protocol = protocol ∧ ∀ s, parent.sectionName = some s → l.name = s

/-- the route has no host names, or one that intersects the listener's -/
def SharesName (route : TLSRouteState) (l : ListenerState) : Prop := route.hostnames = [] ∨ ∃ rh ∈ route.hostnames,
    hostnameIntersects rh ((l.hostname.map parseListenerHostname).getD .any) = true

/-- every listener that a programmed L4 route reaches admits the route -/
def ReachesOnlyAdmitting : Prop :=
  (∀ route ∈ view.tcpRoutes, route.programmed = true → ∀ gw l, Reaches view route "TCP" gw l →
      AdmittedL4 view route "TCPRoute" "TCP" (listenerId gw.namespace_ gw.name l))
    ∧ (∀ route ∈ view.udpRoutes, route.programmed = true → ∀ gw l, Reaches view route "UDP" gw l →
      AdmittedL4 view route "UDPRoute" "UDP" (listenerId gw.namespace_ gw.name l))
    ∧ ∀ route ∈ view.tlsRoutes, route.programmed = true → ∀ gw l, Reaches view route "TLS" gw l → SharesName route l →
      AdmittedL4 view route "TLSRoute" "TLS" (listenerId gw.namespace_ gw.name l)

theorem mem_selectedListeners {S : Type} [L4RouteState S] {view : GatewayView} {route : S} {protocol : String} :
    (gw, l) ∈ selectedListeners view.gateways route protocol ↔ Reaches view route protocol gw l := by
  have hsel : ∀ (parent : ParentRef) (l : ListenerState), parent.l4Selects protocol l = true
      ↔ l.protocol = protocol ∧ ∀ s, parent.sectionName = some s → l.name = s := by
    intro parent l
    unfold ParentRef.l4Selects
    cases parent.sectionName <;> simp
  unfold selectedListeners Reaches
  rw [mem_flatMap]
  refine exists_congr fun parent => and_congr_right fun _ => ?_
  unfold parentSelected
  cases findGateway view.gateways (l4ParentNamespace route parent) parent.name with
  | none => simp
  | some g =>
    simp only [mem_map, mem_filter, Prod.mk.injEq, Option.some.injEq, hsel]
    constructor
    · rintro ⟨l', ⟨hl, hp, hs⟩, rfl, rfl⟩
      exact ⟨rfl, hl, hp, hs⟩
    · rintro ⟨rfl, hl, hp, hs⟩
      exact ⟨l, ⟨hl, hp, hs⟩, rfl, rfl⟩

theorem intersectHostnamePair_isSome (a b : HostnameMatch) : (intersectHostnamePair a b).isSome = hostnameIntersects a b := by
  unfold intersectHostnamePair hostnameIntersects
  cases isHostnameSubset a b <;> cases isHostnameSubset b a <;> rfl

theorem tlsHostnames_ne_nil_iff (route : TLSRouteState) (l : ListenerState) : tlsHostnames route l ≠ [] ↔ SharesName route l := by
  unfold tlsHostnames SharesName
  by_cases hempty : route.hostnames = []
  · simp [hempty]
  · simp only [List.isEmpty_iff, hempty, ← intersectHostnamePair_isSome]
    simp [Option.isSome_iff_ne_none]

theorem forall_l4RoutesForParents {S : Type} [L4RouteState S] (route : S) (protocol : String) (action : L4Action)
    (programmed : Bool) (P : String → Prop) :
    (∀ r ∈ if programmed then l4RoutesForParents view.gateways route protocol action else [], P r.listenerId) ↔
      (programmed = true → ∀ gw l, Reaches view route protocol gw l → P (listenerId gw.namespace_ gw.name l)) := by
  cases programmed with
  | false => simp
  | true =>
    rw [if_pos rfl, l4RoutesForParents, forall_mem_map]
    simp [mem_selectedListeners]

theorem mem_tlsSelected {view : GatewayView} {route : TLSRouteState} :
    (gw, l) ∈ tlsSelected view route ↔ route.programmed = true ∧ Reaches view route "TLS" gw l ∧ SharesName route l := by
  unfold tlsSelected
  split_ifs with hp
  · rw [mem_filter, mem_selectedListeners, ← tlsHostnames_ne_nil_iff]
    simp [hp]
  · simp [hp]

theorem forall_tlsL4Routes (route : TLSRouteState) (P : String → Prop) : (∀ r ∈ tlsL4Routes view route, P r.listenerId) ↔
      (route.programmed = true → ∀ gw l, Reaches view route "TLS" gw l → SharesName route l →
        P (listenerId gw.namespace_ gw.name l)) := by
  constructor
  · intro h hp gw l hreach hname
    obtain ⟨name, hmem⟩ := exists_mem_of_ne_nil _ ((tlsHostnames_ne_nil_iff route l).2 hname)
    have hsel := mem_tlsSelected.2 ⟨hp, hreach, hname⟩
    exact h _ (mem_flatMap.2 ⟨(gw, l), hsel, mem_map.2 ⟨name, hmem, rfl⟩⟩)
  · intro h r hr
    obtain ⟨⟨gw, l⟩, he, hr⟩ := mem_flatMap.1 hr
    obtain ⟨name, -, rfl⟩ := mem_map.1 hr
    obtain ⟨hp, hreach, hname⟩ := mem_tlsSelected.1 he
    exact h hp gw l hreach hname

/-- **Exposure of L4 routes.** The translation binds the L4 routes of a view to admitting listeners exactly when the listeners its
routes reach are admitting ones. -/
theorem l4_routes_admitted_iff (view : GatewayView) : BindsToAdmitting view ↔ ReachesOnlyAdmitting view := by
  refine and_congr ?_ (and_congr ?_ ?_)
  · exact forall₂_congr fun route _ => forall_l4RoutesForParents view route "TCP" _ route.programmed _
  · exact forall₂_congr fun route _ => forall_l4RoutesForParents view route "UDP" _ route.programmed _
  · exact forall₂_congr fun route _ => forall_tlsL4Routes view route _

def dbGateway : GatewayState :=
  { namespace_ := "infra", name := "edge",
    listeners := [{ name := "db", protocol := "TCP", port := 9000 }, { name := "admin", protocol := "TCP", port := 9001 }] }

def dbContext : ReconcileContext :=
  { gateways := [dbGateway]
    listenerAllowed := HashMap.ofPairs [(("infra", "edge", "db"), { namespaces := { source := .all } }),
      (("infra", "edge", "admin"), {})] }

def dbRoute : ParsedL4Route :=
  { namespace_ := "tenant", name := "db", parentRefs := [{ name := "edge", namespace_ := some "infra", port := some 9000 }] }

def dbRouteState : TCPRouteState :=
  let reconciled := reconcileL4Route dbContext "TCPRoute" ["TCP"] dbRoute
  { namespace_ := "tenant", name := "db", parentRefs := reconciled.parentRefs, programmed := reconciled.programmed }

def dbView : GatewayView :=
  { gateways := [dbGateway], tcpRoutes := [dbRouteState], listenerAllowed := dbContext.listenerAllowed }

/-- it is also bound to the other listener, whose port it did not name and which does not admit it -/
theorem db_route_on_admin : ¬ BindsToAdmitting dbView := by
  intro h
  have hadmin := h.1 dbRouteState (by simp [dbView]) ⟨"infra/edge/admin", .any, .any, .tcpRelay []⟩ (by decide)
  revert hadmin
  unfold AdmittedL4
  decide

end SunbeamProxy.Gateway
