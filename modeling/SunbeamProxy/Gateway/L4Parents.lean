/-
An L4 route from its resource to its routes of the IR: `reconcile_l4_routes`, `collect_l4_routes` and `translate_l4_routes`, one
after the other.
-/
import SunbeamProxy.Gateway.ParentStatus

namespace SunbeamProxy.Gateway

open L4RouteState

inductive L4RouteKind where
  | tcp | udp | tls
deriving DecidableEq, Repr

namespace L4RouteKind

def routeKind : L4RouteKind → String
  | .tcp => "TCPRoute"
  | .udp => "UDPRoute"
  | .tls => "TLSRoute"

def protocols : L4RouteKind → List String
  | .tcp => ["TCP"]
  | .udp => ["UDP"]
  | .tls => ["TLS"]

end L4RouteKind

section Cluster

variable (serviceExists : String → String → Bool) (index : GrantIndex) (ctx : ReconcileContext) (kind : L4RouteKind)

def collectL4Route (route : ParsedL4Route) : List ParentRef × List WeightedBackend × Bool :=
  let reconciled := reconcileL4Route ctx kind.routeKind kind.protocols route
  let resolved := resolveL4Backends serviceExists index route.namespace_ kind.routeKind route.generation route.backends
  (reconciled.parentRefs, resolved.1, reconciled.programmed && resolved.2.isNone)

def emittedL4Routes (route : ParsedL4Route) : List L4Route :=
  let (parentRefs, backends, programmed) := collectL4Route serviceExists index ctx kind route
  let view : GatewayView := { gateways := ctx.gateways }
  match kind with
  | .tcp => tcpL4Routes view ⟨route.namespace_, route.name, parentRefs, backends, programmed, route.generation⟩
  | .udp => udpL4Routes view ⟨route.namespace_, route.name, parentRefs, backends, programmed, route.generation⟩
  | .tls => tlsL4Routes view ⟨route.namespace_, route.name, route.hostnames, parentRefs, backends, programmed, route.generation⟩

/-- a backend that is permitted and exists -/
def BackendUsable (route : ParsedL4Route) (b : BackendRef) : Prop :=
  checkBackendPermitted b route.namespace_ kind.routeKind index = none ∧ serviceExists (b.targetNs route.namespace_) b.name = true

/-- a listener that the translation binds a route to for a reference: of the protocol and the section, and for a TLS route with a
hostname in common -/
structure Bindable (route : ParsedL4Route) (parsed : ParsedParentRef) (gw : GatewayState) (l : ListenerState) : Prop where
  gateway : findGateway ctx.gateways (parsed.namespace_.getD route.namespace_) parsed.name = some gw
  listener : l ∈ gw.listeners
  protocol : l.protocol ∈ kind.protocols
  section_ : ∀ s, parsed.sectionName = some s → l.name = s
  hostname : kind = .tls → route.hostnames = []
    ∨ ∃ rh ∈ route.hostnames, hostnameIntersects rh ((l.hostname.map parseListenerHostname).getD .any) = true

/-- all references resolve, and all backends are usable -/
structure AllResolved (route : ParsedL4Route) : Prop where
  parents : ∀ parsed ∈ route.parentRefs, Resolvable ctx route kind.routeKind kind.protocols parsed
  backends : ∀ b ∈ route.backends, BackendUsable serviceExists index kind route b

theorem resolveL4Backends_isNone_iff (route : ParsedL4Route) :
    (resolveL4Backends serviceExists index route.namespace_ kind.routeKind route.generation route.backends).2.isNone = true
      ↔ ∀ b ∈ route.backends, BackendUsable serviceExists index kind route b := by
  simp only [resolveL4Backends, Option.isNone_iff_eq_none, List.findSome?_eq_none_iff, BackendUsable]
  refine forall₂_congr fun b _ => ?_
  cases hcheck : checkBackendPermitted b route.namespace_ kind.routeKind index with
  | none => simp
  | some status => cases status <;> simp

variable {route : ParsedL4Route}

variable {ctx kind} in
theorem resolvedL4_fields {parsed : ParsedParentRef} {ref : ParentRef}
    (h : (resolveL4ParentRef ctx route kind.routeKind kind.protocols parsed).1 = some ref) :
    ref.namespace_ = some (parsed.namespace_.getD route.namespace_) ∧ ref.name = parsed.name
      ∧ ref.sectionName = parsed.sectionName := by
  unfold resolveL4ParentRef at h
  simp only at h
  split_ifs at h
  split at h
  · cases h
  · rw [resolveListenerParent_eq_some h]
    exact ⟨rfl, rfl, rfl⟩

variable {ctx kind} in
theorem reaches_resolved_iff {S : Type} [L4RouteState S] {state : S} {protocol : String}
    (hns : l4Namespace state = route.namespace_)
    (hrefs : l4ParentRefs state = (reconcileL4Route ctx kind.routeKind kind.protocols route).parentRefs)
    (hall : ∀ parsed ∈ route.parentRefs, Resolvable ctx route kind.routeKind kind.protocols parsed)
    {gw : GatewayState} {l : ListenerState} : Reaches { gateways := ctx.gateways } state protocol gw l
      ↔ ∃ parsed ∈ route.parentRefs, findGateway ctx.gateways (parsed.namespace_.getD route.namespace_) parsed.name = some gw
        ∧ l ∈ gw.listeners ∧ l.protocol = protocol ∧ ∀ s, parsed.sectionName = some s → l.name = s := by
  rw [Reaches, hrefs, reconcileL4Route]
  simp only [l4ParentNamespace, hns, List.mem_filterMap]
  constructor
  · rintro ⟨ref, ⟨parsed, hparsed, href⟩, hreach⟩
    obtain ⟨hrns, hname, hsection⟩ := resolvedL4_fields href
    rw [hrns, hname, hsection] at hreach
    exact ⟨parsed, hparsed, hreach⟩
  · rintro ⟨parsed, hparsed, hreach⟩
    obtain ⟨ref, href⟩ := Option.isSome_iff_exists.1 ((resolveL4ParentRef_isSome_iff ..).2 (hall parsed hparsed))
    obtain ⟨hrns, hname, hsection⟩ := resolvedL4_fields href
    refine ⟨ref, ⟨parsed, hparsed, href⟩, ?_⟩
    rw [hrns, hname, hsection]
    exact hreach

theorem programmed_iff (route : ParsedL4Route) : (collectL4Route serviceExists index ctx kind route).2.2 = true
    ↔ route.parentRefs ≠ [] ∧ AllResolved serviceExists index ctx kind route := by
  rw [collectL4Route, Bool.and_eq_true, reconcileL4Route_programmed_iff, resolveL4Backends_isNone_iff, and_assoc]
  exact and_congr_right fun _ => ⟨fun h => ⟨h.1, h.2⟩, fun h => ⟨h.1, h.2⟩⟩

variable {serviceExists index ctx kind} in
theorem forall_reached_iff {S : Type} [L4RouteState S] (state : S) {protocol : String}
    (hns : l4Namespace state = route.namespace_)
    (hrefs : l4ParentRefs state = (reconcileL4Route ctx kind.routeKind kind.protocols route).parentRefs)
    (hprotocols : kind.protocols = [protocol]) (P : String → Prop) :
    ((collectL4Route serviceExists index ctx kind route).2.2 = true → ∀ gw l, Reaches { gateways := ctx.gateways } state protocol gw l →
        (kind = .tls → route.hostnames = []
          ∨ ∃ rh ∈ route.hostnames, hostnameIntersects rh ((l.hostname.map parseListenerHostname).getD .any) = true) →
        P (listenerId gw.namespace_ gw.name l))
      ↔ (AllResolved serviceExists index ctx kind route → ∀ parsed ∈ route.parentRefs, ∀ gw l,
        Bindable ctx kind route parsed gw l → P (listenerId gw.namespace_ gw.name l)) := by
  rw [programmed_iff]
  constructor
  · intro h hall parsed hparsed gw l hbind
    refine h ⟨List.ne_nil_of_mem hparsed, hall⟩ gw l ((reaches_resolved_iff hns hrefs hall.parents).2 ?_) hbind.hostname
    exact ⟨parsed, hparsed, hbind.gateway, hbind.listener, List.mem_singleton.1 (hprotocols ▸ hbind.protocol), hbind.section_⟩
  · rintro h ⟨-, hall⟩ gw l hreach hname
    obtain ⟨parsed, hparsed, hgw, hl, hprotocol, hsection⟩ := (reaches_resolved_iff hns hrefs hall.parents).1 hreach
    exact h hall parsed hparsed gw l ⟨hgw, hl, by rw [hprotocols, hprotocol]; exact List.mem_singleton.2 rfl, hsection, hname⟩

/-- **L4 routes of a route.** It is bound to the listeners its references can be bound to, once all is resolved. -/
theorem forall_emitted_iff (route : ParsedL4Route) (P : String → Prop) :
    (∀ r ∈ emittedL4Routes serviceExists index ctx kind route, P r.listenerId)
      ↔ (AllResolved serviceExists index ctx kind route → ∀ parsed ∈ route.parentRefs, ∀ gw l,
        Bindable ctx kind route parsed gw l → P (listenerId gw.namespace_ gw.name l)) := by
  cases kind with
  | tcp =>
    let c := collectL4Route serviceExists index ctx .tcp route
    let state : TCPRouteState := ⟨route.namespace_, route.name, c.1, c.2.1, c.2.2, route.generation⟩
    rw [← forall_reached_iff state rfl rfl rfl P]
    simp only [reduceCtorEq, false_imp_iff, forall_const]
    exact forall_l4RoutesForParents { gateways := ctx.gateways } state "TCP" _ state.programmed P
  | udp =>
    let c := collectL4Route serviceExists index ctx .udp route
    let state : UDPRouteState := ⟨route.namespace_, route.name, c.1, c.2.1, c.2.2, route.generation⟩
    rw [← forall_reached_iff state rfl rfl rfl P]
    simp only [reduceCtorEq, false_imp_iff, forall_const]
    exact forall_l4RoutesForParents { gateways := ctx.gateways } state "UDP" _ state.programmed P
  | tls =>
    let c := collectL4Route serviceExists index ctx .tls route
    let state : TLSRouteState := ⟨route.namespace_, route.name, route.hostnames, c.1, c.2.1, c.2.2, route.generation⟩
    rw [← forall_reached_iff state rfl rfl rfl P]
    simp only [forall_const]
    exact forall_tlsL4Routes { gateways := ctx.gateways } state P

/-- **One refused parent.** Adding a reference that is refused leaves the L4 routes of a route alone exactly when it had none: one of
its other references or of its backends is refused too, or no listener of its references can be bound to. -/
theorem refused_parent_iff (route : ParsedL4Route) (before after : List ParsedParentRef) (refused : ParsedParentRef)
    (hrefused : ¬Resolvable ctx route kind.routeKind kind.protocols refused) :
    emittedL4Routes serviceExists index ctx kind { route with parentRefs := before ++ refused :: after }
        = emittedL4Routes serviceExists index ctx kind { route with parentRefs := before ++ after }
      ↔ (∃ parsed ∈ before ++ after, ¬Resolvable ctx route kind.routeKind kind.protocols parsed)
        ∨ (∃ b ∈ route.backends, ¬BackendUsable serviceExists index kind route b)
        ∨ ∀ parsed ∈ before ++ after, ∀ gw l, ¬Bindable ctx kind route parsed gw l := by
  have hnone (route : ParsedL4Route) : emittedL4Routes serviceExists index ctx kind route = []
      ↔ (AllResolved serviceExists index ctx kind route → ∀ parsed ∈ route.parentRefs, ∀ gw l,
        ¬Bindable ctx kind route parsed gw l) := by
    rw [List.eq_nil_iff_forall_not_mem]
    exact forall_emitted_iff serviceExists index ctx kind route fun _ => False
  have hdown : emittedL4Routes serviceExists index ctx kind { route with parentRefs := before ++ refused :: after } = [] :=
    (hnone _).2 fun hall => absurd (hall.parents refused (by simp)) hrefused
  have hall : AllResolved serviceExists index ctx kind { route with parentRefs := before ++ after }
      ↔ (∀ parsed ∈ before ++ after, Resolvable ctx route kind.routeKind kind.protocols parsed)
        ∧ ∀ b ∈ route.backends, BackendUsable serviceExists index kind route b := ⟨fun h => ⟨h.1, h.2⟩, fun h => ⟨h.1, h.2⟩⟩
  have hbind (parsed : ParsedParentRef) (gw : GatewayState) (l : ListenerState) :
      Bindable ctx kind { route with parentRefs := before ++ after } parsed gw l ↔ Bindable ctx kind route parsed gw l :=
    ⟨fun h => ⟨h.1, h.2, h.3, h.4, h.5⟩, fun h => ⟨h.1, h.2, h.3, h.4, h.5⟩⟩
  rw [hdown, eq_comm, hnone, hall, imp_iff_not_or, not_and_or, or_assoc]
  simp only [hbind, not_forall, exists_prop]

end Cluster

def missingGateway : ParsedParentRef := { name := "gone", namespace_ := some "infra" }

/-- the route's other Gateway is missing as well -/
theorem refused_parent_unknown :
    emittedL4Routes (fun _ _ => true) ⟨[]⟩ {} .tcp { dbRoute with parentRefs := dbRoute.parentRefs ++ [missingGateway] }
      = emittedL4Routes (fun _ _ => true) ⟨[]⟩ {} .tcp dbRoute := by
  have hmissing (parsed : ParsedParentRef) : ¬Resolvable {} dbRoute L4RouteKind.tcp.routeKind L4RouteKind.tcp.protocols parsed :=
    fun ⟨_, _, _, hgw, _⟩ => by cases hgw
  exact (refused_parent_iff _ _ {} .tcp dbRoute dbRoute.parentRefs [] missingGateway (hmissing _)).2
    (.inl ⟨_, List.mem_append_left _ (List.mem_singleton.2 rfl), hmissing _⟩)

theorem missing_gateway_unbinds :
    (emittedL4Routes (fun _ _ => true) ⟨[]⟩ dbContext .tcp dbRoute).map (·.listenerId) = ["infra/edge/db", "infra/edge/admin"]
      ∧ emittedL4Routes (fun _ _ => true) ⟨[]⟩ dbContext .tcp { dbRoute with parentRefs := dbRoute.parentRefs ++ [missingGateway] }
        = [] := by
  decide

end SunbeamProxy.Gateway
