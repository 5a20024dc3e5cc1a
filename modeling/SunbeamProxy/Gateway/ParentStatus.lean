/-
What the status says about the parents of an HTTP route, against the listeners its entries name (`gateway/reconcile/route/mod.rs`
with `gateway/reconcile/parent.rs`, and `gateway/translate/hostnames.rs`).
-/
import SunbeamProxy.Gateway.AllowedRoutes
import SunbeamProxy.Gateway.Isolation
import SunbeamProxy.Gateway.ListenerStatus

namespace SunbeamProxy.Gateway

open Text

structure RawParentRef where
  group : Option String := none
  kind : Option String := none
  namespace_ : Option String := none
  name : String
  sectionName : Option String := none
  port : Option ℤ := none

structure HTTPRouteObject extends HTTPRoute where
  generation : Option ℤ := none
  parentRefs : Option (List RawParentRef) := none

def parseParentRef (r : RawParentRef) : ParsedParentRef :=
  { group := r.group.getD "gateway.networking.k8s.io", kind := r.kind.getD "Gateway", namespace_ := r.namespace_, name := r.name,
    sectionName := r.sectionName, port := r.port }

def parseParentRefs (route : HTTPRouteObject) : List ParsedParentRef := (route.parentRefs.getD []).map parseParentRef

structure RouteIdentity where
  namespace_ : String
  generation : ℤ := 0
  hostnames : List HostnameMatch := []
  kind : String := "HTTPRoute"

def HTTPRouteObject.identity (route : HTTPRouteObject) : RouteIdentity :=
  { namespace_ := route.metadataNamespace, generation := route.generation.getD 0
    hostnames := (route.hostnames.getD []).map parseRouteHostname }

section Resolution

variable (view : GatewayView) (route : RouteIdentity) (parsed : ParsedParentRef)

def ParsedParentRef.targetNs (parsed : ParsedParentRef) (routeNs : String) : String := parsed.namespace_.getD routeNs

def unsupportedParent : Option ParentRef × List StatusCondition := (none, [acceptedCondition .false "UnsupportedValue"
    ("parentRef group " ++ parsed.group ++ " kind " ++ parsed.kind ++ " is not supported for " ++ route.kind) route.generation])

def parentNotFound (ownerKind : String) : Option ParentRef × List StatusCondition :=
  (none, [acceptedCondition .false "NoMatchingParent"
    (ownerKind ++ " " ++ parsed.targetNs route.namespace_ ++ "/" ++ parsed.name ++ " not found") route.generation])

def ownerQuery (ownerKind : String) (listeners : List ListenerState) (conflicts : HashMap String String)
    (allowedMap : ListenerAllowedMap) : ParentQuery :=
  { parsed, routeNs := route.namespace_, observedGeneration := route.generation, routeHostnames := route.hostnames, listeners,
    namespaceLabels := view.namespaceLabels, allowedMap, targetNs := parsed.targetNs route.namespace_, ownerName := parsed.name,
    ownerKind, conflicts, routeKind := route.kind, expectedProtocols := some ["HTTP", "HTTPS"] }

def resolveGatewayParent : Option ParentRef × List StatusCondition :=
  match view.gateways.find? fun g => g.namespace_ == parsed.targetNs route.namespace_ && g.name == parsed.name with
  | none => parentNotFound route parsed "Gateway"
  | some gateway => resolveListenerParent (ownerQuery view route parsed "Gateway" gateway.listeners ∅ view.listenerAllowed)

def resolveListenersetParent : Option ParentRef × List StatusCondition :=
  match view.listenerSets.find? fun s => s.namespace_ == parsed.targetNs route.namespace_ && s.name == parsed.name with
  | none => parentNotFound route parsed "ListenerSet"
  | some ls => resolveListenerParent (ownerQuery view route parsed "ListenerSet" ls.listeners ls.conflicts view.listenerSetAllowed)

def resolveRouteParent : Option ParentRef × List StatusCondition :=
  if parsed.group ≠ "gateway.networking.k8s.io" then unsupportedParent route parsed
  else
    match parsed.kind with
    | "Gateway" => resolveGatewayParent view route parsed
    | "ListenerSet" => resolveListenersetParent view route parsed
    | _ => unsupportedParent route parsed

end Resolution

def buildListenerAllowedMap (gateways : List GatewayObject) : ListenerAllowedMap :=
  HashMap.ofPairs (gateways.flatMap fun gw => (gw.listeners.filterMap Json.asObject).map fun obj =>
    ((gw.namespace_.getD "default", gw.name.getD "", (obj.getStr "name").getD ""), parseAllowedRoutes obj))

/-- what the reconciliation of routes takes from outside the view: how durations are read, which Services there are, the grants,
and what endpoints the backends of a rule stand for -/
structure RouteReconciler where
  parseDuration : String → Option ℕ := fun _ => none
  serviceExists : String → String → Bool := fun _ _ => true
  grants : GrantIndex := ⟨[]⟩
  expandRuleBackends : List WeightedBackend → List WeightedBackend := id

variable (view : GatewayView)

def acceptedParents (route : HTTPRouteObject) : List ParentRef :=
  (parseParentRefs route).filterMap fun parsed => (resolveRouteParent view route.identity parsed).1

def reconcileHttproute (env : RouteReconciler) (view : GatewayView) (route : HTTPRouteObject) : HTTPRouteState :=
  let state := collectRoute env.parseDuration env.serviceExists env.grants route.toHTTPRoute (acceptedParents view route)
  { state with rules := state.rules.map fun rule => { rule with backends := env.expandRuleBackends rule.backends } }

def reconcileTickRoutes (pki : Pki) (api : ApiServer) (index : GrantIndex) (others : List GatewayState → GatewayView)
    (env : RouteReconciler) (gateways : List GatewayObject) (routes : List HTTPRouteObject) : GatewayView :=
  reconcileTick pki api index (fun states =>
    let view := { others states with gateways := states, listenerAllowed := buildListenerAllowedMap gateways }
    { view with httpRoutes := routes.map (reconcileHttproute env view) }) gateways

def ParentRef.parsed (ref : ParentRef) : ParsedParentRef :=
  { group := ref.group, kind := ref.kind, namespace_ := ref.namespace_, name := ref.name, sectionName := ref.sectionName,
    port := ref.port.map fun p => (p.toNat : ℤ) }

def HTTPRouteState.identity (route : HTTPRouteState) : RouteIdentity :=
  { namespace_ := route.namespace_, generation := route.generation, hostnames := route.hostnames }

structure ParentOwner where
  listeners : List ListenerState
  conflicts : HashMap String String := ∅
  programmed : Bool := true

def parentOwner (kind ns name : String) : Option ParentOwner := if kind = "ListenerSet" then
    (view.listenerSets.find? fun s => s.namespace_ == ns && s.name == name).map fun ls =>
      ⟨ls.listeners, ls.conflicts, ls.programmed⟩
  else (view.gateways.find? fun g => g.namespace_ == ns && g.name == name).map fun gw => ⟨gw.listeners, ∅, true⟩

/-- the status of the route says that the reference is accepted -/
def Accepted (route : HTTPRouteState) (ref : ParentRef) : Prop :=
  (resolveRouteParent view route.identity ref.parsed).1.isSome = true

/-- an entry for the reference names a listener of its parent -/
def Attached (route : HTTPRouteState) (ref : ParentRef) : Prop :=
  ∃ e ∈ parentEntries view route "HTTPRoute" ref,
    ∃ owner, parentOwner view ref.kind (parentNamespace route ref) ref.name = some owner
      ∧ ∃ l ∈ owner.listeners, e.listenerId = some (listenerId (parentNamespace route ref) ref.name l)

def AcceptedAsAttached (route : HTTPRouteState) (ref : ParentRef) : Prop :=
  Accepted view route ref ↔ Attached view route ref

section Conditions

variable (view : GatewayView)

variable (parsed : ParsedParentRef)

def ParsedParentRef.Supported : Prop :=
  parsed.group = gatewayGroup ∧ (parsed.kind = "Gateway" ∨ parsed.kind = "ListenerSet")

/-- the reference's `sectionName` and `port`, where given, are the listener's -/
def ParsedParentRef.Selects (l : ListenerState) : Prop :=
  (∀ s, parsed.sectionName = some s → l.name = s) ∧ ∀ p, parsed.port = some p → p = l.port.toNat

variable (route : RouteIdentity)

/-- a programmed listener of the parent, without conflict, that the reference selects -/
def HealthyListener (parsed : ParsedParentRef) (l : ListenerState) : Prop :=
  ∃ owner, parentOwner view parsed.kind (parsed.targetNs route.namespace_) parsed.name = some owner ∧ l ∈ owner.listeners
    ∧ l.programmed = true ∧ owner.conflicts.get l.name = none ∧ parsed.Selects l

def ownerAllowedMap : ListenerAllowedMap :=
  if parsed.kind = "ListenerSet" then view.listenerSetAllowed else view.listenerAllowed

def ownerAllowed (parsed : ParsedParentRef) (l : ListenerState) : AllowedRoutes :=
  allowedRoutesOf (ownerAllowedMap view parsed) (parsed.targetNs route.namespace_) parsed.name l

/-- healthy listeners of the parent pass the checks between them: each is passed by one of them -/
structure PassedTogether (route : RouteIdentity) (parsed : ParsedParentRef) : Prop where
  supported : parsed.Supported
  kind : ∃ l, HealthyListener view route parsed l ∧ listenerAllowsKind (ownerAllowed view route parsed l) gatewayGroup route.kind = true
  protocol : ∃ l, HealthyListener view route parsed l ∧ ["HTTP", "HTTPS"].any (eqIgnoreAsciiCase · l.protocol) = true
  namespace_ : ∃ l, HealthyListener view route parsed l
    ∧ namespaceAllowed (ownerAllowed view route parsed l).namespaces route.namespace_ (parsed.targetNs route.namespace_)
      view.namespaceLabels = true
  hostname : ∃ l, HealthyListener view route parsed l ∧ listenerHostnameIntersects l.hostname route.hostnames = true

/-- a listener of the parent that the reference selects: a programmed one of a Gateway, any of a programmed ListenerSet -/
def ServedListener (parsed : ParsedParentRef) (l : ListenerState) : Prop :=
  ∃ owner, parentOwner view parsed.kind (parsed.targetNs route.namespace_) parsed.name = some owner ∧ l ∈ owner.listeners
    ∧ (if parsed.kind = "ListenerSet" then owner.programmed else l.programmed) = true ∧ parsed.Selects l

/-- one served listener passes all checks -/
def TakenByOne (parsed : ParsedParentRef) : Prop := ∃ l, ServedListener view route parsed l
    ∧ listenerAllowsKind (ownerAllowed view route parsed l) gatewayGroup route.kind = true
    ∧ namespaceAllowed (ownerAllowed view route parsed l).namespaces route.namespace_ (parsed.targetNs route.namespace_)
      view.namespaceLabels = true
    ∧ listenerHostnameIntersects l.hostname route.hostnames = true

end Conditions

section Acceptance

variable {view : GatewayView} {route : RouteIdentity} {parsed : ParsedParentRef}

theorem isMatching_iff {q : ParentQuery} {l : ListenerState} :
    q.isMatching l = true ↔ l.programmed = true ∧ q.conflicts.get l.name = none ∧ q.parsed.Selects l := by
  have hname : ∀ s, (s == l.name) = true ↔ l.name = s := fun s => by rw [beq_iff_eq, eq_comm]
  unfold ParentQuery.isMatching ParsedParentRef.Selects
  cases q.parsed.sectionName <;> cases q.parsed.port <;> simp only [Bool.and_eq_true, hname] <;> simp [and_assoc]

/-- **The cases of a resolution.** A reference that is not supported is refused, and otherwise the parent is asked if there is one. -/
theorem resolveRouteParent_cases (view : GatewayView) (route : RouteIdentity) (parsed : ParsedParentRef) :
    (¬parsed.Supported ∧ resolveRouteParent view route parsed = unsupportedParent route parsed)
      ∨ parsed.Supported ∧ ∃ ownerKind, resolveRouteParent view route parsed
        = (parentOwner view parsed.kind (parsed.targetNs route.namespace_) parsed.name).elim (parentNotFound route parsed ownerKind)
            fun owner => resolveListenerParent
              (ownerQuery view route parsed ownerKind owner.listeners owner.conflicts (ownerAllowedMap view parsed)) := by
  unfold resolveRouteParent
  split_ifs with hgroup
  · exact .inl ⟨fun h => hgroup h.1, rfl⟩
  · have hgroup := not_not.1 hgroup
    split
    · rename_i hkind
      have hset : ¬parsed.kind = "ListenerSet" := by rw [hkind]; decide
      refine .inr ⟨⟨hgroup, .inl hkind⟩, "Gateway", ?_⟩
      simp only [resolveGatewayParent, parentOwner, ownerAllowedMap, if_neg hset]
      cases view.gateways.find? fun g => g.namespace_ == parsed.targetNs route.namespace_ && g.name == parsed.name <;> rfl
    · rename_i hkind
      refine .inr ⟨⟨hgroup, .inr hkind⟩, "ListenerSet", ?_⟩
      simp only [resolveListenersetParent, parentOwner, ownerAllowedMap, if_pos hkind]
      cases view.listenerSets.find? fun s => s.namespace_ == parsed.targetNs route.namespace_ && s.name == parsed.name <;> rfl
    · rename_i hgateway hset
      exact .inl ⟨fun h => h.2.elim hgateway hset, rfl⟩

theorem ownerQuery_isSome_iff {ownerKind : String} {owner : ParentOwner}
    (howner : parentOwner view parsed.kind (parsed.targetNs route.namespace_) parsed.name = some owner)
    (hsupported : parsed.Supported) :
    (resolveListenerParent
        (ownerQuery view route parsed ownerKind owner.listeners owner.conflicts (ownerAllowedMap view parsed))).1.isSome = true
      ↔ PassedTogether view route parsed := by
  have hhealthy : ∀ l, l ∈ (ownerQuery view route parsed ownerKind owner.listeners owner.conflicts
      (ownerAllowedMap view parsed)).matchingListeners ↔ HealthyListener view route parsed l := by
    intro l
    rw [ParentQuery.mem_matchingListeners, isMatching_iff, HealthyListener, howner]
    simp [ownerQuery]
  rw [resolveListenerParent_isSome_iff, ParentQuery.Covered]
  simp only [hhealthy]
  apply Iff.intro
  · rintro ⟨hkind, hprotocol, hns, hhost⟩
    exact ⟨hsupported, hkind, hprotocol, hns, hhost⟩
  · intro h
    exact ⟨h.kind, h.protocol, h.namespace_, h.hostname⟩

/-- **Acceptance.** A reference is accepted when healthy listeners of its parent pass the checks between them. -/
theorem accepted_iff_together : (resolveRouteParent view route parsed).1.isSome = true ↔ PassedTogether view route parsed := by
  rcases resolveRouteParent_cases view route parsed with ⟨hunsupported, heq⟩ | ⟨hsupported, ownerKind, heq⟩
  · rw [heq]
    exact iff_of_false (fun h => nomatch h) fun hpassed => hunsupported hpassed.supported
  · rw [heq]
    cases howner : parentOwner view parsed.kind (parsed.targetNs route.namespace_) parsed.name with
    | none =>
      refine iff_of_false (fun h => nomatch h) fun hpassed => ?_
      obtain ⟨l, ⟨owner, hsome, -⟩, -⟩ := hpassed.kind
      rw [howner] at hsome
      cases hsome
    | some owner => exact ownerQuery_isSome_iff howner hsupported

end Acceptance

variable {ref : ParentRef} {l : ListenerState}

theorem selects_parsed : ref.selects l = true ↔ ref.parsed.Selects l := by
  rw [selects_iff, ParsedParentRef.Selects]
  cases hport : ref.port <;> simp [ParentRef.parsed, hport, UInt16.toNat_inj, eq_comm]

variable {view : GatewayView}

theorem mem_parentListeners_iff {ns : String} :
    l ∈ (parentListeners view ns ref).listeners ↔ ∃ owner, parentOwner view ref.kind ns ref.name = some owner ∧ l ∈ owner.listeners
      ∧ (if ref.kind = "ListenerSet" then owner.programmed else l.programmed) = true ∧ ref.selects l = true := by
  unfold parentListeners parentOwner
  split_ifs with hkind
  · cases view.listenerSets.find? fun s => s.namespace_ == ns && s.name == ref.name with
    | none => simp
    | some ls => cases hprogrammed : ls.programmed <;> simp [hprogrammed]
  · cases view.gateways.find? fun g => g.namespace_ == ns && g.name == ref.name <;> simp

theorem attachedHostnames_ne_nil {R : Type} [RouteHostnames R] {route : R}
    (h : listenerHostnameIntersects l.hostname (RouteHostnames.routeHostnames route) = true) : attachedHostnames route l ≠ [] := by
  unfold attachedHostnames
  split_ifs with hempty
  · simp
  · unfold listenerHostnameIntersects at h
    rw [Bool.or_eq_true, or_iff_right hempty] at h
    unfold intersectHostnames
    cases hhost : l.hostname with
    | none => simpa using hempty
    | some host =>
      rw [hhost, List.any_eq_true] at h
      obtain ⟨rh, hrh, hintersects⟩ := h
      have hpair : (intersectHostnamePair rh (parseListenerHostname host)).isSome = true := by
        unfold intersectHostnamePair
        rw [hostnameIntersects, Bool.or_eq_true] at hintersects
        split_ifs with hsub hsub'
        · rfl
        · rfl
        · exact absurd hintersects (not_or.2 ⟨hsub, hsub'⟩)
      obtain ⟨m, hm⟩ := Option.isSome_iff_exists.1 hpair
      exact List.ne_nil_of_mem (List.mem_filterMap.2 ⟨rh, hrh, hm⟩)

/-- **Attachment.** An entry of a reference names a listener when one listener of the parent takes the route. -/
theorem attached_iff_taken {route : HTTPRouteState} : Attached view route ref ↔ TakenByOne view route.identity ref.parsed := by
  apply Iff.intro
  · rintro ⟨e, he, _, _, named, _, hid⟩
    obtain ⟨l, hl, hattaches, -, -⟩ := exists_parentEntry_iff.1 ⟨e, he, hid⟩
    obtain ⟨owner, howner, hmem, hserved, hselects⟩ := mem_parentListeners_iff.1 hl
    simp only [attaches, Bool.and_eq_true] at hattaches
    exact ⟨l, ⟨owner, howner, hmem, hserved, selects_parsed.1 hselects⟩, hattaches.1.1, hattaches.1.2, hattaches.2⟩
  · rintro ⟨l, ⟨owner, howner, hmem, hserved, hselects⟩, hkind, hns, hhost⟩
    have hl : l ∈ (parentListeners view (parentNamespace route ref) ref).listeners :=
      mem_parentListeners_iff.2 ⟨owner, howner, hmem, hserved, selects_parsed.2 hselects⟩
    have hattaches : attaches view route "HTTPRoute" ref (allowedMapFor view ref) l = true := by
      simp only [attaches, Bool.and_eq_true]
      exact ⟨⟨hkind, hns⟩, hhost⟩
    obtain ⟨e, he, hid⟩ := exists_parentEntry_iff.2 ⟨l, hl, hattaches, attachedHostnames_ne_nil hhost, rfl⟩
    exact ⟨e, he, owner, howner, l, hmem, hid⟩

theorem resolveListenerParent_eq_some {q : ParentQuery} (h : (resolveListenerParent q).1 = some ref) : ref = q.resolvedRef := by
  unfold resolveListenerParent at h
  split at h
  · cases h
  · split at h
    · cases h
    · dsimp only at h
      split_ifs at h
      · cases h
      · cases h
      · exact (Option.some.inj h).symm

theorem resolvedRef_parsed {q : ParentQuery} (h : q.Covered) :
    q.resolvedRef.parsed = { q.parsed with namespace_ := some q.targetNs } := by
  obtain ⟨l, hl, -⟩ := h.1
  obtain ⟨-, -, -, hport⟩ := isMatching_iff.1 (ParentQuery.mem_matchingListeners.1 hl).2
  have hkept : ((q.parsed.port.map fun p => UInt16.ofNat (p % 65536).toNat).map fun p => (p.toNat : ℤ)) = q.parsed.port := by
    cases hp : q.parsed.port with
    | none => rfl
    | some p =>
      have hlt := l.port.toNat_lt
      rw [hport p hp]
      simp only [Option.map_some, UInt16.toNat_ofNat', Option.some.injEq]
      omega
  simp [ParentRef.parsed, ParentQuery.resolvedRef, hkept]

theorem resolveRouteParent_eq_some {route : RouteIdentity} {parsed : ParsedParentRef}
    (h : (resolveRouteParent view route parsed).1 = some ref) :
    ref.parsed = { parsed with namespace_ := some (parsed.targetNs route.namespace_) } := by
  rcases resolveRouteParent_cases view route parsed with ⟨-, heq⟩ | ⟨-, ownerKind, heq⟩
  · rw [heq] at h
    cases h
  · rw [heq] at h
    cases howner : parentOwner view parsed.kind (parsed.targetNs route.namespace_) parsed.name with
    | none =>
      rw [howner] at h
      cases h
    | some owner =>
      rw [howner, Option.elim_some] at h
      rw [resolveListenerParent_eq_some h]
      exact resolvedRef_parsed ((resolveListenerParent_isSome_iff _).1 (by rw [h]; rfl))

theorem passedTogether_of_mem {pki : Pki} {api : ApiServer} {index : GrantIndex}
    {others : List GatewayState → GatewayView} {env : RouteReconciler} {gateways : List GatewayObject}
    {routes : List HTTPRouteObject} {route : HTTPRouteState}
    (hroute : route ∈ (reconcileTickRoutes pki api index others env gateways routes).httpRoutes)
    (href : ref ∈ route.parentRefs) :
    PassedTogether (reconcileTickRoutes pki api index others env gateways routes) route.identity ref.parsed := by
  obtain ⟨obj, -, rfl⟩ := List.mem_map.1 hroute
  obtain ⟨parsed, -, hsome⟩ := List.mem_filterMap.1 href
  have hpassed := accepted_iff_together.1 (Option.isSome_iff_exists.2 ⟨ref, hsome⟩)
  rw [resolveRouteParent_eq_some hsome]
  -- neither the other routes of the view nor the generation play a part
  exact ⟨hpassed.supported, hpassed.kind, hpassed.protocol, hpassed.namespace_, hpassed.hostname⟩

/-- **Acceptance and attachment.** They agree for a reference exactly when healthy listeners pass the checks between them just
where one listener takes the route. -/
theorem accepted_as_attached_iff (pki : Pki) (api : ApiServer) (index : GrantIndex) (others : List GatewayState → GatewayView)
    (env : RouteReconciler) (gateways : List GatewayObject) (routes : List HTTPRouteObject) (route : HTTPRouteState)
    (ref : ParentRef) :
    (AcceptedAsAttached (reconcileTickRoutes pki api index others env gateways routes) route ref
        ↔ (PassedTogether (reconcileTickRoutes pki api index others env gateways routes) route.identity ref.parsed
          ↔ TakenByOne (reconcileTickRoutes pki api index others env gateways routes) route.identity ref.parsed))
      ∧ (route ∈ (reconcileTickRoutes pki api index others env gateways routes).httpRoutes → ref ∈ route.parentRefs →
        (AcceptedAsAttached (reconcileTickRoutes pki api index others env gateways routes) route ref
          ↔ TakenByOne (reconcileTickRoutes pki api index others env gateways routes) route.identity ref.parsed)) := by
  have hagree : ∀ view, AcceptedAsAttached view route ref
      ↔ (PassedTogether view route.identity ref.parsed ↔ TakenByOne view route.identity ref.parsed) := by
    intro view
    rw [AcceptedAsAttached, Accepted, accepted_iff_together, attached_iff_taken]
  refine ⟨hagree _, fun hroute href => ?_⟩
  rw [hagree, iff_true_left (passedTogether_of_mem hroute href)]

def sharedGateway : GatewayObject :=
  { namespace_ := some "infra", name := some "edge", gatewayClassName := "sunbeam"
    listeners :=
      [.object [("name", .string "web"), ("protocol", .string "HTTP"), ("port", .number (.posInt 80))],
        .object [("name", .string "raw"), ("protocol", .string "TCP"), ("port", .number (.posInt 9000)),
          ("allowedRoutes", .object [("kinds", .array [.object [("kind", .string "TCPRoute")]]),
            ("namespaces", .object [("from", .string "All")])])]] }

def tenantRoute : HTTPRouteObject :=
  { namespace_ := some "tenant", name := some "shop", parentRefs := some [{ namespace_ := some "infra", name := "edge" }] }

def sharedTick : GatewayView := reconcileTickRoutes emptyPki {} ⟨[]⟩ (fun _ => {}) {} [sharedGateway] [tenantRoute]

def tenantState : HTTPRouteState := { namespace_ := "tenant", name := "shop", parentRefs := [{ namespace_ := some "infra", name := "edge" }] }

theorem accepted_without_listener : sharedTick.httpRoutes = [tenantState] ∧ ∀ ref ∈ tenantState.parentRefs,
        (resolveRouteParent sharedTick tenantState.identity ref.parsed).2
            = [acceptedCondition .true "Accepted" "Route accepted by parent" 0]
          ∧ parentEntries sharedTick tenantState "HTTPRoute" ref = [fallbackEntry .any]
          ∧ ¬AcceptedAsAttached sharedTick tenantState ref := by
  have hentries : parentEntries sharedTick tenantState "HTTPRoute" { namespace_ := some "infra", name := "edge" }
      = [fallbackEntry .any] := by decide
  refine ⟨by decide, fun ref href => ?_⟩
  rw [List.mem_singleton.1 href]
  refine ⟨by decide, hentries, fun h => ?_⟩
  obtain ⟨e, he, _, _, l, _, hid⟩ := h.1 (show _ = true by decide)
  rw [hentries, List.mem_singleton] at he
  rw [he] at hid
  cases hid

end SunbeamProxy.Gateway
