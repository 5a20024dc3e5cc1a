/-
What the status of a Gateway says is attached to it: `count_attached_routes` (`gateway/reconcile/gateway/attachment.rs`) and
`count_attached_listener_sets` (`gateway/reconcile/listenerset/state.rs`).
-/
import SunbeamProxy.Gateway.L4Parents
import SunbeamProxy.Gateway.ListenerSets

namespace SunbeamProxy.Gateway

open List

/-! ## Routes -/

/-- a route of the cluster: what its reconciliation reads, and for an L4 route what it is parsed to -/
inductive RouteResource where
  | http (route : RouteIdentity) (parentRefs : List ParsedParentRef)
  | grpc (route : RouteIdentity) (parentRefs : List ParsedParentRef)
  | l4 (kind : L4RouteKind) (route : ParsedL4Route)

namespace RouteResource

def namespace_ : RouteResource → String
  | .http route _ => route.namespace_
  | .grpc route _ => route.namespace_
  | .l4 _ route => route.namespace_

def parentRefs : RouteResource → List ParsedParentRef
  | .http _ refs => refs
  | .grpc _ refs => refs
  | .l4 _ route => route.parentRefs

/-- the kind, the protocols and the hostnames that a route is counted with; GRPC routes are not listed -/
def counted : RouteResource → String × List String × List HostnameMatch
  | .http route _ => ("HTTPRoute", ["HTTPS", "HTTP"], route.hostnames)
  | .grpc _ _ => ("GRPCRoute", [], [])
  | .l4 .tls route => ("TLSRoute", ["TLS"], route.hostnames)
  | .l4 kind _ => (kind.routeKind, kind.protocols, [])

end RouteResource

section Routes

variable (serviceExists : String → String → Bool) (index : GrantIndex) (view : GatewayView) (gw : GatewayState) (l : ListenerState)

variable (route : RouteResource)

def increments (parent : ParsedParentRef) (protocol : String) : Bool :=
  let allowed := allowedRoutesOf view.listenerAllowed gw.namespace_ gw.name l
  parent.group == gatewayGroup && parent.kind == "Gateway"
    && parent.namespace_.getD route.namespace_ == gw.namespace_ && parent.name == gw.name
    && parent.sectionName.all (· == l.name) && parent.port.all (fun p => UInt16.ofNat (p % 65536).toNat == l.port)
    && l.protocol == protocol && listenerAllowsKind allowed gatewayGroup route.counted.1
    && namespaceAllowed allowed.namespaces route.namespace_ gw.namespace_ view.namespaceLabels
    && listenerHostnameIntersects l.hostname route.counted.2.2

def routeCount : ℕ :=
  (route.parentRefs.map fun parent => route.counted.2.1.countP (increments view gw l route parent)).sum

def countAttachedRoutes (routes : List RouteResource) : ℕ := (routes.map (routeCount view gw l)).sum

/-- a route with the references that the reconciliation accepted -/
structure AcceptedRoute where
  route : RouteIdentity
  parentRefs : List ParentRef

instance acceptedRoute_hostnames : RouteHostnames AcceptedRoute := ⟨(·.route.namespace_), (·.parentRefs), (·.route.hostnames)⟩

def acceptRoute (route : RouteIdentity) (parentRefs : List ParsedParentRef) : AcceptedRoute :=
  ⟨route, parentRefs.filterMap fun parsed => (resolveRouteParent view route parsed).1⟩

def entryListeners (route : RouteIdentity) (parentRefs : List ParsedParentRef) : List String :=
  (computeEffectiveHostnames view (acceptRoute view route parentRefs) route.kind).filterMap (·.listenerId)

def boundListeners : RouteResource → List String
  | .http route refs => entryListeners view { route with kind := "HTTPRoute" } refs
  | .grpc route refs => entryListeners view { route with kind := "GRPCRoute" } refs
  | .l4 kind route => (emittedL4Routes serviceExists index ⟨view.gateways, view.namespaceLabels, view.listenerAllowed⟩ kind route).map
      (·.listenerId)

def attachedTo : Bool :=
  (boundListeners serviceExists index view route).contains (listenerId gw.namespace_ gw.name l)

/-- a reference that passes the test of the counter for a protocol of its route -/
def Counts (parent : ParsedParentRef) : Prop :=
  ∃ protocol ∈ route.counted.2.1, increments view gw l route parent protocol = true

instance counts_decidable (route : RouteResource) (parent : ParsedParentRef) : Decidable (Counts view gw l route parent) :=
  inferInstanceAs (Decidable (∃ protocol ∈ route.counted.2.1, increments view gw l route parent protocol = true))

variable (id : String)

/-- a listener of the parent that has the id and takes the route -/
def TakenAs (route : RouteIdentity) (parsed : ParsedParentRef) : Prop := ∃ l, ServedListener view route parsed l
    ∧ listenerAllowsKind (ownerAllowed view route parsed l) gatewayGroup route.kind = true
    ∧ namespaceAllowed (ownerAllowed view route parsed l).namespaces route.namespace_ (parsed.targetNs route.namespace_)
      view.namespaceLabels = true
    ∧ listenerHostnameIntersects l.hostname route.hostnames = true
    ∧ listenerId (parsed.targetNs route.namespace_) parsed.name l = id

/-- the reference is accepted and the listener of this id takes the route -/
def AcceptedAs (route : RouteIdentity) (parsed : ParsedParentRef) : Prop :=
  PassedTogether view route parsed ∧ TakenAs view id route parsed

/-- by its references a route is attached to the listener with the id: an HTTP or GRPC route by one that is accepted, an L4 route by
one that can be bound, if all of it resolves -/
def AttachesTo : RouteResource → Prop
  | .http route refs => ∃ parsed ∈ refs, AcceptedAs view id { route with kind := "HTTPRoute" } parsed
  | .grpc route refs => ∃ parsed ∈ refs, AcceptedAs view id { route with kind := "GRPCRoute" } parsed
  | .l4 kind route => AllResolved serviceExists index ⟨view.gateways, view.namespaceLabels, view.listenerAllowed⟩ kind route
      ∧ ∃ parsed ∈ route.parentRefs, ∃ g l',
        Bindable ⟨view.gateways, view.namespaceLabels, view.listenerAllowed⟩ kind route parsed g l' ∧ listenerId g.namespace_ g.name l' = id

/-- one reference is counted if the route is attached, and none otherwise -/
structure CountedOnce (route : RouteResource) : Prop where
  one : AttachesTo serviceExists index view (listenerId gw.namespace_ gw.name l) route →
    ∃ before parent after, route.parentRefs = before ++ parent :: after ∧ Counts view gw l route parent
      ∧ ∀ other ∈ before ++ after, ¬Counts view gw l route other
  none : ¬AttachesTo serviceExists index view (listenerId gw.namespace_ gw.name l) route →
    ∀ parent ∈ route.parentRefs, ¬Counts view gw l route parent

variable {serviceExists index view gw l}

theorem countP_eq_one_iff {α : Type} {p : α → Bool} {as : List α} : as.countP p = 1
    ↔ ∃ before a after, as = before ++ a :: after ∧ p a = true ∧ ∀ b ∈ before ++ after, ¬p b = true := by
  constructor
  · intro h
    obtain ⟨a, ha, hp⟩ := countP_pos_iff.1 (h ▸ Nat.one_pos)
    obtain ⟨before, after, rfl⟩ := append_of_mem ha
    rw [countP_append, countP_cons_of_pos hp] at h
    have hrest : (before ++ after).countP p = 0 := by
      rw [countP_append]
      omega
    exact ⟨before, a, after, rfl, hp, countP_eq_zero.1 hrest⟩
  · rintro ⟨before, a, after, rfl, hp, hrest⟩
    have hnone := countP_eq_zero.2 hrest
    rw [countP_append] at hnone
    rw [countP_append, countP_cons_of_pos hp]
    omega

theorem countP_increments (parent : ParsedParentRef) :
    route.counted.2.1.countP (increments view gw l route parent) = if Counts view gw l route parent then 1 else 0 := by
  have hprotocol : ∀ protocol, increments view gw l route parent protocol = true → protocol = l.protocol := by
    intro protocol h
    simp only [increments, Bool.and_eq_true, beq_iff_eq] at h
    exact h.1.1.1.2.symm
  have hnodup : route.counted.2.1.Nodup := by
    rcases route with _ | _ | ⟨_ | _ | _, _⟩ <;> simp [RouteResource.counted, L4RouteKind.protocols]
  split_ifs with hcounts
  · obtain ⟨protocol, hmem, hinc⟩ := hcounts
    have hone : route.counted.2.1.countP (· == protocol) = 1 := count_eq_one_of_mem hnodup hmem
    rw [← hone]
    refine countP_congr fun p _ => ⟨fun hp => ?_, fun hp => ?_⟩
    · rw [beq_iff_eq, hprotocol p hp, hprotocol protocol hinc]
    · rwa [beq_iff_eq.1 hp]
  · exact countP_eq_zero.2 fun p hp hinc => hcounts ⟨p, hp, hinc⟩

theorem routeCount_eq :
    routeCount view gw l route = route.parentRefs.countP fun parent => decide (Counts view gw l route parent) := by
  simp only [routeCount, countP_increments]
  induction route.parentRefs with
  | nil => rfl
  | cons parent parents ih => rw [map_cons, sum_cons, ih, countP_cons, Nat.add_comm]; simp

theorem takenAs_iff {route : RouteIdentity} {refs : List ParsedParentRef} {ref : ParentRef} {id : String} :
    TakenAs view id route ref.parsed
      ↔ ∃ l ∈ (parentListeners view (parentNamespace (acceptRoute view route refs) ref) ref).listeners,
        attaches view (acceptRoute view route refs) route.kind ref (allowedMapFor view ref) l = true
          ∧ attachedHostnames (acceptRoute view route refs) l ≠ []
          ∧ listenerId (parentNamespace (acceptRoute view route refs) ref) ref.name l = id := by
  refine exists_congr fun l => ?_
  simp only [mem_parentListeners_iff, selects_parsed, attaches, Bool.and_eq_true]
  constructor
  · rintro ⟨hserved, hkind, hns, hhost, hid⟩
    exact ⟨hserved, ⟨⟨hkind, hns⟩, hhost⟩, attachedHostnames_ne_nil hhost, hid⟩
  · rintro ⟨hserved, ⟨⟨hkind, hns⟩, hhost⟩, -, hid⟩
    exact ⟨hserved, hkind, hns, hhost, hid⟩

theorem mem_entryListeners_iff {route : RouteIdentity} {refs : List ParsedParentRef} {id : String} :
    id ∈ entryListeners view route refs ↔ ∃ parsed ∈ refs, AcceptedAs view id route parsed := by
  rw [entryListeners, mem_filterMap, exists_entry_iff, TakesRoute]
  simp only [← takenAs_iff]
  constructor
  · rintro ⟨ref, href, htaken⟩
    obtain ⟨parsed, hparsed, hsome⟩ := mem_filterMap.1 href
    rw [resolveRouteParent_eq_some hsome] at htaken
    exact ⟨parsed, hparsed, accepted_iff_together.1 (Option.isSome_iff_exists.2 ⟨ref, hsome⟩), htaken⟩
  · rintro ⟨parsed, hparsed, hpassed, htaken⟩
    obtain ⟨ref, hsome⟩ := Option.isSome_iff_exists.1 (accepted_iff_together.2 hpassed)
    refine ⟨ref, mem_filterMap.2 ⟨parsed, hparsed, hsome⟩, ?_⟩
    rw [resolveRouteParent_eq_some hsome]
    exact htaken

theorem attachedTo_iff : attachedTo serviceExists index view gw l route = true
    ↔ AttachesTo serviceExists index view (listenerId gw.namespace_ gw.name l) route := by
  rw [attachedTo, contains_iff_mem]
  cases route with
  | http route refs => exact mem_entryListeners_iff
  | grpc route refs => exact mem_entryListeners_iff
  | l4 kind route =>
    have hforall := forall_emitted_iff serviceExists index ⟨view.gateways, view.namespaceLabels, view.listenerAllowed⟩ kind route
      (· ≠ listenerId gw.namespace_ gw.name l)
    rw [← not_iff_not] at hforall
    rw [boundListeners, AttachesTo, mem_map]
    simpa using hforall

theorem countedOnce_iff :
    routeCount view gw l route = (if attachedTo serviceExists index view gw l route then 1 else 0)
      ↔ CountedOnce serviceExists index view gw l route := by
  have hiff := @attachedTo_iff serviceExists index view gw l route
  rw [routeCount_eq]
  cases hattached : attachedTo serviceExists index view gw l route with
  | true =>
    rw [if_pos rfl, countP_eq_one_iff]
    simp only [decide_eq_true_iff]
    exact ⟨fun h => ⟨fun _ => h, fun hnot => absurd (hiff.1 hattached) hnot⟩, fun h => h.one (hiff.1 hattached)⟩
  | false =>
    have hnot := mt hiff.2 (by simp [hattached])
    rw [if_neg Bool.false_ne_true, countP_eq_zero]
    simp only [decide_eq_true_iff]
    exact ⟨fun h => ⟨fun hyes => absurd hyes hnot, fun _ => h⟩, fun h => h.none hnot⟩

end Routes

/-- **Attached routes.** The number reported for a listener is that of the attached routes, whichever routes of the cluster there are,
exactly when each of them has one reference that is counted if it is attached and none if it is not. -/
theorem attached_routes_counted_iff (serviceExists : String → String → Bool) (index : GrantIndex) (view : GatewayView)
    (gw : GatewayState) (l : ListenerState) (cluster : List RouteResource) :
    (∀ routes, routes.Sublist cluster →
        countAttachedRoutes view gw l routes = routes.countP (attachedTo serviceExists index view gw l))
      ↔ ∀ route ∈ cluster, CountedOnce serviceExists index view gw l route := by
  simp only [← countedOnce_iff]
  refine ⟨fun h route hroute => ?_, fun h routes hroutes => ?_⟩
  · have hone := h [route] (singleton_sublist.2 hroute)
    simpa [countAttachedRoutes] using hone
  · have hsame := fun route hroute => h route (hroutes.subset hroute)
    clear hroutes h
    induction routes with
    | nil => rfl
    | cons route routes ih =>
      have hrest := ih fun r hr => hsame r (mem_cons_of_mem _ hr)
      rw [countAttachedRoutes, map_cons, sum_cons, ← countAttachedRoutes, hrest, hsame route mem_cons_self,
        countP_cons, Nat.add_comm]

/-! ### A route with two references to one listener -/

def countedListener : ListenerState := { name := "web", protocol := "HTTP", port := 80 }

def countedGateway : GatewayState := { namespace_ := "infra", name := "edge", listeners := [countedListener] }

def countedView : GatewayView := { gateways := [countedGateway] }

def countedRoute (parentRefs : List ParsedParentRef) : RouteResource := .http { namespace_ := "infra" } parentRefs

/-- of two routes one has a second reference to another Gateway -/
theorem attached_routes_counted_once :
    let routes := [countedRoute [{ name := "edge" }, { name := "other" }], countedRoute [{ name := "edge", sectionName := some "web" }]]
    countAttachedRoutes countedView countedGateway countedListener routes
      = routes.countP (attachedTo (fun _ _ => true) ⟨[]⟩ countedView countedGateway countedListener) := by
  intro routes
  refine (attached_routes_counted_iff _ _ countedView countedGateway countedListener routes).2 ?_ _ (.refl _)
  simp only [← countedOnce_iff]
  decide

theorem route_counted_twice :
    let routes := [countedRoute [{ name := "edge" }, { name := "edge", sectionName := some "web" }]]
    countAttachedRoutes countedView countedGateway countedListener routes = 2
      ∧ routes.countP (attachedTo (fun _ _ => true) ⟨[]⟩ countedView countedGateway countedListener) = 1 := by
  decide

section Sets

variable (gateways : List GatewayState)

def findParentGateway (ls : ListenerSetRecord) : Option GatewayState :=
  gateways.find? fun g => (g.namespace_, g.name) = ls.parentGateway

def buildListenerSetState (allows : GatewayState → String → Bool) (valid : ListenerSetRecord → Bool) (ls : ListenerSetRecord) :
    ListenerSetRecord :=
  let allowed := (findParentGateway gateways ls).any (allows · ls.namespace_)
  let accepted := allowed && valid ls
  { ls with
    listeners := if allowed then ls.listeners else []
    conflicts := ∅
    accepted, programmed := accepted
    reason := if !allowed then "NotAllowed" else if !valid ls then "ListenersNotValid" else "Accepted" }

end Sets

def countAttachedListenerSets (gwNs gwName : String) (sets : List ListenerSetRecord) : ℕ :=
  sets.countP fun ls => ls.parentRef.namespace_.getD gwNs == gwNs && ls.parentRef.name == gwName && ls.accepted && ls.programmed

def attachedSet (gateways : List GatewayState) (gw : GatewayState) (ls : ListenerSetRecord) : Bool :=
  ls.accepted && (findParentGateway gateways ls).any fun g => (g.namespace_, g.name) = (gw.namespace_, gw.name)

theorem findParentGateway_key {gateways : List GatewayState} {ls : ListenerSetRecord} {g : GatewayState}
    (h : findParentGateway gateways ls = some g) : (g.namespace_, g.name) = ls.parentGateway := by
  simpa using find?_some h

theorem attachedSet_iff {gateways : List GatewayState} {gw : GatewayState} (hgw : gw ∈ gateways) (ls : ListenerSetRecord) :
    attachedSet gateways gw ls = true ↔ ls.accepted = true ∧ ls.parentGateway = (gw.namespace_, gw.name) := by
  rw [attachedSet, Bool.and_eq_true, Option.any_eq_true]
  refine and_congr_right fun _ => ⟨?_, fun h => ?_⟩
  · rintro ⟨g, hg, hkey⟩
    exact (findParentGateway_key hg).symm.trans (of_decide_eq_true hkey)
  · have hfound : (findParentGateway gateways ls).isSome = true := find?_isSome.2 ⟨gw, hgw, by simpa using h.symm⟩
    obtain ⟨g, hg⟩ := Option.isSome_iff_exists.1 hfound
    exact ⟨g, hg, decide_eq_true ((findParentGateway_key hg).trans h)⟩

theorem countP_eq_iff {α : Type} {p q : α → Bool} {l : List α} (himp : ∀ a ∈ l, q a = true → p a = true) :
    l.countP p = l.countP q ↔ ∀ a ∈ l, p a = true → q a = true := by
  refine ⟨fun h a ha hp => ?_, fun h => countP_congr fun a ha => ⟨h a ha, himp a ha⟩⟩
  have hboth : l.filter q = (l.filter p).filter q := by
    rw [filter_filter]
    exact filter_congr fun a ha => by cases hq : q a <;> simp_all
  simp only [countP_eq_length_filter, hboth] at h
  have hall := filter_sublist.eq_of_length h.symm
  exact (mem_filter.1 (hall.symm ▸ mem_filter.2 ⟨ha, hp⟩ : a ∈ (l.filter p).filter q)).2

theorem programmed_resolve {reserved : UInt16 → Bool} {sets : List ListenerSetRecord} {states : List GatewayState}
    (h : ∀ ls ∈ sets, ls.accepted = ls.programmed) {ls : ListenerSetRecord}
    (hls : ls ∈ resolveListenerSetConflicts reserved sets states) : ls.accepted = ls.programmed := by
  rw [resolve_eq_map] at hls
  obtain ⟨e, he, rfl⟩ := mem_map.1 hls
  have hsame := h e.1 (fst_mem_of_mem_zipIdx he)
  rw [ListenerSetRecord.resolved, ListenerSetRecord.foldl_addConflict, ListenerSetRecord.refuseUnlessValid]
  split_ifs
  · rfl
  · exact hsame

/-- **Attached ListenerSets.** The number reported for a Gateway is right exactly when every accepted set that names it and no
namespace is of the Gateway's own namespace. -/
theorem attached_sets_counted_iff (allows : GatewayState → String → Bool) (valid : ListenerSetRecord → Bool)
    (reserved : UInt16 → Bool) (gateways : List GatewayState) (raw : List ListenerSetRecord) (gw : GatewayState)
    (hgw : gw ∈ gateways) :
    let sets := resolveListenerSetConflicts reserved (raw.map (buildListenerSetState gateways allows valid)) gateways
    countAttachedListenerSets gw.namespace_ gw.name sets = sets.countP (attachedSet gateways gw)
      ↔ ∀ ls ∈ sets, ls.accepted = true → ls.parentRef.namespace_ = none → ls.parentRef.name = gw.name →
        ls.namespace_ = gw.namespace_ := by
  intro sets
  have hprogrammed : ∀ ls ∈ sets, ls.accepted = ls.programmed := by
    refine fun ls hls => programmed_resolve (fun ls hls => ?_) hls
    obtain ⟨_, _, rfl⟩ := mem_map.1 hls
    rfl
  have hcounted : ∀ ls ∈ sets, (ls.parentRef.namespace_.getD gw.namespace_ == gw.namespace_ && ls.parentRef.name == gw.name
      && ls.accepted && ls.programmed) = true
      ↔ ls.accepted = true ∧ ls.parentRef.namespace_.getD gw.namespace_ = gw.namespace_ ∧ ls.parentRef.name = gw.name := by
    intro ls hls
    rw [← hprogrammed ls hls]
    simp only [Bool.and_eq_true, beq_iff_eq]
    tauto
  have hattached : ∀ ls, attachedSet gateways gw ls = true ↔ ls.accepted = true
      ∧ ls.parentRef.namespace_.getD ls.namespace_ = gw.namespace_ ∧ ls.parentRef.name = gw.name := by
    intro ls
    rw [attachedSet_iff hgw, ListenerSetRecord.parentGateway, Prod.mk.injEq]
  -- the two differ in what an absent namespace stands for
  rw [countAttachedListenerSets, countP_eq_iff fun ls hls h => ?_]
  · refine forall₂_congr fun ls hls => ?_
    rw [hcounted ls hls, hattached]
    cases ls.parentRef.namespace_ <;> simp +contextual
  · cases hns : ls.parentRef.namespace_ <;> simp_all

def sharedSet : ListenerSetRecord :=
  { namespace_ := "shop", name := "extra", parentRef := { name := "edge" }
    listeners := [{ name := "main", protocol := "HTTP", port := 8080 }] }

def edgeIn (ns : String) : GatewayState := { namespace_ := ns, name := "edge" }

theorem attached_sets_counted_alone : countAttachedListenerSets "shop" "edge" (resolveListenerSetConflicts (fun _ => false)
        ([sharedSet].map (buildListenerSetState [edgeIn "shop"] (fun _ _ => true) fun _ => true)) [edgeIn "shop"])
      = (resolveListenerSetConflicts (fun _ => false)
        ([sharedSet].map (buildListenerSetState [edgeIn "shop"] (fun _ _ => true) fun _ => true)) [edgeIn "shop"]).countP
          (attachedSet [edgeIn "shop"] (edgeIn "shop")) :=
  (attached_sets_counted_iff (fun _ _ => true) (fun _ => true) (fun _ => false) [edgeIn "shop"] [sharedSet] (edgeIn "shop")
    (mem_singleton.2 rfl)).2 (forall_mem_singleton.2 fun _ _ _ => rfl)

theorem set_counted_elsewhere : let gateways := [edgeIn "infra", edgeIn "shop"]
    let sets := resolveListenerSetConflicts (fun _ => false)
      ([sharedSet].map (buildListenerSetState gateways (fun _ _ => true) fun _ => true)) gateways
    countAttachedListenerSets "infra" "edge" sets = 1 ∧ sets.countP (attachedSet gateways (edgeIn "infra")) = 0
      ∧ sets.countP (attachedSet gateways (edgeIn "shop")) = 1 := by
  decide

end SunbeamProxy.Gateway
