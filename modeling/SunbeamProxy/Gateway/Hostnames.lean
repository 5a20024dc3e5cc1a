/-
Effective hostnames of HTTP and GRPC routes (`gateway/translate/hostnames.rs`): through which listeners, and for which
hosts, a route is exposed.
-/
import SunbeamProxy.Gateway.Model

namespace SunbeamProxy.Gateway

open Text

def parseListenerHostname (hostname : String) : HostnameMatch :=
  match stripStart hostname "*." with
  | some rest => .wildcard rest
  | none => .exact hostname

def toIrHostname : HostnameMatch → SunbeamProxy.HostnameMatch
  | .exact s => .exact s
  | .wildcard s => .wildcard s
  | .any => .any

def isHostnameSubset (child parent : HostnameMatch) : Bool :=
  match child, parent with
  | _, .any => true
  | .exact c, .exact p => c == p
  | .exact c, .wildcard p =>
    match (stripEnd c p).bind (stripEnd · ".") with
    | some rest => rest != ""
    | none => false
  | .wildcard c, .wildcard p =>
    c == p || match stripEnd c p with
      | some rest => (stripEnd rest ".").isSome
      | none => false
  | _, _ => false

def hostnameIntersects (a b : HostnameMatch) : Bool := isHostnameSubset a b || isHostnameSubset b a

def intersectHostnamePair (a b : HostnameMatch) : Option HostnameMatch :=
  if isHostnameSubset a b then some a else if isHostnameSubset b a then some b else none

def intersectHostnames (routeHostnames : List HostnameMatch) (listenerHostname : Option String) : List HostnameMatch :=
  match listenerHostname with
  | none => routeHostnames
  | some h => routeHostnames.filterMap fun rh => intersectHostnamePair rh (parseListenerHostname h)

def listenerHostnameIntersects (listenerHostname : Option String) (routeHostnames : List HostnameMatch) : Bool :=
  routeHostnames.isEmpty || match listenerHostname with
    | none => true
    | some h => routeHostnames.any fun rh => hostnameIntersects rh (parseListenerHostname h)

/-- a request for `host` falls under the pattern -/
def HostMatches (host : String) (h : HostnameMatch) : Prop := irHostnameMatches host (toIrHostname h) = true

variable {host : String}

theorem isHostnameSubset_sound {c p : HostnameMatch} (h : isHostnameSubset c p = true) (hc : HostMatches host c) :
    HostMatches host p := by
  unfold HostMatches at hc ⊢
  cases p with
  | any => rfl
  | exact p =>
    cases c with
    | exact c =>
      obtain rfl : c = p := by simpa [isHostnameSubset] using h
      exact hc
    | wildcard c | any => simp [isHostnameSubset] at h
  | wildcard p =>
    cases c with
    | exact c =>
      obtain rfl : host = c := by simpa [toIrHostname, irHostnameMatches] using hc
      exact h
    | wildcard c =>
      simp only [toIrHostname, irHostnameMatches_wildcard] at hc ⊢
      obtain ⟨rest, hne, rfl⟩ := hc
      simp only [isHostnameSubset, Bool.or_eq_true, beq_iff_eq] at h
      rcases h with rfl | h
      · exact ⟨rest, hne, rfl⟩
      · cases hmid : stripEnd c p with
        | none => simp [hmid] at h
        | some mid =>
          rw [hmid] at h
          obtain ⟨inner, hinner⟩ := Option.isSome_iff_exists.1 h
          refine ⟨rest ++ "." ++ inner, by simp, ?_⟩
          rw [stripEnd_eq_some.1 hmid, stripEnd_eq_some.1 hinner]
          simp [String.append_assoc]
    | any => simp [isHostnameSubset] at h

theorem intersectHostnamePair_sound {a b m : HostnameMatch} (h : intersectHostnamePair a b = some m)
    (hm : HostMatches host m) : HostMatches host a ∧ HostMatches host b := by
  unfold intersectHostnamePair at h
  split_ifs at h with hab hba
  · obtain rfl := Option.some.inj h
    exact ⟨hm, isHostnameSubset_sound hab hm⟩
  · obtain rfl := Option.some.inj h
    exact ⟨isHostnameSubset_sound hba hm, hm⟩

theorem intersectHostnames_sound {hostnames : List HostnameMatch} {listenerHostname : Option String}
    {m : HostnameMatch} (h : m ∈ intersectHostnames hostnames listenerHostname) (hm : HostMatches host m) :
    (∀ lh, listenerHostname = some lh → HostMatches host (parseListenerHostname lh)) ∧ ∃ rh ∈ hostnames, HostMatches host rh := by
  cases listenerHostname with
  | none => exact ⟨by simp, m, h, hm⟩
  | some lh =>
    obtain ⟨rh, hrh, hpair⟩ := List.mem_filterMap.1 h
    obtain ⟨hroute, hlistener⟩ := intersectHostnamePair_sound hpair hm
    refine ⟨?_, rh, hrh, hroute⟩
    rintro _ ⟨⟩
    exact hlistener

/-- what HTTP and GRPC routes share -/
class RouteHostnames (R : Type) where
  routeNamespace : R → String
  routeParentRefs : R → List ParentRef
  routeHostnames : R → List HostnameMatch

open RouteHostnames

instance : RouteHostnames HTTPRouteState := ⟨(·.namespace_), (·.parentRefs), (·.hostnames)⟩

instance : RouteHostnames GRPCRouteState := ⟨(·.namespace_), (·.parentRefs), (·.hostnames)⟩

structure EffectiveHostname where
  routeHostname : HostnameMatch
  listenerHostname : HostnameMatch
  listenerPort : Option UInt16
  clientCertId : Option String
  listenerId : Option String
deriving DecidableEq, Repr

def ParentRef.selects (parent : ParentRef) (l : ListenerState) : Bool := (match parent.sectionName with
    | some s => l.name == s
    | none => true)
  && match parent.port with
    | some p => p == l.port
    | none => true

structure ParentListeners where
  listeners : List ListenerState
  found : Bool
  allowedMap : ListenerAllowedMap
  clientCertId : Option String

def parentListeners (view : GatewayView) (parentNs : String) (parent : ParentRef) : ParentListeners :=
  if parent.kind = "ListenerSet" then
    match view.listenerSets.find? fun s => s.namespace_ == parentNs && s.name == parent.name with
    | some ls =>
      if ls.programmed then ⟨ls.listeners.filter parent.selects, true, view.listenerSetAllowed, none⟩
      else ⟨[], false, view.listenerSetAllowed, none⟩
    | none => ⟨[], false, view.listenerSetAllowed, none⟩
  else
    match view.gateways.find? fun g => g.namespace_ == parentNs && g.name == parent.name with
    | some gw =>
      ⟨gw.listeners.filter fun l => l.programmed && parent.selects l, true, view.listenerAllowed, gw.backendClientCertId⟩
    | none => ⟨[], false, view.listenerAllowed, none⟩

def allowedRoutesOf (allowedMap : ListenerAllowedMap) (parentNs parentName : String) (l : ListenerState) : AllowedRoutes :=
  (allowedMap.get (parentNs, parentName, l.name)).getD {}

def listenerId (ns owner : String) (l : ListenerState) : String := ns ++ "/" ++ owner ++ "/" ++ l.name

section Effective

variable {R : Type} [RouteHostnames R]

def parentNamespace (route : R) (parent : ParentRef) : String := parent.namespace_.getD (routeNamespace route)

variable (view : GatewayView)

def attaches (route : R) (routeKind : String) (parent : ParentRef) (allowedMap : ListenerAllowedMap)
    (l : ListenerState) : Bool :=
  let allowed := allowedRoutesOf allowedMap (parentNamespace route parent) parent.name l
  listenerAllowsKind allowed gatewayGroup routeKind
    && namespaceAllowed allowed.namespaces (routeNamespace route) (parentNamespace route parent) view.namespaceLabels
    && listenerHostnameIntersects l.hostname (routeHostnames route)

def listenerMatch (l : ListenerState) : HostnameMatch := (l.hostname.map parseListenerHostname).getD (.exact "")

def listenerEntry (route : R) (parent : ParentRef) (clientCertId : Option String) (l : ListenerState)
    (routeHostname : HostnameMatch) : EffectiveHostname :=
  ⟨routeHostname, listenerMatch l, some l.port, clientCertId,
    some (listenerId (parentNamespace route parent) parent.name l)⟩

def fallbackEntry (routeHostname : HostnameMatch) : EffectiveHostname := ⟨routeHostname, .any, none, none, none⟩

def attachedHostnames (route : R) (l : ListenerState) : List HostnameMatch :=
  if (routeHostnames route).isEmpty then [(l.hostname.map parseListenerHostname).getD .any]
  else intersectHostnames (routeHostnames route) l.hostname

def attachedListeners (route : R) (routeKind : String) (parent : ParentRef) : List ListenerState :=
  let resolved := parentListeners view (parentNamespace route parent) parent
  if resolved.found then resolved.listeners.filter (attaches view route routeKind parent resolved.allowedMap) else []

def parentEntries (route : R) (routeKind : String) (parent : ParentRef) : List EffectiveHostname :=
  let resolved := parentListeners view (parentNamespace route parent) parent
  let attached := attachedListeners view route routeKind parent
  let entries := attached.flatMap fun l =>
    (attachedHostnames route l).map (listenerEntry route parent resolved.clientCertId l)
  if (routeHostnames route).isEmpty then if !resolved.found || attached.isEmpty then [fallbackEntry .any] else entries
  else if resolved.found then entries
  else (routeHostnames route).map fallbackEntry

def computeEffectiveHostnames (route : R) (routeKind : String) : List EffectiveHostname :=
  (routeParentRefs route).flatMap (parentEntries view route routeKind)

/-! ## Exposure -/

/-- a programmed listener of the Gateway referred to -/
def OfGateway (parentNs : String) (parent : ParentRef) (l : ListenerState) : Prop :=
  parent.kind ≠ "ListenerSet" ∧ l.programmed = true
    ∧ ∃ gw ∈ view.gateways, gw.namespace_ = parentNs ∧ gw.name = parent.name ∧ l ∈ gw.listeners

/-- a listener of the programmed ListenerSet referred to -/
def OfListenerSet (parentNs : String) (parent : ParentRef) (l : ListenerState)
    (ls : ListenerSetState) : Prop :=
  parent.kind = "ListenerSet" ∧ ls ∈ view.listenerSets ∧ ls.namespace_ = parentNs ∧ ls.name = parent.name
    ∧ ls.programmed = true ∧ l ∈ ls.listeners

/-- the `allowedRoutes` map for the kind of the parent -/
def allowedMapFor (parent : ParentRef) : ListenerAllowedMap :=
  if parent.kind = "ListenerSet" then view.listenerSetAllowed else view.listenerAllowed

/-- the listener is the one the reference selects, it admits the route, and the entry exposes on it no host that the
listener or the route does not have -/
structure Admits (view : GatewayView) (route : R) (routeKind : String) (parent : ParentRef) (l : ListenerState)
    (e : EffectiveHostname) : Prop where
  sectionName : ∀ s, parent.sectionName = some s → l.name = s
  port : ∀ p, parent.port = some p → l.port = p
  kind : listenerAllowsKind (allowedRoutesOf (allowedMapFor view parent) (parentNamespace route parent) parent.name l)
    gatewayGroup routeKind = true
  namespace_ : namespaceAllowed
    (allowedRoutesOf (allowedMapFor view parent) (parentNamespace route parent) parent.name l).namespaces
    (routeNamespace route) (parentNamespace route parent) view.namespaceLabels = true
  entryPort : e.listenerPort = some l.port
  hosts : ∀ host, HostMatches host e.routeHostname →
    (∀ lh, l.hostname = some lh → HostMatches host (parseListenerHostname lh))
      ∧ (routeHostnames route ≠ [] → ∃ rh ∈ routeHostnames route, HostMatches host rh)

/-- the entry exposes the route through a single healthy listener that admits it -/
def ExposedByAdmission (route : R) (routeKind : String) (e : EffectiveHostname) : Prop :=
  ∃ parent ∈ routeParentRefs route, ∃ l, Admits view route routeKind parent l e
    ∧ (OfGateway view (parentNamespace route parent) parent l
      ∨ ∃ ls, OfListenerSet view (parentNamespace route parent) parent l ls ∧ l.programmed = true
        ∧ ls.conflicts.get l.name = none)

/-- the reference names neither a Gateway nor a programmed ListenerSet of the view -/
def Unresolved (parentNs : String) (parent : ParentRef) : Prop :=
  (parentListeners view parentNs parent).found = false

variable {parent : ParentRef} {l : ListenerState}

theorem selects_iff : parent.selects l = true ↔
      (∀ s, parent.sectionName = some s → l.name = s) ∧ ∀ p, parent.port = some p → l.port = p := by
  have hport : ∀ p : UInt16, (p == l.port) = true ↔ l.port = p := fun p => by rw [beq_iff_eq, eq_comm]
  unfold ParentRef.selects
  cases parent.sectionName <;> cases parent.port <;> simp only [Bool.and_eq_true, hport] <;> simp

variable {view : GatewayView}

theorem mem_parentListeners {ns : String} (h : l ∈ (parentListeners view ns parent).listeners) :
    parent.selects l = true ∧ (OfGateway view ns parent l ∨ ∃ ls, OfListenerSet view ns parent l ls) := by
  unfold parentListeners at h
  split_ifs at h with hkind
  · cases hfind : view.listenerSets.find? fun s => s.namespace_ == ns && s.name == parent.name with
    | none => simp [hfind] at h
    | some ls =>
      simp only [hfind] at h
      split_ifs at h with hprog
      · obtain ⟨hl, hsel⟩ := List.mem_filter.1 h
        have hname := List.find?_some hfind
        simp only [Bool.and_eq_true, beq_iff_eq] at hname
        exact ⟨hsel, .inr ⟨ls, hkind, List.mem_of_find?_eq_some hfind, hname.1, hname.2, hprog, hl⟩⟩
      · cases h
  · cases hfind : view.gateways.find? fun g => g.namespace_ == ns && g.name == parent.name with
    | none => simp [hfind] at h
    | some gw =>
      simp only [hfind] at h
      obtain ⟨hl, hok⟩ := List.mem_filter.1 h
      rw [Bool.and_eq_true] at hok
      have hname := List.find?_some hfind
      simp only [Bool.and_eq_true, beq_iff_eq] at hname
      exact ⟨hok.2, .inl ⟨hkind, hok.1, gw, List.mem_of_find?_eq_some hfind, hname.1, hname.2, hl⟩⟩

theorem parentListeners_allowedMap (ns : String) (parent : ParentRef) :
    (parentListeners view ns parent).allowedMap = allowedMapFor view parent := by
  unfold parentListeners allowedMapFor
  split_ifs
  · cases view.listenerSets.find? fun s => s.namespace_ == ns && s.name == parent.name with
    | none => rfl
    | some ls => cases hp : ls.programmed <;> simp [hp]
  · cases view.gateways.find? fun g => g.namespace_ == ns && g.name == parent.name <;> rfl

theorem attachedHostnames_sound {route : R} {m : HostnameMatch} (h : m ∈ attachedHostnames route l) {host : String}
    (hm : HostMatches host m) :
    (∀ lh, l.hostname = some lh → HostMatches host (parseListenerHostname lh))
      ∧ (routeHostnames route ≠ [] → ∃ rh ∈ routeHostnames route, HostMatches host rh) := by
  unfold attachedHostnames at h
  split_ifs at h with hempty
  · rw [List.isEmpty_iff] at hempty
    refine ⟨?_, fun hne => absurd hempty hne⟩
    intro lh hlh
    obtain rfl := List.mem_singleton.1 h
    simpa [hlh] using hm
  · obtain ⟨hlistener, hroute⟩ := intersectHostnames_sound h hm
    exact ⟨hlistener, fun _ => hroute⟩

variable {routeKind : String}

theorem mem_attachedListeners {route : R} (h : l ∈ attachedListeners view route routeKind parent) :
    l ∈ (parentListeners view (parentNamespace route parent) parent).listeners
      ∧ attaches view route routeKind parent (allowedMapFor view parent) l = true := by
  simp only [attachedListeners, parentListeners_allowedMap] at h
  split_ifs at h
  · exact List.mem_filter.1 h
  · cases h

theorem mem_parentEntries {route : R} {e : EffectiveHostname} (h : e ∈ parentEntries view route routeKind parent) :
    (∃ l ∈ attachedListeners view route routeKind parent,
        ∃ cert, ∃ m ∈ attachedHostnames route l, e = listenerEntry route parent cert l m)
      ∨ ∃ m, e = fallbackEntry m ∧ (routeHostnames route ≠ [] →
        m ∈ routeHostnames route ∧ Unresolved view (parentNamespace route parent) parent) := by
  have hlistener : ∀ cert, e ∈ ((attachedListeners view route routeKind parent).flatMap fun l =>
      (attachedHostnames route l).map (listenerEntry route parent cert l)) →
      ∃ l ∈ attachedListeners view route routeKind parent,
        ∃ cert, ∃ m ∈ attachedHostnames route l, e = listenerEntry route parent cert l m := by
    intro cert he
    obtain ⟨l, hl, he⟩ := List.mem_flatMap.1 he
    obtain ⟨m, hm, rfl⟩ := List.mem_map.1 he
    exact ⟨l, hl, cert, m, hm, rfl⟩
  simp only [parentEntries] at h
  split_ifs at h with hempty hnone hfound
  · rw [List.isEmpty_iff] at hempty
    exact .inr ⟨.any, List.mem_singleton.1 h, fun hne => absurd hempty hne⟩
  · exact .inl (hlistener _ h)
  · exact .inl (hlistener _ h)
  · obtain ⟨m, hm, rfl⟩ := List.mem_map.1 h
    exact .inr ⟨m, rfl, fun _ => ⟨hm, by simpa [Unresolved] using hfound⟩⟩

theorem listenerEntry_admits {route : R} {m : HostnameMatch} (hsel : parent.selects l = true)
    (hatt : attaches view route routeKind parent (allowedMapFor view parent) l = true)
    (hm : m ∈ attachedHostnames route l) (cert : Option String) :
    Admits view route routeKind parent l (listenerEntry route parent cert l m) := by
  obtain ⟨hsection, hport⟩ := selects_iff.1 hsel
  simp only [attaches, Bool.and_eq_true] at hatt
  exact
    { sectionName := hsection
      port := hport
      kind := hatt.1.1
      namespace_ := hatt.1.2
      entryPort := rfl
      hosts := fun host hhost => attachedHostnames_sound hm hhost }

/-- **Exposure of a route.** An entry that names a listener names one that admits the route. -/
theorem entries_admitted (view : GatewayView) (route : R) (routeKind : String) (e : EffectiveHostname)
    (h : e ∈ computeEffectiveHostnames view route routeKind) :
    (e.listenerId ≠ none → ∃ parent ∈ routeParentRefs route, ∃ l, Admits view route routeKind parent l e
      ∧ (OfGateway view (parentNamespace route parent) parent l
        ∨ ∃ ls, OfListenerSet view (parentNamespace route parent) parent l ls))
    ∧ (e.listenerId = none → e.listenerPort = none ∧ e.listenerHostname = .any
      ∧ (routeHostnames route ≠ [] → e.routeHostname ∈ routeHostnames route
        ∧ ∃ parent ∈ routeParentRefs route, Unresolved view (parentNamespace route parent) parent)) := by
  obtain ⟨parent, hparent, he⟩ := List.mem_flatMap.1 h
  rcases mem_parentEntries he with ⟨l, hl, cert, m, hm, rfl⟩ | ⟨m, rfl, hwhy⟩
  · obtain ⟨hmem, hatt⟩ := mem_attachedListeners hl
    obtain ⟨hsel, howner⟩ := mem_parentListeners hmem
    refine ⟨fun _ => ⟨parent, hparent, l, listenerEntry_admits hsel hatt hm cert, howner⟩, fun hnone => ?_⟩
    cases hnone
  · refine ⟨fun hne => absurd rfl hne, fun _ => ⟨rfl, rfl, fun hne => ?_⟩⟩
    obtain ⟨hmem, hun⟩ := hwhy hne
    exact ⟨hmem, parent, hparent, hun⟩

end Effective

def shopRoute : HTTPRouteState :=
  { namespace_ := "shop", name := "shop", hostnames := [.exact "shop.example.com"], parentRefs := [{ name := "edge" }] }

theorem missing_gateway_exposes :
    ∃ e ∈ computeEffectiveHostnames {} shopRoute "HTTPRoute", ¬ ExposedByAdmission {} shopRoute "HTTPRoute" e := by
  refine ⟨fallbackEntry (.exact "shop.example.com"), by decide, ?_⟩
  rintro ⟨parent, -, l, hadmits, -⟩
  have hport := hadmits.entryPort
  simp [fallbackEntry] at hport

def edgeGateway : GatewayState :=
  { namespace_ := "shop", name := "edge", listeners := [{ name := "web", hostname := some "*.example.com" }] }

def shopEntry : EffectiveHostname :=
  ⟨.exact "shop.example.com", .wildcard "example.com", some 80, none, some "shop/edge/web"⟩

theorem shop_entry_admitted : shopEntry ∈ computeEffectiveHostnames { gateways := [edgeGateway] } shopRoute "HTTPRoute"
      ∧ ∃ parent ∈ shopRoute.parentRefs, ∃ l, Admits { gateways := [edgeGateway] } shopRoute "HTTPRoute" parent l shopEntry
          ∧ (OfGateway { gateways := [edgeGateway] } (parentNamespace shopRoute parent) parent l
            ∨ ∃ ls, OfListenerSet { gateways := [edgeGateway] } (parentNamespace shopRoute parent) parent l ls) :=
  ⟨by decide, (entries_admitted { gateways := [edgeGateway] } shopRoute "HTTPRoute" shopEntry (by decide)).1 (by decide)⟩

end SunbeamProxy.Gateway
