/-
What a reconcile tick serves of the Gateways it lists (`reconcile_tick_with_leader` in `gateway/reconcile/mod.rs`,
`build_gateway_cert_store` in `tls/source.rs`), and what their status says (`compute_gateway_conditions` in
`gateway/reconcile/gateway/addresses.rs`).
-/
import SunbeamProxy.Gateway.GatewayObject
import SunbeamProxy.Gateway.Translate

namespace SunbeamProxy.Gateway

open Text RouteHostnames List

structure GatewayClassObject where
  name : String
  controllerName : String
deriving DecidableEq, Repr

def controllerName : String := "sunbeam.pt/sunbeam-proxy"

structure GatewaySpecAddress where
  type_ : String
  value : Option String := none
deriving DecidableEq, Repr

structure AddressValidation where
  unsupported : List GatewaySpecAddress := []
  unusable : List GatewaySpecAddress := []
deriving DecidableEq, Repr

def gatewayAcceptedCondition (gatewayClass : Option GatewayClassObject) (addresses : AddressValidation) (generation : ℤ) :
    StatusCondition :=
  match gatewayClass with
  | none => acceptedCondition .false "GatewayClassNotFound" "Referenced GatewayClass does not exist" generation
  | some gc =>
    if gc.controllerName ≠ controllerName then
      acceptedCondition .false "InvalidGatewayClass"
        ("GatewayClass controller '" ++ gc.controllerName ++ "' does not match '" ++ controllerName ++ "'") generation
    else if addresses.unsupported ≠ [] then
      acceptedCondition .false "UnsupportedAddress" ("Unsupported address type(s): "
          ++ ", ".intercalate (addresses.unsupported.map fun a => a.type_ ++ "=" ++ a.value.getD "")) generation
    else acceptedCondition .true "Accepted" "Gateway references an accepted GatewayClass" generation

def gatewayClassOf (classes : List GatewayClassObject) (gw : GatewayObject) : Option GatewayClassObject :=
  classes.find? (·.name = gw.gatewayClassName)

/-- the class of the Gateway is one of this controller -/
def Managed (classes : List GatewayClassObject) (gw : GatewayObject) : Prop :=
  ∃ gc ∈ classes, gc.name = gw.gatewayClassName ∧ gc.controllerName = controllerName

def gatewayStates (pki : Pki) (api : ApiServer) (index : GrantIndex) (gateways : List GatewayObject) : List GatewayState :=
  List.zipWith (loadGatewayFrontendValidation pki api index) gateways (gateways.map buildGatewayState)

def reconcileTick (pki : Pki) (api : ApiServer) (index : GrantIndex) (others : List GatewayState → GatewayView)
    (gateways : List GatewayObject) : GatewayView :=
  let states := gatewayStates pki api index gateways
  { others states with gateways := states }

/-! ## Certificates -/

inductive CertSlot where
  | default
  | exact (host : String)
  | wildcard (pattern : WildcardPattern)
deriving DecidableEq, Repr

def certSlot (hostname : Option String) : CertSlot :=
  match hostname.map toLowercase with
  | none => .default
  | some host =>
    if host = "" then .default
    else if startsWith host "*." then .wildcard ⟨String.ofList host.toList.tail⟩
    else .exact host

structure LoadedCert (κ : Type) where
  slot : CertSlot
  key : κ

def putCert {κ : Type} (store : CertStore κ) (c : LoadedCert κ) : CertStore κ :=
  match c.slot with
  | .default => { store with default := some c.key }
  | .exact host => { store with exact := store.exact.insert host c.key }
  | .wildcard pattern => { store with wildcard := store.wildcard ++ [(pattern, c.key)] }

structure CertLoader (κ : Type) where
  gateway : String → String → Option GatewayObject
  secret : String → String → Option (Option (HashMap String String))
  certifiedKey : Option (HashMap String String) → Option κ
  grants : GrantIndex

namespace CertLoader

variable {κ : Type} (env : CertLoader κ)

def secretKey (gwNs secretNs name : String) : Option κ :=
  if secretNs ≠ gwNs ∧ !env.grants.isPermitted gwNs gatewayGroup "Gateway" secretNs "" "Secret" name then none
  else (env.secret secretNs name).bind env.certifiedKey

def refKey (gwNs : String) (ref : Json) : Option κ := ref.asObject.bind fun cert =>
    if (cert.getStr "kind").getD "" ≠ "Secret" ∨ (cert.getStr "group").getD "" ≠ "" then none
    else (cert.getStr "name").bind fun name => env.secretKey gwNs ((cert.getStr "namespace").getD gwNs) name

variable (gw : GatewayState)

def listenerCerts (listener : JsonMap) : List (LoadedCert κ) :=
  let protocol := (listener.getStr "protocol").getD "HTTP"
  if protocol ≠ "HTTPS" ∧ protocol ≠ "TLS" then []
  else
    match (listener.getObject "tls").bind (·.getArray "certificateRefs") with
    | none => []
    | some refs => (refs.filterMap (env.refKey gw.namespace_)).map fun key => ⟨certSlot (listener.getStr "hostname"), key⟩

def gatewayCerts : List (LoadedCert κ) :=
  match env.gateway gw.namespace_ gw.name with
  | none => []
  | some obj => (obj.listeners.filterMap Json.asObject).flatMap (env.listenerCerts gw)

def gatewayClientCert : Option (String × κ) :=
  (env.gateway gw.namespace_ gw.name).bind fun _ => gw.backendClientCertId.bind fun id =>
    match splitChar '/' id with
    | [_, ns, name] => (env.secretKey gw.namespace_ ns name).map fun key => (id, key)
    | _ => none

def loadedCerts (view : GatewayView) : List (LoadedCert κ) := view.gateways.flatMap env.gatewayCerts

def buildGatewayCertStore (view : GatewayView) : CertStore κ × HashMap String κ := ((env.loadedCerts view).foldl putCert {},
    HashMap.ofPairs (view.gateways.filterMap env.gatewayClientCert))

end CertLoader

/-- the store may show the key in a handshake -/
def Presents {κ : Type} (store : CertStore κ) (key : κ) : Prop :=
  store.default = some key ∨ (∃ host, store.exact.get host = some key) ∨ ∃ pattern, (pattern, key) ∈ store.wildcard

theorem presents_putCert {κ : Type} {store : CertStore κ} {c : LoadedCert κ} {key : κ} (h : Presents (putCert store c) key) :
    Presents store key ∨ c.key = key := by
  unfold putCert at h
  split at h
  · rcases h with h | h
    · exact .inr (Option.some.inj h)
    · exact .inl (.inr h)
  · rcases h with h | ⟨other, h⟩ | h
    · exact .inl (.inl h)
    · rw [HashMap.get_insert] at h
      split_ifs at h
      · exact .inr (Option.some.inj h)
      · exact .inl (.inr (.inl ⟨other, h⟩))
    · exact .inl (.inr (.inr h))
  · rcases h with h | h | ⟨pattern, h⟩
    · exact .inl (.inl h)
    · exact .inl (.inr (.inl h))
    · rcases mem_append.1 h with h | h
      · exact .inl (.inr (.inr ⟨pattern, h⟩))
      · exact .inr (congrArg Prod.snd (mem_singleton.1 h)).symm

theorem mem_of_presents_foldl {κ : Type} {certs : List (LoadedCert κ)} {store : CertStore κ} {key : κ}
    (h : Presents (certs.foldl putCert store) key) : Presents store key ∨ ∃ c ∈ certs, c.key = key := by
  induction certs generalizing store with
  | nil => exact .inl h
  | cons c certs ih =>
    rcases ih h with h | ⟨d, hd, hkey⟩
    · rcases presents_putCert h with h | hkey
      · exact .inl h
      · exact .inr ⟨c, mem_cons_self .., hkey⟩
    · exact .inr ⟨d, mem_cons_of_mem _ hd, hkey⟩

namespace CertLoader

variable {κ : Type} {env : CertLoader κ}

theorem owner_of_presents {view : GatewayView} {key : κ} (h : Presents (env.buildGatewayCertStore view).1 key) :
    ∃ gw ∈ view.gateways, ∃ c ∈ env.gatewayCerts gw, c.key = key := by
  rcases mem_of_presents_foldl h with hempty | ⟨c, hc, hkey⟩
  · simp [Presents] at hempty
  · obtain ⟨gw, hgw, hc⟩ := mem_flatMap.1 hc
    exact ⟨gw, hgw, c, hc, hkey⟩

theorem owner_of_clientCert {view : GatewayView} {id : String} {key : κ}
    (h : (env.buildGatewayCertStore view).2.get id = some key) :
    ∃ gw ∈ view.gateways, env.gatewayClientCert gw = some (id, key) :=
  mem_filterMap.1 (HashMap.mem_of_get_ofPairs h)

end CertLoader

/-! ## What is served belongs to managed Gateways -/

def GatewayObject.key (gw : GatewayObject) : String × String := (gw.namespace_.getD "", gw.name.getD "")

def GatewayState.key (state : GatewayState) : String × String := (state.namespace_, state.name)

theorem gatewayStates_eq_map (pki : Pki) (api : ApiServer) (index : GrantIndex) (gateways : List GatewayObject) :
    gatewayStates pki api index gateways
      = gateways.map fun gw => loadGatewayFrontendValidation pki api index gw (buildGatewayState gw) := by
  rw [gatewayStates, zipWith_map_right, zipWith_self]

section Owners

variable {pki : Pki} {api : ApiServer} {index : GrantIndex} {others : List GatewayState → GatewayView}
  {gateways : List GatewayObject}

theorem mem_reconcileTick_gateways {state : GatewayState} : state ∈ (reconcileTick pki api index others gateways).gateways
      ↔ ∃ gw ∈ gateways, loadGatewayFrontendValidation pki api index gw (buildGatewayState gw) = state := by
  rw [reconcileTick, gatewayStates_eq_map, mem_map]

end Owners

variable (classes : List GatewayClassObject) (gateways : List GatewayObject)

def Owned (state : GatewayState) : Prop := ∃ gw ∈ gateways, gw.key = state.key ∧ Managed classes gw

def OwnedListener (view : GatewayView) (id : String) : Prop := ∃ state ∈ view.gateways, Owned classes gateways state
    ∧ ∃ l ∈ state.listeners, id = listenerId state.namespace_ state.name l

def OwnedEntries {R : Type} [RouteHostnames R] (view : GatewayView) (route : R) (routeKind : String) : Prop :=
  ∀ e ∈ computeEffectiveHostnames view route routeKind, ∀ id, e.listenerId = some id →
    OwnedListener classes gateways view id
      ∨ ∃ ls ∈ view.listenerSets, ∃ l ∈ ls.listeners, id = listenerId ls.namespace_ ls.name l

/-- states, opened listeners, routes and certificates of a view all belong to listed Gateways of this controller -/
structure ServesManaged {κ : Type} (env : CertLoader κ) (view : GatewayView) : Prop where
  states : ∀ state ∈ view.gateways, Owned classes gateways state
  listeners : ∀ cfg ∈ (translateViewToIr view).listeners, OwnedListener classes gateways view cfg.id
  l4Routes : ∀ r ∈ (translateViewToIr view).l4Routes, OwnedListener classes gateways view r.listenerId
  httpRoutes : ∀ route ∈ view.httpRoutes, OwnedEntries classes gateways view route "HTTPRoute"
  grpcRoutes : ∀ route ∈ view.grpcRoutes, OwnedEntries classes gateways view route "GRPCRoute"
  certificates : ∀ key, Presents (env.buildGatewayCertStore view).1 key →
    ∃ state ∈ view.gateways, Owned classes gateways state ∧ ∃ c ∈ env.gatewayCerts state, c.key = key
  clientCerts : ∀ id key, (env.buildGatewayCertStore view).2.get id = some key →
    ∃ state ∈ view.gateways, Owned classes gateways state ∧ env.gatewayClientCert state = some (id, key)

variable {classes gateways}

variable {view : GatewayView}

theorem ownedEntries_of_states {R : Type} [RouteHostnames R]
    (h : ∀ state ∈ view.gateways, Owned classes gateways state) (route : R) (routeKind : String) :
    OwnedEntries classes gateways view route routeKind := by
  intro e he id hid
  obtain ⟨parent, _, he⟩ := mem_flatMap.1 he
  rcases mem_parentEntries he with ⟨l, hl, cert, m, _, hentry⟩ | ⟨m, hfallback, _⟩
  · have hid' : id = listenerId (parentNamespace route parent) parent.name l := by
      rw [hentry] at hid
      exact (Option.some.inj hid).symm
    rcases (mem_parentListeners (mem_attachedListeners hl).1).2 with
      ⟨_, _, gw, hgw, hns, hname, hmem⟩ | ⟨ls, _, hls, hns, hname, _, hmem⟩
    · exact .inl ⟨gw, hgw, h gw hgw, l, hmem, by rw [hid', hns, hname]⟩
    · exact .inr ⟨ls, hls, l, hmem, by rw [hid', hns, hname]⟩
  · rw [hfallback] at hid
    cases hid

theorem ownedListener_of_states (h : ∀ state ∈ view.gateways, Owned classes gateways state)
    {state : GatewayState} {l : ListenerState} (hstate : state ∈ view.gateways) (hl : l ∈ state.listeners) :
    OwnedListener classes gateways view (listenerId state.namespace_ state.name l) := ⟨state, hstate, h state hstate, l, hl, rfl⟩

theorem ownedL4Routes_of_states (h : ∀ state ∈ view.gateways, Owned classes gateways state) :
    ∀ r ∈ (translateL4Routes view).2, OwnedListener classes gateways view r.listenerId := by
  have hreach : ∀ {S : Type} [L4RouteState S] (route : S) (protocol : String) (gw : GatewayState) (l : ListenerState),
      Reaches view route protocol gw l → OwnedListener classes gateways view (listenerId gw.namespace_ gw.name l) := by
    intro S _ route protocol gw l hreaches
    obtain ⟨parent, _, hfind, hl, _⟩ := hreaches
    exact ownedListener_of_states h (mem_of_find?_eq_some hfind) hl
  have hof : ∀ protocol, ∀ e ∈ listenersOf view protocol,
      OwnedListener classes gateways view (listenerId e.1.namespace_ e.1.name e.2) := by
    intro protocol e he
    obtain ⟨gw, hgw, he⟩ := mem_flatMap.1 he
    obtain ⟨l, hl, rfl⟩ := mem_map.1 he
    exact ownedListener_of_states h hgw (mem_filter.1 hl).1
  intro r hr
  simp only [translateL4Routes, mem_append, mem_flatMap] at hr
  rcases hr with (((⟨route, _, hr⟩ | ⟨route, _, hr⟩) | ⟨route, _, hr⟩) | hr) | hr
  · exact (forall_l4RoutesForParents view route "TCP" _ route.programmed _).2 (fun _ => hreach route "TCP") r hr
  · exact (forall_l4RoutesForParents view route "UDP" _ route.programmed _).2 (fun _ => hreach route "UDP") r hr
  · exact (forall_tlsL4Routes view route _).2 (fun _ gw l hreaches _ => hreach route "TLS" gw l hreaches) r hr
  · obtain ⟨e, he, rfl⟩ := mem_map.1 hr
    exact hof "HTTPS" e (mem_filter.1 he).1
  · obtain ⟨e, he, rfl⟩ := mem_map.1 hr
    exact hof "HTTP" e he

theorem servesManaged_iff_states {κ : Type} (env : CertLoader κ) (view : GatewayView) :
    ServesManaged classes gateways env view ↔ ∀ state ∈ view.gateways, Owned classes gateways state := by
  apply Iff.intro
  · exact ServesManaged.states
  · intro h
    refine ⟨h, ?_, ownedL4Routes_of_states h, fun route _ => ownedEntries_of_states h route _,
      fun route _ => ownedEntries_of_states h route _, ?_, ?_⟩
    · intro cfg hcfg
      obtain ⟨met, hmet, hopen⟩ := translateL4Routes_opens view
      have hcfg' : cfg ∈ openListeners met := hopen ▸ hcfg
      obtain ⟨e, he, _, protocol, _, rfl⟩ := mem_openListeners hcfg'
      exact ownedListener_of_states h (hmet e he).1 (hmet e he).2
    · intro key hkey
      obtain ⟨state, hstate, hcert⟩ := CertLoader.owner_of_presents hkey
      exact ⟨state, hstate, h state hstate, hcert⟩
    · intro id key hkey
      obtain ⟨state, hstate, hcert⟩ := CertLoader.owner_of_clientCert hkey
      exact ⟨state, hstate, h state hstate, hcert⟩

/-- **Only managed Gateways.** What a tick serves belongs to listed Gateways of this controller exactly when every listed Gateway
is one of them, by namespace and name. -/
theorem only_managed_iff {κ : Type} (classes : List GatewayClassObject) (gateways : List GatewayObject) (pki : Pki)
    (api : ApiServer) (index : GrantIndex) (others : List GatewayState → GatewayView) (env : CertLoader κ) :
    (ServesManaged classes gateways env (reconcileTick pki api index others gateways)
        ↔ ∀ gw ∈ gateways, ∃ gw' ∈ gateways, gw'.key = gw.key ∧ Managed classes gw')
      ∧ ((∀ gw ∈ gateways, ∀ gw' ∈ gateways, gw'.key = gw.key → gw' = gw) →
        (ServesManaged classes gateways env (reconcileTick pki api index others gateways)
          ↔ ∀ gw ∈ gateways, Managed classes gw)) := by
  have hkey : ∀ gw, (loadGatewayFrontendValidation pki api index gw (buildGatewayState gw)).key = gw.key := fun _ => rfl
  have hserves : ServesManaged classes gateways env (reconcileTick pki api index others gateways)
      ↔ ∀ gw ∈ gateways, ∃ gw' ∈ gateways, gw'.key = gw.key ∧ Managed classes gw' := by
    rw [servesManaged_iff_states]
    apply Iff.intro
    · intro h gw hgw
      exact hkey gw ▸ h _ (mem_reconcileTick_gateways.2 ⟨gw, hgw, rfl⟩)
    · intro h state hstate
      obtain ⟨gw, hgw, rfl⟩ := mem_reconcileTick_gateways.1 hstate
      exact h gw hgw
  refine ⟨hserves, fun hunique => hserves.trans ?_⟩
  apply Iff.intro
  · intro h gw hgw
    obtain ⟨gw', hgw', heq, hmanaged⟩ := h gw hgw
    exact hunique gw hgw gw' hgw' heq ▸ hmanaged
  · exact fun h gw hgw => ⟨gw, hgw, rfl, h gw hgw⟩

def twoClasses : List GatewayClassObject := [⟨"sunbeam", controllerName⟩, ⟨"nginx", "example.com/nginx-gateway"⟩]

def foreignGateway : GatewayObject :=
  { namespace_ := some "shop", name := some "edge", gatewayClassName := "nginx"
    listeners := [.object [("name", .string "web"), ("protocol", .string "HTTP"), ("port", .number (.posInt 80))]] }

def emptyPki : Pki := ⟨Unit, fun _ => .ok []⟩

def foreignTick : GatewayView := reconcileTick emptyPki {} ⟨[]⟩ (fun _ => {}) [foreignGateway]

def noSecrets : CertLoader Unit := ⟨fun _ _ => some foreignGateway, fun _ _ => none, fun _ => none, ⟨[]⟩⟩

theorem foreign_gateway_served : (gatewayAcceptedCondition (gatewayClassOf twoClasses foreignGateway) {} 1).status = .false
      ∧ foreignTick.gateways.map GatewayState.key = [("shop", "edge")]
      ∧ (translateViewToIr foreignTick).listeners.map (·.bindAddr) = ["0.0.0.0:80"]
      ∧ ¬ ServesManaged twoClasses [foreignGateway] noSecrets foreignTick := by
  refine ⟨by decide, rfl, by decide, ?_⟩
  intro h
  obtain ⟨gw, hgw, _, gc, hgc, hname, hcontroller⟩ := h.states _ (mem_singleton.2 rfl)
  rw [mem_singleton.1 hgw] at hname
  simp only [twoClasses, mem_cons, not_mem_nil, or_false] at hgc
  rcases hgc with rfl | rfl
  · exact absurd hname (by decide)
  · exact absurd hcontroller (by decide)

end SunbeamProxy.Gateway
