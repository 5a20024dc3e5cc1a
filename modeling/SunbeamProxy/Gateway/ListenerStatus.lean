/-
The status of a Gateway's listeners (`gateway/reconcile/gateway/listeners.rs`, `gateway/reconcile/listener_common.rs`) against
what the data plane does with them.
-/
import SunbeamProxy.Gateway.ServedListeners
import SunbeamProxy.Gateway.Tick

namespace SunbeamProxy.Gateway

open RouteHostnames List

/-! ## The status -/

abbrev Verdict := ConditionStatus × String × String

structure TlsListener where
  idx : ℕ
  name : String
  port : UInt64
  mode : TlsMode

def tlsListeners (listeners : List Json) : List TlsListener :=
  listeners.zipIdx.filterMap fun e => e.1.asObject.bind fun obj =>
    if obj.getStr "protocol" ≠ some "TLS" then none
    else some ⟨e.2, (obj.getStr "name").getD "", ((obj.lookup "port").bind Json.asU64).getD 0,
      (parseTlsMode obj "TLS").getD .passthrough⟩

def mixedTlsConflictNames (listeners : List Json) : List String :=
  let tls := tlsListeners listeners
  tls.flatMap fun i => tls.flatMap fun j =>
    if i.idx < j.idx ∧ i.port = j.port ∧ i.mode ≠ j.mode then [i.name, j.name] else []

variable (reserved : UInt16 → Bool)

def listenerAccepted (name protocol : String) (port : UInt16) (tlsMode : Option TlsMode)
    (mixedConflictNames : List String) (supportsTlsTerminate supportsTlsMixed : Bool) : Verdict :=
  if reserved port then (.false, "PortUnavailable", "Port is reserved for internal use")
  else if protocol = "TLS" then
    if mixedConflictNames.contains name then
      if supportsTlsMixed then (.true, "Accepted", "Listener accepted")
      else (.false, "ProtocolConflict", "Mixed TLS termination modes on the same port are not supported")
    else if tlsMode = some .terminate ∧ supportsTlsTerminate = false then
      (.false, "UnsupportedValue", "TLS termination mode Terminate is not supported")
    else (.true, "Accepted", "Listener accepted")
  else (.true, "Accepted", "Listener accepted")

def routeKindFor : String → String
  | "TCP" => "TCPRoute"
  | "UDP" => "UDPRoute"
  | "TLS" => "TLSRoute"
  | _ => "HTTPRoute"

def validateListenerKinds (listener : JsonMap) : List RouteGroupKind × Verdict :=
  let valid := routeKindFor ((listener.getStr "protocol").getD "HTTP")
  let resolved : Verdict := (.true, "ResolvedRefs", "All references resolved")
  match ((listener.lookup "allowedRoutes").bind (·.get "kinds")).bind Json.asArray with
  | none | some [] => ([⟨gatewayGroup, valid⟩], resolved)
  | some kinds =>
    let listed := kinds.map fun entry =>
      RouteGroupKind.mk (((entry.get "group").bind Json.asStr).getD gatewayGroup) (((entry.get "kind").bind Json.asStr).getD "")
    let supported := listed.filter fun k => k.group = gatewayGroup && k.kind = valid
    if supported.length = listed.length then (supported, resolved)
    else (supported, .false, "InvalidRouteKinds", "Listener contains unsupported route kinds")

def isFrontendCaError (reason : String) : Bool :=
  reason = "InvalidCACertificateRef" || reason = "InvalidCACertificateKind" || reason = "RefNotPermitted"

section Certificates

variable (pki : Pki) (api : ApiServer) (index : GrantIndex)

def caCertificateFailure (gwNs : String) (r : CaCertificateRefRaw) : Option CertValidation :=
  let refNs := r.namespace_.getD gwNs
  let invalid (message : String) : Option CertValidation := some ⟨"InvalidCACertificateRef", message⟩
  if r.kind ≠ "ConfigMap" ∨ r.group ≠ "" then
    some ⟨"InvalidCACertificateKind", "Frontend CA certificate reference must be a core ConfigMap"⟩
  else if refNs ≠ gwNs ∧ !index.isPermitted gwNs gatewayGroup "Gateway" refNs "" "ConfigMap" r.name then
    some ⟨"RefNotPermitted", "Frontend CA certificate reference is not permitted by ReferenceGrant"⟩
  else
    match api.configMap refNs r.name with
    | none => invalid "Frontend CA certificate ConfigMap not found"
    | some none => invalid "Frontend CA certificate ConfigMap has no data"
    | some (some data) =>
      match data.get "ca.crt" with
      | none => invalid "Frontend CA certificate ConfigMap missing ca.crt"
      | some ca =>
        match pki.parseCertChain ca with
        | .ok _ => none
        | .error _ => invalid "Frontend CA certificate is not a valid PEM bundle"

def validateListenerFrontendValidation (gwNs : String) (listener : JsonMap) (gwTls : Option Json) : Option CertValidation :=
  if !(buildListenerState listener).terminatesTls then none
  else
    match listenerFrontendValidation gwTls (buildListenerState listener).port with
    | none => none
    | some spec => spec.caCertificateRefs.findSome? (caCertificateFailure pki api index gwNs)

def listenerCertErrors (gw : GatewayObject) : List (Option CertValidation) :=
  gw.listeners.map fun l => l.asObject.bind fun obj =>
    (validateListenerCertificates api (gw.namespace_.getD "") "Gateway" obj index).or
      (validateListenerFrontendValidation pki api index (gw.namespace_.getD "") obj gw.tls)

end Certificates

structure ListenerStatus where
  name : String
  supportedKinds : List RouteGroupKind
  attachedRoutes : ℤ
  accepted : Verdict
  programmed : Verdict
  resolvedRefs : Verdict

def listenerStatus (features mixedConflictNames : List String) (certError : Option CertValidation)
    (attachedRoutes : ℤ) (obj : JsonMap) : ListenerStatus :=
  let l := buildListenerState obj
  let kinds := validateListenerKinds obj
  let accepted := listenerAccepted reserved l.name l.protocol l.port l.tlsMode mixedConflictNames
    (features.contains "TLSRouteModeTerminate") (features.contains "TLSRouteModeMixed")
  { name := l.name
    supportedKinds := if accepted.1 = .false ∧ (accepted.2.1 = "UnsupportedValue" ∨ accepted.2.1 = "ProtocolConflict") then []
      else kinds.1
    attachedRoutes
    accepted := match certError with
      | some err => if accepted.1 = .true then
          (.false, if isFrontendCaError err.reason then "NoValidCACertificate" else err.reason, err.message)
        else accepted
      | none => accepted
    programmed := match certError with
      | some _ => (.false, "Invalid", "Listener has unresolved certificate references")
      | none => (.true, "Programmed", "Listener programmed")
    resolvedRefs := match certError with
      | some err => (.false, err.reason, err.message)
      | none => kinds.2 }

def buildListenerStatus (gw : GatewayObject) (certErrors : List (Option CertValidation))
    (attachedRoutes : List ℤ) (features : List String) : List ListenerStatus :=
  gw.listeners.zipIdx.filterMap fun e => e.1.asObject.map fun obj =>
    listenerStatus reserved features (mixedTlsConflictNames gw.listeners) ((certErrors[e.2]?).join)
      ((attachedRoutes[e.2]?).getD 0) obj

/-! ## What belongs to a listener in the table -/

/-- nothing of the translated view is bound to the listener id -/
structure Unbound (view : GatewayView) (id : String) : Prop where
  listeners : ∀ cfg ∈ (translateViewToIr view).listeners, cfg.id ≠ id
  l4Routes : ∀ r ∈ (translateViewToIr view).l4Routes, r.listenerId ≠ id
  httpHosts : ∀ route ∈ view.httpRoutes, ∀ e ∈ computeEffectiveHostnames view route "HTTPRoute", e.listenerId ≠ some id
  grpcHosts : ∀ route ∈ view.grpcRoutes, ∀ e ∈ computeEffectiveHostnames view route "GRPCRoute", e.listenerId ≠ some id

/-- a reference of the route selects a listener with the id that takes the route, under some hostname -/
def TakesRoute {R : Type} [RouteHostnames R] (view : GatewayView) (route : R) (routeKind id : String) : Prop :=
  ∃ parent ∈ routeParentRefs route, ∃ l ∈ (parentListeners view (parentNamespace route parent) parent).listeners,
    attaches view route routeKind parent (allowedMapFor view parent) l = true ∧ attachedHostnames route l ≠ []
      ∧ listenerId (parentNamespace route parent) parent.name l = id

/-- no listener and no route of the view gives rise to anything under the id -/
structure Avoided (view : GatewayView) (id : String) : Prop where
  http : ∀ gw ∈ view.gateways, ∀ l ∈ gw.listeners, l.protocol = "HTTP" → metId (gw, l) ≠ id
  httpRoutes : ∀ route ∈ view.httpRoutes, ¬TakesRoute view route "HTTPRoute" id
  grpcRoutes : ∀ route ∈ view.grpcRoutes, ¬TakesRoute view route "GRPCRoute" id
  tcp : ∀ route ∈ view.tcpRoutes, route.programmed = true → ∀ gw l, Reaches view route "TCP" gw l → metId (gw, l) ≠ id
  udp : ∀ route ∈ view.udpRoutes, route.programmed = true → ∀ gw l, Reaches view route "UDP" gw l → metId (gw, l) ≠ id
  tls : ∀ route ∈ view.tlsRoutes, route.programmed = true → ∀ gw l, Reaches view route "TLS" gw l → SharesName route l →
    metId (gw, l) ≠ id

variable {view : GatewayView}

theorem found_of_mem_parentListeners {ns : String} {parent : ParentRef} {l : ListenerState}
    (h : l ∈ (parentListeners view ns parent).listeners) : (parentListeners view ns parent).found = true := by
  unfold parentListeners at h ⊢
  split_ifs at h ⊢ with hkind
  · cases hfind : view.listenerSets.find? fun s => s.namespace_ == ns && s.name == parent.name with
    | none => simp [hfind] at h
    | some ls =>
      simp only [hfind] at h ⊢
      split_ifs at h ⊢
      · rfl
      · cases h
  · cases hfind : view.gateways.find? fun g => g.namespace_ == ns && g.name == parent.name with
    | none => simp [hfind] at h
    | some gw => rfl

variable {id : String}

theorem exists_parentEntry_iff {R : Type} [RouteHostnames R] {route : R} {routeKind : String} {parent : ParentRef} :
    (∃ e ∈ parentEntries view route routeKind parent, e.listenerId = some id)
      ↔ ∃ l ∈ (parentListeners view (parentNamespace route parent) parent).listeners,
        attaches view route routeKind parent (allowedMapFor view parent) l = true ∧ attachedHostnames route l ≠ []
          ∧ listenerId (parentNamespace route parent) parent.name l = id := by
  apply Iff.intro
  · intro h
    obtain ⟨e, hentry, hid⟩ := h
    rcases mem_parentEntries hentry with ⟨l, hl, cert, m, hm, rfl⟩ | ⟨m, rfl, -⟩
    · obtain ⟨hmem, hattaches⟩ := mem_attachedListeners hl
      exact ⟨l, hmem, hattaches, ne_nil_of_mem hm, Option.some.inj hid⟩
    · cases hid
  · intro h
    obtain ⟨l, hmem, hattaches, hne, rfl⟩ := h
    obtain ⟨m, hm⟩ := exists_mem_of_ne_nil _ hne
    have hfound := found_of_mem_parentListeners hmem
    have hl : l ∈ attachedListeners view route routeKind parent := by
      simp only [attachedListeners, hfound, parentListeners_allowedMap]
      exact mem_filter.2 ⟨hmem, hattaches⟩
    have hattached : (attachedListeners view route routeKind parent).isEmpty = false := by
      cases hlist : attachedListeners view route routeKind parent with
      | nil => rw [hlist] at hl; cases hl
      | cons => rfl
    refine ⟨listenerEntry route parent (parentListeners view (parentNamespace route parent) parent).clientCertId l m, ?_, rfl⟩
    simp only [parentEntries, hfound, hattached, Bool.not_true, Bool.or_self, Bool.false_eq_true, if_false, if_true, ite_self]
    exact mem_flatMap.2 ⟨l, hl, mem_map.2 ⟨m, hm, rfl⟩⟩

theorem exists_entry_iff {R : Type} [RouteHostnames R] {route : R} {routeKind : String} :
    (∃ e ∈ computeEffectiveHostnames view route routeKind, e.listenerId = some id) ↔ TakesRoute view route routeKind id := by
  simp only [computeEffectiveHostnames, mem_flatMap, TakesRoute, ← exists_parentEntry_iff]
  apply Iff.intro
  · rintro ⟨e, ⟨parent, hparent, he⟩, hid⟩
    exact ⟨parent, hparent, e, he, hid⟩
  · rintro ⟨parent, hparent, e, he, hid⟩
    exact ⟨e, ⟨parent, hparent, he⟩, hid⟩

theorem mem_attachedListenerIds_iff_takes :
    id ∈ attachedListenerIds view ↔ (∃ route ∈ view.httpRoutes, TakesRoute view route "HTTPRoute" id)
      ∨ ∃ route ∈ view.grpcRoutes, TakesRoute view route "GRPCRoute" id := by
  simp only [attachedListenerIds, mem_append, mem_flatMap, mem_filterMap, exists_entry_iff]

theorem Avoided.not_met (h : Avoided view id) : ∀ e ∈ metListeners view, metId e ≠ id := by
  refine (forall_metListeners_iff (P := fun gw l => metId (gw, l) ≠ id)).2 ⟨h.tcp, h.udp, h.tls, ?_, h.http⟩
  intro gw _ l _ _ hattached hid
  have hattached : id ∈ attachedListenerIds view := hid ▸ hattached
  rcases mem_attachedListenerIds_iff_takes.1 hattached with ⟨route, hroute, htakes⟩ | ⟨route, hroute, htakes⟩
  · exact h.httpRoutes route hroute htakes
  · exact h.grpcRoutes route hroute htakes

theorem unbound_iff : Unbound view id ↔ Avoided view id := by
  apply Iff.intro
  · intro h
    have hmet := (forall_l4Routes_listenerId view (· ≠ id)).1 h.l4Routes
    obtain ⟨htcp, hudp, htls, -, hhttp⟩ := (forall_metListeners_iff (P := fun gw l => metId (gw, l) ≠ id)).1 hmet
    refine ⟨hhttp, ?_, ?_, htcp, hudp, htls⟩
    · intro route hroute htakes
      obtain ⟨e, he, hid⟩ := exists_entry_iff.2 htakes
      exact h.httpHosts route hroute e he hid
    · intro route hroute htakes
      obtain ⟨e, he, hid⟩ := exists_entry_iff.2 htakes
      exact h.grpcHosts route hroute e he hid
  · intro h
    refine ⟨?_, (forall_l4Routes_listenerId view (· ≠ id)).2 h.not_met, ?_, ?_⟩
    · intro cfg hcfg hid
      obtain ⟨e, he, hid, -⟩ := exists_opened_iff.1 ⟨cfg, hcfg, hid⟩
      exact h.not_met e he hid
    · intro route hroute e he hid
      exact h.httpRoutes route hroute (exists_entry_iff.1 ⟨e, he, hid⟩)
    · intro route hroute e he hid
      exact h.grpcRoutes route hroute (exists_entry_iff.1 ⟨e, he, hid⟩)

section Refused

variable (reserved : UInt16 → Bool) (features : List String) (pki : Pki) (api : ApiServer) (index : GrantIndex)

/-- why the status of a listener says it is not accepted or not programmed -/
inductive Refused (gw : GatewayObject) (obj : JsonMap) : Prop
  | port (hport : reserved (buildListenerState obj).port = true)
  | mixed (hprotocol : (buildListenerState obj).protocol = "TLS")
      (hname : (buildListenerState obj).name ∈ mixedTlsConflictNames gw.listeners) (hfeature : "TLSRouteModeMixed" ∉ features)
  | terminate (hprotocol : (buildListenerState obj).protocol = "TLS")
      (hname : (buildListenerState obj).name ∉ mixedTlsConflictNames gw.listeners)
      (hmode : (buildListenerState obj).tlsMode = some .terminate) (hfeature : "TLSRouteModeTerminate" ∉ features)
  | certificate (hcert : (validateListenerCertificates api (gw.namespace_.getD "") "Gateway" obj index).isSome)
  | ca (hca : (validateListenerFrontendValidation pki api index (gw.namespace_.getD "") obj gw.tls).isSome)

variable {reserved features pki api index}

theorem listenerAccepted_false_iff {name protocol : String} {port : UInt16} {tlsMode : Option TlsMode} {mixed : List String}
    {supportsTlsTerminate supportsTlsMixed : Bool} :
    (listenerAccepted reserved name protocol port tlsMode mixed supportsTlsTerminate supportsTlsMixed).1 = .false
      ↔ reserved port = true ∨ (protocol = "TLS" ∧ name ∈ mixed ∧ supportsTlsMixed = false)
        ∨ (protocol = "TLS" ∧ name ∉ mixed ∧ tlsMode = some .terminate ∧ supportsTlsTerminate = false) := by
  unfold listenerAccepted
  split_ifs with hport hprotocol hname hmixed hterminate <;> simp_all

theorem listenerStatus_false_iff {mixed : List String} {certError : Option CertValidation} {attachedRoutes : ℤ} {obj : JsonMap} :
    ((listenerStatus reserved features mixed certError attachedRoutes obj).accepted.1 = .false
        ∨ (listenerStatus reserved features mixed certError attachedRoutes obj).programmed.1 = .false)
      ↔ certError.isSome ∨ (listenerAccepted reserved (buildListenerState obj).name (buildListenerState obj).protocol
          (buildListenerState obj).port (buildListenerState obj).tlsMode mixed (features.contains "TLSRouteModeTerminate")
          (features.contains "TLSRouteModeMixed")).1 = .false := by
  cases certError <;> simp [listenerStatus]

theorem refused_iff {gw : GatewayObject} {obj : JsonMap} {attachedRoutes : ℤ} {certError : Option CertValidation}
    (hcert : certError = (validateListenerCertificates api (gw.namespace_.getD "") "Gateway" obj index).or
      (validateListenerFrontendValidation pki api index (gw.namespace_.getD "") obj gw.tls)) :
    ((listenerStatus reserved features (mixedTlsConflictNames gw.listeners) certError attachedRoutes obj).accepted.1 = .false
        ∨ (listenerStatus reserved features (mixedTlsConflictNames gw.listeners) certError attachedRoutes obj).programmed.1
          = .false)
      ↔ Refused reserved features pki api index gw obj := by
  rw [listenerStatus_false_iff, listenerAccepted_false_iff, hcert, Option.isSome_or, Bool.or_eq_true]
  simp only [contains_eq_mem, decide_eq_false_iff_not]
  apply Iff.intro
  · intro h
    rcases h with (h | h) | h | ⟨hprotocol, hname, h⟩ | ⟨hprotocol, hname, hmode, h⟩
    · exact .certificate h
    · exact .ca h
    · exact .port h
    · exact .mixed hprotocol hname h
    · exact .terminate hprotocol hname hmode h
  · intro h
    cases h with
    | port h => exact .inr (.inl h)
    | mixed hprotocol hname h => exact .inr (.inr (.inl ⟨hprotocol, hname, h⟩))
    | terminate hprotocol hname hmode h => exact .inr (.inr (.inr ⟨hprotocol, hname, hmode, h⟩))
    | certificate h => exact .inl (.inl h)
    | ca h => exact .inl (.inr h)

theorem forall_buildListenerStatus {gw : GatewayObject} {attachedRoutes : List ℤ} {P : ListenerStatus → Prop} :
    (∀ st ∈ buildListenerStatus reserved gw (listenerCertErrors pki api index gw) attachedRoutes features, P st)
      ↔ ∀ (idx : ℕ) (json : Json) (obj : JsonMap), gw.listeners[idx]? = some json → json.asObject = some obj →
        P (listenerStatus reserved features (mixedTlsConflictNames gw.listeners)
          ((validateListenerCertificates api (gw.namespace_.getD "") "Gateway" obj index).or
            (validateListenerFrontendValidation pki api index (gw.namespace_.getD "") obj gw.tls))
          ((attachedRoutes[idx]?).getD 0) obj) := by
  have herror : ∀ (idx : ℕ) (json : Json) (obj : JsonMap), gw.listeners[idx]? = some json → json.asObject = some obj →
      ((listenerCertErrors pki api index gw)[idx]?).join
        = (validateListenerCertificates api (gw.namespace_.getD "") "Gateway" obj index).or
          (validateListenerFrontendValidation pki api index (gw.namespace_.getD "") obj gw.tls) := by
    intro idx json obj hidx hobj
    simp [listenerCertErrors, hidx, hobj]
  apply Iff.intro
  · intro h idx json obj hidx hobj
    refine h _ (mem_filterMap.2 ⟨(json, idx), mem_zipIdx_iff_getElem?.2 hidx, ?_⟩)
    simp [hobj, herror idx json obj hidx hobj]
  · intro h st hst
    obtain ⟨⟨json, idx⟩, hmem, hst⟩ := mem_filterMap.1 hst
    have hidx := mem_zipIdx_iff_getElem?.1 hmem
    obtain ⟨obj, hobj, rfl⟩ := Option.map_eq_some_iff.1 hst
    rw [herror idx json obj hidx hobj]
    exact h idx json obj hidx hobj

end Refused

def statusListenerId (gw : GatewayObject) (name : String) : String :=
  gw.namespace_.getD "" ++ "/" ++ gw.name.getD "" ++ "/" ++ name

/-- **Refused listeners are unbound.** Nothing of the table is for a listener whose status says it is not accepted or not
programmed, exactly when no listener that is refused speaks plain HTTP or has a route on it. -/
theorem rejected_listeners_unbound_iff (reserved : UInt16 → Bool) (features : List String) (pki : Pki) (api : ApiServer)
    (index : GrantIndex) (others : List GatewayState → GatewayView) (gateways : List GatewayObject)
    (attachedRoutes : GatewayObject → List ℤ) :
    (∀ gw ∈ gateways, ∀ st ∈ buildListenerStatus reserved gw (listenerCertErrors pki api index gw) (attachedRoutes gw) features,
        st.accepted.1 = .false ∨ st.programmed.1 = .false →
          Unbound (reconcileTick pki api index others gateways) (statusListenerId gw st.name))
      ↔ ∀ gw ∈ gateways, ∀ obj, some obj ∈ gw.listeners.map Json.asObject → Refused reserved features pki api index gw obj →
          Avoided (reconcileTick pki api index others gateways) (statusListenerId gw (buildListenerState obj).name) := by
  refine forall₂_congr fun gw _ => ?_
  rw [forall_buildListenerStatus]
  apply Iff.intro
  · intro h obj hobj hrefused
    obtain ⟨json, hjson, hobj⟩ := mem_map.1 hobj
    obtain ⟨idx, hidx⟩ := mem_iff_getElem?.1 hjson
    exact unbound_iff.1 (h idx json obj hidx hobj ((refused_iff rfl).2 hrefused))
  · intro h idx json obj hidx hobj hfalse
    have hmem := mem_map.2 ⟨json, mem_of_getElem? hidx, hobj⟩
    exact unbound_iff.2 (h obj hmem ((refused_iff rfl).1 hfalse))

def metricsGateway : GatewayObject :=
  { namespace_ := some "shop", name := some "edge", gatewayClassName := "sunbeam"
    listeners := [.object [("name", .string "web"), ("protocol", .string "HTTP"), ("port", .number (.posInt 9090))]] }

def metricsView : GatewayView := reconcileTick emptyPki {} ⟨[]⟩ (fun _ => {}) [metricsGateway]

def metricsStatus : List ListenerStatus :=
  buildListenerStatus (· == 9090) metricsGateway (listenerCertErrors emptyPki {} ⟨[]⟩ metricsGateway) [0] []

theorem reserved_port_bound : metricsStatus.map (fun st => (st.name, st.accepted))
        = [("web", .false, "PortUnavailable", "Port is reserved for internal use")]
      ∧ (translateViewToIr metricsView).listeners.map (fun cfg => (cfg.id, cfg.bindAddr))
        = [(statusListenerId metricsGateway "web", listenerBindAddr 9090)]
      ∧ ¬Unbound metricsView (statusListenerId metricsGateway "web") := by
  have hlisteners : (translateViewToIr metricsView).listeners.map (fun cfg => (cfg.id, cfg.bindAddr))
      = [(statusListenerId metricsGateway "web", listenerBindAddr 9090)] := by decide
  refine ⟨by decide, hlisteners, ?_⟩
  intro h
  have hmem : (statusListenerId metricsGateway "web", listenerBindAddr 9090)
      ∈ (translateViewToIr metricsView).listeners.map (fun cfg => (cfg.id, cfg.bindAddr)) := by
    exact mem_singleton_self _
  obtain ⟨cfg, hcfg, heq⟩ := mem_map.1 hmem
  exact h.listeners cfg hcfg (congrArg Prod.fst heq)

end SunbeamProxy.Gateway
