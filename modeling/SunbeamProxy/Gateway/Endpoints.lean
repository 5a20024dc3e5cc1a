/-
Backends of a rule, with the Services, EndpointSlices and BackendTLSPolicies of the cluster
(`gateway/reconcile/endpoints.rs`).
-/
import SunbeamProxy.Gateway.BackendTlsPolicy

namespace SunbeamProxy.Gateway

open Text List

inductive IntOrString where
  | int (n : ℤ)
  | string (s : String)
deriving DecidableEq, Repr

structure ServicePort where
  name : Option String := none
  port : ℤ
  appProtocol : Option String := none
  targetPort : Option IntOrString := none
deriving DecidableEq, Repr

structure ServiceObject where
  namespace_ : Option String := none
  name : Option String := none
  clusterIp : Option String := none
  selector : Option (HashMap String String) := none
  ports : Option (List ServicePort) := none

structure EndpointPort where
  name : Option String := none
  port : Option ℤ := none
deriving DecidableEq, Repr

structure Endpoint where
  addresses : List String
  ready : Option Bool := none
  terminating : Option Bool := none
deriving DecidableEq, Repr

structure EndpointSlice where
  namespace_ : Option String := none
  labels : HashMap String String := ∅
  ports : Option (List EndpointPort) := none
  endpoints : List Endpoint := []

structure ServiceInfo where
  clusterIp : Option String
  selector : Option (HashMap String String)
  ports : List ServicePort

structure EndpointInfo where
  address : String
  ports : List EndpointPort
deriving DecidableEq, Repr

def buildServiceMap (services : List ServiceObject) : HashMap (String × String) ServiceInfo :=
  HashMap.ofPairs (services.map fun svc =>
    ((svc.namespace_.getD "", svc.name.getD ""), ⟨svc.clusterIp, svc.selector, svc.ports.getD []⟩))

def endpointIsReady (ep : Endpoint) : Bool := ep.ready.getD true && !ep.terminating.getD false

def sliceEndpoints (slice : EndpointSlice) : List ((String × String) × EndpointInfo) :=
  match slice.labels.get "kubernetes.io/service-name" with
  | none => []
  | some svcName => (slice.endpoints.filter endpointIsReady).flatMap fun ep =>
      ep.addresses.map fun address => ((slice.namespace_.getD "", svcName), ⟨address, slice.ports.getD []⟩)

def buildEndpointMap (slices : List EndpointSlice) : HashMap (String × String) (List EndpointInfo) :=
  (slices.flatMap sliceEndpoints).foldl (fun m e => HashMap.push m e.1 e.2) ∅

def buildTlsPolicyMap (policies : List BackendTLSPolicyState) : HashMap ServiceTargetKey BackendTlsAttachment :=
  HashMap.ofPairs ((policies.filter fun p => p.accepted && p.programmed).map fun p =>
    ((p.target.namespace_, p.target.name, p.target.sectionName),
      { hostname := p.hostname, caBundlePem := p.caBundlePem, subjectAltNames := p.subjectAltNames.map (·.value) }))

def trimStartMatches (p : String) : ℕ → String → String
  | 0, s => s
  | n + 1, s =>
    match stripStart s p with
    | some rest => trimStartMatches p n rest
    | none => s

def rsplitOnce (c : Char) (s : String) : Option (String × String) :=
  match (splitChar c s).reverse with
  | last :: before :: rest => some (joinChar c (before :: rest).reverse, last)
  | _ => none

def parseI32 (s : String) : Option ℤ :=
  match s.toList with
  | '-' :: ds =>
    if ds ≠ [] ∧ ds.all (fun c => (toDigit 10 c).isSome) ∧ digitsValue 10 ds ≤ 2 ^ 31 then some (-(digitsValue 10 ds : ℤ))
    else none
  | _ => (parseUnsigned (2 ^ 31) s).map Int.ofNat

structure ServiceTarget where
  name : String
  namespace_ : String
  port : ℤ
deriving DecidableEq, Repr

def parseServiceTarget (backend : String) : Option ServiceTarget :=
  let addr := trimStartMatches "http://" backend.length (trimStartMatches "https://" backend.length backend)
  (rsplitOnce ':' addr).bind fun split => (parseI32 split.2).bind fun port =>
    match (splitChar '.' ((stripEnd split.1 ".").getD split.1)).reverse with
    | "local" :: "cluster" :: "svc" :: ns :: name => some ⟨joinChar '.' name.reverse, ns, port⟩
    | _ => none

def formatBackendAddress (address : String) (port : ℤ) : String :=
  if contains address ":" then "[" ++ address ++ "]:" ++ toString port else address ++ ":" ++ toString port

def servicePortProtocol (port : ServicePort) : BackendProtocol :=
  match port.appProtocol.map toLowercase with
  | some "kubernetes.io/h2c" => .h2c
  | some "kubernetes.io/ws" => .webSocket
  | some "kubernetes.io/wss" => .https
  | some "https" => .https
  | some "kubernetes.io/https" => .https
  | _ => .http

def needsEndpointResolution (info : ServiceInfo) : Bool := info.clusterIp == some "None" || match info.selector with
    | none => true
    | some s => s.entries.isEmpty

def ServiceInfo.findPort (info : ServiceInfo) (port : ℤ) : Option ServicePort := info.ports.find? (·.port == port)

def resolveEndpointPort (servicePort : ℤ) (info : ServiceInfo) (ep : EndpointInfo) : Option ℤ :=
  ((info.findPort servicePort).or info.ports.head?).bind fun svcPort =>
    match ep.ports.find? fun p => p.name.getD "" == svcPort.name.getD "" with
    | some matched => matched.port
    | none =>
      match ep.ports with
      | [only] => only.port
      | _ =>
        match svcPort.targetPort with
        | some (.int target) => some target
        | _ => none

structure ExpansionMaps where
  services : HashMap (String × String) ServiceInfo
  endpoints : HashMap (String × String) (List EndpointInfo)
  tlsPolicies : HashMap ServiceTargetKey BackendTlsAttachment

namespace ExpansionMaps

variable (maps : ExpansionMaps)

variable (info : ServiceInfo)

def tlsAttachment (target : ServiceTarget) : Option BackendTlsAttachment :=
  (((info.findPort target.port).bind (·.name)).bind fun name =>
      maps.tlsPolicies.get (target.namespace_, target.name, some name)).or
    (maps.tlsPolicies.get (target.namespace_, target.name, none))

def backendProtocol (target : ServiceTarget) : BackendProtocol :=
  if (maps.tlsAttachment info target).isSome then .https
  else ((info.findPort target.port).map servicePortProtocol).getD .http

def endpointBackends (target : ServiceTarget) (backend : WeightedBackend) : List WeightedBackend :=
  if needsEndpointResolution info then
    ((maps.endpoints.get (target.namespace_, target.name)).getD []).filterMap fun ep =>
      (resolveEndpointPort target.port info ep).map fun port =>
        { backend := formatBackendAddress ep.address port, weight := backend.weight, filters := backend.filters
          protocol := maps.backendProtocol info target, tls := maps.tlsAttachment info target }
  else []

def expandBackend (backend : WeightedBackend) : List WeightedBackend :=
  match parseServiceTarget backend.backend with
  | none => [backend]
  | some target =>
    match maps.services.get (target.namespace_, target.name) with
    | none => [backend]
    | some info =>
      let endpoints := maps.endpointBackends info target backend
      if endpoints ≠ [] then endpoints
      else [{ backend with
        protocol := maps.backendProtocol info target, tls := (maps.tlsAttachment info target).or backend.tls }]

def expandRuleBackends (backends : List WeightedBackend) : List WeightedBackend := backends.flatMap maps.expandBackend

end ExpansionMaps

/-! ## Clear text -/

structure Cluster where
  api : ApiServer := {}
  policies : List BackendTLSPolicyObject := []
  services : List ServiceObject := []
  slices : List EndpointSlice := []

variable (cluster : Cluster)

def Cluster.pre : List PrePolicy := prevalidated cluster.api cluster.policies

def Cluster.maps : ExpansionMaps :=
  { services := buildServiceMap cluster.services
    endpoints := buildEndpointMap cluster.slices
    tlsPolicies := buildTlsPolicyMap (reconcileBackendTlsPolicies cluster.api cluster.policies) }

/-- requests to the backend are not encrypted -/
def Cleartext (backend : WeightedBackend) : Prop :=
  (backend.protocol = .http ∨ backend.protocol = .h2c ∨ backend.protocol = .webSocket) ∧ backend.tls = none

/-- a policy targets the whole service -/
def Cluster.Targets (ns name : String) : Prop :=
  ∃ policy ∈ cluster.policies, policy.namespace_.getD "default" = ns
    ∧ ∃ t ∈ policy.targetRefs, t.group = "" ∧ t.kind = "Service" ∧ t.name = name ∧ t.sectionName = none

/-- no endpoint of a targeted service is spoken to in cleartext -/
def Cluster.NeverCleartext (backends : List WeightedBackend) : Prop :=
  ∀ b ∈ backends, ∀ target, parseServiceTarget b.backend = some target → cluster.Targets target.namespace_ target.name →
    ∀ e ∈ cluster.maps.expandBackend b, ¬ Cleartext e

/-- a policy with the winner's name is valid, and all its CA references resolve -/
def Governed (pre : List PrePolicy) (key : ServiceTargetKey) : Prop :=
  ∃ p ∈ pre, p.key = key ∧ leadName pre key = some p.name ∧ p.Valid .all

/-- a ready endpoint with a port takes the place of the Service's name -/
def Cluster.Expanded (info : ServiceInfo) (target : ServiceTarget) : Prop :=
  needsEndpointResolution info = true
    ∧ ∃ ep ∈ ((buildEndpointMap cluster.slices).get (target.namespace_, target.name)).getD [],
      (resolveEndpointPort target.port info ep).isSome = true

/-- what keeps the backend of a listed Service out of clear text: a policy for its port or for the Service, the protocol of
its port, or TLS settings it came with, unless endpoints take its place -/
def Cluster.Secured (b : WeightedBackend) (target : ServiceTarget) (info : ServiceInfo) : Prop :=
  (∃ port name, info.findPort target.port = some port ∧ port.name = some name
      ∧ Governed cluster.pre (target.namespace_, target.name, some name))
    ∨ Governed cluster.pre (target.namespace_, target.name, none)
    ∨ (info.findPort target.port).map servicePortProtocol = some .https
    ∨ (b.tls ≠ none ∧ ¬ cluster.Expanded info target)

theorem servicePortProtocol_cases (port : ServicePort) :
    servicePortProtocol port = .http ∨ servicePortProtocol port = .h2c ∨ servicePortProtocol port = .webSocket
      ∨ servicePortProtocol port = .https := by
  unfold servicePortProtocol
  split <;> simp

section Policies

variable {cluster : Cluster}

theorem get_tlsPolicies_isSome_iff (key : ServiceTargetKey) :
    (cluster.maps.tlsPolicies.get key).isSome = true ↔ Governed cluster.pre key := by
  have hmem : (cluster.maps.tlsPolicies.get key).isSome = true
      ↔ ∃ p ∈ cluster.pre, (buildState p (isWinner (winners cluster.pre) p)).programmed = true ∧ p.key = key := by
    rw [Cluster.maps, buildTlsPolicyMap, HashMap.get_ofPairs, Option.isSome_map, find?_isSome]
    simp only [mem_reverse, mem_map, mem_filter, decide_eq_true_eq, reconcileBackendTlsPolicies]
    apply Iff.intro
    · intro h
      obtain ⟨e, ⟨state, ⟨⟨p, hp, rfl⟩, hkept⟩, rfl⟩, hkey⟩ := h
      exact ⟨p, hp, (Bool.and_eq_true_iff.1 hkept).2, hkey⟩
    · intro h
      obtain ⟨p, hp, hprogrammed, hkey⟩ := h
      refine ⟨_, ⟨_, ⟨⟨p, hp, rfl⟩, ?_⟩, rfl⟩, hkey⟩
      have haccepted : (buildState p (isWinner (winners cluster.pre) p)).accepted = true := by
        have hboth := (programmed_buildState_iff hp _).1 hprogrammed
        exact (accepted_buildState_iff p _).2 ⟨hboth.1, hboth.2.some⟩
      exact Bool.and_eq_true_iff.2 ⟨haccepted, hprogrammed⟩
  rw [hmem]
  apply exists_congr
  intro p
  apply and_congr_right
  intro hp
  rw [programmed_buildState_iff hp, isWinner_winners_iff]
  apply Iff.intro
  · intro h
    obtain ⟨⟨hlead, hvalid⟩, hkey⟩ := h
    exact ⟨hkey, hkey ▸ hlead, hvalid⟩
  · intro h
    obtain ⟨hkey, hlead, hvalid⟩ := h
    exact ⟨⟨hkey ▸ hlead, hvalid⟩, hkey⟩

variable (info : ServiceInfo) (target : ServiceTarget)

theorem tlsAttachment_isSome_iff : (cluster.maps.tlsAttachment info target).isSome = true ↔
      (∃ port name, info.findPort target.port = some port ∧ port.name = some name
          ∧ Governed cluster.pre (target.namespace_, target.name, some name))
        ∨ Governed cluster.pre (target.namespace_, target.name, none) := by
  rw [ExpansionMaps.tlsAttachment, Option.isSome_or, Bool.or_eq_true, get_tlsPolicies_isSome_iff]
  cases hport : info.findPort target.port with
  | none => simp
  | some port => cases hname : port.name <;> simp [hname, get_tlsPolicies_isSome_iff]

theorem endpointBackends_ne_nil_iff (b : WeightedBackend) :
    cluster.maps.endpointBackends info target b ≠ [] ↔ cluster.Expanded info target := by
  rw [ExpansionMaps.endpointBackends, Cluster.Expanded]
  split_ifs with hneeds <;> simp [hneeds, Cluster.maps, Option.isSome_iff_ne_none]

theorem mem_endpointBackends {info : ServiceInfo} {target : ServiceTarget} {b e : WeightedBackend}
    (h : e ∈ cluster.maps.endpointBackends info target b) :
    e.protocol = cluster.maps.backendProtocol info target ∧ e.tls = cluster.maps.tlsAttachment info target := by
  rw [ExpansionMaps.endpointBackends] at h
  split_ifs at h
  · obtain ⟨ep, _, h⟩ := mem_filterMap.1 h
    obtain ⟨port, _, rfl⟩ := Option.map_eq_some_iff.1 h
    exact ⟨rfl, rfl⟩
  · cases h

theorem backendProtocol_cleartext_iff :
    (cluster.maps.backendProtocol info target = .http ∨ cluster.maps.backendProtocol info target = .h2c
        ∨ cluster.maps.backendProtocol info target = .webSocket)
      ↔ (cluster.maps.tlsAttachment info target).isSome = false
        ∧ (info.findPort target.port).map servicePortProtocol ≠ some .https := by
  rw [ExpansionMaps.backendProtocol]
  cases (cluster.maps.tlsAttachment info target).isSome with
  | true => simp
  | false =>
    cases info.findPort target.port with
    | none => simp
    | some port => rcases servicePortProtocol_cases port with h | h | h | h <;> simp [h]

theorem cleartext_emitted_iff {info : ServiceInfo} {target : ServiceTarget} {e : WeightedBackend} {own : Option BackendTlsAttachment}
    (hprotocol : e.protocol = cluster.maps.backendProtocol info target)
    (htls : e.tls = (cluster.maps.tlsAttachment info target).or own) :
    ¬ Cleartext e ↔ ((cluster.maps.tlsAttachment info target).isSome = true
      ∨ (info.findPort target.port).map servicePortProtocol = some .https) ∨ own ≠ none := by
  rw [Cleartext, hprotocol, backendProtocol_cleartext_iff, htls]
  cases cluster.maps.tlsAttachment info target with
  | none => tauto
  | some attachment => simp

theorem listed_never_cleartext_iff (b : WeightedBackend) (target : ServiceTarget) (info : ServiceInfo) :
    (∀ e ∈ if cluster.maps.endpointBackends info target b ≠ [] then cluster.maps.endpointBackends info target b else [{ b with
          protocol := cluster.maps.backendProtocol info target
          tls := (cluster.maps.tlsAttachment info target).or b.tls }], ¬ Cleartext e)
      ↔ cluster.Secured b target info := by
  have hsecured : cluster.Secured b target info ↔ ((cluster.maps.tlsAttachment info target).isSome = true
      ∨ (info.findPort target.port).map servicePortProtocol = some .https) ∨ (b.tls ≠ none ∧ ¬ cluster.Expanded info target) := by
    simp [tlsAttachment_isSome_iff, Cluster.Secured, or_assoc]
  rw [hsecured]
  by_cases hend : cluster.maps.endpointBackends info target b ≠ []
  · have hexpanded := (endpointBackends_ne_nil_iff info target b).1 hend
    -- the endpoints all have the protocol and the settings of the policy
    have hall : ∀ e ∈ cluster.maps.endpointBackends info target b,
        (¬ Cleartext e ↔ ((cluster.maps.tlsAttachment info target).isSome = true
          ∨ (info.findPort target.port).map servicePortProtocol = some .https)) := by
      intro e he
      obtain ⟨hprotocol, htls⟩ := mem_endpointBackends he
      rw [cleartext_emitted_iff hprotocol (htls.trans Option.or_none.symm)]
      simp
    rw [if_pos hend]
    apply Iff.intro
    · intro h
      obtain ⟨first, hfirst⟩ := exists_mem_of_ne_nil _ hend
      exact .inl ((hall first hfirst).1 (h first hfirst))
    · intro h e he
      rcases h with h | ⟨_, hnot⟩
      · exact (hall e he).2 h
      · exact absurd hexpanded hnot
  · have hname := mt (endpointBackends_ne_nil_iff info target b).2 hend
    rw [if_neg hend, forall_mem_singleton, @cleartext_emitted_iff cluster info target _ b.tls rfl rfl]
    simp [hname]

end Policies

/-- **TLS policies and clear text.** No backend of a targeted Service is emitted in clear text exactly when each of them, if its
Service is not listed, is not in clear text to begin with, and is secured otherwise. -/
theorem never_cleartext_iff (cluster : Cluster) (backends : List WeightedBackend) : cluster.NeverCleartext backends ↔
      ∀ b ∈ backends, ∀ target, parseServiceTarget b.backend = some target → cluster.Targets target.namespace_ target.name →
        match (buildServiceMap cluster.services).get (target.namespace_, target.name) with
        | none => ¬ Cleartext b
        | some info => cluster.Secured b target info := by
  apply forall₂_congr
  intro b _
  apply forall₃_congr
  intro target htarget _
  have hexpand : cluster.maps.expandBackend b = match (buildServiceMap cluster.services).get (target.namespace_, target.name) with
        | none => [b]
        | some info =>
          if cluster.maps.endpointBackends info target b ≠ [] then cluster.maps.endpointBackends info target b
          else [{ b with
            protocol := cluster.maps.backendProtocol info target
            tls := (cluster.maps.tlsAttachment info target).or b.tls }] := by
    rw [ExpansionMaps.expandBackend, htarget]
    rfl
  rw [hexpand]
  cases (buildServiceMap cluster.services).get (target.namespace_, target.name) with
  | none => simp
  | some info => exact listed_never_cleartext_iff b target info

def cartService : ServiceObject :=
  { namespace_ := some "shop", name := some "cart", clusterIp := some "10.0.0.7"
    selector := some (HashMap.ofPairs [("app", "cart")]), ports := some [{ port := 8443 }] }

def unresolvedCluster : Cluster :=
  { policies := [{ cartPolicy with caCertificateRefs := some [{ name := "cart-ca" }] }], services := [cartService] }

def cartBackend : WeightedBackend := { backend := "cart.shop.svc.cluster.local.:8443" }

theorem unresolved_ca_cleartext : unresolvedCluster.Targets "shop" "cart"
      ∧ unresolvedCluster.maps.expandRuleBackends [cartBackend] = [{ cartBackend with protocol := .http, tls := none }]
      ∧ ¬ unresolvedCluster.NeverCleartext [cartBackend] := by
  have htargets : unresolvedCluster.Targets "shop" "cart" :=
    ⟨_, mem_singleton.2 rfl, rfl, _, mem_singleton.2 rfl, rfl, rfl, rfl, rfl⟩
  have hexpand : unresolvedCluster.maps.expandBackend cartBackend = [{ cartBackend with protocol := .http, tls := none }] := by
    decide
  refine ⟨htargets, ?_, ?_⟩
  · rw [ExpansionMaps.expandRuleBackends, flatMap_singleton, hexpand]
  · intro hnever
    have hparse : parseServiceTarget cartBackend.backend = some ⟨"cart", "shop", 8443⟩ := by decide
    apply hnever cartBackend (mem_singleton.2 rfl) _ hparse htargets
    · rw [hexpand]
      exact mem_singleton.2 rfl
    · exact ⟨.inl rfl, rfl⟩

end SunbeamProxy.Gateway
