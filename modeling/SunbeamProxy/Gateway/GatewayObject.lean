/-
Gateways from the API object to their listener states (`gateway/reconcile/gateway/{listeners,certificates,
frontend_validation,backend_tls,controller}.rs`, `gateway/reconcile/listener_common.rs`).

Secret data is text here, as the PEM check decodes it.
-/
import SunbeamProxy.Core.Json
import SunbeamProxy.Gateway.References
import SunbeamProxy.Tls.Registry

namespace SunbeamProxy.Gateway

open Json

structure GatewayObject where
  namespace_ : Option String := none
  name : Option String := none
  generation : Option ℤ := none
  gatewayClassName : String := ""
  listeners : List Json := []
  tls : Option Json := none

structure ApiServer where
  configMap : String → String → Option (Option (HashMap String String)) := fun _ _ => none
  secret : String → String → Option (Option (HashMap String String)) := fun _ _ => none

variable (obj : JsonMap)

def parseTlsMode (protocol : String) : Option TlsMode :=
  match protocol with
  | "HTTPS" => some .terminate
  | "TLS" =>
    match (obj.getObject "tls").bind (·.getStr "mode") with
    | some "Terminate" => some .terminate
    | _ => some .passthrough
  | _ => none

def buildListenerState : ListenerState :=
  let protocol := (obj.getStr "protocol").getD "HTTP"
  { name := (obj.getStr "name").getD ""
    protocol
    port := (((obj.lookup "port").bind asU64).getD 80).toUInt16
    hostname := obj.getStr "hostname"
    tlsMode := parseTlsMode obj protocol }

variable (gw : GatewayObject)

def buildListenerModel : List ListenerState :=
  (gw.listeners.filterMap asObject).map buildListenerState

def gatewayBackendClientCertRef : Option (String × String) :=
  (gw.tls.bind asObject).bind fun tls =>
  (tls.getObject "backend").bind fun backend =>
  (backend.getObject "clientCertificateRef").bind fun ref =>
    if (ref.getStr "group").getD "" ≠ "" ∨ (ref.getStr "kind").getD "" ≠ "Secret" then none
    else (ref.getStr "name").bind fun name =>
      if name = "" then none
      else some ((ref.getStr "namespace").getD (gw.namespace_.getD "default"), name)

def buildGatewayState : GatewayState :=
  { namespace_ := gw.namespace_.getD ""
    name := gw.name.getD ""
    generation := gw.generation.getD 0
    listeners := buildListenerModel gw
    backendClientCertId := (gatewayBackendClientCertRef gw).map fun r => "gateway/" ++ r.1 ++ "/" ++ r.2 }

structure CertValidation where
  reason : String
  message : String
deriving DecidableEq, Repr

def secretDataValid (data : Option (HashMap String String)) : Bool :=
  let checkPem (key : String) : Bool := ((data.bind (·.get key)).map fun text => Text.contains text "-----BEGIN").getD false
  checkPem "tls.crt" && checkPem "tls.key"

def certificateFailure (api : ApiServer) (fromNs fromKind : String) (index : GrantIndex) (cert : Json) :
    Option CertValidation :=
  let group := ((cert.get "group").bind asStr).getD ""
  let kind := ((cert.get "kind").bind asStr).getD ""
  let name := ((cert.get "name").bind asStr).getD ""
  let ns := ((cert.get "namespace").bind asStr).getD fromNs
  if group ≠ "" ∨ kind ≠ "Secret" then some ⟨"InvalidCertificateRef", "CertificateRef must be a core Secret"⟩
  else if name = "" then some ⟨"InvalidCertificateRef", "CertificateRef name is required"⟩
  else if ns ≠ fromNs ∧ !index.isPermitted fromNs gatewayGroup fromKind ns group kind name then
    some ⟨"RefNotPermitted", "Cross-namespace CertificateRef is not permitted by ReferenceGrant"⟩
  else
    match api.secret ns name with
    | none => some ⟨"InvalidCertificateRef", "CertificateRef Secret not found"⟩
    | some data =>
      if secretDataValid data then none
      else some ⟨"InvalidCertificateRef", "CertificateRef Secret does not contain a valid TLS certificate"⟩

def validateListenerCertificates (api : ApiServer) (fromNs fromKind : String) (listener : JsonMap) (index : GrantIndex) :
    Option CertValidation :=
  match (listener.lookup "tls").bind fun tls => (tls.get "certificateRefs").bind asArray with
  | none => none
  | some certs => certs.findSome? (certificateFailure api fromNs fromKind index)

structure CaCertificateRefRaw where
  group : String
  kind : String
  name : String
  namespace_ : Option String
deriving DecidableEq, Repr

structure FrontendValidationSpec where
  caCertificateRefs : List CaCertificateRefRaw
  allowInsecureFallback : Bool
deriving DecidableEq, Repr

def parseCaCertificateRef (v : Json) : Option CaCertificateRefRaw := v.asObject.bind fun r =>
  (r.getStr "name").bind fun name =>
    if name = "" then none
    else some ⟨(r.getStr "group").getD "", (r.getStr "kind").getD "", name, r.getStr "namespace"⟩

def parseFrontendValidationObj : Option FrontendValidationSpec :=
  (obj.getArray "caCertificateRefs").bind fun refs =>
  (refs.mapM parseCaCertificateRef).map fun caCertificateRefs =>
    ⟨caCertificateRefs, ((obj.getStr "mode").map (· == "AllowInsecureFallback")).getD false⟩

def entryPort (entry : Json) : Option UInt16 := ((entry.get "port").bind asU64).map UInt64.toUInt16

def searchPerPort (port : UInt16) : List Json → Option (Option Json)
  | [] => some none
  | entry :: rest =>
    match entryPort entry with
    | none => none
    | some p => if p = port then some (some entry) else searchPerPort port rest

def listenerFrontendValidation (gwTls : Option Json) (port : UInt16) : Option FrontendValidationSpec :=
  (gwTls.bind asObject).bind fun tls =>
  (tls.getObject "frontend").bind fun frontend =>
    match searchPerPort port ((frontend.getArray "perPort").getD []) with
    | none => none
    | some (some entry) =>
      ((entry.get "tls").bind asObject).bind fun tls => (tls.getObject "validation").bind parseFrontendValidationObj
    | some none =>
      (frontend.getObject "default").bind fun default => (default.getObject "validation").bind parseFrontendValidationObj

section
variable (pki : Pki) (api : ApiServer) (index : GrantIndex)

def loadCaCertificate (gwNs : String) (r : CaCertificateRefRaw) : Option String :=
  let refNs := r.namespace_.getD gwNs
  if r.kind ≠ "ConfigMap" ∨ r.group ≠ "" then none
  else if refNs ≠ gwNs ∧ !index.isPermitted gwNs gatewayGroup "Gateway" refNs "" "ConfigMap" r.name then none
  else (api.configMap refNs r.name).bind fun data => data.bind fun data => (data.get "ca.crt").bind fun ca =>
    match pki.parseCertChain ca with
    | .ok _ => some ca
    | .error _ => none

def loadCaBundle (gwNs : String) (refs : List CaCertificateRefRaw) : Option String :=
  refs.foldlM (fun bundle r => (loadCaCertificate pki api index gwNs r).map fun ca => endLine (bundle ++ ca)) ""

variable (gw : GatewayObject)

def listenerCertificatesValid (idx : ℕ) : Bool :=
  match (gw.listeners[idx]?).bind asObject with
  | some obj => (validateListenerCertificates api (gw.namespace_.getD "default") "Gateway" obj index).isNone
  | none => false

def ListenerState.terminatesTls (l : ListenerState) : Bool :=
  (l.protocol == "HTTPS" || l.protocol == "TLS") && l.tlsMode == some .terminate

def loadListenerFrontendValidation (idx : ℕ) (l : ListenerState) : ListenerState :=
  if !l.terminatesTls then l
  else if !listenerCertificatesValid api index gw idx then { l with programmed := false }
  else
    match listenerFrontendValidation gw.tls l.port with
    | none => l
    | some spec =>
      match loadCaBundle pki api index (gw.namespace_.getD "default") spec.caCertificateRefs with
      | none => { l with programmed := false }
      | some bundle => { l with frontendValidation := some ⟨bundle, spec.allowInsecureFallback⟩ }

def loadGatewayFrontendValidation (state : GatewayState) : GatewayState :=
  { state with listeners := state.listeners.mapIdx (loadListenerFrontendValidation pki api index gw) }

end

end SunbeamProxy.Gateway
