/-
The reconciled view of the Gateway API objects (`gateway/model/view.rs`, `gateway/model/routing.rs`): what the
reconcilers produce and the translator turns into the IR.

Request matches, path rewrites, mirror fractions and client-certificate settings have the IR's constructors one for one and share
its types; hostnames and backends have their own. What is kept for status reports only is left out.
-/
import SunbeamProxy.IR.Model

namespace SunbeamProxy.Gateway

inductive HostnameMatch where
  | exact (host : String)
  | wildcard (suffix : String)
  | any
deriving DecidableEq, Repr

inductive TlsMode where
  | terminate | passthrough
deriving DecidableEq, Repr

structure ListenerState where
  name : String
  protocol : String := "HTTP"
  port : UInt16 := 80
  hostname : Option String := none
  tlsMode : Option TlsMode := none
  frontendValidation : Option FrontendValidation := none
  programmed : Bool := true
deriving DecidableEq, Repr

structure GatewayState where
  namespace_ : String
  name : String
  listeners : List ListenerState := []
  backendClientCertId : Option String := none
  generation : ℤ := 0
deriving DecidableEq, Repr

structure ParentRef where
  group : String := "gateway.networking.k8s.io"
  kind : String := "Gateway"
  namespace_ : Option String := none
  name : String
  sectionName : Option String := none
  port : Option UInt16 := none
deriving DecidableEq, Repr

structure RouteGroupKind where
  group : String
  kind : String
deriving DecidableEq, Repr

inductive NamespaceFrom where
  | same | all | selector | none
deriving DecidableEq, Repr

structure RouteNamespaces where
  source : NamespaceFrom := .same
  selector : Option (HashMap String String) := none

structure AllowedRoutes where
  kinds : List RouteGroupKind := []
  namespaces : RouteNamespaces := {}

structure ListenerSetState where
  namespace_ : String
  name : String
  listeners : List ListenerState := []
  /-- listener name → conflict reason -/
  conflicts : HashMap String String := ∅
  programmed : Bool := true
  generation : ℤ := 0
  accepted : Bool := true
  reason : String := ""

/-! ## Routes -/

inductive RouteFilter where
  | requestHeaderSet (name value : String)
  | requestHeaderAdd (name value : String)
  | requestHeaderRemove (name : String)
  | responseHeaderSet (name value : String)
  | responseHeaderAdd (name value : String)
  | responseHeaderRemove (name : String)
  | urlRewrite (hostname : Option String) (path : Option PathRewrite)
  | requestRedirect (redirect : RedirectAction)
  | requestMirror (backend : String) (fraction : Option Fraction)
  | cors (config : CorsConfig)
deriving DecidableEq, Repr

structure BackendTlsAttachment where
  hostname : String
  caBundlePem : String
  subjectAltNames : List String := []
deriving DecidableEq, Repr

structure WeightedBackend where
  backend : String
  weight : ℕ := 1
  filters : List RouteFilter := []
  protocol : BackendProtocol := .http
  tls : Option BackendTlsAttachment := none
deriving DecidableEq, Repr

structure HTTPRouteRule where
  matches_ : List RequestMatch := []
  backends : List WeightedBackend := []
  filters : List RouteFilter := []
  timeoutMs : Option ℕ := none
  requestTimeoutMs : Option ℕ := none
  programmed : Bool := true
deriving DecidableEq, Repr

structure HTTPRouteState where
  namespace_ : String
  name : String
  hostnames : List HostnameMatch := []
  rules : List HTTPRouteRule := []
  parentRefs : List ParentRef := []
  programmed : Bool := true
  generation : ℤ := 0
deriving DecidableEq, Repr

inductive MethodMatchType where
  | exact | regular
deriving DecidableEq, Repr

structure MethodMatch where
  matchType : MethodMatchType := .exact
  service : String
  method : Option String := none
deriving DecidableEq, Repr

structure GRPCRouteMatch where
  method : Option MethodMatch := none
  headers : List HeaderMatch := []
deriving DecidableEq, Repr

structure GRPCRouteRule where
  matches_ : List GRPCRouteMatch := []
  backends : List WeightedBackend := []
  filters : List RouteFilter := []
  programmed : Bool := true
deriving DecidableEq, Repr

structure GRPCRouteState where
  namespace_ : String
  name : String
  hostnames : List HostnameMatch := []
  rules : List GRPCRouteRule := []
  parentRefs : List ParentRef := []
  programmed : Bool := true
  generation : ℤ := 0
deriving DecidableEq, Repr

structure TCPRouteState where
  namespace_ : String
  name : String
  parentRefs : List ParentRef := []
  backends : List WeightedBackend := []
  programmed : Bool := true
  generation : ℤ := 0
deriving DecidableEq, Repr

structure UDPRouteState where
  namespace_ : String
  name : String
  parentRefs : List ParentRef := []
  backends : List WeightedBackend := []
  programmed : Bool := true
  generation : ℤ := 0
deriving DecidableEq, Repr

structure TLSRouteState where
  namespace_ : String
  name : String
  hostnames : List HostnameMatch := []
  parentRefs : List ParentRef := []
  backends : List WeightedBackend := []
  programmed : Bool := true
  generation : ℤ := 0
deriving DecidableEq, Repr

abbrev ListenerAllowedMap := HashMap (String × String × String) AllowedRoutes

abbrev NamespaceLabels := HashMap String (HashMap String String)

structure GatewayView where
  gateways : List GatewayState := []
  listenerSets : List ListenerSetState := []
  httpRoutes : List HTTPRouteState := []
  grpcRoutes : List GRPCRouteState := []
  tcpRoutes : List TCPRouteState := []
  udpRoutes : List UDPRouteState := []
  tlsRoutes : List TLSRouteState := []
  namespaceLabels : NamespaceLabels := ∅
  listenerAllowed : ListenerAllowedMap := ∅
  listenerSetAllowed : ListenerAllowedMap := ∅

def listenerAllowsKind (allowed : AllowedRoutes) (group kind : String) : Bool :=
  allowed.kinds.isEmpty || allowed.kinds.any fun k => k.group == group && k.kind == kind

def namespaceAllowed (namespaces : RouteNamespaces) (routeNs ownerNs : String) (labels : NamespaceLabels) : Bool :=
  match namespaces.source with
  | .all => true
  | .same => routeNs == ownerNs
  | .none => false
  | .selector =>
    match labels.get routeNs with
    | some nsLabels => namespaces.selector.any fun sel => sel.pairs.all fun e => nsLabels.get e.1 == some e.2
    | none => false

def gatewayGroup : String := "gateway.networking.k8s.io"

end SunbeamProxy.Gateway
