/-
The canonical bytes of a reconciled view (`gateway/model/digest/{core,common,http,l4}.rs`), which replicas hash to compare
their views.

Every collection is sorted by a key of its own and written with its length in front.
-/
import Mathlib.Data.Prod.Lex
import Mathlib.Order.WithBot
import SunbeamProxy.Core.CanonicalOrder
import SunbeamProxy.Core.Codec
import SunbeamProxy.Gateway.References

namespace SunbeamProxy.Gateway

open Codec

structure RouteState where
  namespace_ : String
  name : String
  kind : String
  generation : ℤ := 0
  parentRefs : List ParentRef := []
deriving DecidableEq, Repr

structure ReconciledView extends GatewayView where
  routes : List RouteState := []
  referenceGrants : List ReferenceGrantState := []

def encodeSorted {α κ : Type} [LinearOrder κ] (key : α → κ) (enc : α → Bytes) (l : List α) : Bytes :=
  encodeU32 l.length ++ inOrder key enc l

def optionKey {α : Type} : Option α → WithBot α
  | none => ⊥
  | some a => a

def encodeMap {κ ν μ : Type} [LinearOrder μ] (key : κ → μ) (enc : κ × ν → Bytes) (m : HashMap κ ν) : Bytes :=
  encodeSorted (fun e => key e.1) enc m.pairs

def encodeStrPair (e : String × String) : Bytes := encodeStr e.1 ++ encodeStr e.2

def encodeStrMap (m : HashMap String String) : Bytes := encodeMap id encodeStrPair m

def encodeOptionStr : Option String → Bytes := encodeOption encodeStr

def parentRefKey (p : ParentRef) : WithBot String ×ₗ String ×ₗ WithBot String :=
  toLex (optionKey p.namespace_, toLex (p.name, optionKey p.sectionName))

def encodeParentRef (p : ParentRef) : Bytes := encodeOptionStr p.namespace_ ++ encodeStr p.name ++ encodeOptionStr p.sectionName

def encodeParentRefs (refs : List ParentRef) : Bytes := encodeSorted parentRefKey encodeParentRef refs

def encodeListener (l : ListenerState) : Bytes := encodeStr l.name ++ encodeStr l.protocol ++ encodeU16 l.port

def encodeListeners (listeners : List ListenerState) : Bytes := encodeSorted (·.name) encodeListener listeners

def encodeWeightedBackend (b : WeightedBackend) : Bytes := encodeStr b.backend ++ encodeU32 b.weight

def hostnameKey : HostnameMatch → ℕ ×ₗ String
  | .exact s => toLex (0, s)
  | .wildcard s => toLex (1, s)
  | .any => toLex (2, "")

def encodeHostname : HostnameMatch → Bytes
  | .exact s => 0 :: encodeStr s
  | .wildcard s => 1 :: encodeStr s
  | .any => [2]

def encodeHostnames (hostnames : List HostnameMatch) : Bytes := encodeSorted hostnameKey encodeHostname hostnames

def gatewayKey (g : GatewayState) : String ×ₗ String := toLex (g.namespace_, g.name)

def encodeGateway (g : GatewayState) : Bytes :=
  encodeStr g.namespace_ ++ encodeStr g.name ++ encodeI64 g.generation ++ encodeListeners g.listeners

def listenerSetKey (s : ListenerSetState) : String ×ₗ String := toLex (s.namespace_, s.name)

def encodeListenerSet (s : ListenerSetState) : Bytes :=
  encodeStr s.namespace_ ++ encodeStr s.name ++ encodeI64 s.generation ++ encodeListeners s.listeners
    ++ encodeStrMap s.conflicts
    ++ encodeBool s.accepted ++ encodeBool s.programmed ++ encodeStr s.reason

def routeKey (r : RouteState) : String ×ₗ String ×ₗ String := toLex (r.kind, toLex (r.namespace_, r.name))

def encodeRoute (r : RouteState) : Bytes :=
  encodeStr r.namespace_ ++ encodeStr r.name ++ encodeStr r.kind ++ encodeI64 r.generation ++ encodeParentRefs r.parentRefs

def grantSubjectKey (s : GrantSubject) : String ×ₗ String ×ₗ WithBot String ×ₗ WithBot String :=
  toLex (s.group, toLex (s.kind, toLex (optionKey s.namespace_, optionKey s.name)))

def encodeGrantSubject (s : GrantSubject) : Bytes :=
  encodeStr s.group ++ encodeStr s.kind ++ encodeOptionStr s.namespace_ ++ encodeOptionStr s.name

def encodeGrantSubjects (subjects : List GrantSubject) : Bytes := encodeSorted grantSubjectKey encodeGrantSubject subjects

def referenceGrantKey (g : ReferenceGrantState) : String ×ₗ String := toLex (g.namespace_, g.name)

def encodeReferenceGrant (g : ReferenceGrantState) : Bytes :=
  encodeStr g.namespace_ ++ encodeStr g.name ++ encodeI64 g.generation ++ encodeGrantSubjects g.source
    ++ encodeGrantSubjects g.target

def encodeLabelsEntry (e : String × HashMap String String) : Bytes := encodeStr e.1 ++ encodeStrMap e.2

def encodeNamespaceLabels (labels : NamespaceLabels) : Bytes := encodeMap id encodeLabelsEntry labels

def routeGroupKindKey (k : RouteGroupKind) : String ×ₗ String := toLex (k.group, k.kind)

def encodeRouteGroupKind (k : RouteGroupKind) : Bytes := encodeStr k.group ++ encodeStr k.kind

def encodeNamespaceFrom : NamespaceFrom → Bytes
  | .same => [0]
  | .all => [1]
  | .selector => [2]
  | .none => [3]

def encodeRouteNamespaces (ns : RouteNamespaces) : Bytes :=
  encodeNamespaceFrom ns.source ++ encodeOption encodeStrMap ns.selector

def encodeKinds (kinds : List RouteGroupKind) : Bytes := encodeSorted routeGroupKindKey encodeRouteGroupKind kinds

def encodeAllowedRoutes (allowed : AllowedRoutes) : Bytes :=
  encodeKinds allowed.kinds ++ encodeRouteNamespaces allowed.namespaces

def listenerAllowedKey (k : String × String × String) : String ×ₗ String ×ₗ String := toLex (k.1, toLex (k.2.1, k.2.2))

def encodeAllowedEntry (e : (String × String × String) × AllowedRoutes) : Bytes :=
  encodeStr e.1.1 ++ encodeStr e.1.2.1 ++ encodeStr e.1.2.2 ++ encodeAllowedRoutes e.2

def encodeAllowedRoutesMap (m : ListenerAllowedMap) : Bytes := encodeMap listenerAllowedKey encodeAllowedEntry m

/-! ## HTTP routes -/

def encodePathRewrite : PathRewrite → Bytes
  | .fullReplace s => 0 :: encodeStr s
  | .prefixReplace matched replacement => 1 :: (encodeStr matched ++ encodeStr replacement)

def encodeOptionPathMatch : Option PathMatch → Bytes
  | none => [0]
  | some (.exact s) => 1 :: 0 :: encodeStr s
  | some (.pathPrefix s) => 1 :: 1 :: encodeStr s
  | some (.regex s) => 1 :: 2 :: encodeStr s

def encodeHeaderMatch (h : HeaderMatch) : Bytes := encodeStr h.name ++ match h.value with
    | .exact s => 0 :: encodeStr s
    | .regex s => 1 :: encodeStr s
    | .present => [2]
    | .absent => [3]

def encodeQueryParamMatch (q : QueryParamMatch) : Bytes := encodeStr q.name ++ match q.value with
    | .exact s => 0 :: encodeStr s
    | .regex s => 1 :: encodeStr s

def encodeRouteMatch (m : RequestMatch) : Bytes :=
  encodeOptionPathMatch m.path ++ encodeOptionStr m.method ++ encodeSorted (·.name) encodeHeaderMatch m.headers
    ++ encodeSorted (·.name) encodeQueryParamMatch m.queryParams

def encodeRedirect (r : RedirectAction) : Bytes :=
  encodeOptionStr r.scheme ++ encodeOptionStr r.hostname ++ encodeOption encodePathRewrite r.path
    ++ encodeOption encodeU16 r.port ++ encodeU16 r.statusCode

def encodeCors (c : CorsConfig) : Bytes :=
  encodeList encodeStr c.allowOrigins ++ encodeList encodeStr c.allowMethods ++ encodeList encodeStr c.allowHeaders
    ++ encodeList encodeStr c.exposeHeaders ++ encodeOption encodeI32Le c.maxAge ++ encodeBool c.allowCredentials

def encodeFraction : Option Fraction → Bytes
  | some f => encodeU32 f.numerator ++ encodeU32 f.denominator
  | none => []

def encodeRouteFilter : RouteFilter → Bytes
  | .requestHeaderSet name value => 0 :: (encodeStr name ++ encodeStr value)
  | .requestHeaderAdd name value => 1 :: (encodeStr name ++ encodeStr value)
  | .requestHeaderRemove name => 2 :: encodeStr name
  | .responseHeaderSet name value => 3 :: (encodeStr name ++ encodeStr value)
  | .responseHeaderAdd name value => 4 :: (encodeStr name ++ encodeStr value)
  | .responseHeaderRemove name => 5 :: encodeStr name
  | .urlRewrite hostname path => 6 :: (encodeOptionStr hostname ++ encodeOption encodePathRewrite path)
  | .requestRedirect redirect => 7 :: encodeRedirect redirect
  | .requestMirror backend fraction => 8 :: (encodeStr backend ++ encodeFraction fraction)
  | .cors config => 9 :: encodeCors config

def routeFilterOrd : RouteFilter → ℕ
  | .requestHeaderSet .. => 0
  | .requestHeaderAdd .. => 1
  | .requestHeaderRemove .. => 2
  | .responseHeaderSet .. => 3
  | .responseHeaderAdd .. => 4
  | .responseHeaderRemove .. => 5
  | .urlRewrite .. => 6
  | .requestRedirect .. => 7
  | .requestMirror .. => 8
  | .cors .. => 9

def pathKey : Option PathMatch → ℕ ×ₗ String
  | none => toLex (0, "")
  | some (.exact s) => toLex (1, s)
  | some (.pathPrefix s) => toLex (2, s)
  | some (.regex s) => toLex (3, s)

def routeMatchKey (m : RequestMatch) : (ℕ ×ₗ String) ×ₗ WithBot String ×ₗ ℕ ×ₗ ℕ :=
  toLex (pathKey m.path, toLex (optionKey m.method, toLex (m.headers.length, m.queryParams.length)))

def backendKey (b : WeightedBackend) : String ×ₗ ℕ := toLex (b.backend, b.weight)

def encodeHttpRouteRule (rule : HTTPRouteRule) : Bytes :=
  encodeSorted routeMatchKey encodeRouteMatch rule.matches_ ++ encodeSorted backendKey encodeWeightedBackend rule.backends
    ++ encodeSorted routeFilterOrd encodeRouteFilter rule.filters

def ruleKey (rule : HTTPRouteRule) : ℕ ×ₗ ℕ := toLex (rule.matches_.length, rule.backends.length)

def httpRouteKey (r : HTTPRouteState) : String ×ₗ String := toLex (r.namespace_, r.name)

def encodeHttpRoute (r : HTTPRouteState) : Bytes :=
  encodeStr r.namespace_ ++ encodeStr r.name ++ encodeI64 r.generation ++ encodeHostnames r.hostnames
    ++ encodeParentRefs r.parentRefs ++ encodeSorted ruleKey encodeHttpRouteRule r.rules

def encodeL4Route (namespace_ name : String) (generation : ℤ) (parentRefs : List ParentRef) (hostnames : Bytes)
    (backends : List WeightedBackend) (programmed : Bool) : Bytes :=
  encodeStr namespace_ ++ encodeStr name ++ encodeI64 generation ++ encodeParentRefs parentRefs ++ hostnames
    ++ encodeList encodeWeightedBackend backends ++ encodeBool programmed

def tcpRouteKey (r : TCPRouteState) : String ×ₗ String := toLex (r.namespace_, r.name)

def encodeTcpRoute (r : TCPRouteState) : Bytes :=
  encodeL4Route r.namespace_ r.name r.generation r.parentRefs [] r.backends r.programmed

def udpRouteKey (r : UDPRouteState) : String ×ₗ String := toLex (r.namespace_, r.name)

def encodeUdpRoute (r : UDPRouteState) : Bytes :=
  encodeL4Route r.namespace_ r.name r.generation r.parentRefs [] r.backends r.programmed

def tlsRouteKey (r : TLSRouteState) : String ×ₗ String := toLex (r.namespace_, r.name)

def encodeTlsRoute (r : TLSRouteState) : Bytes :=
  encodeL4Route r.namespace_ r.name r.generation r.parentRefs (encodeHostnames r.hostnames) r.backends r.programmed

def encodeView (v : ReconciledView) : Bytes :=
  encodeSorted gatewayKey encodeGateway v.gateways ++ encodeSorted listenerSetKey encodeListenerSet v.listenerSets
    ++ encodeSorted routeKey encodeRoute v.routes ++ encodeSorted httpRouteKey encodeHttpRoute v.httpRoutes
    ++ encodeSorted tcpRouteKey encodeTcpRoute v.tcpRoutes ++ encodeSorted udpRouteKey encodeUdpRoute v.udpRoutes
    ++ encodeSorted tlsRouteKey encodeTlsRoute v.tlsRoutes
    ++ encodeSorted referenceGrantKey encodeReferenceGrant v.referenceGrants
    ++ encodeNamespaceLabels v.namespaceLabels ++ encodeAllowedRoutesMap v.listenerAllowed
    ++ encodeAllowedRoutesMap v.listenerSetAllowed

end SunbeamProxy.Gateway
