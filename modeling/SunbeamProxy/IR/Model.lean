/-
The intermediate representation (`ir/mod.rs`): the routing model every configuration source produces and both compilers
read. Durations are millisecond counts.
-/
import SunbeamProxy.Core.Collections
import SunbeamProxy.Core.Text

namespace SunbeamProxy

inductive HostnameMatch where
  | exact (name : String)
  /-- first label, e.g. `test` for `test` and `test.*` -/
  | labelPrefix (label : String)
  /-- `*.` and the given suffix -/
  | wildcard (suffix : String)
  | any
deriving DecidableEq, Repr

inductive Protocol where
  | http | https | tcp | udp | tls
deriving DecidableEq, Repr

def Protocol.name : Protocol → String
  | .http => "Http"
  | .https => "Https"
  | .tcp => "Tcp"
  | .udp => "Udp"
  | .tls => "Tls"

inductive TlsConfig where
  | registry (certId : String)
  | files (certPath keyPath : String)
deriving DecidableEq, Repr

structure FrontendValidation where
  caBundlePem : String
  allowInsecureFallback : Bool
deriving DecidableEq, Repr

structure ListenerConfig where
  id : String
  bindAddr : String
  protocol : Protocol
  tls : Option TlsConfig := none
  redirectHttpToHttps : Bool := false
  frontendValidation : Option FrontendValidation := none
deriving DecidableEq, Repr

inductive PathRewrite where
  | fullReplace (path : String)
  | prefixReplace (matched replacement : String)
deriving DecidableEq, Repr

inductive RequestFilter where
  | setHeader (name value : String)
  | addHeader (name value : String)
  | removeHeader (name : String)
  | stripPrefix (path : String)
  | prependPath (path : String)
  | rewritePath (rw : PathRewrite)
  | rewriteHostname (host : String)
deriving DecidableEq, Repr

structure BackendTlsConfig where
  sni : String
  verifyHostname : Bool
  alternativeCn : Option String := none
  clientCertId : Option String := none
  caBundlePem : Option String := none
  subjectAltNames : List String := []
deriving DecidableEq, Repr

inductive BackendProtocol where
  | http | h2c | https | webSocket | webSocketSecure
deriving DecidableEq, Repr

structure WeightedBackend where
  backend : String
  weight : ℕ
  requestFilters : List RequestFilter := []
  protocol : BackendProtocol := .http
  tls : Option BackendTlsConfig := none
deriving DecidableEq, Repr

inductive L4Match where
  | any
  | sni (host : HostnameMatch)
deriving DecidableEq, Repr

inductive L4Action where
  | tcpRelay (backends : List WeightedBackend)
  | udpRelay (backends : List WeightedBackend)
  | tlsPassthrough (backends : List WeightedBackend)
  | tlsTerminate (backends : List WeightedBackend)
  | terminateAndHttp (target : String)
  | httpRelay (target : String)
deriving DecidableEq, Repr

structure L4Route where
  listenerId : String
  listenerHostname : HostnameMatch
  match_ : L4Match
  action : L4Action
deriving DecidableEq, Repr

inductive PathMatch where
  | pathPrefix (path : String)
  | exact (path : String)
  | regex (pattern : String)
deriving DecidableEq, Repr

def PathMatch.text : PathMatch → String
  | .pathPrefix s => s
  | .exact s => s
  | .regex s => s

inductive HeaderMatchValue where
  | exact (value : String)
  | regex (pattern : String)
  | present
  | absent
deriving DecidableEq, Repr

structure HeaderMatch where
  name : String
  value : HeaderMatchValue
deriving DecidableEq, Repr

inductive QueryParamMatchValue where
  | exact (value : String)
  | regex (pattern : String)
deriving DecidableEq, Repr

structure QueryParamMatch where
  name : String
  value : QueryParamMatchValue
deriving DecidableEq, Repr

structure RequestMatch where
  path : Option PathMatch := none
  method : Option String := none
  headers : List HeaderMatch := []
  queryParams : List QueryParamMatch := []
deriving DecidableEq, Repr

/-! ## Actions -/

structure CorsConfig where
  allowOrigins : List String := []
  allowMethods : List String := []
  allowHeaders : List String := []
  exposeHeaders : List String := []
  maxAge : Option ℤ := none
  allowCredentials : Bool := false
deriving DecidableEq, Repr

inductive ResponseFilter where
  | setHeader (name value : String)
  | addHeader (name value : String)
  | removeHeader (name : String)
  | cors (config : CorsConfig)
deriving DecidableEq, Repr

structure CachePolicy where
  enabled : Bool := false
  defaultTtlSecs : ℕ := 0
  respectCacheHeaders : Bool := false
  staleWhileRevalidateSecs : ℕ := 0
  maxFileSize : ℕ := 0
deriving DecidableEq, Repr

structure BodyRewrite where
  find : String
  replace : String
  types : List String
deriving DecidableEq, Repr

structure AuthConfig where
  url : String
  captureHeaders : List String := []
deriving DecidableEq, Repr

structure Fraction where
  numerator : ℕ
  denominator : ℕ
deriving DecidableEq, Repr

structure RouteAction where
  backends : List WeightedBackend := []
  timeout : Option ℕ := none
  requestFilters : List RequestFilter := []
  responseFilters : List ResponseFilter := []
  mirrorBackends : List String := []
  mirrorFractions : List (Option Fraction) := []
  cache : Option CachePolicy := none
  bodyRewrites : List BodyRewrite := []
  auth : Option AuthConfig := none
  websocket : Bool := false
  disableHttpsRedirect : Bool := false
  clientCertId : Option String := none
deriving DecidableEq, Repr

structure RedirectAction where
  statusCode : UInt16
  scheme : Option String := none
  hostname : Option String := none
  port : Option UInt16 := none
  path : Option PathRewrite := none
deriving DecidableEq, Repr

structure RewriteRule where
  pattern : String
  target : String
deriving DecidableEq, Repr

structure StaticFileAction where
  root : String
  fallback : Option String := none
  rewrites : List RewriteRule := []
  extraHeaders : List (String × String) := []
deriving DecidableEq, Repr

structure FixedResponseAction where
  status : UInt16
  headers : List (String × String) := []
  body : Option String := none
deriving DecidableEq, Repr

inductive Action where
  | route (action : RouteAction)
  | redirect (action : RedirectAction)
  | staticFiles (action : StaticFileAction)
  | fixedResponse (action : FixedResponseAction)
deriving DecidableEq, Repr

structure Rule where
  matches_ : List RequestMatch
  action : Action
  ruleOrder : ℕ := 0
deriving DecidableEq, Repr

structure HostRoute where
  hostname : HostnameMatch
  listenerIds : List String := []
  listenerHostname : Option HostnameMatch := none
  listenerPort : Option UInt16 := none
  gatewayApi : Bool := false
  disableSecureRedirection : Bool := false
  rules : List Rule
deriving DecidableEq, Repr

inductive TlsCertSource where
  | files (certPath keyPath : String)
  | secret (namespace_ name : String)
deriving DecidableEq, Repr

structure TlsCertConfig where
  id : String
  source : TlsCertSource
deriving DecidableEq, Repr

structure RouteTable where
  listeners : List ListenerConfig := []
  hosts : List HostRoute := []
  acmeRoutes : HashMap String String := ∅
  l4Routes : List L4Route := []
  tlsCerts : List TlsCertConfig := []

open Text

def irHostnameMatches (host : String) : HostnameMatch → Bool
  | .exact s => host == s
  | .labelPrefix p => host == p || startsWith host (p ++ ".")
  | .wildcard suffix =>
    match (stripEnd host suffix).bind (stripEnd · ".") with
    | some rest => rest != ""
    | none => false
  | .any => true

theorem irHostnameMatches_wildcard (host suffix : String) :
    irHostnameMatches host (.wildcard suffix) = true ↔ ∃ rest, rest ≠ "" ∧ host = rest ++ "." ++ suffix := by
  simp only [irHostnameMatches]
  constructor
  · intro h
    cases hs : (stripEnd host suffix).bind (stripEnd · ".") with
    | none => simp [hs] at h
    | some rest =>
      obtain ⟨mid, hmid, hrest⟩ := Option.bind_eq_some_iff.1 hs
      refine ⟨rest, by simpa [hs] using h, ?_⟩
      rw [stripEnd_eq_some.1 hmid, stripEnd_eq_some.1 hrest]
  · rintro ⟨rest, hne, hhost⟩
    have hs : (stripEnd host suffix).bind (stripEnd · ".") = some rest := by
      rw [stripEnd_eq_some.2 hhost, Option.bind_some, stripEnd_eq_some.2 rfl]
    simpa [hs] using hne

def dotCount (s : String) : ℕ := s.toList.count '.'

def irListenerSpecificityScore : HostnameMatch → ℕ
  | .exact s => if s = "" then 0 else 1000
  | .labelPrefix _ => 500
  | .wildcard s => 100 + dotCount s
  | .any => 0

def specificityScore : HostnameMatch → ℕ
  | .exact _ => 1000
  | .labelPrefix _ => 500
  | .wildcard s => 100 + dotCount s
  | .any => 0

end SunbeamProxy
