/-
The proxy's view of a connection (`proxy/mod.rs`, `l4/context.rs`, `rate_limit/key.rs`): the shared configuration a
request is served with, the session it arrives on, and the helpers that read a host, a client address and a listener port
out of them.
-/
import SunbeamProxy.IR.L4
import SunbeamProxy.IR.Lookup

namespace SunbeamProxy

open Text

structure Digest where
  sslDigest : Bool
  localAddr : Option SocketAddr
deriving DecidableEq, Repr

structure Session where
  req : RequestHeader
  digest : Option Digest
  clientAddr : Option SocketAddr
deriving DecidableEq, Repr

variable (s : Session)

def isPlainHttp : Bool := (s.digest.map fun d => !d.sslDigest).getD true

def downstreamLocalAddr : Option SocketAddr := s.digest.bind (·.localAddr)

def downstreamPort : UInt16 := ((downstreamLocalAddr s).map (·.port)).getD 0

def stripPort (addr : String) : String :=
  match addr.toList with
  | '[' :: rest => if ']' ∈ rest then String.ofList (rest.takeWhile (· ≠ ']')) else addr
  | cs => if ':' ∈ cs then String.ofList ((cs.reverse.dropWhile (· ≠ ':')).drop 1).reverse else addr

def extractHost : String :=
  match ((HeaderMap.getStr s.req.headers "host").map stripPort).filter (· ≠ "") with
  | some host => host
  | none => s.req.uri.host.getD ""

inductive DDoSAction where
  | allow | block
deriving DecidableEq, Repr

inductive ScannerAction where
  | allow | block
deriving DecidableEq, Repr

inductive RateLimitResult where
  | allow
  | reject (retryAfter : ℕ)
deriving DecidableEq, Repr

inductive BandwidthLimitResult where
  | allow | reject
deriving DecidableEq, Repr

structure DDoSQuery where
  ip : IpAddr
  method : String
  path : String
  host : String
  userAgent : String
  contentLength : ℕ
  hasCookies : Bool
  hasReferer : Bool
  hasAcceptLanguage : Bool
deriving DecidableEq, Repr

structure ScannerQuery where
  method : String
  path : String
  hostPrefix : String
  hasCookies : Bool
  hasReferer : Bool
  hasAcceptLanguage : Bool
  accept : String
  userAgent : String
  contentLength : ℕ
deriving DecidableEq, Repr

inductive RateLimitKey where
  | identity (hash : UInt64)
  | ip (addr : IpAddr)
deriving DecidableEq, Repr

def extractCookieValue (cookies name : String) : Option String := (splitChar ';' cookies).findSome? fun pair =>
    (splitOnce '=' (trim pair)).bind fun kv => if trim kv.1 = name then some (trim kv.2) else none

def extractKey (fxHash : String → UInt64) (cookie auth : Option String) (clientIp : IpAddr) : RateLimitKey :=
  match cookie.bind (extractCookieValue · "ory_kratos_session") with
  | some value => .identity (fxHash value)
  | none =>
    match (auth.bind (stripStart · "Bearer ")).map trim with
    | some token => if token = "" then .ip clientIp else .identity (fxHash token)
    | none => .ip clientIp

structure HttpRelayContext where
  listenerId : String
  listenerPort : UInt16
  secure : Bool
  clientAddr : SocketAddr
deriving DecidableEq, Repr

structure CompiledRewrite where
  pattern : String
  target : String
deriving DecidableEq, Repr

structure Proxy where
  regex : RegexEngine
  fxHash : String → UInt64
  routes : CompiledRouteTable := .empty
  l4Config : CompiledL4Config := {}
  acmeRoutes : HashMap String String := ∅
  ddosDetector : Option (DDoSQuery → DDoSAction) := none
  scannerDetector : Option (ScannerQuery → ScannerAction) := none
  botAllowlist : Option (String → IpAddr → Option String) := none
  rateLimiter : Option (IpAddr → RateLimitKey → RateLimitResult) := none
  compiledRewrites : List (String × List CompiledRewrite) := []
  pipelineBypassCidrs : List CidrBlock := []
  trustedProxyCidrs : List CidrBlock := []
  cluster : Option BandwidthLimitResult := none
  ddosObserveOnly : Bool := false
  scannerObserveOnly : Bool := false
  httpContext : HashMap SocketAddr HttpRelayContext := ∅

namespace Proxy

variable (px : Proxy)

def httpRelayContext (s : Session) : Option HttpRelayContext := s.clientAddr.bind px.httpContext.get

def headerIp (s : Session) (name : String) : Option IpAddr :=
  (HeaderMap.getStr s.req.headers name).bind fun v => parseIpAddr (trim v)

def forwardedIp (s : Session) : Option IpAddr := (HeaderMap.getStr s.req.headers "x-forwarded-for").bind fun v =>
    (splitChar ',' v).head?.bind fun first => parseIpAddr (trim first)

def extractClientIp (s : Session) : Option IpAddr :=
  let socketIp : Option IpAddr := match px.httpRelayContext s with
    | some relay => some relay.clientAddr.ip
    | none => s.clientAddr.map (·.ip)
  socketIp.map fun ip =>
    if !isBypassed ip px.trustedProxyCidrs then ip
    else (((headerIp s "cf-connecting-ip").or (headerIp s "x-real-ip")).or (forwardedIp s)).getD ip

def bypassed (s : Session) : Bool :=
  ((px.extractClientIp s).map (isBypassed · px.pipelineBypassCidrs)).getD false

def findRewrites (hostPrefix : String) : Option (List CompiledRewrite) :=
  (px.compiledRewrites.find? (·.1 = hostPrefix)).map (·.2)

end Proxy

variable (c : CompiledL4Config)

def relayPort (routes : List CompiledL4Route) (target : L4Action → Option String)
    (accepts : Protocol → Bool) (localAddr : SocketAddr) : Option UInt16 :=
  let hit := routes.findSome? fun r =>
    if ((target r.action).bind parseSocketAddr) = some localAddr then
      (c.listeners.find? (·.id = r.listenerId)).filter fun l => accepts l.protocol
    else none
  hit.bind fun l => bindPort l.bindAddr

def httpsTerminatePort (localAddr : SocketAddr) : Option UInt16 :=
  relayPort c c.httpsRoutes (fun | .terminateAndHttp t => some t | _ => none) Protocol.isTls localAddr

def httpRelayPort (localAddr : SocketAddr) : Option UInt16 :=
  relayPort c c.httpRoutes (fun | .httpRelay t => some t | _ => none) (· = .http) localAddr

inductive Scheme where
  | http | https
deriving DecidableEq, Repr

def Scheme.text : Scheme → String
  | .http => "http"
  | .https => "https"

def socketScheme : Scheme := if isPlainHttp s then .http else .https

def downstream (px : Proxy) (s : Session) : Scheme × UInt16 :=
  match downstreamLocalAddr s with
  | none => (socketScheme s, downstreamPort s)
  | some addr =>
    match px.httpRelayContext s with
    | some relay => (if relay.secure then .https else .http, relay.listenerPort)
    | none =>
      match httpsTerminatePort px.l4Config addr with
      | some port => (.https, port)
      | none =>
        match httpRelayPort px.l4Config addr with
        | some port => (.http, port)
        | none => (socketScheme s, downstreamPort s)

def routeRequest (port : UInt16) : RouteRequest :=
  ⟨extractHost s, port, s.req.uri.path, s.req.method, s.req.headers, s.req.uri.query⟩

def lookupPlan (px : Proxy) (s : Session) (port : UInt16) : Option CompiledPlan :=
  px.routes.lookup px.regex (routeRequest s port)

end SunbeamProxy
