/-
The request filter (`proxy/request_filter.rs`), with every early return.
-/
import SunbeamProxy.Proxy.Session

namespace SunbeamProxy

open Text HeaderMap

structure RequestCtx where
  plan : Option CompiledPlan := none
  acmeBackend : Option String := none
  downstreamScheme : Scheme := .https
  downstreamPort : UInt16 := 0
  servedStatic : Bool := false
  authHeaders : List (String × String) := []
deriving DecidableEq, Repr

inductive Layer where
  | ddos | scanner | rateLimit | bandwidth
deriving DecidableEq, Repr

inductive StageOutcome where
  | passed
  | answered (r : Response)
  | served
deriving DecidableEq, Repr

inductive Event where
  | consult (layer : Layer)
  | takePlan (plan : CompiledPlan)
  | stage (stage : RequestStage) (outcome : StageOutcome)
  | respond (r : Response)
  | writeContinue
deriving DecidableEq, Repr

structure FilterSt where
  ctx : RequestCtx := {}
  sniContext : HashMap SocketAddr String := ∅
  trace : List Event := []

def FilterSt.log (st : FilterSt) (e : Event) : FilterSt := { st with trace := st.trace ++ [e] }

inductive Verdict where
  | handled | forward | failed
deriving DecidableEq, Repr

structure Outcome where
  verdict : Verdict
  st : FilterSt

structure AuthRequest where
  url : String
  headers : List (String × String)
deriving DecidableEq, Repr

structure AuthResponse where
  status : ℕ
  headers : HeaderMap
deriving DecidableEq, Repr

def AuthResponse.isSuccess (r : AuthResponse) : Bool := decide (200 ≤ r.status ∧ r.status < 300)

structure StaticRequest where
  root : String
  fallback : Option String
  path : String
  extraHeaders : List (String × String)
deriving DecidableEq, Repr

structure World where
  send : Response → Bool
  authSend : AuthRequest → Option AuthResponse
  tryServe : StaticRequest → Except Unit Bool
  sendContinue : Bool

variable (w : World)

def written (r : Response) : Verdict := if w.send r then .handled else .failed

def continueWith (step : Except Outcome FilterSt) (next : FilterSt → Outcome) : Outcome :=
  match step with
  | .error o => o
  | .ok st => next st

def respond (st : FilterSt) (r : Response) : Outcome := ⟨written w r, st.log (.respond r)⟩

def stageAnswer (st : FilterSt) (stage : RequestStage) (r : Response) : Outcome :=
  ⟨written w r, st.log (.stage stage (.answered r))⟩

/-! ## Responses -/

def insertHeader (headers : List (String × String)) (name value : String) : List (String × String) :=
  headers.filter (fun h => !eqIgnoreAsciiCase h.1 name) ++ [(name, value)]

def corsAllowOrigin (origin : String) (allowOrigins : List String) (allowCredentials : Bool) : Bool :=
  if allowOrigins.isEmpty then !allowCredentials
  else allowOrigins.any fun allowed =>
    allowed == "*" || eqIgnoreAsciiCase allowed origin ||
      match originPattern allowed with
      | some (before, after) =>
        match ((stripStart origin before).bind (stripEnd · after)).bind (stripEnd · ".") with
        | some rest => rest != ""
        | none => false
      | none => false
where
  /-- `split_once("*.")` -/
  originPattern (allowed : String) : Option (String × String) :=
    go [] allowed.toList
  go (before : List Char) : List Char → Option (String × String)
    | '*' :: '.' :: rest => some (String.ofList before.reverse, String.ofList rest)
    | c :: rest => go (c :: before) rest
    | [] => none

def corsAllowed (allow : List String) (asked : Option String) (credentials : Bool) : String :=
  if allow.contains "*" then (if credentials then asked.getD "*" else "*") else ", ".intercalate allow

def corsHeaders (req : RequestHeader) (cors : CorsConfig) : List (String × String) :=
  match getStr req.headers "origin" with
  | none => []
  | some origin =>
    if corsAllowOrigin origin cors.allowOrigins cors.allowCredentials then
      [("Access-Control-Allow-Origin", origin), ("Vary", "Origin")]
        ++ (if cors.allowCredentials then [("Access-Control-Allow-Credentials", "true")] else [])
        ++ (if cors.allowMethods.isEmpty then [] else [("Access-Control-Allow-Methods",
            corsAllowed cors.allowMethods (getStr req.headers "access-control-request-method")
              cors.allowCredentials)])
        ++ (if cors.allowHeaders.isEmpty then [] else [("Access-Control-Allow-Headers",
            corsAllowed cors.allowHeaders (getStr req.headers "access-control-request-headers")
              cors.allowCredentials)])
        ++ (if cors.exposeHeaders.isEmpty then []
            else [("Access-Control-Expose-Headers", ", ".intercalate cors.exposeHeaders)])
        ++ (cors.maxAge.map fun age => ("Access-Control-Max-Age", toString age)).toList
    else []

def preflightResponse (req : RequestHeader) (cors : CorsConfig) : Response :=
  let asked := getStr req.headers "access-control-request-method"
  let origin := getStr req.headers "origin"
  let allowed := origin.filter fun o => corsAllowOrigin o cors.allowOrigins cors.allowCredentials
  ⟨204, (match allowed with
      | some o => [("Access-Control-Allow-Origin", o), ("Vary", "Origin")]
          ++ (if cors.allowCredentials then [("Access-Control-Allow-Credentials", "true")] else [])
      | none => [])
    ++ (if cors.allowMethods.isEmpty then []
        else [("Access-Control-Allow-Methods", corsAllowed cors.allowMethods asked cors.allowCredentials)])
    ++ (if cors.allowHeaders.isEmpty then [] else [("Access-Control-Allow-Headers",
        corsAllowed cors.allowHeaders (getStr req.headers "access-control-request-headers")
          cors.allowCredentials)])
    ++ (cors.maxAge.map fun age => ("Access-Control-Max-Age", toString age)).toList
    ++ [("Content-Length", "0")], none⟩

def buildRedirectLocationIr (r : RedirectAction) (uri : Uri) (requestHost : String) (scheme : Scheme)
    (port : UInt16) : String :=
  let target := r.scheme.getD scheme.text
  let host := (r.hostname.or uri.host).getD requestHost
  let path := match r.path with
    | some (.prefixReplace matched replacement) =>
      match stripStart uri.path matched with
      | some rest => replacement ++ rest
      | none => uri.path
    | some (.fullReplace replacement) => replacement
    | none => uri.path
  let defaultPort : UInt16 :=
    if r.scheme.isSome then (if target = "https" then 443 else if target = "http" then 80 else port) else port
  let effective := r.port.getD defaultPort
  if effective = 0 ∨ (target = "http" ∧ effective = 80) ∨ (target = "https" ∧ effective = 443) then
    target ++ "://" ++ host ++ path
  else target ++ "://" ++ host ++ ":" ++ toString effective.toNat ++ path

variable (s : Session)

def terminalResponse (ctx : RequestCtx) : TerminalAction → Response
  | .redirect r =>
    ⟨r.statusCode, [("Location",
      buildRedirectLocationIr r s.req.uri (extractHost s) ctx.downstreamScheme ctx.downstreamPort),
      ("Content-Length", "0")], none⟩
  | .fixedResponse status headers body =>
    let hs := headers.foldl (fun hs h => insertHeader hs h.1 h.2) []
    let hs := if headers.any (fun h => eqIgnoreAsciiCase h.1 "content-type") then hs
      else insertHeader hs "Content-Type" "text/plain; charset=utf-8"
    ⟨status, insertHeader hs "Content-Length" (toString (((body.map String.utf8ByteSize).getD 0))), body⟩
  | .notFound => .bare 404

def authRequest (auth : AuthConfig) : AuthRequest :=
  let copied (name : String) := ((get s.req.headers name).map fun v => (name, v.toStr.getD "")).toList
  ⟨auth.url, copied "cookie" ++ copied "authorization" ++ [("x-original-uri", s.req.uri.path)]⟩

def capturedHeaders (auth : AuthConfig) (resp : AuthResponse) : List (String × String) :=
  auth.captureHeaders.filterMap fun name => (getStr resp.headers name).map fun v => (name, v)

def executeAuthStage (s : Session) (st : FilterSt) (auth : AuthConfig) : Except Outcome FilterSt :=
  match w.authSend (authRequest s auth) with
  | some resp =>
    if resp.isSuccess then
      let ctx := { st.ctx with authHeaders := st.ctx.authHeaders ++ capturedHeaders auth resp }
      .ok (FilterSt.log { st with ctx } (.stage (.auth auth) .passed))
    else .error (stageAnswer w st (.auth auth) (.bare 403))
  | none => .error (stageAnswer w st (.auth auth) (.bare 502))

def executeCorsPreflightStage (s : Session) (st : FilterSt) (cors : CorsConfig) : Except Outcome FilterSt :=
  if eqIgnoreAsciiCase s.req.method "OPTIONS"
      && (getStr s.req.headers "access-control-request-method").isSome then
    .error (stageAnswer w st (.corsPreflight cors) (preflightResponse s.req cors))
  else .ok (st.log (.stage (.corsPreflight cors) .passed))

def hostPrefix (host : String) : String := ((splitChar '.' host).head?).getD ""

variable (px : Proxy)

def staticRequest (s : Session) (sfa : StaticFileAction) : StaticRequest :=
  let path := s.req.uri.path
  let rewritten := (px.findRewrites (hostPrefix (extractHost s))).bind fun rules =>
    (rules.find? fun rw => px.regex.isMatch rw.pattern path).map (·.target)
  ⟨sfa.root, sfa.fallback, rewritten.getD path, sfa.extraHeaders⟩

def executeStaticFilesStage (w : World) (s : Session) (st : FilterSt) (sfa : StaticFileAction) :
    Except Outcome FilterSt :=
  match w.tryServe (staticRequest px s sfa) with
  | .error _ => .error ⟨.failed, st⟩
  | .ok true =>
    .error ⟨.handled, FilterSt.log { st with ctx := { st.ctx with servedStatic := true } } (.stage (.staticFiles sfa) .served)⟩
  | .ok false => .ok (st.log (.stage (.staticFiles sfa) .passed))

def executeTerminalStage (s : Session) (st : FilterSt) (t : TerminalAction) : Outcome :=
  stageAnswer w st (.terminal t) (terminalResponse s st.ctx t)

def executeStage (w : World) (s : Session) (st : FilterSt) : RequestStage → Except Outcome FilterSt
  | .auth a => executeAuthStage w s st a
  | .corsPreflight c => executeCorsPreflightStage w s st c
  | .staticFiles sfa => executeStaticFilesStage px w s st sfa
  | .terminal t => .error (executeTerminalStage w s st t)

def runStages (px : Proxy) (w : World) (s : Session) : List RequestStage → FilterSt → Except Outcome FilterSt
  | [], st => .ok st
  | stage :: rest, st => (executeStage px w s st stage).bind (runStages px w s rest)

def plainStages (w : World) (s : Session) (st : FilterSt) : List RequestStage → Outcome
  | [] => ⟨.forward, st⟩
  | .terminal t :: _ => executeTerminalStage w s st t
  | _ :: rest => plainStages w s st rest

def userAgent : String := (getStr s.req.headers "user-agent").getD "-"

def contentLength : ℕ :=
  ((getStr s.req.headers "content-length").bind (parseUnsigned (2 ^ 64))).getD 0

def hasHeader (name : String) : Bool := (get s.req.headers name).isSome

def ddosQuery (ip : IpAddr) : DDoSQuery :=
  ⟨ip, s.req.method, s.req.uri.path, extractHost s, userAgent s, contentLength s, hasHeader s "cookie",
    hasHeader s "referer", hasHeader s "accept-language"⟩

def scannerQuery : ScannerQuery :=
  ⟨s.req.method, s.req.uri.path, hostPrefix (extractHost s), hasHeader s "cookie", hasHeader s "referer",
    hasHeader s "accept-language", (getStr s.req.headers "accept").getD "", userAgent s, contentLength s⟩

def retryAfter (secs : String) : Response := ⟨429, [("Retry-After", secs), ("Content-Length", "0")], none⟩

def bandwidthBody : String :=
  "\x7b\"error\":\"bandwidth_limit_exceeded\",\"message\":\"Request rate-limited: aggregate bandwidth capacity exceeded. Please try again shortly.\"\x7d"

def bandwidthExceeded : Response := ⟨429, [("Retry-After", "5"), ("Content-Type", "application/json"),
    ("Content-Length", toString bandwidthBody.utf8ByteSize)], some bandwidthBody⟩

def consultLayer (layer : Layer) (asked : Option (Option Response)) (st : FilterSt) : Except Outcome FilterSt :=
  match asked with
  | none => .ok st
  | some none => .ok (st.log (.consult layer))
  | some (some r) => .error (respond w (st.log (.consult layer)) r)

def ddosAsked (s : Session) : Option (Option Response) :=
  match px.ddosDetector, px.extractClientIp s with
  | some check, some ip =>
    some (if check (ddosQuery s ip) = .block ∧ px.ddosObserveOnly = false then some (retryAfter "60") else none)
  | _, _ => none

def scannerAsked (s : Session) : Option (Option Response) := px.scannerDetector.map fun check =>
    let verifiedBot := px.botAllowlist.any fun allow => (px.extractClientIp s).any fun ip => (allow (userAgent s) ip).isSome
    if verifiedBot = false ∧ check (scannerQuery s) = .block ∧ px.scannerObserveOnly = false then some (.bare 403)
    else none

def rateLimitAsked (s : Session) : Option (Option Response) :=
  match px.rateLimiter, px.extractClientIp s with
  | some check, some ip =>
    let key := extractKey px.fxHash (getStr s.req.headers "cookie")
      (getStr s.req.headers "authorization") ip
    match check ip key with
    | .reject secs => some (some (retryAfter (toString secs)))
    | .allow => some none
  | _, _ => none

def bandwidthAsked : Option (Option Response) :=
  px.cluster.map fun result => if result = .reject then some bandwidthExceeded else none

def askedLayers (s : Session) : List (Layer × Option (Option Response)) :=
  [(.ddos, ddosAsked px s), (.scanner, scannerAsked px s), (.rateLimit, rateLimitAsked px s),
    (.bandwidth, bandwidthAsked px)]

def consultLayers (w : World) : List (Layer × Option (Option Response)) → FilterSt → Except Outcome FilterSt
  | [], st => .ok st
  | (layer, asked) :: rest, st => (consultLayer w layer asked st).bind (consultLayers w rest)

def detectionPipeline (w : World) (s : Session) (st : FilterSt) : Except Outcome FilterSt :=
  if px.bypassed s then .ok st else consultLayers w (askedLayers px s) st

def misdirected (c : CompiledL4Config) (port : UInt16) (sni host : String) : Bool :=
  match c.listenerHostnameFor sni port, c.listenerHostnameFor host port with
  | some a, some b => a != b
  | some _, none => true
  | none, _ => false

def sniForSession (sniContext : HashMap SocketAddr String) : Option String × HashMap SocketAddr String :=
  match s.clientAddr with
  | some peer => (sniContext.get peer, sniContext.erase peer)
  | none => (none, sniContext)

def acmeChallengePath : String := "/.well-known/acme-challenge/"

def secureRedirect : Response :=
  ⟨301, [("Location", "https://" ++ extractHost s ++ s.req.uri.path ++ ((s.req.uri.query.map ("?" ++ ·)).getD "")),
    ("Content-Length", "0")], none⟩

def planCors (plan : CompiledPlan) : Option CorsConfig := plan.responseMutations.findSome? fun
    | .cors c => some c
    | _ => none

def plainPreflight (plan : CompiledPlan) : Option CorsConfig :=
  if s.req.method = "OPTIONS" ∧ hasHeader s "origin" ∧ hasHeader s "access-control-request-method" then planCors plan
  else none

def CompiledPlan.servesPlainHttp (plan : CompiledPlan) : Bool := plan.gatewayApi || plan.disableSecureRedirection

def takePlan (st : FilterSt) (plan : CompiledPlan) : FilterSt :=
  FilterSt.log { st with ctx := { st.ctx with plan := some plan } } (.takePlan plan)

def plainHttp (w : World) (s : Session) (st : FilterSt) : Outcome :=
  if startsWith s.req.uri.path acmeChallengePath then
    match px.acmeRoutes.get s.req.uri.path with
    | some backend => ⟨.forward, { st with ctx := { st.ctx with acmeBackend := some backend } }⟩
    | none => respond w st (.bare 404)
  else
    match lookupPlan px s st.ctx.downstreamPort with
    | some plan =>
      if plan.servesPlainHttp then
        let st := takePlan st plan
        match plainPreflight s plan with
        | some cors => respond w st ⟨204, corsHeaders s.req cors, none⟩
        | none => plainStages w s st plan.requestStages
      else respond w st (secureRedirect s)
    | none => respond w st (if px.routes.hasGatewayApiRoutes then .bare 404 else secureRedirect s)

def expectContinue (s : Session) (st : FilterSt) : Outcome :=
  if (getStr s.req.headers "expect").any (eqIgnoreAsciiCase · "100-continue") then
    ⟨if w.sendContinue then .forward else .failed, st.log .writeContinue⟩
  else ⟨.forward, st⟩

def routeSecured (w : World) (s : Session) (st : FilterSt) : Outcome :=
  match lookupPlan px s st.ctx.downstreamPort with
  | some plan => continueWith (runStages px w s plan.requestStages (takePlan st plan)) (expectContinue w s)
  | none =>
    if px.routes.hasGatewayApiListener (extractHost s) st.ctx.downstreamPort then
      ⟨.forward, { st with ctx := { st.ctx with plan := none } }⟩
    else respond w st (.bare 404)

def enterFilter (s : Session) (st : FilterSt) : Option String × FilterSt :=
  let (scheme, port) := downstream px s
  let ctx := { st.ctx with downstreamScheme := scheme, downstreamPort := port }
  if scheme = .https then
    let (sni, sniContext) := sniForSession s st.sniContext
    (sni, { st with ctx, sniContext })
  else (none, { st with ctx })

def requestFilterInner (w : World) (s : Session) (st : FilterSt) : Outcome :=
  let (sni, st) := enterFilter px s st
  if sni.any (misdirected px.l4Config st.ctx.downstreamPort · (extractHost s)) then respond w st (.bare 421)
  else if isPlainHttp s then plainHttp px w s st
  else continueWith (detectionPipeline px w s st) (routeSecured px w s)

end SunbeamProxy
