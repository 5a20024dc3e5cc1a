/-
The filters around the upstream exchange (`proxy/filters.rs`): the plan's changes to the request head, to the response head,
and to the response body.
-/
import SunbeamProxy.Core.Utf8
import SunbeamProxy.Proxy.RequestFilter

namespace SunbeamProxy

open Text Codec

def isTokenChar (c : Char) : Bool := c.isAlphanum || "!#$%&'*+-.^_`|~".toList.contains c

/-- `HeaderName::try_from` of the `http` crate -/
def validHeaderName (name : String) : Bool :=
  name != "" && name.toList.all isTokenChar && decide (name.utf8ByteSize < 2 ^ 16)

/-- the bytes of a header value (`HeaderValue::try_from`) -/
def validHeaderValue (v : HeaderValue) : Bool := v.bytes.all fun b => (32 ≤ b && b != 127) || b == 9

namespace HeaderMap

variable (h : HeaderMap)

def remove (name : String) : HeaderMap := h.filter fun e => !eqIgnoreAsciiCase e.1 name

def insert (name value : String) : Option HeaderMap :=
  if validHeaderName name && validHeaderValue ⟨utf8 value⟩ then some (remove h name ++ [(name, ⟨utf8 value⟩)]) else none

def append (name value : String) : Option HeaderMap :=
  if validHeaderName name && validHeaderValue ⟨utf8 value⟩ then some (h ++ [(name, ⟨utf8 value⟩)]) else none

end HeaderMap

def normalizePath (path : String) : Option String := if startsWith path "/" then
    (resolve [] (splitChar '/' path)).map fun stack => "/" ++ joinChar '/' stack
  else none
where
  resolve (stack : List String) : List String → Option (List String)
    | [] => some stack
    | segment :: rest =>
      if segment = "" ∨ segment = "." then resolve stack rest
      else if segment = ".." then (if stack = [] then none else resolve stack.dropLast rest)
      else resolve (stack ++ [segment]) rest

def isPathChar (c : Char) : Bool :=
  let n := c.toNat
  n == 0x21 || n == 0x22 || (0x24 ≤ n && n ≤ 0x3B) || n == 0x3D || (0x40 ≤ n && n ≤ 0x5F) || 0x61 ≤ n

def isQueryChar (c : Char) : Bool :=
  let n := c.toNat
  n == 0x21 || (0x24 ≤ n && n ≤ 0x3B) || n == 0x3D || 0x3F ≤ n

/-- `PathAndQuery::try_from` of the `http` crate -/
def parsePathAndQuery (text : String) : Option (String × Option String) :=
  let kept := text.toList.takeWhile (· ≠ '#')
  let path := kept.takeWhile (· ≠ '?')
  let query := if '?' ∈ kept then some (kept.drop (path.length + 1)) else none
  if path.all isPathChar && (query.getD []).all isQueryChar then
    some (if path = [] then "/" else String.ofList path, query.map String.ofList)
  else none

def Uri.queryPart (uri : Uri) : String := (uri.query.map fun q => "?" ++ q).getD ""

def Uri.isAuthorityForm (uri : Uri) : Bool := uri.path = "" && uri.host.isSome

/-! ## Request changes -/

inductive ErrorType where
  | httpStatus (status : UInt16)
  | internalError
deriving DecidableEq, Repr

structure ProxyError where
  etype : ErrorType
  context : String
deriving DecidableEq, Repr

def setPath (what rawPath : String) (req : RequestHeader) : Except ProxyError RequestHeader :=
  match normalizePath rawPath with
  | none => .error ⟨.httpStatus 400, "invalid path after " ++ what⟩
  | some newPath =>
    match parsePathAndQuery (newPath ++ req.uri.queryPart) with
    | none => .error ⟨.internalError, "invalid uri after " ++ what⟩
    | some (path, query) =>
      if req.uri.isAuthorityForm then .error ⟨.internalError, "invalid uri parts after " ++ what⟩
      else .ok { req with uri := { req.uri with path, query } }

def joinReplacement (replacement rest : String) : String :=
  let rest := (stripStart rest "/").getD rest
  if replacement = "" ∨ replacement = "/" then "/" ++ rest
  else
    let replacement := (stripEnd replacement "/").getD replacement
    if rest = "" then replacement else replacement ++ "/" ++ rest

def rewrittenPath (oldPath : String) : PathRewrite → String
  | .fullReplace path => path
  | .prefixReplace matched replacement =>
    match stripStart oldPath matched with
    | some rest => joinReplacement replacement rest
    | none => oldPath

def changeHeaders (what : String) (headers : Option HeaderMap) (req : RequestHeader) : Except ProxyError RequestHeader :=
  match headers with
  | some headers => .ok { req with headers }
  | none => .error ⟨.internalError, what⟩

def applyUpstreamRequestMutation (authorityHost : String → Option String) (req : RequestHeader) :
    UpstreamRequestMutation → Except ProxyError RequestHeader
  | .setHeader name value => changeHeaders "failed to set request header" (HeaderMap.insert req.headers name value) req
  | .addHeader name value => changeHeaders "failed to add request header" (HeaderMap.append req.headers name value) req
  | .removeHeader name => .ok { req with headers := HeaderMap.remove req.headers name }
  | .stripPrefix path =>
    match stripStart req.uri.path path with
    | some stripped => setPath "prefix strip" (if stripped = "" then "/" else stripped) req
    | none => .ok req
  | .prependPath path =>
    let trimmed := (stripStart req.uri.path "/").getD req.uri.path
    let rawPath := if (stripEnd path "/").isSome then path ++ trimmed else path ++ "/" ++ trimmed
    setPath "prefix prepend" rawPath req
  | .rewritePath rw => setPath "path rewrite" (rewrittenPath req.uri.path rw) req
  | .rewriteHostname hostname =>
    match changeHeaders "failed to rewrite host header" (HeaderMap.insert req.headers "host" hostname) req with
    | .error e => .error e
    | .ok req =>
      match authorityHost hostname with
      | none => .error ⟨.internalError, "invalid rewrite hostname"⟩
      | some host =>
        let path := if req.uri.path = "" then "/" else req.uri.path
        .ok { req with uri := { req.uri with host := some host, path } }

structure UpstreamCall where
  forwardedFor : Option String
  requestId : String
  backendIndex : Option ℕ
deriving DecidableEq, Repr

def insertForwardedFor (address : Option String) (req : RequestHeader) : Except ProxyError RequestHeader :=
  match address with
  | some ip => changeHeaders "failed to insert x-forwarded-for" (HeaderMap.insert req.headers "x-forwarded-for" ip) req
  | none => .ok req

def forwardUpgrade (downstream : RequestHeader) (headers : HeaderMap) : HeaderMap :=
  ["connection", "upgrade"].foldl (fun headers name =>
    match HeaderMap.get downstream.headers name with
    | some value => HeaderMap.remove headers name ++ [(name, value)]
    | none => headers) headers

def backendMutations (plan : CompiledPlan) (backendIndex : Option ℕ) : List UpstreamRequestMutation :=
  match backendIndex, plan.upstream with
  | some idx, some upstream => (upstream.backendRequestMutations[idx]?).getD []
  | _, _ => []

def planMutations (plan : Option CompiledPlan) (backendIndex : Option ℕ) : List UpstreamRequestMutation :=
  match plan with
  | some plan => plan.upstreamRequestMutations ++ backendMutations plan backendIndex
  | none => []

def upstreamRequestFilterInner (authorityHost : String → Option String) (call : UpstreamCall) (downstream : RequestHeader)
    (ctx : RequestCtx) (req : RequestHeader) : Except ProxyError (RequestHeader × RequestCtx) := do
  let req ← changeHeaders "failed to insert x-forwarded-proto"
    (HeaderMap.insert req.headers "x-forwarded-proto" ctx.downstreamScheme.text) req
  let req ← insertForwardedFor call.forwardedFor req
  let req ← changeHeaders "failed to insert x-request-id" (HeaderMap.insert req.headers "x-request-id" call.requestId) req
  let req := if ctx.plan.any (·.websocket) then { req with headers := forwardUpgrade downstream req.headers } else req
  let req ← ctx.authHeaders.foldlM (fun req h =>
    changeHeaders "failed to insert auth header" (HeaderMap.insert req.headers h.1 h.2) req) req
  let req ← (planMutations ctx.plan call.backendIndex).foldlM (applyUpstreamRequestMutation authorityHost) req
  .ok ({ req with headers := HeaderMap.remove req.headers "expect" }, { ctx with authHeaders := [] })

def applyResponseMutation (req : RequestHeader) (headers : HeaderMap) : ResponseMutation → HeaderMap
  | .setHeader name value => (HeaderMap.insert headers name value).getD headers
  | .addHeader name value => (HeaderMap.append headers name value).getD headers
  | .removeHeader name => HeaderMap.remove headers name
  | .cors config =>
    (corsHeaders req config).foldl (fun headers h => (HeaderMap.insert headers h.1 h.2).getD headers) headers

def contentType (headers : HeaderMap) : String := (HeaderMap.getStr headers "content-type").getD ""

def shouldRewrite (type : String) : Bool :=
  startsWith type "text/html" || startsWith type "application/javascript" || startsWith type "text/javascript"

def upstreamResponseFilterInner (req : RequestHeader) (requestId : String) (plan : Option CompiledPlan)
    (headers : HeaderMap) : HeaderMap × Option Bytes :=
  let headers := (HeaderMap.insert headers "x-request-id" requestId).getD headers
  match plan with
  | none => (headers, none)
  | some plan =>
    let headers := plan.responseMutations.foldl (applyResponseMutation req) headers
    if plan.bodyRewrites ≠ [] ∧ shouldRewrite (contentType headers) = true then
      (HeaderMap.remove headers "content-length", some [])
    else (headers, none)

def maxBodyRewriteBytes : ℕ := 10 * 1024 * 1024

structure BodyCall where
  body : Option Bytes
  endOfStream : Bool
deriving DecidableEq, Repr

def BodyRewrite.applies (rule : BodyRewrite) (type : String) : Bool :=
  rule.types.isEmpty || rule.types.any (startsWith type)

def rewriteBody (rules : List BodyRewrite) (type : String) (text : String) : String :=
  rules.foldl (fun text rule => if rule.applies type then replace text rule.find rule.replace else text) text

def responseBodyFilterInner (plan : Option CompiledPlan) (written : Option HeaderMap) (call : BodyCall)
    (buffer : Option Bytes) : Option Bytes × Option Bytes :=
  match buffer with
  | none => (call.body, none)
  | some buf =>
    match call.body with
    | some data => if maxBodyRewriteBytes < buf.length + data.length then (some data, none) else atEnd (buf ++ data)
    | none => atEnd buf
where
  atEnd (buf : Bytes) : Option Bytes × Option Bytes := if call.endOfStream then
      let rules := (plan.map (·.bodyRewrites)).getD []
      (some (utf8 (rewriteBody rules ((written.map contentType).getD "") (fromUtf8Lossy buf))), none)
    else (none, some buf)

end SunbeamProxy
