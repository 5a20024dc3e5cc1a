/-
Route lookup at run time (`ir/compile.rs`): from a request to the plan that will serve it.
-/
import SunbeamProxy.Http
import SunbeamProxy.IR.Compile

namespace SunbeamProxy

open Text

structure RegexEngine where
  compile : String → Option (String → Bool)

variable (re : RegexEngine)

def RegexEngine.isMatch (pattern text : String) : Bool := (re.compile pattern).any (· text)

structure RouteRequest where
  host : String
  port : UInt16
  path : String
  method : String
  headers : HeaderMap
  query : Option String
deriving DecidableEq, Repr

def queryPair (pair : String) : String × String := (splitOnce '=' pair).getD (pair, "")

def extractQueryParam (query name : String) : Option String :=
  (((splitChar '&' query).map queryPair).find? (·.1 = name)).map (·.2)

def RouteRequest.queryParam (r : RouteRequest) (name : String) : Option String := r.query.bind (extractQueryParam · name)

def RouteRequest.headerStr (r : RouteRequest) (name : String) : Option String := HeaderMap.getStr r.headers name

def headerMatches (val : Option String) : HeaderMatchValue → Bool
  | .exact expected => val.any (eqIgnoreAsciiCase · expected)
  | .regex pattern => val.any (re.isMatch pattern)
  | .present => val.isSome
  | .absent => val.isNone

def queryMatches (val : Option String) : QueryParamMatchValue → Bool
  | .exact expected => val == some expected
  | .regex pattern => val.any (re.isMatch pattern)

def planMatches (plan : CompiledPlan) (r : RouteRequest) : Bool :=
  plan.matches_.method.all (eqIgnoreAsciiCase · r.method)
    && plan.matches_.headers.all (fun hm => headerMatches re (r.headerStr hm.name) hm.value)
    && plan.matches_.queryParams.all (fun qm => queryMatches re (r.queryParam qm.name) qm.value)

def planRegexPathMatches (plan : CompiledPlan) (path : String) : Bool :=
  match plan.matches_.path with
  | some (.regex pattern) => re.isMatch pattern path
  | _ => true

def bucketAt (exact : HashMap String (List CompiledPlan)) (key : Option String) : List CompiledPlan :=
  (key.bind exact.get).getD []

def resolveNodePlans (node : PathTrieNode) (r : RouteRequest) : List CompiledPlan :=
  match node.discriminator with
  | some ⟨.byMethod exact any, fallback⟩ => bucketAt exact (some r.method) ++ any ++ fallback
  | some ⟨.byHeader name exact any, fallback⟩ => bucketAt exact (r.headerStr name) ++ any ++ fallback
  | some ⟨.byQuery name exact any, fallback⟩ => bucketAt exact (r.queryParam name) ++ any ++ fallback
  | none => node.prefixPlans ++ node.exactPlans

def trieCandidates (r : RouteRequest) : PathTrieNode → List String → List CompiledPlan
  | node, [] => resolveNodePlans node r
  | node, s :: ss =>
    resolveNodePlans node r ++ match node.child s with
      | some c => trieCandidates r c ss
      | none => []

namespace HostNode

def regexCandidates (re : RegexEngine) (n : HostNode) (r : RouteRequest) : List CompiledPlan :=
  n.regexPlans.filter fun p => planMatches re p r && planRegexPathMatches re p r.path

/-- an exact path first, then the best candidate of trie and regex plans. A candidate met twice is not tried again in the
source; trying it again gives the same answer. -/
def lookup (re : RegexEngine) (n : HostNode) (r : RouteRequest) : Option CompiledPlan :=
  ((n.exactPaths.get r.path).bind fun bucket => bucket.find? (planMatches re · r)).or
    ((sortPlans (trieCandidates r n.pathTrie (splitPath r.path) ++ n.regexCandidates re r)).find? (planMatches re · r))

end HostNode

def listenerHostnameMatches (host : String) : Option HostnameMatch → Bool
  | none => true
  | some (.exact s) => s == "" || irHostnameMatches host (.exact s)
  | some lh => irHostnameMatches host lh

def listenerPortMatches (port : UInt16) (listenerPort : Option UInt16) : Bool := listenerPort.all (· == port)

def listenerSpecificityScore : Option HostnameMatch → ℕ
  | none => 0
  | some lh => irListenerSpecificityScore lh

namespace CompiledRouteTable

variable (t : CompiledRouteTable)

def hostCandidates (host : String) : List HostNode := (t.exactHosts.get host).getD []
    ++ (t.wildcardHosts.filter fun e => irHostnameMatches host e.1).map (·.2)
    ++ t.anyHost.toList

def onListener (host : String) (port : UInt16) (n : HostNode) : Bool :=
  listenerHostnameMatches host n.listenerHostname && listenerPortMatches port n.listenerPort

def findHostNode (host : String) (port : UInt16) : Option HostNode :=
  let candidates := (t.hostCandidates host).filter (onListener host port)
  let maxListener := maxOf (candidates.map fun n => listenerSpecificityScore n.listenerHostname)
  let isolated := candidates.filter fun n => listenerSpecificityScore n.listenerHostname = maxListener
  let maxRoute := maxOf (isolated.map fun n => specificityScore n.hostname)
  isolated.find? fun n => specificityScore n.hostname = maxRoute

def lookup (re : RegexEngine) (t : CompiledRouteTable) (r : RouteRequest) : Option CompiledPlan :=
  (t.findHostNode r.host r.port).bind fun n => n.lookup re r

def hasGatewayApiListener (host : String) (port : UInt16) : Bool :=
  (t.hostCandidates host).any fun n => n.gatewayApi && onListener host port n

def hasGatewayApiRoutes : Bool :=
  t.anyHost.any (·.gatewayApi) || t.exactHosts.anyValue (fun nodes => nodes.any (·.gatewayApi))
    || t.wildcardHosts.any (·.2.gatewayApi)

end CompiledRouteTable

/-- two requests no lookup can tell apart -/
structure RoutesAlike (r₁ r₂ : RouteRequest) : Prop where
  host : r₁.host = r₂.host
  port : r₁.port = r₂.port
  path : r₁.path = r₂.path
  method : r₁.method = r₂.method
  header : ∀ name, r₁.headerStr name = r₂.headerStr name
  query : ∀ name, r₁.queryParam name = r₂.queryParam name

section Alike

variable {r₁ r₂ : RouteRequest} (h : RoutesAlike r₁ r₂)

include h

variable (re : RegexEngine)

theorem planMatches_congr (plan : CompiledPlan) : planMatches re plan r₁ = planMatches re plan r₂ := by
  simp [planMatches, h.method, h.header, h.query]

theorem resolveNodePlans_congr (node : PathTrieNode) : resolveNodePlans node r₁ = resolveNodePlans node r₂ := by
  simp [resolveNodePlans, h.method, h.header, h.query]

theorem trieCandidates_congr (node : PathTrieNode) (segments : List String) :
    trieCandidates r₁ node segments = trieCandidates r₂ node segments := by
  induction segments generalizing node with
  | nil => exact resolveNodePlans_congr h node
  | cons s ss ih => simp [trieCandidates, resolveNodePlans_congr h node, ih]

theorem hostNode_lookup_congr (n : HostNode) : n.lookup re r₁ = n.lookup re r₂ := by
  simp [HostNode.lookup, HostNode.regexCandidates, h.path, planMatches_congr h, trieCandidates_congr h]

/-- **Lookup frame.** Requests that agree on host, port, path, method, header texts and query values get the same plan
from every table. -/
theorem lookup_congr (t : CompiledRouteTable) : t.lookup re r₁ = t.lookup re r₂ := by
  simp [CompiledRouteTable.lookup, h.host, h.port, hostNode_lookup_congr h]

end Alike

end SunbeamProxy
