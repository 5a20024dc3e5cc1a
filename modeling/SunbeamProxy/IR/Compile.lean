/-
The route-table compiler (`ir/compile.rs`): from the intermediate representation to per-host decision trees.

A rule becomes one plan per request match. Plans with an exact path go to a table keyed by the path, plans with a path
prefix or no path to a trie of path segments, plans with a path regex to a list. A trie node with more than
`discriminatorThreshold` plans is split by the attribute most of its plans constrain; which of two equally frequent header
names wins depends on the walk over a hash map, so the compiler takes an `IterOrder`.
-/
import SunbeamProxy.IR.Model

namespace SunbeamProxy

open Text HashMap

/-! ## Plans -/

inductive TerminalAction where
  | redirect (action : RedirectAction)
  | fixedResponse (status : UInt16) (headers : List (String × String)) (body : Option String)
  | notFound
deriving DecidableEq, Repr

inductive RequestStage where
  | auth (config : AuthConfig)
  | corsPreflight (config : CorsConfig)
  | staticFiles (action : StaticFileAction)
  | terminal (action : TerminalAction)
deriving DecidableEq, Repr

inductive UpstreamRequestMutation where
  | setHeader (name value : String)
  | addHeader (name value : String)
  | removeHeader (name : String)
  | stripPrefix (path : String)
  | prependPath (path : String)
  | rewritePath (rw : PathRewrite)
  | rewriteHostname (host : String)
deriving DecidableEq, Repr

inductive ResponseMutation where
  | setHeader (name value : String)
  | addHeader (name value : String)
  | removeHeader (name : String)
  | cors (config : CorsConfig)
deriving DecidableEq, Repr

structure UpstreamAction where
  backends : List WeightedBackend
  timeout : Option ℕ
  mirror : List String
  mirrorFractions : List (Option Fraction)
  backendRequestMutations : List (List UpstreamRequestMutation)
deriving DecidableEq, Repr

structure CompiledPlan where
  precedence : UInt64
  ruleOrder : ℕ
  gatewayApi : Bool
  disableSecureRedirection : Bool
  listenerHostname : Option HostnameMatch
  matches_ : RequestMatch
  requestStages : List RequestStage
  upstream : Option UpstreamAction
  upstreamRequestMutations : List UpstreamRequestMutation
  responseMutations : List ResponseMutation
  bodyRewrites : List BodyRewrite
  cache : Option CachePolicy
  websocket : Bool
  clientCertId : Option String
deriving DecidableEq, Repr

def compileRequestFilter : RequestFilter → UpstreamRequestMutation
  | .setHeader name value => .setHeader name value
  | .addHeader name value => .addHeader name value
  | .removeHeader name => .removeHeader name
  | .stripPrefix p => .stripPrefix p
  | .prependPath p => .prependPath p
  | .rewritePath rw => .rewritePath rw
  | .rewriteHostname h => .rewriteHostname h

def compileResponseFilter : ResponseFilter → ResponseMutation
  | .setHeader name value => .setHeader name value
  | .addHeader name value => .addHeader name value
  | .removeHeader name => .removeHeader name
  | .cors c => .cors c

/-- path length, then method, then header count, then query count, packed into 64 bits; each count is shifted into place
without a bound, as in the source -/
def computePrecedence (rule : Rule) : UInt64 :=
  let pathLen := maxOf (rule.matches_.filterMap fun m => m.path.map fun p => p.text.utf8ByteSize)
  let method := maxOf (rule.matches_.map fun m => if m.method.isSome then 1 else 0)
  let headers := maxOf (rule.matches_.map fun m => m.headers.length)
  let query := maxOf (rule.matches_.map fun m => m.queryParams.length)
  (UInt64.ofNat pathLen <<< 48) ||| (UInt64.ofNat method <<< 32) ||| (UInt64.ofNat headers <<< 16) ||| UInt64.ofNat query

def compilePlan (rule : Rule) (precedence : UInt64) (m : RequestMatch) (gatewayApi disableSecureRedirection : Bool)
    (listenerHostname : Option HostnameMatch) : CompiledPlan :=
  let plain : CompiledPlan :=
    { precedence, ruleOrder := rule.ruleOrder, gatewayApi, disableSecureRedirection, listenerHostname, matches_ := m,
      requestStages := [], upstream := none, upstreamRequestMutations := [], responseMutations := [],
      bodyRewrites := [], cache := none, websocket := false, clientCertId := none }
  match rule.action with
  | .route ra =>
    { plain with
      upstreamRequestMutations := ra.requestFilters.map compileRequestFilter
      responseMutations := ra.responseFilters.map compileResponseFilter
      bodyRewrites := ra.bodyRewrites
      cache := ra.cache
      websocket := ra.websocket
      requestStages := ra.auth.toList.map .auth
      upstream := some
        { backends := ra.backends, timeout := ra.timeout, mirror := ra.mirrorBackends,
          mirrorFractions := ra.mirrorFractions,
          backendRequestMutations := ra.backends.map fun b => b.requestFilters.map compileRequestFilter }
      clientCertId := ra.clientCertId }
  | .redirect r => { plain with requestStages := [.terminal (.redirect r)] }
  | .staticFiles sfa => { plain with requestStages := [.staticFiles sfa] }
  | .fixedResponse f => { plain with requestStages := [.terminal (.fixedResponse f.status f.headers f.body)] }

def planBefore (a b : CompiledPlan) : Bool :=
  decide (b.precedence < a.precedence) || (a.precedence == b.precedence && decide (a.ruleOrder ≤ b.ruleOrder))

theorem planBefore_iff (a b : CompiledPlan) : planBefore a b = true ↔ b.precedence.toNat < a.precedence.toNat
      ∨ (a.precedence.toNat = b.precedence.toNat ∧ a.ruleOrder ≤ b.ruleOrder) := by
  simp [planBefore, UInt64.lt_iff_toNat_lt, ← UInt64.toNat_inj]

instance : Std.Total fun a b => planBefore a b = true where
  total a b := by
    simp only [planBefore_iff]
    omega

instance : IsTrans CompiledPlan fun a b => planBefore a b = true where
  trans a b c hab hbc := by
    simp only [planBefore_iff] at hab hbc ⊢
    omega

variable (plans : List CompiledPlan)

def sortPlans : List CompiledPlan := stableSort planBefore plans

/-! ## Discriminators -/

def discriminatorThreshold : ℕ := 8

inductive DiscriminatorKind where
  | byMethod (exact : HashMap String (List CompiledPlan)) (any : List CompiledPlan)
  | byHeader (name : String) (exact : HashMap String (List CompiledPlan)) (any : List CompiledPlan)
  | byQuery (name : String) (exact : HashMap String (List CompiledPlan)) (any : List CompiledPlan)

structure Discriminator where
  kind : DiscriminatorKind
  fallback : List CompiledPlan

inductive Bucket where
  | exact (value : String)
  | any
  | fallback
deriving DecidableEq, Repr

def methodBucket (plan : CompiledPlan) : Bucket :=
  match plan.matches_.method with
  | some m => .exact m
  | none => .any

def headerBucket (name : String) (plan : CompiledPlan) : Bucket :=
  match plan.matches_.headers.find? (·.name = name) with
  | some ⟨_, .exact v⟩ => .exact v
  | some _ => .fallback
  | none => .any

def queryBucket (name : String) (plan : CompiledPlan) : Bucket :=
  match plan.matches_.queryParams.find? (·.name = name) with
  | some ⟨_, .exact v⟩ => .exact v
  | some _ => .fallback
  | none => .any

def Bucket.exactValue : Bucket → Option String
  | .exact v => some v
  | _ => none

variable (bucket : CompiledPlan → Bucket)

def exactBuckets (plans : List CompiledPlan) : HashMap String (List CompiledPlan) :=
  (pushAll (fun p => (bucket p).exactValue) plans ∅).mapValues sortPlans

def bucketOf (b : Bucket) (plans : List CompiledPlan) : List CompiledPlan :=
  sortPlans (plans.filter fun p => bucket p = b)

theorem get_exactBuckets (plans : List CompiledPlan) (v : String) :
    ((exactBuckets bucket plans).get v).getD [] = bucketOf bucket (.exact v) plans := by
  have hpush := get_pushAll (fun p => (bucket p).exactValue) plans ∅ v
  have hkey : ∀ p, ((bucket p).exactValue = some v) = (bucket p = .exact v) := by
    intro p
    cases bucket p <;> simp [Bucket.exactValue]
  simp only [get_empty, Option.getD_none, List.nil_append, hkey] at hpush
  rw [exactBuckets, get_mapValues, bucketOf, ← hpush]
  cases get (pushAll (fun p => (bucket p).exactValue) plans ∅) v <;> rfl

def buildMethodDiscriminator : Discriminator :=
  ⟨.byMethod (exactBuckets methodBucket plans) (bucketOf methodBucket .any plans), []⟩

def buildHeaderDiscriminator (name : String) : Discriminator :=
  ⟨.byHeader name (exactBuckets (headerBucket name) plans) (bucketOf (headerBucket name) .any plans),
    bucketOf (headerBucket name) .fallback plans⟩

def buildQueryDiscriminator (name : String) : Discriminator :=
  ⟨.byQuery name (exactBuckets (queryBucket name) plans) (bucketOf (queryBucket name) .any plans),
    bucketOf (queryBucket name) .fallback plans⟩

def countOccurrences (names : List String) : HashMap String ℕ :=
  names.foldl (fun m n => m.insert n ((m.get n).getD 0 + 1)) ∅

def countHeaderOccurrences : HashMap String ℕ :=
  countOccurrences (plans.flatMap fun p => p.matches_.headers.map (·.name))

def countQueryOccurrences : HashMap String ℕ :=
  countOccurrences (plans.flatMap fun p => p.matches_.queryParams.map (·.name))

def buildDiscriminator (ω : IterOrder) (plans : List CompiledPlan) : Discriminator :=
  let methodCount := plans.countP fun p => p.matches_.method.isSome
  let bestHeader := maxByKey Prod.snd (ω.order (countHeaderOccurrences plans).pairs)
  let bestQuery := maxByKey Prod.snd (ω.order (countQueryOccurrences plans).pairs)
  let headerCount := (bestHeader.map Prod.snd).getD 0
  let queryCount := (bestQuery.map Prod.snd).getD 0
  if headerCount ≤ methodCount ∧ queryCount ≤ methodCount ∧ 0 < methodCount then buildMethodDiscriminator plans
  else match (if queryCount ≤ headerCount then bestHeader else none), bestQuery with
    | some (name, _), _ => buildHeaderDiscriminator plans name
    | none, some (name, _) => buildQueryDiscriminator plans name
    | none, none => ⟨.byMethod ∅ [], plans⟩

structure PathTrieNode where
  exactChildren : List (String × PathTrieNode)
  prefixPlans : List CompiledPlan
  exactPlans : List CompiledPlan
  discriminator : Option Discriminator

namespace PathTrieNode

def empty : PathTrieNode := ⟨[], [], [], none⟩

def updateChild (s : String) (f : PathTrieNode → PathTrieNode) : List (String × PathTrieNode) → List (String × PathTrieNode)
  | [] => [(s, f empty)]
  | (k, c) :: rest => if k = s then (k, f c) :: rest else (k, c) :: updateChild s f rest

def updateAt : List String → (PathTrieNode → PathTrieNode) → PathTrieNode → PathTrieNode
  | [], f, t => f t
  | s :: ss, f, t => { t with exactChildren := updateChild s (updateAt ss f) t.exactChildren }

def child (t : PathTrieNode) (s : String) : Option PathTrieNode := t.exactChildren.lookup s

mutual

def totalPlanCount : PathTrieNode → ℕ
  | ⟨children, pp, ep, _⟩ => pp.length + ep.length + childrenPlanCount children

def childrenPlanCount : List (String × PathTrieNode) → ℕ
  | [] => 0
  | (_, c) :: rest => totalPlanCount c + childrenPlanCount rest

end

end PathTrieNode

def splitPath (path : String) : List String := (splitChar '/' path).filter (· ≠ "")

def insertPlanIntoTrie (trie : PathTrieNode) (plan : CompiledPlan) : PathTrieNode :=
  match plan.matches_.path with
  | some (.pathPrefix p) =>
    trie.updateAt (splitPath p) fun n => { n with prefixPlans := n.prefixPlans ++ [plan] }
  | some (.exact p) => trie.updateAt (splitPath p) fun n => { n with exactPlans := n.exactPlans ++ [plan] }
  | some (.regex _) => trie
  | none => { trie with prefixPlans := trie.prefixPlans ++ [plan] }

mutual

def buildDiscriminators (ω : IterOrder) : PathTrieNode → PathTrieNode
  | ⟨children, pp, ep, d⟩ =>
    ⟨buildChildDiscriminators ω children, pp, ep,
      if discriminatorThreshold < (pp ++ ep).length then some (buildDiscriminator ω (pp ++ ep)) else d⟩

def buildChildDiscriminators (ω : IterOrder) : List (String × PathTrieNode) → List (String × PathTrieNode)
  | [] => []
  | (k, c) :: rest => (k, buildDiscriminators ω c) :: buildChildDiscriminators ω rest

end

structure HostNode where
  hostname : HostnameMatch
  listenerIds : List String
  listenerHostname : Option HostnameMatch
  listenerPort : Option UInt16
  gatewayApi : Bool
  disableSecureRedirection : Bool
  pathTrie : PathTrieNode
  exactPaths : HashMap String (List CompiledPlan)
  regexPlans : List CompiledPlan
  staticRewrites : List RewriteRule

def HostNode.rulesCount (n : HostNode) : ℕ := n.pathTrie.totalPlanCount + n.regexPlans.length

def hostPlans (host : HostRoute) : List CompiledPlan := host.rules.flatMap fun rule => rule.matches_.map fun m =>
    compilePlan rule (computePrecedence rule) m host.gatewayApi host.disableSecureRedirection host.listenerHostname

variable (p : CompiledPlan)

def exactPath : Option String :=
  match p.matches_.path with
  | some (.exact path) => some path
  | _ => none

def exactPathPlans : HashMap String (List CompiledPlan) :=
  (pushAll exactPath plans ∅).mapValues sortPlans

def isTriePlan : Bool :=
  match p.matches_.path with
  | some (.regex _) => false
  | some (.exact _) => false
  | _ => true

def isRegexPlan : Bool :=
  match p.matches_.path with
  | some (.regex _) => true
  | _ => false

def staticRewritesOf (rules : List Rule) : List RewriteRule :=
  rules.flatMap fun rule => match rule.action with
    | .staticFiles sfa => sfa.rewrites
    | _ => []

def compileHost (ω : IterOrder) (host : HostRoute) : HostNode :=
  let plans := hostPlans host
  { hostname := host.hostname
    listenerIds := host.listenerIds
    listenerHostname := host.listenerHostname
    listenerPort := host.listenerPort
    gatewayApi := host.gatewayApi
    disableSecureRedirection := host.disableSecureRedirection
    pathTrie := buildDiscriminators ω ((plans.filter isTriePlan).foldl insertPlanIntoTrie PathTrieNode.empty)
    exactPaths := exactPathPlans plans
    regexPlans := sortPlans (plans.filter isRegexPlan)
    staticRewrites := staticRewritesOf host.rules }

structure CompiledRouteTable where
  exactHosts : HashMap String (List HostNode)
  wildcardHosts : List (HostnameMatch × HostNode)
  anyHost : Option HostNode
  acmeRoutes : HashMap String String

def wildcardBefore (a b : HostnameMatch × HostNode) : Bool := decide (specificityScore b.1 < specificityScore a.1)
    || (specificityScore a.1 == specificityScore b.1 && decide (a.2.rulesCount ≤ b.2.rulesCount))

namespace CompiledRouteTable

def empty : CompiledRouteTable := ⟨∅, [], none, ∅⟩

def addHost (ω : IterOrder) (t : CompiledRouteTable) (host : HostRoute) : CompiledRouteTable :=
  match host.hostname with
  | .exact s => { t with exactHosts := t.exactHosts.push s (compileHost ω host) }
  | .any => { t with anyHost := some (compileHost ω host) }
  | pattern => { t with wildcardHosts := t.wildcardHosts ++ [(pattern, compileHost ω host)] }

def compile (ω : IterOrder) (ir : RouteTable) : CompiledRouteTable :=
  let t := ir.hosts.foldl (addHost ω) empty
  { t with wildcardHosts := stableSort wildcardBefore t.wildcardHosts, acmeRoutes := ir.acmeRoutes }

end CompiledRouteTable

end SunbeamProxy
