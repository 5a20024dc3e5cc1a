/-
HTTP routes from the API object to the IR: parsing (`gateway/reconcile/route/http_parse.rs`,
`gateway/reconcile/header_filter.rs`) and translation (`gateway/translate/http.rs`, `gateway/translate/from_model.rs`).

Durations are parsed by a library; the parser is a parameter.
-/
import SunbeamProxy.Gateway.References

namespace SunbeamProxy.Gateway

open List

inductive MatchType where
  | exact | regularExpression
deriving DecidableEq, Repr

inductive PathMatchType where
  | exact | pathPrefix | regularExpression
deriving DecidableEq, Repr

inductive HttpMethod where
  | get | head | post | put | delete | connect | options | trace | patch
deriving DecidableEq, Repr

structure RawPathMatch where
  type : Option PathMatchType := none
  value : Option String := none

structure RawValueMatch where
  type : Option MatchType := none
  name : String
  value : String

structure RawMatch where
  path : Option RawPathMatch := none
  method : Option HttpMethod := none
  headers : Option (List RawValueMatch) := none
  queryParams : Option (List RawValueMatch) := none

structure HeaderModifier where
  set : Option (List (String × String)) := none
  add : Option (List (String × String)) := none
  remove : Option (List String) := none

inductive PathModifierType where
  | replaceFullPath | replacePrefixMatch
deriving DecidableEq, Repr

structure RawPathModifier where
  type : PathModifierType
  replaceFullPath : Option String := none
  replacePrefixMatch : Option String := none

structure RawUrlRewrite where
  hostname : Option String := none
  path : Option RawPathModifier := none

inductive RedirectScheme where
  | http | https
deriving DecidableEq, Repr

structure RawRedirect where
  scheme : Option RedirectScheme := none
  hostname : Option String := none
  path : Option RawPathModifier := none
  port : Option ℤ := none
  statusCode : Option ℤ := none

structure RawFraction where
  numerator : ℤ
  denominator : Option ℤ := none

structure RawMirror where
  backendRef : BackendRef
  fraction : Option RawFraction := none
  percent : Option ℤ := none

structure RawCors where
  allowOrigins : Option (List String) := none
  allowMethods : Option (List String) := none
  allowHeaders : Option (List String) := none
  exposeHeaders : Option (List String) := none
  maxAge : Option ℤ := none
  allowCredentials : Option Bool := none

inductive FilterType where
  | requestHeaderModifier | responseHeaderModifier | requestMirror | requestRedirect | urlRewrite | cors
  | extensionRef
deriving DecidableEq, Repr

structure RawFilter where
  type : FilterType
  requestHeaderModifier : Option HeaderModifier := none
  responseHeaderModifier : Option HeaderModifier := none
  requestMirror : Option RawMirror := none
  requestRedirect : Option RawRedirect := none
  urlRewrite : Option RawUrlRewrite := none
  cors : Option RawCors := none

structure RawBackendRef where
  ref : BackendRef
  filters : Option (List RawFilter) := none

structure RawTimeouts where
  backendRequest : Option String := none
  request : Option String := none

structure RawRule where
  matches_ : Option (List RawMatch) := none
  backendRefs : Option (List RawBackendRef) := none
  filters : Option (List RawFilter) := none
  timeouts : Option RawTimeouts := none

structure HTTPRoute where
  namespace_ : Option String := none
  name : Option String := none
  hostnames : Option (List String) := none
  rules : Option (List RawRule) := none

/-! ## Parsing -/

def HttpMethod.text : HttpMethod → String
  | .get => "GET"
  | .head => "HEAD"
  | .post => "POST"
  | .put => "PUT"
  | .delete => "DELETE"
  | .connect => "CONNECT"
  | .options => "OPTIONS"
  | .trace => "TRACE"
  | .patch => "PATCH"

def RedirectScheme.text : RedirectScheme → String
  | .http => "http"
  | .https => "https"

def parsePathMatch (raw : RawPathMatch) : PathMatch :=
  let value := raw.value.getD "/"
  match raw.type.getD .pathPrefix with
  | .exact => .exact value
  | .pathPrefix => .pathPrefix value
  | .regularExpression => .regex value

def parseHeaderMatch (raw : RawValueMatch) : HeaderMatch := ⟨raw.name, match raw.type.getD .exact with
    | .exact => .exact raw.value
    | .regularExpression => .regex raw.value⟩

def parseQueryParamMatch (raw : RawValueMatch) : QueryParamMatch := ⟨raw.name, match raw.type.getD .exact with
    | .exact => .exact raw.value
    | .regularExpression => .regex raw.value⟩

def parseMatch (raw : RawMatch) : RequestMatch :=
  { path := raw.path.map parsePathMatch
    method := raw.method.map HttpMethod.text
    headers := (raw.headers.getD []).map parseHeaderMatch
    queryParams := (raw.queryParams.getD []).map parseQueryParamMatch }

def parseRequestHeaderModifier (m : HeaderModifier) : List RouteFilter :=
  (m.set.getD []).map (fun h => .requestHeaderSet h.1 h.2) ++ (m.add.getD []).map (fun h => .requestHeaderAdd h.1 h.2)
    ++ (m.remove.getD []).map .requestHeaderRemove

def parseResponseHeaderModifier (m : HeaderModifier) : List RouteFilter :=
  (m.set.getD []).map (fun h => .responseHeaderSet h.1 h.2) ++ (m.add.getD []).map (fun h => .responseHeaderAdd h.1 h.2)
    ++ (m.remove.getD []).map .responseHeaderRemove

def parseRewritePath (p : RawPathModifier) : Option PathRewrite :=
  match p.type with
  | .replacePrefixMatch => some (.prefixReplace "/" (p.replacePrefixMatch.getD ""))
  | .replaceFullPath => p.replaceFullPath.map .fullReplace

def parseRedirectPath (p : RawPathModifier) : Option PathRewrite :=
  match p.type with
  | .replaceFullPath => p.replaceFullPath.map .fullReplace
  | .replacePrefixMatch => p.replacePrefixMatch.map (.prefixReplace "/")

def parseUrlRewrite (u : RawUrlRewrite) : List RouteFilter :=
  let path := u.path.bind parseRewritePath
  if u.hostname.isNone && path.isNone then [] else [.urlRewrite u.hostname path]

def toU16 (n : ℤ) : UInt16 := UInt16.ofNat (n % 65536).toNat

def toU32 (n : ℤ) : ℕ := (n % 4294967296).toNat

def parseRedirect (r : RawRedirect) : RedirectAction :=
  { statusCode := toU16 (r.statusCode.getD 302)
    scheme := r.scheme.map RedirectScheme.text
    hostname := r.hostname
    port := r.port.map toU16
    path := r.path.bind parseRedirectPath }

def parseFraction (m : RawMirror) : Option Fraction :=
  match m.fraction with
  | some f => some ⟨toU32 (max f.numerator 0), toU32 (max (f.denominator.getD 100) 1)⟩
  | none => m.percent.map fun p => ⟨toU32 (max p 0), 100⟩

def mirrorAddress (m : RawMirror) (routeNs : String) : String :=
  serviceAddress m.backendRef.name (m.backendRef.targetNs routeNs) (m.backendRef.port.getD 80)

def parseCors (c : RawCors) : CorsConfig :=
  { allowOrigins := c.allowOrigins.getD [], allowMethods := c.allowMethods.getD []
    allowHeaders := c.allowHeaders.getD [], exposeHeaders := c.exposeHeaders.getD []
    maxAge := c.maxAge, allowCredentials := c.allowCredentials.getD false }

def parseFilter (routeNs : String) (f : RawFilter) : List RouteFilter :=
  match f.type with
  | .urlRewrite => (f.urlRewrite.map parseUrlRewrite).getD []
  | .requestHeaderModifier => (f.requestHeaderModifier.map parseRequestHeaderModifier).getD []
  | .responseHeaderModifier => (f.responseHeaderModifier.map parseResponseHeaderModifier).getD []
  | .requestRedirect => (f.requestRedirect.map fun r => [.requestRedirect (parseRedirect r)]).getD []
  | .requestMirror => (f.requestMirror.map fun m => [.requestMirror (mirrorAddress m routeNs) (parseFraction m)]).getD []
  | .cors => (f.cors.map fun c => [.cors (parseCors c)]).getD []
  | .extensionRef => []

def parseBackendFilter (f : RawFilter) : List RouteFilter :=
  match f.type with
  | .requestHeaderModifier => (f.requestHeaderModifier.map parseRequestHeaderModifier).getD []
  | .responseHeaderModifier => (f.responseHeaderModifier.map parseResponseHeaderModifier).getD []
  | _ => []

def parseBackendRef (routeNs : String) (b : RawBackendRef) : WeightedBackend :=
  { backend := serviceAddress b.ref.name (b.ref.targetNs routeNs) (b.ref.port.getD 80)
    weight := toU32 (b.ref.weight.getD 1)
    filters := (b.filters.getD []).flatMap parseBackendFilter }

def parseRule (parseDuration : String → Option ℕ) (routeNs : String) (r : RawRule) : HTTPRouteRule :=
  { matches_ := (r.matches_.getD []).map parseMatch
    backends := (r.backendRefs.getD []).map (parseBackendRef routeNs)
    filters := (r.filters.getD []).flatMap (parseFilter routeNs)
    timeoutMs := r.timeouts.bind fun t => t.backendRequest.bind parseDuration
    requestTimeoutMs := r.timeouts.bind fun t => t.request.bind parseDuration
    programmed := true }

def HTTPRoute.metadataNamespace (route : HTTPRoute) : String := route.namespace_.getD "default"

def parseRouteHostname (s : String) : HostnameMatch :=
  match Text.stripStart s "*." with
  | some rest => .wildcard rest
  | none => .exact s

def parseHttprouteState (parseDuration : String → Option ℕ) (route : HTTPRoute) : HTTPRouteState :=
  { namespace_ := route.metadataNamespace
    name := route.name.getD ""
    hostnames := (route.hostnames.getD []).map parseRouteHostname
    rules := (route.rules.getD []).map (parseRule parseDuration route.metadataNamespace)
    parentRefs := []
    programmed := false }

variable (matched : Option String)

def withMatchedPrefix : PathRewrite → PathRewrite
  | .prefixReplace "/" replacement => .prefixReplace (matched.getD "/") replacement
  | rw => rw

def RouteFilter.requestHeader : RouteFilter → Option RequestFilter
  | .requestHeaderSet name value => some (.setHeader name value)
  | .requestHeaderAdd name value => some (.addHeader name value)
  | .requestHeaderRemove name => some (.removeHeader name)
  | _ => none

def RouteFilter.responseHeader : RouteFilter → Option ResponseFilter
  | .responseHeaderSet name value => some (.setHeader name value)
  | .responseHeaderAdd name value => some (.addHeader name value)
  | .responseHeaderRemove name => some (.removeHeader name)
  | _ => none

def RouteFilter.rewrites : RouteFilter → List RequestFilter
  | .urlRewrite hostname path =>
    (hostname.map .rewriteHostname).toList ++ (path.map fun p => .rewritePath (withMatchedPrefix matched p)).toList
  | _ => []

def RouteFilter.redirect : RouteFilter → Option RedirectAction
  | .requestRedirect r => some { r with path := r.path.map (withMatchedPrefix matched) }
  | _ => none

def RouteFilter.mirror : RouteFilter → Option (String × Option Fraction)
  | .requestMirror backend fraction => some (backend, fraction)
  | _ => none

def RouteFilter.corsFilter : RouteFilter → Option ResponseFilter
  | .cors config => some (.cors config)
  | _ => none

def irWeightedBackend (b : WeightedBackend) : SunbeamProxy.WeightedBackend :=
  { backend := b.backend, weight := b.weight
    requestFilters := b.filters.flatMap fun f => f.requestHeader.toList ++ match f with
      | .urlRewrite hostname path => (hostname.map .rewriteHostname).toList ++ (path.map .rewritePath).toList
      | _ => []
    protocol := b.protocol
    tls := b.tls.map fun t =>
      { sni := t.hostname, verifyHostname := true
        caBundlePem := if t.caBundlePem = "" then none else some t.caBundlePem
        subjectAltNames := t.subjectAltNames } }

def BackendProtocol.isWebSocket : BackendProtocol → Bool
  | .webSocket => true
  | .webSocketSecure => true
  | _ => false

variable (rule : HTTPRouteRule)

def buildIrRule (reqMatch : RequestMatch) (ruleIdx : ℕ) (clientCertId : Option String) : Rule :=
  let matched := reqMatch.path.bind fun
    | .pathPrefix s => some s
    | _ => none
  let action := match (rule.filters.filterMap (RouteFilter.redirect matched)).getLast? with
    | some r => .redirect r
    | none => .route
        { backends := rule.backends.map irWeightedBackend
          timeout := (rule.requestTimeoutMs.filter (0 < ·)).or (rule.timeoutMs.filter (0 < ·))
          requestFilters := rule.filters.filterMap RouteFilter.requestHeader
            ++ rule.filters.flatMap (RouteFilter.rewrites matched)
          responseFilters := rule.filters.filterMap RouteFilter.responseHeader
            ++ rule.filters.filterMap RouteFilter.corsFilter
          mirrorBackends := (rule.filters.filterMap RouteFilter.mirror).map (·.1)
          mirrorFractions := (rule.filters.filterMap RouteFilter.mirror).map (·.2)
          websocket := rule.backends.any fun b => BackendProtocol.isWebSocket b.protocol
          disableHttpsRedirect := true
          clientCertId }
  { matches_ := [reqMatch], action, ruleOrder := ruleIdx }

def unprogrammedAction : Action := .fixedResponse { status := 500 }

def translateRuleToIr (ruleIdx : ℕ) (programmed : Bool) (clientCertId : Option String) : List Rule :=
  let ms : List RequestMatch := if rule.matches_.isEmpty then [{}] else rule.matches_
  if !programmed then ms.map fun m => { matches_ := [m], action := unprogrammedAction, ruleOrder := ruleIdx }
  else ms.map fun m => buildIrRule rule m ruleIdx clientCertId

variable (route : HTTPRouteState)

def catchAllRules (clientCertId : Option String) : List Rule :=
  if !route.programmed then [{ matches_ := [{}], action := unprogrammedAction }]
  else
    match route.rules.head?.bind fun first => first.backends.head?.map fun b => (first, b) with
    | none => []
    | some (first, b) =>
      [{ matches_ := [{}]
         action := .route
          { backends := [irWeightedBackend b], timeout := first.timeoutMs
            websocket := first.backends.any fun b => BackendProtocol.isWebSocket b.protocol
            disableHttpsRedirect := true, clientCertId } }]

def httpRouteIrRules (clientCertId : Option String) : List Rule :=
  let rules := route.rules.zipIdx.flatMap fun e => translateRuleToIr e.1 e.2 e.1.programmed clientCertId
  if rules.isEmpty && !route.rules.isEmpty then catchAllRules route clientCertId else rules

def actionAddresses : Action → List String
  | .route a => a.backends.map (·.backend) ++ a.mirrorBackends
  | _ => []

def HTTPRouteRule.addresses : List String :=
  rule.backends.map (·.backend) ++ (rule.filters.filterMap RouteFilter.mirror).map (·.1)

def HTTPRouteRule.redirects : Bool := rule.filters.any fun
    | .requestRedirect _ => true
    | _ => false

theorem redirect_eq_nil_iff (rule : HTTPRouteRule) :
    (rule.filters.filterMap (RouteFilter.redirect matched)) = [] ↔ rule.redirects = false := by
  rw [filterMap_eq_nil_iff, HTTPRouteRule.redirects, any_eq_false]
  refine forall₂_congr fun f _ => ?_
  cases f <;> simp [RouteFilter.redirect]

theorem buildIrRule_addresses (m : RequestMatch) (idx : ℕ) (cert : Option String) :
    actionAddresses (buildIrRule rule m idx cert).action = if rule.redirects then [] else rule.addresses := by
  unfold buildIrRule
  simp only
  split
  · rename_i r hr
    have hredirects : rule.redirects = true := by
      by_contra hno
      rw [Bool.not_eq_true, ← redirect_eq_nil_iff] at hno
      rw [hno] at hr
      cases hr
    simp [hredirects, actionAddresses]
  · rename_i hr
    rw [getLast?_eq_none_iff, redirect_eq_nil_iff] at hr
    simp [hr, actionAddresses, HTTPRouteRule.addresses, irWeightedBackend]

theorem translateRuleToIr_ne_nil (idx : ℕ) (programmed : Bool) (cert : Option String) :
    translateRuleToIr rule idx programmed cert ≠ [] := by
  unfold translateRuleToIr
  cases programmed <;> cases h : rule.matches_ <;> simp

theorem httpRouteIrRules_eq (cert : Option String) : httpRouteIrRules route cert
      = route.rules.zipIdx.flatMap fun e => translateRuleToIr e.1 e.2 e.1.programmed cert := by
  unfold httpRouteIrRules
  cases hr : route.rules with
  | nil => simp
  | cons first rest =>
    have hne := translateRuleToIr_ne_nil first 0 first.programmed cert
    simp [hne]

theorem mem_translateRuleToIr_addresses (idx : ℕ) (cert : Option String) (a : String) :
    (∃ r ∈ translateRuleToIr rule idx rule.programmed cert, a ∈ actionAddresses r.action)
      ↔ rule.programmed = true ∧ rule.redirects = false ∧ a ∈ rule.addresses := by
  have hms : (if rule.matches_.isEmpty then [{}] else rule.matches_ : List RequestMatch) ≠ [] := by
    split_ifs with h
    · simp
    · simpa using h
  obtain ⟨m, hm⟩ := exists_mem_of_ne_nil _ hms
  cases hp : rule.programmed with
  | false =>
    simp only [Bool.false_eq_true, false_and, iff_false]
    rintro ⟨r, hr, ha⟩
    obtain ⟨m, -, rfl⟩ := mem_map.1 hr
    cases ha
  | true =>
    simp only [true_and]
    constructor
    · rintro ⟨r, hr, ha⟩
      obtain ⟨m, -, rfl⟩ := mem_map.1 hr
      rw [buildIrRule_addresses] at ha
      split_ifs at ha with hred
      · cases ha
      · exact ⟨by simpa using hred, ha⟩
    · rintro ⟨hred, ha⟩
      refine ⟨_, mem_map.2 ⟨m, hm, rfl⟩, ?_⟩
      rw [buildIrRule_addresses, hred]
      exact ha

theorem mem_httpRouteIrRules_addresses (cert : Option String) (a : String) :
    (∃ r ∈ httpRouteIrRules route cert, a ∈ actionAddresses r.action)
      ↔ ∃ rule ∈ route.rules, rule.programmed = true ∧ rule.redirects = false ∧ a ∈ rule.addresses := by
  rw [httpRouteIrRules_eq]
  constructor
  · rintro ⟨r, hr, ha⟩
    obtain ⟨⟨rule, idx⟩, hmem, hr⟩ := mem_flatMap.1 hr
    exact ⟨rule, fst_mem_of_mem_zipIdx hmem, (mem_translateRuleToIr_addresses rule idx cert a).1 ⟨r, hr, ha⟩⟩
  · rintro ⟨rule, hmem, hrule⟩
    obtain ⟨idx, hidx⟩ := mem_iff_getElem?.1 hmem
    obtain ⟨r, hr, ha⟩ := (mem_translateRuleToIr_addresses rule idx cert a).2 hrule
    exact ⟨r, mem_flatMap.2 ⟨(rule, idx), mk_mem_zipIdx_iff_getElem?.2 hidx, hr⟩, ha⟩

end SunbeamProxy.Gateway
