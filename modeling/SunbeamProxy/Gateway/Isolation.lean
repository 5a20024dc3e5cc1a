/-
Isolation between the namespaces of a cluster: which Services of other namespaces an HTTP route can send requests to
(`collect_routes` of `gateway/reconcile/mod.rs`, over parsing, reference resolution and translation).
-/
import SunbeamProxy.Gateway.HttpRoute

namespace SunbeamProxy.Gateway

open List

def updateRulesProgrammed : List HTTPRouteRule → List RuleBackendResolution → List HTTPRouteRule
  | rule :: rules, res :: resolutions =>
    { rule with programmed := rule.programmed && res.ok } :: updateRulesProgrammed rules resolutions
  | rules, _ => rules

variable (raw : RawRule)

def RawRule.refs : List BackendRef := (raw.backendRefs.getD []).map (·.ref)

section
variable (parseDuration : String → Option ℕ) (serviceExists : String → String → Bool) (index : GrantIndex)

def collectRoute (route : HTTPRoute) (parentRefs : List ParentRef) : HTTPRouteState :=
  let state := parseHttprouteState parseDuration route
  let resolution := resolveBackendRefs (checkBackend serviceExists index route.metadataNamespace "HTTPRoute")
    ((route.rules.getD []).map RawRule.refs)
  { state with
    parentRefs
    programmed := !parentRefs.isEmpty && resolution.overall = .ok
    rules := updateRulesProgrammed state.rules resolution.rules }

def RawRule.resolves (routeNs : String) (raw : RawRule) : Bool :=
  raw.refs.all fun b => (checkBackend serviceExists index routeNs "HTTPRoute" b).isNone

theorem updateRulesProgrammed_eq_zipWith (rules : List HTTPRouteRule) (resolutions : List RuleBackendResolution)
    (hlen : rules.length = resolutions.length) :
    updateRulesProgrammed rules resolutions
      = zipWith (fun rule ok => { rule with programmed := rule.programmed && ok }) rules (resolutions.map (·.ok)) := by
  fun_induction updateRulesProgrammed rules resolutions with
  | case1 rule rules res resolutions ih => simp [ih (by simpa using hlen)]
  | case2 rules resolutions hne =>
    cases rules with
    | nil => simp
    | cons rule rules =>
      cases resolutions with
      | nil => cases hlen
      | cons res resolutions => exact (hne _ _ _ _ rfl rfl).elim

theorem collectRoute_rules (route : HTTPRoute) (parentRefs : List ParentRef) :
    (collectRoute parseDuration serviceExists index route parentRefs).rules = (route.rules.getD []).map fun raw =>
          { parseRule parseDuration route.metadataNamespace raw with
            programmed := raw.resolves serviceExists index route.metadataNamespace } := by
  have hok := resolveBackendRefs_ok (checkBackend serviceExists index route.metadataNamespace "HTTPRoute")
    ((route.rules.getD []).map RawRule.refs)
  have hlen := congrArg length hok
  simp only [length_map] at hlen
  unfold collectRoute
  simp only
  rw [updateRulesProgrammed_eq_zipWith _ _ (by simp [parseHttprouteState, hlen]), hok]
  simp only [parseHttprouteState, map_map, zipWith_map, zipWith_self]
  rfl

end

def RawRule.mirrors : List RawMirror :=
  (raw.filters.getD []).filterMap fun f => if f.type = .requestMirror then f.requestMirror else none

def RawRule.redirects : Bool :=
  (raw.filters.getD []).any fun f => f.type = .requestRedirect && f.requestRedirect.isSome

variable (parseDuration : String → Option ℕ) (routeNs : String)

theorem parseFilter_mirrors (f : RawFilter) : (parseFilter routeNs f).filterMap RouteFilter.mirror
      = (if f.type = .requestMirror then f.requestMirror else none).toList.map
          fun m => (mirrorAddress m routeNs, parseFraction m) := by
  have hheaders : ∀ m, (parseRequestHeaderModifier m).filterMap RouteFilter.mirror = []
      ∧ (parseResponseHeaderModifier m).filterMap RouteFilter.mirror = [] := by
    simp [parseRequestHeaderModifier, parseResponseHeaderModifier, RouteFilter.mirror]
  unfold parseFilter
  cases hf : f.type with
  | urlRewrite => cases f.urlRewrite <;> simp [parseUrlRewrite, RouteFilter.mirror]
  | requestHeaderModifier => cases f.requestHeaderModifier <;> simp [hheaders]
  | responseHeaderModifier => cases f.responseHeaderModifier <;> simp [hheaders]
  | requestRedirect => cases f.requestRedirect <;> simp [RouteFilter.mirror]
  | requestMirror => cases f.requestMirror <;> simp [RouteFilter.mirror]
  | cors => cases f.cors <;> simp [RouteFilter.mirror]
  | extensionRef => simp

theorem parseFilter_redirects (f : RawFilter) : ((parseFilter routeNs f).any fun
      | .requestRedirect _ => true
      | _ => false) = (f.type = .requestRedirect && f.requestRedirect.isSome) := by
  unfold parseFilter
  cases hf : f.type with
  | urlRewrite => cases f.urlRewrite <;> simp [parseUrlRewrite]
  | requestHeaderModifier => cases f.requestHeaderModifier <;> simp [parseRequestHeaderModifier]
  | responseHeaderModifier => cases f.responseHeaderModifier <;> simp [parseResponseHeaderModifier]
  | requestRedirect => cases f.requestRedirect <;> simp
  | requestMirror => cases f.requestMirror <;> simp
  | cors => cases f.cors <;> simp
  | extensionRef => simp

theorem parseRule_redirects : (parseRule parseDuration routeNs raw).redirects = raw.redirects := by
  simp only [HTTPRouteRule.redirects, parseRule, any_flatMap]
  exact congrArg (any _) (funext fun f => parseFilter_redirects routeNs f)

theorem parseRule_addresses : (parseRule parseDuration routeNs raw).addresses
      = (raw.refs.map fun b => serviceAddress b.name (b.targetNs routeNs) (b.port.getD 80))
        ++ raw.mirrors.map (mirrorAddress · routeNs) := by
  have hmirrors : ∀ fs : List RawFilter, ((fs.flatMap (parseFilter routeNs)).filterMap RouteFilter.mirror).map (·.1)
      = (fs.filterMap fun f => if f.type = .requestMirror then f.requestMirror else none).map (mirrorAddress · routeNs) := by
    intro fs
    induction fs with
    | nil => rfl
    | cons f fs ih =>
      rw [flatMap_cons, filterMap_append, map_append, ih, parseFilter_mirrors]
      cases hm : (if f.type = .requestMirror then f.requestMirror else none) <;> simp [hm]
  simp only [HTTPRouteRule.addresses, parseRule, hmirrors]
  simp [RawRule.refs, RawRule.mirrors, parseBackendRef]

variable (index : GrantIndex)

/-- some ReferenceGrant in the namespace lets HTTP routes of the other namespace refer to the Service -/
def Granted (routeNs ns name : String) : Prop := ∃ g ∈ index.grants, g.namespace_ = ns
    ∧ (∃ f ∈ g.source, f.group = gatewayGroup ∧ f.kind = "HTTPRoute" ∧ f.namespace_ = some routeNs)
    ∧ ∃ t ∈ g.target, t.group = "" ∧ t.kind = "Service" ∧ (t.name = none ∨ t.name = some name)

theorem isPermitted_iff_granted (routeNs ns name : String) :
    index.isPermitted routeNs gatewayGroup "HTTPRoute" ns "" "Service" name = true
      ↔ routeNs = ns ∨ Granted index routeNs ns name := by
  simp [GrantIndex.isPermitted, ReferenceGrantState.grants, Granted, and_assoc]

/-- every Service of another namespace that occurs in the rules, as a backend or as a mirror, is granted -/
def CrossNamespaceGranted (routeNs : String) (rules : List Rule) : Prop :=
  ∀ r ∈ rules, ∀ a ∈ actionAddresses r.action, ∀ name ns port, IsLabel name → IsLabel ns →
    a = serviceAddress name ns port → ns ≠ routeNs → Granted index routeNs ns name

/-- every mirror into another namespace is granted, in the rules that go on to route: those whose backend references
resolve and that do not redirect -/
def MirrorsGranted (serviceExists : String → String → Bool) (index : GrantIndex) (route : HTTPRoute) : Prop :=
  ∀ raw ∈ route.rules.getD [], raw.resolves serviceExists index route.metadataNamespace = true → raw.redirects = false →
    ∀ m ∈ raw.mirrors, IsLabel m.backendRef.name → IsLabel (m.backendRef.targetNs route.metadataNamespace) →
      m.backendRef.targetNs route.metadataNamespace ≠ route.metadataNamespace →
        Granted index route.metadataNamespace (m.backendRef.targetNs route.metadataNamespace) m.backendRef.name

theorem mem_collectRoute_addresses (serviceExists : String → String → Bool) (index : GrantIndex) (route : HTTPRoute)
    (parentRefs : List ParentRef) (cert : Option String) (a : String) :
    (∃ r ∈ httpRouteIrRules (collectRoute parseDuration serviceExists index route parentRefs) cert, a ∈ actionAddresses r.action)
      ↔ ∃ raw ∈ route.rules.getD [], raw.resolves serviceExists index route.metadataNamespace = true ∧ raw.redirects = false
          ∧ ((∃ b ∈ raw.refs, serviceAddress b.name (b.targetNs route.metadataNamespace) (b.port.getD 80) = a)
            ∨ ∃ m ∈ raw.mirrors, mirrorAddress m route.metadataNamespace = a) := by
  rw [mem_httpRouteIrRules_addresses, collectRoute_rules]
  simp only [mem_map, exists_exists_and_eq_and]
  refine exists_congr fun raw => and_congr_right fun _ => and_congr_right fun _ => ?_
  -- `programmed` is the only field the collection changes
  change (parseRule parseDuration route.metadataNamespace raw).redirects = false
    ∧ a ∈ (parseRule parseDuration route.metadataNamespace raw).addresses ↔ _
  rw [parseRule_redirects, parseRule_addresses]
  simp

/-- **Isolation.** The IR rules of an HTTP route reach a Service of another namespace under a grant only, exactly when the mirrors
of its rules that route are granted. -/
theorem cross_namespace_granted_iff (parseDuration : String → Option ℕ) (serviceExists : String → String → Bool)
    (index : GrantIndex) (route : HTTPRoute) (parentRefs : List ParentRef) (cert : Option String) :
    CrossNamespaceGranted index route.metadataNamespace
        (httpRouteIrRules (collectRoute parseDuration serviceExists index route parentRefs) cert)
      ↔ MirrorsGranted serviceExists index route := by
  constructor
  · intro h raw hraw hresolves hredirects m hm hname hns hother
    obtain ⟨r, hr, ha⟩ := (mem_collectRoute_addresses parseDuration serviceExists index route parentRefs cert _).2
      ⟨raw, hraw, hresolves, hredirects, .inr ⟨m, hm, rfl⟩⟩
    exact h r hr _ ha _ _ _ hname hns rfl hother
  · rintro h r hr _ ha name ns port hname hns rfl hother
    obtain ⟨raw, hraw, hresolves, hredirects, ⟨b, hb, he⟩ | ⟨m, hm, he⟩⟩ :=
      (mem_collectRoute_addresses parseDuration serviceExists index route parentRefs cert _).1 ⟨r, hr, ha⟩
    · obtain ⟨rfl, rfl⟩ := serviceAddress_inj hname hns he
      have hpassed := Option.isNone_iff_eq_none.1 (all_eq_true.1 hresolves b hb)
      have hpermitted := isPermitted_of_checkBackend hpassed
      rw [isPermitted_iff_granted] at hpermitted
      exact hpermitted.resolve_left (Ne.symm hother)
    · obtain ⟨rfl, rfl⟩ := serviceAddress_inj hname hns he
      exact h raw hraw hresolves hredirects m hm hname hns hother

def mirrorRoute : HTTPRoute :=
  { namespace_ := some "tenant", name := some "shop"
    rules := some [{ backendRefs := some [{ ref := { name := "shop", port := some 8080 } }]
                     filters := some [{ type := .requestMirror
                                        requestMirror := some { backendRef := { name := "ledger", namespace_ := some "bank"
                                                                                port := some 8080 } } }] }] }

theorem mirror_crosses_ungranted : ¬ CrossNamespaceGranted ⟨[]⟩ mirrorRoute.metadataNamespace
      (httpRouteIrRules (collectRoute (fun _ => none) (fun _ _ => true) ⟨[]⟩ mirrorRoute [{ name := "edge" }]) none) := by
  intro h
  obtain ⟨r, hr, ha⟩ : ∃ r ∈ httpRouteIrRules
      (collectRoute (fun _ => none) (fun _ _ => true) ⟨[]⟩ mirrorRoute [{ name := "edge" }]) none,
      "ledger.bank.svc.cluster.local.:8080" ∈ actionAddresses r.action := by decide
  obtain ⟨g, hg, -⟩ := h r hr _ ha "ledger" "bank" 8080 (by decide) (by decide) (by decide) (by decide)
  cases hg

end SunbeamProxy.Gateway
