/-
Prefix rewrites of requests that were routed by a prefix (`apply_upstream_request_mutation`, `build_ir_rule`).
-/
import SunbeamProxy.Gateway.HttpRoute
import SunbeamProxy.IR.Precedence
import SunbeamProxy.Proxy.Paths

namespace SunbeamProxy

open Text List Option

/-! ## Runs of changes -/

def touchesPath : UpstreamRequestMutation → Bool
  | .stripPrefix _ => true
  | .prependPath _ => true
  | .rewritePath _ => true
  | _ => false

def SameTarget (a b : RequestHeader) : Prop := a.uri.path = b.uri.path ∧ a.uri.query = b.uri.query

theorem SameTarget.trans {a b c : RequestHeader} (h : SameTarget a b) (h' : SameTarget b c) : SameTarget a c :=
  ⟨h.1.trans h'.1, h.2.trans h'.2⟩

theorem SameTarget.wellFormed {a b : RequestHeader} (h : SameTarget a b) (ha : a.uri.WellFormed) : b.uri.WellFormed :=
  ⟨h.1 ▸ ha.path, h.1 ▸ ha.not_empty, h.2 ▸ ha.query⟩

variable {req req' : RequestHeader}

theorem changeHeaders_same {what : String} {headers : Option HeaderMap}
    (h : changeHeaders what headers req = .ok req') : SameTarget req req' := by
  cases headers with
  | none => cases h
  | some headers =>
    cases h
    exact ⟨rfl, rfl⟩

variable {authorityHost : String → Option String}

theorem apply_same {m : UpstreamRequestMutation} (hm : touchesPath m = false) (hne : req.uri.path ≠ "")
    (h : applyUpstreamRequestMutation authorityHost req m = .ok req') :
    SameTarget req req' := by
  cases m with
  | setHeader name value | addHeader name value => exact changeHeaders_same h
  | removeHeader name =>
    cases h
    exact ⟨rfl, rfl⟩
  | stripPrefix p | prependPath p | rewritePath rw => cases hm
  | rewriteHostname hostname =>
    rw [applyUpstreamRequestMutation] at h
    cases hhost : changeHeaders "failed to rewrite host header" (HeaderMap.insert req.headers "host" hostname) req with
    | error e =>
      rw [hhost] at h
      cases h
    | ok req₁ =>
      have hsame := changeHeaders_same hhost
      rw [hhost] at h
      cases hauth : authorityHost hostname with
      | none =>
        simp only [hauth] at h
        cases h
      | some host =>
        simp only [hauth, if_neg (hsame.1 ▸ hne)] at h
        cases h
        exact hsame

theorem foldlM_same {ms : List UpstreamRequestMutation} (hms : ∀ m ∈ ms, touchesPath m = false)
    (hreq : req.uri.WellFormed) (h : ms.foldlM (applyUpstreamRequestMutation authorityHost) req = .ok req') :
    SameTarget req req' := by
  induction ms generalizing req with
  | nil =>
    cases h
    exact ⟨rfl, rfl⟩
  | cons m ms ih =>
    obtain ⟨mid, hmid, h⟩ := foldlM_cons_ok h
    have hstep := apply_same (hms m mem_cons_self) hreq.not_empty hmid
    exact hstep.trans (ih (fun m' hm' => hms m' (mem_cons_of_mem _ hm')) (hstep.wellFormed hreq) h)

theorem foldlM_changeHeaders_same {α : Type} {what : String} {headers : RequestHeader → α → Option HeaderMap}
    {l : List α} (h : l.foldlM (fun req a => changeHeaders what (headers req a) req) req = .ok req') :
    SameTarget req req' := by
  induction l generalizing req with
  | nil =>
    cases h
    exact ⟨rfl, rfl⟩
  | cons a l ih =>
    obtain ⟨mid, hmid, h⟩ := foldlM_cons_ok h
    exact (changeHeaders_same hmid).trans (ih h)

theorem foldlM_rewritten {ms : List UpstreamRequestMutation} {rw : PathRewrite}
    (hms : ms.filter touchesPath = [.rewritePath rw]) (hreq : req.uri.WellFormed)
    (hraw : PathText (rewrittenPath req.uri.path rw))
    (h : ms.foldlM (applyUpstreamRequestMutation authorityHost) req = .ok req') :
    normalizePath (rewrittenPath req.uri.path rw) = some req'.uri.path ∧ req'.uri.query = req.uri.query := by
  obtain ⟨before, after, rfl, hbefore, _, hafter⟩ := filter_eq_cons_iff.1 hms
  obtain ⟨req₁, h₁, h⟩ := foldlM_append_ok h
  obtain ⟨req₂, h₂, h₃⟩ := foldlM_cons_ok h
  have hsame₁ := foldlM_same (fun m hm => by simpa using hbefore m hm) hreq h₁
  have hreq₁ := hsame₁.wellFormed hreq
  rw [applyUpstreamRequestMutation, ← hsame₁.1] at h₂
  have hsame₃ := foldlM_same (fun m hm => by simpa using filter_eq_nil_iff.1 hafter m hm) (setPath_wellFormed h₂) h₃
  rw [setPath_eq hreq₁ hraw] at h₂
  cases hn : normalizePath (rewrittenPath req.uri.path rw) with
  | none =>
    rw [hn] at h₂
    cases h₂
  | some n =>
    rw [hn] at h₂
    cases h₂
    exact ⟨congrArg some hsame₃.1, hsame₃.2.symm.trans hsame₁.2.symm⟩

theorem upstream_path {call : UpstreamCall} {downstream sent : RequestHeader} {ctx ctx' : RequestCtx}
    {rw : PathRewrite} (hms : (planMutations ctx.plan call.backendIndex).filter touchesPath = [.rewritePath rw])
    (hreq : req.uri.WellFormed) (hraw : PathText (rewrittenPath req.uri.path rw))
    (h : upstreamRequestFilterInner authorityHost call downstream ctx req = .ok (sent, ctx')) :
    normalizePath (rewrittenPath req.uri.path rw) = some sent.uri.path ∧ sent.uri.query = req.uri.query := by
  obtain ⟨req₁, h₁, h⟩ := bind_ok h
  obtain ⟨req₂, h₂, h⟩ := bind_ok h
  obtain ⟨req₃, h₃, h⟩ := bind_ok h
  obtain ⟨req₄, h₄, h⟩ := bind_ok h
  obtain ⟨req₅, h₅, h⟩ := bind_ok h
  -- nothing before the plan's changes concerns the path
  have hsame₂ : SameTarget req₁ req₂ := by
    cases hip : call.forwardedFor with
    | none =>
      rw [hip] at h₂
      cases h₂
      exact ⟨rfl, rfl⟩
    | some ip =>
      rw [hip] at h₂
      exact changeHeaders_same h₂
  have hsame₃ := (changeHeaders_same h₁).trans (hsame₂.trans (changeHeaders_same h₃))
  have hsame₄ : SameTarget req req₄ := by
    refine SameTarget.trans ?_ (foldlM_changeHeaders_same h₄)
    split_ifs <;> exact hsame₃
  cases h
  rw [hsame₄.1] at hraw ⊢
  rw [hsame₄.2]
  change normalizePath (rewrittenPath req₄.uri.path rw) = some req₅.uri.path ∧ req₅.uri.query = req₄.uri.query
  exact foldlM_rewritten hms (hsame₄.wellFormed hreq) hraw h₅

def Gateway.RouteFilter.pathRewrite : Gateway.RouteFilter → Option PathRewrite
  | .urlRewrite _ path => path
  | _ => none

open Gateway in
/-- a rule that replaces the prefix it matched, and does nothing else to the path -/
structure ReplacesPrefix (rule : HTTPRouteRule) (replacement : String) : Prop where
  routes : rule.redirects = false
  rewrite : rule.filters.filterMap RouteFilter.pathRewrite = [.prefixReplace "/" replacement]
  backends : ∀ b ∈ rule.backends, b.filters.filterMap RouteFilter.pathRewrite = []

open Gateway in
def rulePlan (host : HostRoute) (rule : HTTPRouteRule) (m : RequestMatch) (idx : ℕ) (cert : Option String) : CompiledPlan :=
  let irRule := buildIrRule rule m idx cert
  compilePlan irRule (computePrecedence irRule) m host.gatewayApi host.disableSecureRedirection host.listenerHostname

open Gateway in
theorem filter_touchesPath_rewrites (matched : Option String) (filters : List RouteFilter) :
    ((filters.flatMap (RouteFilter.rewrites matched)).map compileRequestFilter).filter touchesPath
      = (filters.filterMap RouteFilter.pathRewrite).map fun rw => .rewritePath (withMatchedPrefix matched rw) := by
  induction filters with
  | nil => rfl
  | cons f filters ih =>
    rw [flatMap_cons, map_append, filter_append, ih]
    cases f with
    | urlRewrite hostname path => cases hostname <;> cases path <;> rfl
    | _ => rfl

open Gateway in
theorem filter_touchesPath_headers (filters : List RouteFilter) :
    ((filters.filterMap RouteFilter.requestHeader).map compileRequestFilter).filter touchesPath = [] := by
  induction filters with
  | nil => rfl
  | cons f filters ih => cases f <;> exact ih

open Gateway in
theorem filter_touchesPath_backend {b : Gateway.WeightedBackend} (h : b.filters.filterMap RouteFilter.pathRewrite = []) :
    ((irWeightedBackend b).requestFilters.map compileRequestFilter).filter touchesPath = [] := by
  rw [irWeightedBackend]
  generalize b.filters = filters at h ⊢
  induction filters with
  | nil => rfl
  | cons f filters ih =>
    rw [filterMap_eq_nil_iff] at h
    have hhead := h f mem_cons_self
    rw [flatMap_cons, map_append, filter_append, ih (filterMap_eq_nil_iff.2 fun g hg => h g (mem_cons_of_mem _ hg))]
    cases f with
    | urlRewrite hostname path =>
      obtain rfl : path = none := hhead
      cases hostname <;> rfl
    | _ => rfl

variable {replacement p : String}

open Gateway in
theorem rulePlan_mutations {rule : HTTPRouteRule} {m : RequestMatch} (hrule : ReplacesPrefix rule replacement)
    (hm : m.path = some (.pathPrefix p)) (host : HostRoute) (idx : ℕ) (cert : Option String) (backendIndex : Option ℕ) :
    (planMutations (some (rulePlan host rule m idx cert)) backendIndex).filter touchesPath
      = [.rewritePath (.prefixReplace p replacement)] := by
  have hredirect : rule.filters.filterMap (RouteFilter.redirect (some p)) = [] := (redirect_eq_nil_iff _ rule).2 hrule.routes
  have hroute : (rulePlan host rule m idx cert).upstreamRequestMutations.filter touchesPath
      = [.rewritePath (.prefixReplace p replacement)] := by
    simp [rulePlan, buildIrRule, hm, hredirect, getLast?_nil, compilePlan, filter_append, filter_touchesPath_headers,
      filter_touchesPath_rewrites, hrule.rewrite, withMatchedPrefix]
  have hbackend : (backendMutations (rulePlan host rule m idx cert) backendIndex).filter touchesPath = [] := by
    simp only [rulePlan, buildIrRule, hm, bind_some, hredirect, getLast?_nil, compilePlan, backendMutations]
    cases backendIndex with
    | none => rfl
    | some i =>
      simp only [getElem?_map]
      cases hb : rule.backends[i]? with
      | none => rfl
      | some b => exact filter_touchesPath_backend (hrule.backends b (mem_of_getElem? hb))
  rw [planMutations, filter_append, hroute, hbackend, append_nil]

/-! ## Rewrites of routed requests -/

def targetSegments (p replacement path : String) : List String :=
  splitPath replacement ++ (splitPath path).drop (splitPath p).length

theorem splitPath_rewritten {path rest : String} (replacement : String) (hpath : path = p ++ rest)
    (hmatch : splitPath p <+: splitPath path) :
    splitPath (rewrittenPath path (.prefixReplace p replacement)) = targetSegments p replacement path := by
  have hcut := splitPath_rest (hpath ▸ hmatch)
  rw [rewrittenPath, stripStart_eq_some.2 hpath, targetSegments]
  rw [splitPath_joinReplacement, hpath, hcut, drop_left]

theorem pathText_rewritten {path : String} (hreplacement : PathText replacement) (hpath : PathText path) :
    PathText (rewrittenPath path (.prefixReplace p replacement)) := by
  rw [rewrittenPath]
  cases hs : stripStart path p with
  | none => exact hpath
  | some rest =>
    apply pathText_joinReplacement hreplacement
    intro c hc
    apply hpath
    rw [stripStart_eq_some.1 hs, String.toList_append]
    exact mem_append_right _ hc

theorem rewrite_cases (authorityHost : String → Option String) {rest : String} (hreq : req.uri.WellFormed)
    (hreplacement : PathText replacement) (hrest : req.uri.path = p ++ rest)
    (hmatch : splitPath p <+: splitPath req.uri.path) :
    let segments := normalizePath.resolve [] (targetSegments p replacement req.uri.path)
    let outcome := applyUpstreamRequestMutation authorityHost req (.rewritePath (.prefixReplace p replacement))
    ((∃ req', outcome = .ok req') ↔ (replacement = "" ∨ startsWith replacement "/" = true) ∧ segments.isSome = true)
      ∧ ∀ e, outcome = .error e → e = ⟨.httpStatus 400, "invalid path after path rewrite"⟩ := by
  intro segments outcome
  have hraw := splitPath_rewritten replacement hrest hmatch
  have habs : startsWith (rewrittenPath req.uri.path (.prefixReplace p replacement)) "/" = true
      ↔ replacement = "" ∨ startsWith replacement "/" = true := by
    rw [rewrittenPath, stripStart_eq_some.2 hrest]
    exact startsWith_joinReplacement replacement rest
  have hout : outcome = setPath "path rewrite" (rewrittenPath req.uri.path (.prefixReplace p replacement)) req := rfl
  rw [hout, setPath_eq hreq (pathText_rewritten hreplacement hreq.path)]
  cases hn : normalizePath (rewrittenPath req.uri.path (.prefixReplace p replacement)) with
  | none =>
    rw [normalizePath_eq_none_iff, hraw] at hn
    apply And.intro
    · apply iff_of_false
      · intro h
        obtain ⟨req', h⟩ := h
        cases h
      · intro h
        rcases hn with hn | hn
        · rw [habs.2 h.1] at hn
          cases hn
        · have hsome := h.2
          rw [show segments = none from hn] at hsome
          cases hsome
    · intro e he
      cases he
      rfl
  | some n =>
    rw [normalizePath_eq_some_iff, hraw] at hn
    obtain ⟨hstart, out, hres, _⟩ := hn
    apply And.intro
    · exact iff_of_true ⟨_, rfl⟩ ⟨habs.1 hstart, isSome_iff_exists.2 ⟨out, hres⟩⟩
    · intro e he
      cases he

open Gateway in
theorem prefix_rewrite_sent {ω : IterOrder} {re : RegexEngine} {host : HostRoute} {r : RouteRequest} {rule : HTTPRouteRule}
    {m : RequestMatch} {idx : ℕ} {cert : Option String} {p replacement : String} (rest : String) (req : RequestHeader)
    (hrule : ReplacesPrefix rule replacement) (hm : m.path = some (.pathPrefix p))
    (hfound : (compileHost ω host).lookup re r = some (rulePlan host rule m idx cert)) (hreq : req.uri.WellFormed)
    (hpath : req.uri.path = r.path) (hrest : r.path = p ++ rest) (hreplacement : PathText replacement)
    (authorityHost : String → Option String) :
    let segments := normalizePath.resolve [] (targetSegments p replacement r.path)
    let outcome := applyUpstreamRequestMutation authorityHost req (.rewritePath (.prefixReplace p replacement))
    ((∃ req', outcome = .ok req') ↔ (replacement = "" ∨ startsWith replacement "/" = true) ∧ segments.isSome = true)
    ∧ (∀ e, outcome = .error e → e = ⟨.httpStatus 400, "invalid path after path rewrite"⟩)
    ∧ ∀ call downstream ctx sent ctx', ctx.plan = some (rulePlan host rule m idx cert) →
        upstreamRequestFilterInner authorityHost call downstream ctx req = .ok (sent, ctx') →
        startsWith sent.uri.path "/" = true ∧ segments = some (splitPath sent.uri.path) ∧ sent.uri.query = req.uri.query
          ∧ (CleanPath (joinOnce replacement rest) → sent.uri.path = joinOnce replacement rest) := by
  have hholds := (host_lookup_sound hfound).2.path
  have hmatch : splitPath p <+: splitPath r.path := by
    apply hholds (.pathPrefix p)
    rw [rulePlan, compilePlan_matches, hm]
  rw [← hpath] at hmatch hrest
  have hcases := rewrite_cases authorityHost hreq hreplacement hrest hmatch
  rw [hpath] at hcases
  refine ⟨hcases.1, hcases.2, ?_⟩
  intro call downstream ctx sent ctx' hplan hsent
  have hms := rulePlan_mutations hrule hm host idx cert call.backendIndex
  rw [← hplan] at hms
  obtain ⟨hnormal, hquery⟩ := upstream_path hms hreq (pathText_rewritten hreplacement hreq.path) hsent
  have hclean := normalizePath_clean hnormal
  have hraw := splitPath_rewritten replacement hrest hmatch
  obtain ⟨_, out, hout, hjoined⟩ := normalizePath_eq_some_iff.1 hnormal
  have hsegments : splitPath sent.uri.path = out := by rw [hjoined, splitPath_join (resolve_splitPath_clean hout)]
  rw [hraw, hpath] at hout
  refine ⟨hclean.startsWith, by rw [hsegments]; exact hout, hquery, ?_⟩
  intro hjoin
  apply hclean.eq_of_splitPath hjoin
  -- segments without dots are their own resolution
  obtain ⟨parts, hparts, hpartsClean⟩ := hjoin
  have hsplit : splitPath (joinOnce replacement rest) = parts := by rw [hparts, splitPath_join hpartsClean]
  have htarget : targetSegments p replacement r.path = parts := by
    rw [← hsplit, splitPath_joinOnce, targetSegments, ← hpath, hrest, splitPath_rest (hrest ▸ hmatch), drop_left]
  rw [htarget, normalizePath.resolve_of_clean [] hpartsClean, some.injEq, nil_append] at hout
  rw [hsegments, ← hout, hsplit]

/-! ### A shop under another path -/

def shopMatch : RequestMatch := { path := some (.pathPrefix "/shop") }

def shopRule : Gateway.HTTPRouteRule :=
  { matches_ := [shopMatch], filters := [.urlRewrite none (some (.prefixReplace "/" "/store"))],
    backends := [{ backend := "10.0.0.1:80" }] }

def shopHost : HostRoute :=
  { hostname := .exact "app.example.com", gatewayApi := true, rules := [Gateway.buildIrRule shopRule shopMatch 0 none] }

def shopPlan : CompiledPlan := rulePlan shopHost shopRule shopMatch 0 none

def shopRequest (path : String) : RouteRequest :=
  { host := "app.example.com", port := 443, path, method := "GET", headers := [], query := none }

theorem shopRule_replaces : ReplacesPrefix shopRule "/store" := ⟨rfl, rfl, by decide⟩

theorem shop_cart_wellFormed : Uri.WellFormed { path := "/shop/cart" } := ⟨by decide, by decide, by simp⟩

theorem store_cart_clean : CleanPath "/store/cart" := by
  refine ⟨["store", "cart"], by decide, ?_⟩
  intro s hs
  rw [mem_cons, mem_singleton] at hs
  rcases hs with rfl | rfl <;> exact ⟨by decide, by decide, by decide, by decide⟩

theorem shop_cart_sent : (compileHost IterOrder.stored shopHost).lookup ⟨fun _ => none⟩ (shopRequest "/shop/cart") = some shopPlan
      ∧ ∀ call downstream ctx sent ctx', ctx.plan = some shopPlan →
        upstreamRequestFilterInner some call downstream ctx ⟨"GET", { path := "/shop/cart" }, []⟩ = .ok (sent, ctx') →
        sent.uri.path = "/store/cart" := by
  have hfound : (compileHost IterOrder.stored shopHost).lookup ⟨fun _ => none⟩ (shopRequest "/shop/cart")
      = some shopPlan := by decide
  refine ⟨hfound, ?_⟩
  intro call downstream ctx sent ctx' hplan hsent
  have h := prefix_rewrite_sent "/cart" ⟨"GET", { path := "/shop/cart" }, []⟩ shopRule_replaces rfl hfound
    shop_cart_wellFormed rfl rfl (by decide) some
  exact (h.2.2 call downstream ctx sent ctx' hplan hsent).2.2.2 store_cart_clean

theorem shop_dots_resolved :
    (compileHost IterOrder.stored shopHost).lookup ⟨fun _ => none⟩ (shopRequest "/shop/a/../b") = some shopPlan
      ∧ joinOnce "/store" "/a/../b" = "/store/a/../b"
      ∧ (upstreamRequestFilterInner some ⟨none, "1", some 0⟩ ⟨"GET", { path := "/shop/a/../b" }, []⟩
          { plan := some shopPlan } ⟨"GET", { path := "/shop/a/../b" }, []⟩).map (·.1.uri.path)
        = .ok "/store/b" := by
  decide

end SunbeamProxy
