/-
Cache keys against routing.
-/
import SunbeamProxy.IR.Distinguish
import SunbeamProxy.Proxy.Cache

namespace SunbeamProxy

/-- the table gives the request a plan, under which it is cached -/
structure CachedBy (re : RegexEngine) (t : CompiledRouteTable) (s : Session) (ctx : RequestCtx) : Prop where
  plan : ctx.plan = t.lookup re (routeRequest s ctx.downstreamPort)
  cached : (requestCacheFilterInner s ctx).isSome = true

/-- requests that arrive on the given ports have one plan, in every table that caches them both -/
def OnePlanWhereCached (re : RegexEngine) (s₁ s₂ : Session) (port₁ port₂ : UInt16) : Prop :=
  ∀ ω ir ctx₁ ctx₂, ctx₁.downstreamPort = port₁ → ctx₂.downstreamPort = port₂ →
    CachedBy re (CompiledRouteTable.compile ω ir) s₁ ctx₁ → CachedBy re (CompiledRouteTable.compile ω ir) s₂ ctx₂ →
    ctx₁.plan = ctx₂.plan

def cachingAction : Action := .route { cache := some { enabled := true } }

theorem caching_plan_cached {p : CompiledPlan} (hp : PlanOf cachingAction p) {s : Session} (port : UInt16)
    (hm : s.req.method = "GET" ∨ s.req.method = "HEAD") :
    (requestCacheFilterInner s { plan := some p, downstreamPort := port }).isSome = true := by
  obtain ⟨rule, precedence, m, g, d, lh, hact, rfl⟩ := hp
  have hcache : (compilePlan rule precedence m g d lh).cache = some { enabled := true } := by
    unfold compilePlan
    rw [hact]
    rfl
  have hbody : (compilePlan rule precedence m g d lh).bodyRewrites = [] := by
    unfold compilePlan
    rw [hact]
    rfl
  unfold requestCacheFilterInner
  rcases hm with hm | hm <;> simp [hm, hcache, hbody]

/-- **Cache keys and routing.** Two GET or HEAD requests with equal keys get one plan from every table that caches them
exactly when routing cannot tell them apart. -/
theorem cache_key_respects_routing_iff (re : RegexEngine) (s₁ s₂ : Session) (port₁ port₂ : UInt16)
    (hm₁ : s₁.req.method = "GET" ∨ s₁.req.method = "HEAD") (hm₂ : s₂.req.method = "GET" ∨ s₂.req.method = "HEAD")
    (_hkey : cacheKeyCallbackInner s₁ = cacheKeyCallbackInner s₂) :
    OnePlanWhereCached re s₁ s₂ port₁ port₂ ↔ RoutesAlike (routeRequest s₁ port₁) (routeRequest s₂ port₂) := by
  constructor
  · intro h
    by_contra hne
    -- a table of caching rules that tells them apart
    have hsep : Separated re cachingAction (routeRequest s₁ port₁) (routeRequest s₂ port₂) := separated_of_not_alike hne
    obtain ⟨ir, p₁, p₂, hp, hp₁, hp₂, hl⟩ := hsep
    obtain ⟨h₁, h₂⟩ := hl IterOrder.stored
    have hsame := h IterOrder.stored ir { plan := some p₁, downstreamPort := port₁ }
      { plan := some p₂, downstreamPort := port₂ } rfl rfl ⟨h₁.symm, caching_plan_cached hp₁ port₁ hm₁⟩
      ⟨h₂.symm, caching_plan_cached hp₂ port₂ hm₂⟩
    exact hp (Option.some.inj hsame)
  · intro h ω ir ctx₁ ctx₂ hport₁ hport₂ hc₁ hc₂
    have hplan₁ := hc₁.plan
    have hplan₂ := hc₂.plan
    rw [hport₁] at hplan₁
    rw [hport₂] at hplan₂
    rw [hplan₁, hplan₂]
    exact lookup_congr h re _

def twoListeners : RouteTable :=
  listenerTable cachingAction (routeRequest (cookieSession []) 8080) (routeRequest (cookieSession []) 8081)

theorem ports_share_key : cacheKeyCallbackInner (cookieSession []) = cacheKeyCallbackInner (cookieSession [])
      ∧ ¬ OnePlanWhereCached ⟨fun _ => none⟩ (cookieSession []) (cookieSession []) 8080 8081 := by
  refine ⟨rfl, fun h => ?_⟩
  have hsame := h IterOrder.stored twoListeners { plan := some (listenerPlan cachingAction 0), downstreamPort := 8080 }
    { plan := some (listenerPlan cachingAction 1), downstreamPort := 8081 } rfl rfl ⟨by decide, by decide⟩
    ⟨by decide, by decide⟩
  revert hsame
  decide

/-- routing reads the first value of a header -/
theorem same_request_same_plan : OnePlanWhereCached ⟨fun _ => none⟩ (cookieSession [("x-id", .ofString "1")])
    (cookieSession [("x-id", .ofString "1"), ("x-id", .ofString "2")]) 8080 8080 := by
  refine (cache_key_respects_routing_iff _ _ _ _ _ (.inl rfl) (.inl rfl) (by decide)).2
    ⟨by decide, rfl, rfl, rfl, fun name => ?_, fun _ => rfl⟩
  cases hhost : Text.eqIgnoreAsciiCase "host" name <;> cases hid : Text.eqIgnoreAsciiCase "x-id" name <;>
    simp [routeRequest, RouteRequest.headerStr, cookieSession, HeaderMap.getStr, HeaderMap.get, hhost, hid]

end SunbeamProxy
