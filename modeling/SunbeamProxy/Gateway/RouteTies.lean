/-
Ties between the routes of one host.
-/
import SunbeamProxy.Gateway.Translate
import SunbeamProxy.IR.Hosts

namespace SunbeamProxy.Gateway

open List

def RouteRef.position : RouteRef → ℕ ×ₗ ℕ
  | .http idx => toLex (0, idx)
  | .grpc idx => toLex (1, idx)

def Attachment.place (a : Attachment) : (ℕ ×ₗ ℕ) ×ₗ ℕ := toLex (a.route.position, a.rule)

variable (view : GatewayView)

def Attachment.planIn (a : Attachment) : CompiledPlan :=
  compilePlan a.irRule (computePrecedence a.irRule) a.request true true
    (groupListenerHostname (groupEntry view a).listenerHostname)

def attachedIn (k : GroupKey) : List Attachment := (groupOf view k).flatMap (·.2)

variable {a : Attachment}

theorem route_of_mem_attach {route : RouteSpec} {e : EffectiveHostname} (h : a ∈ route.attach e) : a.route = route.ref := by
  obtain ⟨s, -, hs⟩ := mem_flatMap.1 h
  obtain ⟨m, -, rfl⟩ := mem_map.1 hs
  rfl

theorem zipIdx_pairwise {α : Type} (l : List α) : l.zipIdx.Pairwise fun x y => x.2 < y.2 := by
  have hsnd : (l.zipIdx.map Prod.snd).Pairwise (· < ·) := by
    rw [zipIdx_map_snd]
    exact pairwise_lt_range'
  exact pairwise_map.1 hsnd

theorem routeSpecs_pairwise : (routeSpecs view).Pairwise fun x y => x.ref.position ≤ y.ref.position := by
  simp only [routeSpecs, pairwise_append, pairwise_map]
  refine ⟨(zipIdx_pairwise _).imp ?_, (zipIdx_pairwise _).imp ?_, ?_⟩
  · intro x y h
    simp [httpSpec, RouteRef.position, Prod.Lex.toLex_le_toLex, h.le]
  · intro x y h
    simp [grpcSpec, RouteRef.position, Prod.Lex.toLex_le_toLex, h.le]
  · intro x hx y hy
    obtain ⟨x, -, rfl⟩ := mem_map.1 hx
    obtain ⟨y, -, rfl⟩ := mem_map.1 hy
    simp [httpSpec, grpcSpec, RouteRef.position, Prod.Lex.toLex_le_toLex]

theorem attachments_pairwise :
    (attachments view).Pairwise fun a b => a.route.position ≤ b.route.position := by
  have hroute : ∀ route : RouteSpec, ∀ a ∈ route.entries.flatMap route.attach, a.route = route.ref := by
    intro route a ha
    obtain ⟨e, -, ha⟩ := mem_flatMap.1 ha
    exact route_of_mem_attach ha
  rw [attachments_eq, pairwise_flatMap]
  refine ⟨?_, (routeSpecs_pairwise view).imp ?_⟩
  · intro route _
    refine pairwise_of_forall_mem_list ?_
    intro a ha b hb
    rw [hroute route a ha, hroute route b hb]
  · intro x y hxy a ha b hb
    rwa [hroute x a ha, hroute y b hb]

theorem attachedIn_pairwise (k : GroupKey) :
    (attachedIn view k).Pairwise fun a b => a.route.position ≤ b.route.position :=
  (attachments_pairwise view).sublist (filter_sublist.flatMap _)

/-- the request is looked up in the host route of the group -/
def Searches (ω : IterOrder) (view : GatewayView) (r : RouteRequest) (k : GroupKey) : Prop :=
  ∃ host, chosenRoute ω (translateViewToIr view).hosts r.host r.port = some host ∧ (hostGroups view).get k = some host

def groupPlans (k : GroupKey) : List CompiledPlan := (attachedIn view k).map (·.planIn view)

def groupAttributes (ω : IterOrder) (view : GatewayView) (k : GroupKey) : List String → Option Attribute :=
  hostAttributes ω (groupPlans view k)

theorem hostPlans_group {view : GatewayView} {k : GroupKey} {host : HostRoute} (h : (hostGroups view).get k = some host) :
    hostPlans host = groupPlans view k := by
  rw [get_hostGroups] at h
  obtain ⟨x, hx, rfl⟩ := Option.map_eq_some_iff.1 h
  have hplans : groupPlans view k = (attachedIn view k).flatMap fun a => [a.planIn view] := map_eq_flatMap
  rw [hostPlans, groupHost, flatMap_map, hplans]
  refine flatMap_congr fun a ha => ?_
  rw [Attachment.planIn, groupEntry_of_mem_groupOf ha hx]
  rfl

variable {ω : IterOrder} {re : RegexEngine} {view : GatewayView} {r : RouteRequest} {k : GroupKey}

/-- **Lookups in a group.** One pass over the plans of the group that is searched. -/
theorem lookup_searched (h : Searches ω view r k) : (CompiledRouteTable.compile ω (translateViewToIr view)).lookup re r
      = firstBest (fineBefore (groupAttributes ω view k) r) (competes (groupAttributes ω view k) r re) (groupPlans view k) := by
  obtain ⟨host, hchosen, hget⟩ := h
  rw [CompiledRouteTable.lookup, findHostNode_eq, hchosen, Option.map_some, Option.bind_some, compileHost_lookup_fine,
    hostPlans_group hget]
  rfl

@[simp] theorem planIn_matches (a : Attachment) : (a.planIn view).matches_ = a.request := compilePlan_matches ..

@[simp] theorem planIn_ruleOrder (a : Attachment) : (a.planIn view).ruleOrder = a.rule := compilePlan_ruleOrder ..

theorem mem_groupPlans (h : a ∈ attachedIn view k) : a.planIn view ∈ groupPlans view k := mem_map_of_mem h

theorem holds_of_competes (h : competes (groupAttributes ω view k) r re (a.planIn view) = true) : a.request.Holds re r := by
  simpa using (competes_iff.1 h).1

/-! ## Ties -/

/-- a matching rule of the group, with none of higher precedence beside it -/
structure Leading (re : RegexEngine) (view : GatewayView) (r : RouteRequest) (k : GroupKey) (a : Attachment) : Prop where
  attached : a ∈ attachedIn view k
  holds : a.request.Holds re r
  highest : ∀ c ∈ attachedIn view k, c.request.Holds re r → noLower (a.planIn view) (c.planIn view) = true

/-- two HTTP rules lead, and the view lists them in this order -/
structure Tied (re : RegexEngine) (view : GatewayView) (r : RouteRequest) (k : GroupKey) (a b : Attachment) : Prop where
  first : Leading re view r k a
  second : Leading re view r k b
  http : (∃ i, a.route = .http i) ∧ ∃ j, b.route = .http j
  earlier : a.place < b.place

/-- of HTTP rules that match with equal and highest precedence, the lookup returns the plan of the one listed first -/
def TiesGoToEarlier (ω : IterOrder) (re : RegexEngine) (view : GatewayView) (r : RouteRequest) : Prop :=
  ∀ k, Searches ω view r k → ∀ a b, Tied re view r k a b →
    ∃ s, (CompiledRouteTable.compile ω (translateViewToIr view)).lookup re r = some (s.planIn view)
      ∧ Leading re view r k s ∧ s.place ≤ a.place

/-- the first of the leading rules is offered to the request, and of those that are offered none has a smaller number in its
route, and none with the same number is met before it -/
def FirstIsSmallest (ω : IterOrder) (re : RegexEngine) (view : GatewayView) (r : RouteRequest) (k : GroupKey) : Prop :=
  ∃ f, Leading re view r k f ∧ (∀ a, Leading re view r k a → f.place ≤ a.place)
    ∧ competes (groupAttributes ω view k) r re (f.planIn view) = true
    ∧ ∀ a, Leading re view r k a → competes (groupAttributes ω view k) r re (a.planIn view) = true →
      f.rule < a.rule ∨ f.rule = a.rule
        ∧ meets (groupAttributes ω view k) r (f.planIn view) ≤ meets (groupAttributes ω view k) r (a.planIn view)

theorem leading_of_noLower {f s : Attachment} (hf : Leading re view r k f) (hs : s ∈ attachedIn view k)
    (hholds : s.request.Holds re r) (hle : noLower (s.planIn view) (f.planIn view) = true) : Leading re view r k s :=
  ⟨hs, hholds, fun c hc hcr => noLower_trans hle (hf.highest c hc hcr)⟩

theorem fineBefore_leading {a b : Attachment} (ha : Leading re view r k a) (hb : Leading re view r k b) :
    fineBefore (groupAttributes ω view k) r (a.planIn view) (b.planIn view) = true ↔ a.rule < b.rule ∨ a.rule = b.rule
        ∧ meets (groupAttributes ω view k) r (a.planIn view) ≤ meets (groupAttributes ω view k) r (b.planIn view) := by
  simp [fineBefore_iff_of_tie (ha.highest b hb.attached hb.holds) (hb.highest a ha.attached ha.holds), planIn_ruleOrder]

theorem fineBefore_of_first {f c : Attachment} (hf : Leading re view r k f)
    (hfirst : ∀ a, Leading re view r k a → competes (groupAttributes ω view k) r re (a.planIn view) = true →
      f.rule < a.rule ∨ f.rule = a.rule
        ∧ meets (groupAttributes ω view k) r (f.planIn view) ≤ meets (groupAttributes ω view k) r (a.planIn view))
    (hc : c ∈ attachedIn view k) (hcompetes : competes (groupAttributes ω view k) r re (c.planIn view) = true) :
    fineBefore (groupAttributes ω view k) r (f.planIn view) (c.planIn view) = true := by
  cases hcf : noLower (c.planIn view) (f.planIn view) with
  | false => exact fineBefore_of_lower hcf
  | true =>
    have hleading := leading_of_noLower hf hc (holds_of_competes hcompetes) hcf
    exact (fineBefore_leading hf hleading).2 (hfirst c hleading hcompetes)

theorem exists_first (h : Leading re view r k a) :
    ∃ f, Leading re view r k f ∧ ∀ c, Leading re view r k c → f.place ≤ c.place := by
  obtain ⟨f, hf, hmin⟩ := (InvImage.wf Attachment.place wellFounded_lt).has_min {c | Leading re view r k c} ⟨a, h⟩
  exact ⟨f, hf, fun c hc => not_lt.1 (hmin c hc)⟩

theorem http_of_place_le {a b : Attachment} (h : a.place ≤ b.place) (hb : ∃ j, b.route = .http j) : ∃ i, a.route = .http i := by
  obtain ⟨j, hj⟩ := hb
  cases ha : a.route with
  | http i => exact ⟨i, rfl⟩
  | grpc i => simp [Attachment.place, RouteRef.position, ha, hj, Prod.Lex.toLex_le_toLex, Prod.Lex.toLex_lt_toLex] at h

theorem pick_not_later {p : CompiledPlan} {f : Attachment}
    (hpick : firstBest (fineBefore (groupAttributes ω view k) r) (competes (groupAttributes ω view k) r re) (groupPlans view k) = some p)
    (hf : f ∈ attachedIn view k) (hcompetes : competes (groupAttributes ω view k) r re (f.planIn view) = true)
    (hbeats : fineBefore (groupAttributes ω view k) r (f.planIn view) p = true) :
    ∃ s ∈ attachedIn view k, s.planIn view = p ∧ s.route.position ≤ f.route.position := by
  obtain ⟨before, after, hsplit, hbefore⟩ := firstBest_split hpick
  obtain ⟨l, t, hlist, rfl, ht⟩ := map_eq_append_iff.1 hsplit
  obtain ⟨s, t, rfl, rfl, rfl⟩ := map_eq_cons_iff.1 ht
  refine ⟨s, by simp [hlist], rfl, ?_⟩
  have hordered := attachedIn_pairwise view k
  rw [hlist, pairwise_append, pairwise_cons] at hordered
  rw [hlist, mem_append, mem_cons] at hf
  rcases hf with hf | rfl | hf
  · have hnot := hbefore _ (mem_map_of_mem hf) hcompetes
    rw [hbeats] at hnot
    cases hnot
  · exact le_refl _
  · exact hordered.2.1.1 f hf

theorem lookup_of_firstIsSmallest (hk : Searches ω view r k) (h : FirstIsSmallest ω re view r k) :
    ∃ s, (CompiledRouteTable.compile ω (translateViewToIr view)).lookup re r = some (s.planIn view)
      ∧ Leading re view r k s ∧ ∀ a, Leading re view r k a → s.place ≤ a.place := by
  obtain ⟨f, hf, hfirst, hcompetes, hsmallest⟩ := h
  rw [lookup_searched hk]
  cases hpick : firstBest (fineBefore (groupAttributes ω view k) r) (competes (groupAttributes ω view k) r re) (groupPlans view k) with
  | none =>
    have hnone := firstBest_eq_none_iff.1 hpick _ (mem_groupPlans hf.attached)
    rw [hcompetes] at hnone
    cases hnone
  | some p =>
    obtain ⟨hp, hpcompetes⟩ := firstBest_mem hpick
    obtain ⟨c, hc, rfl⟩ := mem_map.1 hp
    have hbeats := fineBefore_of_first hf hsmallest hc hpcompetes
    obtain ⟨s, hs, hplan, hroute⟩ := pick_not_later hpick hf.attached hcompetes hbeats
    rw [← hplan] at hpick hpcompetes hbeats
    have hback := firstBest_le hpick _ (mem_groupPlans hf.attached) hcompetes
    have hleading := leading_of_noLower hf hs (holds_of_competes hpcompetes) (noLower_of_fineBefore hback)
    -- neither beats the other, so they have one number
    have hrule : s.rule = f.rule := by
      have hsf := (fineBefore_leading hleading hf).1 hback
      have hfs := (fineBefore_leading hf hleading).1 hbeats
      omega
    refine ⟨s, congrArg some hplan.symm, hleading, fun a ha => le_trans ?_ (hfirst a ha)⟩
    simp only [Attachment.place, Prod.Lex.toLex_le_toLex, hrule]
    exact hroute.lt_or_eq.imp_right fun heq => ⟨heq, le_refl _⟩

/-- **Ties between routes.** The rule listed first is found for every tie exactly when, in the group that is searched, the
first of the tied rules also has the smallest number within its route. -/
theorem ties_to_earlier_iff (ω : IterOrder) (re : RegexEngine) (view : GatewayView) (r : RouteRequest) :
    TiesGoToEarlier ω re view r ↔ ∀ k, Searches ω view r k → (∃ a b, Tied re view r k a b) → FirstIsSmallest ω re view r k := by
  apply Iff.intro
  · rintro h k hk ⟨a, b, htied⟩
    obtain ⟨f, hf, hfirst⟩ := exists_first htied.first
    have hfa := hfirst a htied.first
    have htied' : Tied re view r k f b :=
      ⟨hf, htied.second, ⟨http_of_place_le hfa htied.http.1, htied.http.2⟩, hfa.trans_lt htied.earlier⟩
    obtain ⟨s, hlookup, hs, hsf⟩ := h k hk f b htied'
    rw [lookup_searched hk] at hlookup
    refine ⟨s, hs, fun c hc => hsf.trans (hfirst c hc), (firstBest_mem hlookup).2, fun c hc hcompetes => ?_⟩
    exact (fineBefore_leading hs hc).1 (firstBest_le hlookup _ (mem_groupPlans hc.attached) hcompetes)
  · intro h k hk a b htied
    obtain ⟨s, hlookup, hs, hfirst⟩ := lookup_of_firstIsSmallest hk (h k hk ⟨a, b, htied⟩)
    exact ⟨s, hlookup, hs, hfirst a htied.first⟩

def pathRule (path backend : String) : HTTPRouteRule :=
  { matches_ := [{ path := some (.pathPrefix path) }], backends := [{ backend }] }

def appView : GatewayView :=
  { gateways := [{ namespace_ := "shop", name := "edge", listeners := [{ name := "web" }] }]
    httpRoutes :=
      [{ namespace_ := "shop", name := "blue", parentRefs := [{ name := "edge" }]
         rules := [pathRule "/api" "api:80", pathRule "/app" "blue:80"] },
       { namespace_ := "shop", name := "green", parentRefs := [{ name := "edge" }], rules := [pathRule "/app" "green:80"] }] }

def appRequest : RouteRequest :=
  { host := "shop.example.com", port := 80, path := "/app", method := "GET", headers := [], query := none }

def appEntry : EffectiveHostname :=
  { routeHostname := .any, listenerHostname := .exact "", listenerPort := some 80, clientCertId := none
    listenerId := some "shop/edge/web" }

def appRule (route rule : ℕ) (path backend : String) : Attachment :=
  { route := .http route, entry := appEntry, rule, matchIdx := 0, request := { path := some (.pathPrefix path) }
    action := (buildIrRule (pathRule path backend) {} 0 none).action }

theorem leading_app : ∀ a ∈ [appRule 0 1 "/app" "blue:80", appRule 1 0 "/app" "green:80"],
    Leading ⟨fun _ => none⟩ appView appRequest (groupKey appEntry) a := by
  have hlead : ∀ a ∈ [appRule 0 1 "/app" "blue:80", appRule 1 0 "/app" "green:80"], a ∈ attachedIn appView (groupKey appEntry)
        ∧ competes (groupAttributes IterOrder.stored appView (groupKey appEntry)) appRequest ⟨fun _ => none⟩ (a.planIn appView) = true
        ∧ ∀ c ∈ attachedIn appView (groupKey appEntry), noLower (a.planIn appView) (c.planIn appView) = true := by
    decide
  intro a ha
  obtain ⟨hattached, hcompetes, hhighest⟩ := hlead a ha
  exact ⟨hattached, holds_of_competes hcompetes, fun c hc _ => hhighest c hc⟩

theorem later_route_wins :
    (CompiledRouteTable.compile IterOrder.stored (translateViewToIr appView)).lookup ⟨fun _ => none⟩ appRequest
        = some ((appRule 1 0 "/app" "green:80").planIn appView)
      ∧ ¬ TiesGoToEarlier IterOrder.stored ⟨fun _ => none⟩ appView appRequest := by
  have hlookup : (CompiledRouteTable.compile IterOrder.stored (translateViewToIr appView)).lookup ⟨fun _ => none⟩ appRequest
      = some ((appRule 1 0 "/app" "green:80").planIn appView) := by decide
  have hsearches : Searches IterOrder.stored appView appRequest (groupKey appEntry) := ⟨_, rfl, by decide⟩
  have htied : Tied ⟨fun _ => none⟩ appView appRequest (groupKey appEntry) (appRule 0 1 "/app" "blue:80")
      (appRule 1 0 "/app" "green:80") :=
    ⟨leading_app _ (by simp), leading_app _ (by simp), ⟨⟨0, rfl⟩, ⟨1, rfl⟩⟩, by decide⟩
  -- no rule at or before the blue one has the plan that is found
  have hearlier : ∀ s ∈ attachedIn appView (groupKey appEntry), s.place ≤ (appRule 0 1 "/app" "blue:80").place →
      s.planIn appView ≠ (appRule 1 0 "/app" "green:80").planIn appView := by
    decide
  refine ⟨hlookup, fun h => ?_⟩
  obtain ⟨s, hs, hleading, hplace⟩ := h _ hsearches _ _ htied
  exact hearlier s hleading.attached hplace (Option.some.inj hs).symm

end SunbeamProxy.Gateway
