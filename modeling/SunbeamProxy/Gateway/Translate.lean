/-
From a reconciled view to the route table (`translate_view_to_ir` in `gateway/translate/ir.rs`).
-/
import Mathlib.Data.Prod.Lex
import Mathlib.Order.WithBot
import SunbeamProxy.Core.OrderedMap
import SunbeamProxy.Gateway.GrpcRoute
import SunbeamProxy.Gateway.L4Route

namespace SunbeamProxy.Gateway

open List

def hostnameToPrefix : HostnameMatch → String
  | .exact h => h
  | .wildcard h => "*." ++ h
  | .any => "*"

/-- listener hostname, route hostname and listener port, compared in this order; no port comes first -/
abbrev GroupKey := String ×ₗ String ×ₗ WithBot ℕ

def groupKey (e : EffectiveHostname) : GroupKey :=
  toLex (hostnameToPrefix e.listenerHostname, toLex (hostnameToPrefix e.routeHostname, match e.listenerPort with
    | some p => (p.toNat : WithBot ℕ)
    | none => ⊥))

/-- listener hostname of a host route; the source's branch for an empty exact name gives what the last one gives -/
def groupListenerHostname : HostnameMatch → Option SunbeamProxy.HostnameMatch
  | .any => none
  | h => some (toIrHostname h)

def groupHost (e : EffectiveHostname) (rules : List Rule) : HostRoute :=
  let listenerId := hostnameToPrefix e.listenerHostname
  { hostname := toIrHostname e.routeHostname
    listenerIds := if listenerId = "" then [] else [listenerId]
    listenerHostname := groupListenerHostname e.listenerHostname
    listenerPort := e.listenerPort
    gatewayApi := true
    disableSecureRedirection := true
    rules }

abbrev HostGroups := OrderedMap GroupKey HostRoute

def addEntry (groups : HostGroups) (e : EffectiveHostname) (rules : List Rule) : HostGroups :=
  groups.upsert (groupKey e) (groupHost e rules) fun h => { h with rules := h.rules ++ rules }

def addHttpRoute (view : GatewayView) (groups : HostGroups) (route : HTTPRouteState) : HostGroups :=
  if route.parentRefs.isEmpty then groups
  else (computeEffectiveHostnames view route "HTTPRoute").foldl
    (fun groups e => addEntry groups e (httpRouteIrRules route e.clientCertId)) groups

def addGrpcRoute (view : GatewayView) (groups : HostGroups) (route : GRPCRouteState) : HostGroups :=
  if route.parentRefs.isEmpty then groups
  else (computeEffectiveHostnames view route "GRPCRoute").foldl
    (fun groups e => addEntry groups e (grpcRouteIrRules route e.clientCertId)) groups

def hostGroups (view : GatewayView) : HostGroups :=
  view.grpcRoutes.foldl (addGrpcRoute view) (view.httpRoutes.foldl (addHttpRoute view) {})

def translateViewToIr (view : GatewayView) : RouteTable :=
  let (listeners, l4Routes) := translateL4Routes view
  { listeners, hosts := (hostGroups view).values, l4Routes }

structure RuleSpec where
  matches_ : List RequestMatch
  action : RequestMatch → Action

def HTTPRouteRule.spec (clientCertId : Option String) (rule : HTTPRouteRule) : RuleSpec where
  matches_ := if rule.matches_.isEmpty then [{}] else rule.matches_
  action m := if rule.programmed then (buildIrRule rule m 0 clientCertId).action else unprogrammedAction

def GRPCRouteRule.spec (clientCertId : Option String) (rule : GRPCRouteRule) : RuleSpec where
  matches_ := if rule.matches_.isEmpty then [{}] else rule.matches_.map grpcMatchToRouteMatch
  action m := if rule.programmed then (buildIrRuleFromGrpc rule m 0 clientCertId).action else unprogrammedAction

inductive RouteRef where
  | http (idx : ℕ)
  | grpc (idx : ℕ)
deriving DecidableEq, Repr

structure Attachment where
  route : RouteRef
  entry : EffectiveHostname
  rule : ℕ
  matchIdx : ℕ
  request : RequestMatch
  action : Action
deriving DecidableEq, Repr

def Attachment.irRule (a : Attachment) : Rule := { matches_ := [a.request], action := a.action, ruleOrder := a.rule }

structure RouteSpec where
  ref : RouteRef
  entries : List EffectiveHostname
  rules : Option String → List RuleSpec

variable (route : RouteSpec)

def RouteSpec.attach (e : EffectiveHostname) : List Attachment :=
  (route.rules e.clientCertId).zipIdx.flatMap fun s => s.1.matches_.zipIdx.map fun m =>
    ⟨route.ref, e, s.2, m.2, m.1, s.1.action m.1⟩

def httpSpec (view : GatewayView) (r : HTTPRouteState × ℕ) : RouteSpec :=
  ⟨.http r.2, computeEffectiveHostnames view r.1 "HTTPRoute", fun cert => r.1.rules.map (HTTPRouteRule.spec cert)⟩

def grpcSpec (view : GatewayView) (r : GRPCRouteState × ℕ) : RouteSpec :=
  ⟨.grpc r.2, computeEffectiveHostnames view r.1 "GRPCRoute", fun cert => r.1.rules.map (GRPCRouteRule.spec cert)⟩

def routeSpecs (view : GatewayView) : List RouteSpec :=
  view.httpRoutes.zipIdx.map (httpSpec view) ++ view.grpcRoutes.zipIdx.map (grpcSpec view)

def RouteSpec.exposures : List (EffectiveHostname × List Attachment) :=
  route.entries.map fun e => (e, route.attach e)

def exposures (view : GatewayView) : List (EffectiveHostname × List Attachment) :=
  (routeSpecs view).flatMap RouteSpec.exposures

def attachments (view : GatewayView) : List Attachment := (exposures view).flatMap (·.2)

theorem translateRuleToIr_eq (rule : HTTPRouteRule) (idx : ℕ) (cert : Option String) :
    translateRuleToIr rule idx rule.programmed cert = (rule.spec cert).matches_.map fun m =>
      { matches_ := [m], action := (rule.spec cert).action m, ruleOrder := idx } := by
  unfold translateRuleToIr HTTPRouteRule.spec
  cases rule.programmed <;> rfl

theorem translateGrpcRuleToIr_eq (rule : GRPCRouteRule) (idx : ℕ) (cert : Option String) :
    translateGrpcRuleToIr rule idx rule.programmed cert = (rule.spec cert).matches_.map fun m =>
      { matches_ := [m], action := (rule.spec cert).action m, ruleOrder := idx } := by
  unfold translateGrpcRuleToIr GRPCRouteRule.spec
  cases rule.programmed <;> rfl

theorem attach_irRule (e : EffectiveHostname) :
    (route.attach e).map Attachment.irRule = (route.rules e.clientCertId).zipIdx.flatMap fun s => s.1.matches_.map fun m =>
      { matches_ := [m], action := s.1.action m, ruleOrder := s.2 } := by
  rw [RouteSpec.attach, map_flatMap]
  refine flatMap_congr fun s _ => ?_
  rw [map_map, ← zipIdx_map_fst 0 s.1.matches_, map_map]
  simp only [zipIdx_map_fst]
  rfl

theorem httpSpec_irRule (view : GatewayView) (r : HTTPRouteState × ℕ) (e : EffectiveHostname) :
    ((httpSpec view r).attach e).map Attachment.irRule = httpRouteIrRules r.1 e.clientCertId := by
  simp only [attach_irRule, httpSpec, httpRouteIrRules_eq, translateRuleToIr_eq, zipIdx_map, flatMap_map]
  rfl

theorem grpcSpec_irRule (view : GatewayView) (r : GRPCRouteState × ℕ) (e : EffectiveHostname) :
    ((grpcSpec view r).attach e).map Attachment.irRule = grpcRouteIrRules r.1 e.clientCertId := by
  simp only [attach_irRule, grpcSpec, grpcRouteIrRules_eq, translateGrpcRuleToIr_eq, zipIdx_map, flatMap_map]
  rfl

def extendHost (x : EffectiveHostname × List Attachment) (h : HostRoute) : HostRoute :=
  { h with rules := h.rules ++ x.2.map Attachment.irRule }

def exposureHost (x : EffectiveHostname × List Attachment) : HostRoute := groupHost x.1 (x.2.map Attachment.irRule)

def addExposure (groups : HostGroups) (x : EffectiveHostname × List Attachment) : HostGroups :=
  groups.upsert (groupKey x.1) (exposureHost x) (extendHost x)

theorem foldl_addEntry {rules : EffectiveHostname → List Rule}
    (hrules : ∀ e, (route.attach e).map Attachment.irRule = rules e) (groups : HostGroups) :
    route.entries.foldl (fun groups e => addEntry groups e (rules e)) groups = route.exposures.foldl addExposure groups := by
  rw [RouteSpec.exposures, foldl_map]
  simp only [← hrules]
  rfl

theorem computeEffectiveHostnames_of_isEmpty {R : Type} [RouteHostnames R] (view : GatewayView) {route : R} {kind : String}
    (h : (RouteHostnames.routeParentRefs route).isEmpty = true) : computeEffectiveHostnames view route kind = [] := by
  rw [computeEffectiveHostnames, isEmpty_iff.1 h, flatMap_nil]

theorem addHttpRoute_eq (view : GatewayView) (groups : HostGroups) (r : HTTPRouteState × ℕ) :
    addHttpRoute view groups r.1 = (httpSpec view r).exposures.foldl addExposure groups := by
  rw [← foldl_addEntry _ (httpSpec_irRule view r), addHttpRoute, httpSpec]
  split_ifs with h
  · rw [computeEffectiveHostnames_of_isEmpty view h, foldl_nil]
  · rfl

theorem addGrpcRoute_eq (view : GatewayView) (groups : HostGroups) (r : GRPCRouteState × ℕ) :
    addGrpcRoute view groups r.1 = (grpcSpec view r).exposures.foldl addExposure groups := by
  rw [← foldl_addEntry _ (grpcSpec_irRule view r), addGrpcRoute, grpcSpec]
  split_ifs with h
  · rw [computeEffectiveHostnames_of_isEmpty view h, foldl_nil]
  · rfl

theorem foldl_zipIdx {α β : Type} (f : β → α → β) (l : List α) (b : β) : l.foldl f b = l.zipIdx.foldl (fun b e => f b e.1) b := by
  conv_lhs => rw [← zipIdx_map_fst 0 l, foldl_map]

theorem hostGroups_eq (view : GatewayView) :
    hostGroups view = OrderedMap.gather (fun x => groupKey x.1) exposureHost extendHost (exposures view) := by
  rw [hostGroups, foldl_zipIdx (addGrpcRoute view), foldl_zipIdx (addHttpRoute view)]
  simp only [addHttpRoute_eq, addGrpcRoute_eq]
  simp only [OrderedMap.gather, exposures, routeSpecs, flatMap_append, foldl_append, foldl_flatMap, foldl_map]
  rfl

theorem groupValue_eq (l : List (EffectiveHostname × List Attachment)) : OrderedMap.groupValue exposureHost extendHost l
      = l.head?.map fun x => groupHost x.1 ((l.flatMap (·.2)).map Attachment.irRule) := by
  have hrun : ∀ (rest : List (EffectiveHostname × List Attachment)) (e : EffectiveHostname) (as : List Attachment),
      rest.foldl (fun h x => extendHost x h) (groupHost e (as.map Attachment.irRule))
        = groupHost e ((as ++ rest.flatMap (·.2)).map Attachment.irRule) := by
    intro rest
    induction rest with
    | nil => simp
    | cons x rest ih =>
      intro e as
      have hstep : extendHost x (groupHost e (as.map Attachment.irRule)) = groupHost e ((as ++ x.2).map Attachment.irRule) := by
        rw [map_append]
        rfl
      rw [foldl_cons, hstep, ih, flatMap_cons, append_assoc]
  cases l with
  | nil => rfl
  | cons x rest => exact congrArg some (hrun rest x.1 x.2)

def groupOf (view : GatewayView) (k : GroupKey) : List (EffectiveHostname × List Attachment) :=
  (exposures view).filter fun x => groupKey x.1 = k

theorem get_hostGroups (view : GatewayView) (k : GroupKey) : (hostGroups view).get k
      = (groupOf view k).head?.map fun x => groupHost x.1 (((groupOf view k).flatMap (·.2)).map Attachment.irRule) := by
  rw [hostGroups_eq, OrderedMap.get_gather, groupValue_eq]
  rfl

variable {view : GatewayView}

theorem mem_keys_hostGroups {k : GroupKey} : k ∈ (hostGroups view).keys ↔ ∃ x ∈ exposures view, groupKey x.1 = k := by
  rw [hostGroups_eq, OrderedMap.mem_keys_gather]

/-! ## Conservation -/

structure Placement where
  hostname : SunbeamProxy.HostnameMatch
  listenerHostname : Option SunbeamProxy.HostnameMatch
  listenerPort : Option UInt16
  request : RequestMatch
  action : Action
deriving DecidableEq, Repr

def hostPlacements (h : HostRoute) : List Placement := h.rules.flatMap fun rule => rule.matches_.map fun m =>
    ⟨h.hostname, h.listenerHostname, h.listenerPort, m, rule.action⟩

def tablePlacements (t : RouteTable) : List Placement := t.hosts.flatMap hostPlacements

def Attachment.under (a : Attachment) (e : EffectiveHostname) : Placement :=
  ⟨toIrHostname e.routeHostname, groupListenerHostname e.listenerHostname, e.listenerPort, a.request, a.action⟩

def attachedPlacements (view : GatewayView) : List Placement :=
  (routeSpecs view).flatMap fun route => (route.entries.dedup.flatMap route.attach).map fun a => a.under a.entry

def groupEntry (view : GatewayView) (a : Attachment) : EffectiveHostname :=
  ((groupOf view (groupKey a.entry)).head?.map (·.1)).getD a.entry

variable {a : Attachment} {e : EffectiveHostname}

theorem entry_of_mem_attach {route : RouteSpec} (h : a ∈ route.attach e) : a.entry = e := by
  obtain ⟨s, -, hs⟩ := mem_flatMap.1 h
  obtain ⟨m, -, rfl⟩ := mem_map.1 hs
  rfl

theorem entry_of_mem_exposures {x : EffectiveHostname × List Attachment} (hx : x ∈ exposures view) (ha : a ∈ x.2) :
    a.entry = x.1 := by
  obtain ⟨route, -, hx⟩ := mem_flatMap.1 hx
  obtain ⟨e, -, rfl⟩ := mem_map.1 hx
  exact entry_of_mem_attach ha

theorem groupEntry_of_mem_groupOf {k : GroupKey} (h : a ∈ (groupOf view k).flatMap (·.2))
    {x : EffectiveHostname × List Attachment} (hx : (groupOf view k).head? = some x) : groupEntry view a = x.1 := by
  obtain ⟨y, hy, ha⟩ := mem_flatMap.1 h
  obtain ⟨hmem, hkey⟩ := mem_filter.1 hy
  have hentry : groupKey a.entry = k := by
    rw [entry_of_mem_exposures hmem ha]
    simpa using hkey
  rw [groupEntry, hentry, hx]
  rfl

theorem group_placements (view : GatewayView) (k : GroupKey) : ((hostGroups view).get k).elim [] hostPlacements
      = ((groupOf view k).flatMap (·.2)).map fun a => a.under (groupEntry view a) := by
  have hentry : ∀ a ∈ (groupOf view k).flatMap (·.2), ∀ x, (groupOf view k).head? = some x → groupEntry view a = x.1 :=
    fun a ha x hx => groupEntry_of_mem_groupOf ha hx
  rw [get_hostGroups]
  cases hgroup : groupOf view k with
  | nil => rfl
  | cons x rest =>
    rw [hgroup] at hentry
    have hplaced : ∀ as : List Attachment, hostPlacements (groupHost x.1 (as.map Attachment.irRule)) = as.map (·.under x.1) := by
      intro as
      rw [hostPlacements, groupHost, flatMap_map]
      exact map_eq_flatMap.symm
    rw [head?_cons, Option.map_some, Option.elim_some, hplaced]
    refine map_congr_left fun a ha => ?_
    rw [hentry a ha x rfl]

/-- **The table holds the attachments**, each under the hostnames of the first entry of its group. -/
theorem tablePlacements_perm (view : GatewayView) :
    (tablePlacements (translateViewToIr view)).Perm ((attachments view).map fun a => a.under (groupEntry view a)) := by
  have hvalues : tablePlacements (translateViewToIr view)
      = ((hostGroups view).values.map some).flatMap fun o => o.elim [] hostPlacements := by
    rw [flatMap_map]
    rfl
  have hkeys := flatMap_filter_perm (fun x : EffectiveHostname × List Attachment => groupKey x.1) (hostGroups view).nodup_keys
      (exposures view) fun x hx => mem_keys_hostGroups.2 ⟨x, hx, rfl⟩
  rw [hvalues, ← OrderedMap.map_get_keys, flatMap_map]
  simp only [group_placements]
  rw [← map_flatMap, ← flatMap_assoc]
  exact (hkeys.flatMap_right _).map _

/-- no route has an effective hostname twice under which something is attached -/
def EntriesOnce (view : GatewayView) : Prop :=
  ∀ route ∈ routeSpecs view, ∀ e, route.attach e ≠ [] → route.entries.count e ≤ 1

/-- whatever is attached stands under the hostnames its group is named after -/
def NamedAlike (view : GatewayView) : Prop :=
  ∀ a ∈ attachments view, (groupEntry view a).routeHostname = a.entry.routeHostname
    ∧ (groupEntry view a).listenerHostname = a.entry.listenerHostname

theorem toIrHostname_inj {a b : HostnameMatch} (h : toIrHostname a = toIrHostname b) : a = b := by
  cases a <;> cases b <;> simp_all [toIrHostname]

theorem groupListenerHostname_inj {a b : HostnameMatch} (h : groupListenerHostname a = groupListenerHostname b) : a = b := by
  cases a <;> cases b <;> simp_all [groupListenerHostname, toIrHostname]

theorem under_inj {b : Attachment} {e' : EffectiveHostname} (h : a.under e = b.under e') :
    e.routeHostname = e'.routeHostname ∧ e.listenerHostname = e'.listenerHostname ∧ e.listenerPort = e'.listenerPort := by
  simp only [Attachment.under, Placement.mk.injEq] at h
  exact ⟨toIrHostname_inj h.1, groupListenerHostname_inj h.2.1, h.2.2.1⟩

theorem listenerPort_of_groupKey {e' : EffectiveHostname} (h : groupKey e = groupKey e') : e.listenerPort = e'.listenerPort := by
  have hport := congrArg (fun k : GroupKey => (ofLex (ofLex k).2).2) h
  simp only [groupKey] at hport
  cases hp : e.listenerPort <;> cases hp' : e'.listenerPort <;> simp_all [UInt16.toNat_inj]

theorem groupKey_groupEntry (view : GatewayView) (a : Attachment) : groupKey (groupEntry view a) = groupKey a.entry := by
  rw [groupEntry]
  cases hhead : (groupOf view (groupKey a.entry)).head? with
  | none => rfl
  | some x => simpa using (mem_filter.1 (mem_of_mem_head? hhead)).2

theorem groupEntry_congr {b : Attachment} (ha : a ∈ attachments view) (hkey : groupKey b.entry = groupKey a.entry) :
    groupEntry view b = groupEntry view a := by
  obtain ⟨x, hx, hax⟩ := mem_flatMap.1 ha
  have hmem : x ∈ groupOf view (groupKey a.entry) := mem_filter.2 ⟨hx, by simp [entry_of_mem_exposures hx hax]⟩
  obtain ⟨y, hy⟩ := Option.isSome_iff_exists.1 (isSome_head?.2 (ne_nil_of_mem hmem))
  simp only [groupEntry, hkey, hy]
  rfl

theorem under_groupEntry_iff (view : GatewayView) (a : Attachment) : a.under (groupEntry view a) = a.under a.entry ↔
    (groupEntry view a).routeHostname = a.entry.routeHostname
      ∧ (groupEntry view a).listenerHostname = a.entry.listenerHostname := by
  constructor
  · intro h
    exact ⟨(under_inj h).1, (under_inj h).2.1⟩
  · rintro ⟨hroute, hlistener⟩
    simp [Attachment.under, hroute, hlistener, listenerPort_of_groupKey (groupKey_groupEntry view a)]

theorem attachments_eq (view : GatewayView) :
    attachments view = (routeSpecs view).flatMap fun route => route.entries.flatMap route.attach := by
  rw [attachments, exposures, flatMap_assoc]
  refine flatMap_congr fun route _ => ?_
  rw [RouteSpec.exposures, flatMap_map]

def distinctAttachments (view : GatewayView) : List Attachment :=
  (routeSpecs view).flatMap fun route => route.entries.dedup.flatMap route.attach

theorem attachedPlacements_eq (view : GatewayView) :
    attachedPlacements view = (distinctAttachments view).map fun a => a.under a.entry := by
  rw [distinctAttachments, map_flatMap]
  rfl

theorem entriesOnce_iff (view : GatewayView) :
    EntriesOnce view ↔ (distinctAttachments view).length = (attachments view).length := by
  have hroute : EntriesOnce view ↔ ∀ route ∈ routeSpecs view,
      route.entries.dedup.flatMap route.attach = route.entries.flatMap route.attach :=
    forall₂_congr fun route _ => (flatMap_dedup_eq_iff route.attach route.entries).symm
  rw [hroute, attachments_eq, distinctAttachments]
  constructor
  · intro h
    rw [flatMap_congr h]
  · exact flatMap_eq_of_sublist fun route _ => (dedup_sublist route.entries).flatMap route.attach

theorem distinctAttachments_eq (h : EntriesOnce view) : distinctAttachments view = attachments view := by
  rw [attachments_eq]
  exact flatMap_congr fun route hroute => (flatMap_dedup_eq_iff _ _).2 (h route hroute)

/-- **Conservation.** The table holds every rule match of every route once, under each distinct effective hostname of the
route, exactly when no entry is repeated and every group is named alike by its entries. -/
theorem translation_conserves_iff (view : GatewayView) :
    (tablePlacements (translateViewToIr view)).Perm (attachedPlacements view) ↔ EntriesOnce view ∧ NamedAlike view := by
  have hperm := tablePlacements_perm view
  rw [attachedPlacements_eq]
  constructor
  · intro h
    have h := hperm.symm.trans h
    have honce : EntriesOnce view := by
      have hlen := h.length_eq
      simp only [length_map] at hlen
      exact (entriesOnce_iff view).2 hlen.symm
    refine ⟨honce, fun a ha => ?_⟩
    -- some attachment was put where `a` belongs; it is of the group of `a`, which is therefore named as `a` asks
    rw [distinctAttachments_eq honce] at h
    obtain ⟨b, -, hb⟩ := mem_map.1 (h.symm.mem_iff.1 (mem_map_of_mem ha))
    obtain ⟨hroute, hlistener, hport⟩ := under_inj hb
    have hkey : groupKey b.entry = groupKey a.entry := by
      rw [← groupKey_groupEntry view b, groupKey, groupKey, hroute, hlistener, hport]
    rw [← groupEntry_congr ha hkey]
    exact ⟨hroute, hlistener⟩
  · rintro ⟨honce, hnamed⟩
    rw [distinctAttachments_eq honce]
    refine hperm.trans (Perm.of_eq ?_)
    exact map_congr_left fun a ha => (under_groupEntry_iff view a).2 (hnamed a ha)

def overlappingView : GatewayView :=
  { gateways := [{ namespace_ := "shop", name := "edge", listeners := [{ name := "web", hostname := some "a.example.com" }] }]
    httpRoutes :=
      [{ namespace_ := "shop", name := "shop", hostnames := [.wildcard "example.com", .exact "a.example.com"]
         rules := [{}], parentRefs := [{ name := "edge" }] }] }

theorem overlapping_hostnames_duplicate :
    ¬ (tablePlacements (translateViewToIr overlappingView)).Perm (attachedPlacements overlappingView) := by
  intro h
  have hlen := h.length_eq
  revert hlen
  decide

end SunbeamProxy.Gateway
