/-
Whether the canonical bytes of a view depend on the order of its collections.

A view is reordered by permuting its gateways, ListenerSets, routes and grants, and inside them listeners, parent references,
hostnames, matches, header and query matches, backends, grant subjects and allowed kinds; the rules of a route and the filters of
a rule keep their order, which has a meaning.
-/
import SunbeamProxy.Gateway.Digest

namespace SunbeamProxy.Gateway

open Codec List

def GatewayState.Reordered (g g' : GatewayState) : Prop := ∃ ls, g.listeners.Perm ls ∧ g' = { g with listeners := ls }

def ListenerSetState.Reordered (s s' : ListenerSetState) : Prop :=
  ∃ ls, s.listeners.Perm ls ∧ s' = { s with listeners := ls }

def RouteState.Reordered (r r' : RouteState) : Prop := ∃ refs, r.parentRefs.Perm refs ∧ r' = { r with parentRefs := refs }

def MatchReordered (m m' : RequestMatch) : Prop :=
  ∃ hs qs, m.headers.Perm hs ∧ m.queryParams.Perm qs ∧ m' = { m with headers := hs, queryParams := qs }

def HTTPRouteRule.Reordered (r r' : HTTPRouteRule) : Prop :=
  ∃ ms bs, Shuffle MatchReordered r.matches_ ms ∧ r.backends.Perm bs ∧ r' = { r with matches_ := ms, backends := bs }

def HTTPRouteState.Reordered (r r' : HTTPRouteState) : Prop :=
  ∃ hosts refs rules, r.hostnames.Perm hosts ∧ r.parentRefs.Perm refs ∧ List.Forall₂ HTTPRouteRule.Reordered r.rules rules
    ∧ r' = { r with hostnames := hosts, parentRefs := refs, rules }

def GRPCRouteMatch.Reordered (m m' : GRPCRouteMatch) : Prop := ∃ hs, m.headers.Perm hs ∧ m' = { m with headers := hs }

def GRPCRouteRule.Reordered (r r' : GRPCRouteRule) : Prop :=
  ∃ ms bs, Shuffle GRPCRouteMatch.Reordered r.matches_ ms ∧ r.backends.Perm bs
    ∧ r' = { r with matches_ := ms, backends := bs }

def GRPCRouteState.Reordered (r r' : GRPCRouteState) : Prop :=
  ∃ hosts refs rules, r.hostnames.Perm hosts ∧ r.parentRefs.Perm refs ∧ List.Forall₂ GRPCRouteRule.Reordered r.rules rules
    ∧ r' = { r with hostnames := hosts, parentRefs := refs, rules }

def TCPRouteState.Reordered (r r' : TCPRouteState) : Prop :=
  ∃ refs bs, r.parentRefs.Perm refs ∧ r.backends.Perm bs ∧ r' = { r with parentRefs := refs, backends := bs }

def UDPRouteState.Reordered (r r' : UDPRouteState) : Prop :=
  ∃ refs bs, r.parentRefs.Perm refs ∧ r.backends.Perm bs ∧ r' = { r with parentRefs := refs, backends := bs }

def TLSRouteState.Reordered (r r' : TLSRouteState) : Prop :=
  ∃ hosts refs bs, r.hostnames.Perm hosts ∧ r.parentRefs.Perm refs ∧ r.backends.Perm bs
    ∧ r' = { r with hostnames := hosts, parentRefs := refs, backends := bs }

def ReferenceGrantState.Reordered (g g' : ReferenceGrantState) : Prop :=
  ∃ source target, g.source.Perm source ∧ g.target.Perm target ∧ g' = { g with source, target }

def AllowedRoutes.Reordered (a a' : AllowedRoutes) : Prop := ∃ kinds, a.kinds.Perm kinds ∧ a' = { a with kinds }

def AllowedReordered (m m' : ListenerAllowedMap) : Prop :=
  List.Forall₂ (fun e e' => e'.1 = e.1 ∧ AllowedRoutes.Reordered e.2 e'.2) m.pairs m'.pairs

structure ReconciledView.Reordered (v w : ReconciledView) : Prop where
  gateways : Shuffle GatewayState.Reordered v.gateways w.gateways
  listenerSets : Shuffle ListenerSetState.Reordered v.listenerSets w.listenerSets
  routes : Shuffle RouteState.Reordered v.routes w.routes
  httpRoutes : Shuffle HTTPRouteState.Reordered v.httpRoutes w.httpRoutes
  grpcRoutes : Shuffle GRPCRouteState.Reordered v.grpcRoutes w.grpcRoutes
  tcpRoutes : Shuffle TCPRouteState.Reordered v.tcpRoutes w.tcpRoutes
  udpRoutes : Shuffle UDPRouteState.Reordered v.udpRoutes w.udpRoutes
  tlsRoutes : Shuffle TLSRouteState.Reordered v.tlsRoutes w.tlsRoutes
  referenceGrants : Shuffle ReferenceGrantState.Reordered v.referenceGrants w.referenceGrants
  namespaceLabels : w.namespaceLabels = v.namespaceLabels
  listenerAllowed : AllowedReordered v.listenerAllowed w.listenerAllowed
  listenerSetAllowed : AllowedReordered v.listenerSetAllowed w.listenerSetAllowed

section Sorted

variable {α κ : Type} [LinearOrder κ] {key : α → κ} {enc : α → Bytes} {R : α → α → Prop}

theorem encodeSorted_perm_iff (l : List α) : Stable Perm (encodeSorted key enc) l ↔ TiesAgree key enc l := by
  rw [← inOrder_perm_iff]
  apply forall₂_congr
  intro l' hperm
  simp [encodeSorted, hperm.length_eq, append_cancel_left_eq]

theorem encodeSorted_forall₂_iff (hrefl : ∀ a, R a a) (hkey : ∀ a a', R a a' → key a' = key a) (l : List α) :
    Stable (Forall₂ R) (encodeSorted key enc) l ↔ ∀ a ∈ l, Stable R enc a := by
  rw [← inOrder_forall₂_iff hrefl hkey]
  apply forall₂_congr
  intro m hm
  simp [encodeSorted, hm.length_eq, append_cancel_left_eq]

theorem encodeSorted_shuffle_iff (hrefl : ∀ a, R a a) (hkey : ∀ a a', R a a' → key a' = key a) (l : List α) :
    Stable (Shuffle R) (encodeSorted key enc) l ↔ (∀ a ∈ l, Stable R enc a) ∧ TiesAgree key enc l := by
  rw [← inOrder_shuffle_iff hrefl hkey]
  apply forall₂_congr
  intro l' hshuffle
  simp [encodeSorted, hshuffle.length_eq, append_cancel_left_eq]

theorem objects_stable_iff (key : α → κ) {P : α → Prop} (hrefl : ∀ a, R a a) (hkey : ∀ a a', R a a' → key a' = key a)
    (hobject : ∀ a, Stable R enc a ↔ P a) (l : List α) :
    Stable (Shuffle R) (encodeSorted key enc) l ↔ (∀ a ∈ l, P a) ∧ TiesAgree key enc l := by
  rw [encodeSorted_shuffle_iff hrefl hkey]
  simp [hobject]

omit [LinearOrder κ] in
theorem tiesAgree_of_key (h : ∀ a b, key a = key b → enc a = enc b) (l : List α) : TiesAgree key enc l :=
  pairwise_of_forall fun a b hkey => by rw [h a b hkey]

theorem encodeSorted_perm (h : ∀ a b, key a = key b → enc a = enc b) {l l' : List α} (hperm : l.Perm l') :
    encodeSorted key enc l' = encodeSorted key enc l := (encodeSorted_perm_iff l).2 (tiesAgree_of_key h l) l' hperm

end Sorted

theorem encodeList_perm_iff {α : Type} {enc : α → Bytes} (l : List α) :
    Stable Perm (encodeList enc) l ↔ l.Pairwise fun a b => enc a ++ enc b = enc b ++ enc a := by
  have hlist : encodeSorted (fun _ => ()) enc = encodeList enc := by
    funext l
    rw [encodeSorted, inOrder, sortByKey_const, encodeList]
  have hsorted := @encodeSorted_perm_iff α Unit _ (fun _ => ()) enc l
  simpa [hlist, TiesAgree] using hsorted

theorem stable_append_iff {α β : Type} {R : α → α → Prop} {S : β → β → Prop} {f : α → Bytes} {g : β → Bytes} {a : α} {b : β}
    (ha : R a a) (hb : S b b) :
    (∀ x y, R a x → S b y → f x ++ g y = f a ++ g b) ↔ Stable R f a ∧ Stable S g b := by
  apply Iff.intro
  · intro h
    refine ⟨fun x hx => ?_, fun y hy => ?_⟩
    · exact append_cancel_right (h x b hx hb)
    · exact append_cancel_left (h a y ha hy)
  · intro h x y hx hy
    rw [h.1 x hx, h.2 y hy]

theorem optionKey_inj {α : Type} {a b : Option α} (h : optionKey a = optionKey b) : a = b := by
  cases a with
  | none =>
    cases b with
    | none => rfl
    | some b => cases h
  | some a =>
    cases b with
    | none => cases h
    | some b => exact congrArg some (WithBot.coe_inj.1 h)

theorem encodeParentRef_of_key (a b : ParentRef) (h : parentRefKey a = parentRefKey b) :
    encodeParentRef a = encodeParentRef b := by
  simp only [parentRefKey, toLex_inj, Prod.mk.injEq] at h
  simp [encodeParentRef, optionKey_inj h.1, h.2.1, optionKey_inj h.2.2]

theorem encodeGrantSubject_of_key (a b : GrantSubject) (h : grantSubjectKey a = grantSubjectKey b) :
    encodeGrantSubject a = encodeGrantSubject b := by
  simp only [grantSubjectKey, toLex_inj, Prod.mk.injEq] at h
  simp [encodeGrantSubject, h.1, h.2.1, optionKey_inj h.2.2.1, optionKey_inj h.2.2.2]

theorem encodeRouteGroupKind_of_key (a b : RouteGroupKind) (h : routeGroupKindKey a = routeGroupKindKey b) :
    encodeRouteGroupKind a = encodeRouteGroupKind b := by
  simp only [routeGroupKindKey, toLex_inj, Prod.mk.injEq] at h
  simp [encodeRouteGroupKind, h.1, h.2]

theorem encodeWeightedBackend_of_key (a b : WeightedBackend) (h : backendKey a = backendKey b) :
    encodeWeightedBackend a = encodeWeightedBackend b := by
  simp only [backendKey, toLex_inj, Prod.mk.injEq] at h
  simp [encodeWeightedBackend, h.1, h.2]

theorem encodeHostname_of_key (a b : HostnameMatch) (h : hostnameKey a = hostnameKey b) :
    encodeHostname a = encodeHostname b := by
  cases a <;> cases b <;> simp_all [hostnameKey]

theorem encodeParentRefs_perm {refs refs' : List ParentRef} (h : refs.Perm refs') :
    encodeParentRefs refs' = encodeParentRefs refs := encodeSorted_perm encodeParentRef_of_key h

theorem encodeHostnames_perm {hosts hosts' : List HostnameMatch} (h : hosts.Perm hosts') :
    encodeHostnames hosts' = encodeHostnames hosts := encodeSorted_perm encodeHostname_of_key h

theorem encodeGateway_reordered_iff (g : GatewayState) :
    Stable GatewayState.Reordered encodeGateway g ↔ TiesAgree (·.name) encodeListener g.listeners := by
  rw [← encodeSorted_perm_iff]
  apply Iff.intro
  · intro h ls hperm
    exact append_cancel_left (h { g with listeners := ls } ⟨ls, hperm, rfl⟩)
  · intro h g' hreordered
    obtain ⟨ls, hperm, rfl⟩ := hreordered
    simp [encodeGateway, encodeListeners, h ls hperm]

theorem encodeListenerSet_reordered_iff (s : ListenerSetState) :
    Stable ListenerSetState.Reordered encodeListenerSet s ↔ TiesAgree (·.name) encodeListener s.listeners := by
  rw [← encodeSorted_perm_iff]
  apply Iff.intro
  · intro h ls hperm
    have hset := h { s with listeners := ls } ⟨ls, hperm, rfl⟩
    simpa [encodeListenerSet, encodeListeners, append_cancel_right_eq, append_cancel_left_eq] using hset
  · intro h s' hreordered
    obtain ⟨ls, hperm, rfl⟩ := hreordered
    simp [encodeListenerSet, encodeListeners, h ls hperm]

theorem encodeRoute_reordered (r r' : RouteState) (h : r.Reordered r') : encodeRoute r' = encodeRoute r := by
  obtain ⟨refs, hperm, rfl⟩ := h
  simp [encodeRoute, encodeParentRefs_perm hperm]

theorem encodeReferenceGrant_reordered (g g' : ReferenceGrantState) (h : g.Reordered g') :
    encodeReferenceGrant g' = encodeReferenceGrant g := by
  obtain ⟨source, target, hsource, htarget, rfl⟩ := h
  simp [encodeReferenceGrant, encodeGrantSubjects, encodeSorted_perm encodeGrantSubject_of_key hsource,
    encodeSorted_perm encodeGrantSubject_of_key htarget]

theorem encodeAllowedRoutes_reordered {a a' : AllowedRoutes} (h : a.Reordered a') :
    encodeAllowedRoutes a' = encodeAllowedRoutes a := by
  obtain ⟨kinds, hperm, rfl⟩ := h
  simp [encodeAllowedRoutes, encodeKinds, encodeSorted_perm encodeRouteGroupKind_of_key hperm]

theorem encodeAllowedRoutesMap_reordered {m m' : ListenerAllowedMap} (h : AllowedReordered m m') :
    encodeAllowedRoutesMap m' = encodeAllowedRoutesMap m := by
  simp only [encodeAllowedRoutesMap, encodeMap, encodeSorted, ← h.length_eq]
  congr 1
  apply inOrder_eq_of_written
  refine h.imp fun e e' he => ⟨by rw [he.1], ?_⟩
  simp [encodeAllowedEntry, he.1, encodeAllowedRoutes_reordered he.2]

theorem matchReordered_refl (m : RequestMatch) : MatchReordered m m := ⟨m.headers, m.queryParams, .refl _, .refl _, rfl⟩

theorem routeMatchKey_reordered (m m' : RequestMatch) (h : MatchReordered m m') : routeMatchKey m' = routeMatchKey m := by
  obtain ⟨hs, qs, hperm, qperm, rfl⟩ := h
  simp [routeMatchKey, hperm.length_eq, qperm.length_eq]

theorem encodeRouteMatch_reordered_iff (m : RequestMatch) : Stable MatchReordered encodeRouteMatch m
      ↔ TiesAgree (·.name) encodeHeaderMatch m.headers ∧ TiesAgree (·.name) encodeQueryParamMatch m.queryParams := by
  simp only [← encodeSorted_perm_iff, ← stable_append_iff (Perm.refl m.headers) (Perm.refl m.queryParams)]
  apply Iff.intro
  · intro h hs qs hperm qperm
    have hmatch := h { m with headers := hs, queryParams := qs } ⟨hs, qs, hperm, qperm, rfl⟩
    simpa [encodeRouteMatch, append_cancel_left_eq] using hmatch
  · intro h m' hreordered
    obtain ⟨hs, qs, hperm, qperm, rfl⟩ := hreordered
    simp [encodeRouteMatch, h hs qs hperm qperm]

theorem ruleReordered_refl (r : HTTPRouteRule) : r.Reordered r :=
  ⟨r.matches_, r.backends, .refl matchReordered_refl r.matches_, .refl _, rfl⟩

theorem ruleKey_reordered (r r' : HTTPRouteRule) (h : r.Reordered r') : ruleKey r' = ruleKey r := by
  obtain ⟨ms, bs, hms, hbs, rfl⟩ := h
  simp [ruleKey, hms.length_eq, hbs.length_eq]

theorem encodeHttpRouteRule_reordered_iff (r : HTTPRouteRule) : Stable HTTPRouteRule.Reordered encodeHttpRouteRule r
      ↔ (∀ m ∈ r.matches_, TiesAgree (·.name) encodeHeaderMatch m.headers
          ∧ TiesAgree (·.name) encodeQueryParamMatch m.queryParams)
        ∧ TiesAgree routeMatchKey encodeRouteMatch r.matches_ := by
  simp only [← encodeRouteMatch_reordered_iff]
  rw [← encodeSorted_shuffle_iff matchReordered_refl routeMatchKey_reordered]
  apply Iff.intro
  · intro h ms hms
    have hrule := h { r with matches_ := ms } ⟨ms, r.backends, hms, .refl _, rfl⟩
    simpa [encodeHttpRouteRule, append_cancel_right_eq] using hrule
  · intro h r' hreordered
    obtain ⟨ms, bs, hms, hbs, rfl⟩ := hreordered
    simp [encodeHttpRouteRule, h ms hms, encodeSorted_perm encodeWeightedBackend_of_key hbs]

theorem encodeHttpRoute_reordered_iff (r : HTTPRouteState) : Stable HTTPRouteState.Reordered encodeHttpRoute r
      ↔ ∀ rule ∈ r.rules, Stable HTTPRouteRule.Reordered encodeHttpRouteRule rule := by
  rw [← encodeSorted_forall₂_iff ruleReordered_refl ruleKey_reordered]
  apply Iff.intro
  · intro h rules hrules
    have hroute := h { r with rules } ⟨r.hostnames, r.parentRefs, rules, .refl _, .refl _, hrules, rfl⟩
    exact append_cancel_left hroute
  · intro h r' hreordered
    obtain ⟨hosts, refs, rules, hhosts, hrefs, hrules, rfl⟩ := hreordered
    simp [encodeHttpRoute, encodeHostnames_perm hhosts, encodeParentRefs_perm hrefs, h rules hrules]

/-- the backends of a route can be written in any order -/
def BackendsAlike (backends : List WeightedBackend) : Prop := backends.Pairwise fun a b =>
    encodeWeightedBackend a ++ encodeWeightedBackend b = encodeWeightedBackend b ++ encodeWeightedBackend a

theorem encodeL4Route_eq_iff {ns name : String} {generation : ℤ} {refs : List ParentRef} {hosts : Bytes}
    {bs bs' : List WeightedBackend} {programmed : Bool} :
    encodeL4Route ns name generation refs hosts bs' programmed = encodeL4Route ns name generation refs hosts bs programmed
      ↔ encodeList encodeWeightedBackend bs' = encodeList encodeWeightedBackend bs := by
  simp [encodeL4Route, append_cancel_right_eq, append_cancel_left_eq]

theorem encodeTcpRoute_reordered_iff (r : TCPRouteState) :
    Stable TCPRouteState.Reordered encodeTcpRoute r ↔ BackendsAlike r.backends := by
  rw [BackendsAlike, ← encodeList_perm_iff]
  apply Iff.intro
  · intro h bs hbs
    exact encodeL4Route_eq_iff.1 (h { r with backends := bs } ⟨r.parentRefs, bs, .refl _, hbs, rfl⟩)
  · intro h r' hreordered
    obtain ⟨refs, bs, hrefs, hbs, rfl⟩ := hreordered
    simp [encodeTcpRoute, encodeL4Route, encodeParentRefs_perm hrefs, h bs hbs]

theorem encodeUdpRoute_reordered_iff (r : UDPRouteState) :
    Stable UDPRouteState.Reordered encodeUdpRoute r ↔ BackendsAlike r.backends := by
  rw [BackendsAlike, ← encodeList_perm_iff]
  apply Iff.intro
  · intro h bs hbs
    exact encodeL4Route_eq_iff.1 (h { r with backends := bs } ⟨r.parentRefs, bs, .refl _, hbs, rfl⟩)
  · intro h r' hreordered
    obtain ⟨refs, bs, hrefs, hbs, rfl⟩ := hreordered
    simp [encodeUdpRoute, encodeL4Route, encodeParentRefs_perm hrefs, h bs hbs]

theorem encodeTlsRoute_reordered_iff (r : TLSRouteState) :
    Stable TLSRouteState.Reordered encodeTlsRoute r ↔ BackendsAlike r.backends := by
  rw [BackendsAlike, ← encodeList_perm_iff]
  apply Iff.intro
  · intro h bs hbs
    exact encodeL4Route_eq_iff.1 (h { r with backends := bs } ⟨r.hostnames, r.parentRefs, bs, .refl _, .refl _, hbs, rfl⟩)
  · intro h r' hreordered
    obtain ⟨hosts, refs, bs, hhosts, hrefs, hbs, rfl⟩ := hreordered
    simp [encodeTlsRoute, encodeL4Route, encodeHostnames_perm hhosts, encodeParentRefs_perm hrefs, h bs hbs]

/-! ## The view -/

/-- ties are written alike, and so are any two backends of an L4 route -/
structure ReconciledView.WrittenAlike (v : ReconciledView) : Prop where
  gateways : TiesAgree gatewayKey encodeGateway v.gateways
  gatewayListeners : ∀ g ∈ v.gateways, TiesAgree (·.name) encodeListener g.listeners
  listenerSets : TiesAgree listenerSetKey encodeListenerSet v.listenerSets
  setListeners : ∀ s ∈ v.listenerSets, TiesAgree (·.name) encodeListener s.listeners
  routes : TiesAgree routeKey encodeRoute v.routes
  httpRoutes : TiesAgree httpRouteKey encodeHttpRoute v.httpRoutes
  matches_ : ∀ r ∈ v.httpRoutes, ∀ rule ∈ r.rules, TiesAgree routeMatchKey encodeRouteMatch rule.matches_
  headers : ∀ r ∈ v.httpRoutes, ∀ rule ∈ r.rules, ∀ m ∈ rule.matches_, TiesAgree (·.name) encodeHeaderMatch m.headers
  queryParams : ∀ r ∈ v.httpRoutes, ∀ rule ∈ r.rules, ∀ m ∈ rule.matches_,
    TiesAgree (·.name) encodeQueryParamMatch m.queryParams
  tcpRoutes : TiesAgree tcpRouteKey encodeTcpRoute v.tcpRoutes
  tcpBackends : ∀ r ∈ v.tcpRoutes, BackendsAlike r.backends
  udpRoutes : TiesAgree udpRouteKey encodeUdpRoute v.udpRoutes
  udpBackends : ∀ r ∈ v.udpRoutes, BackendsAlike r.backends
  tlsRoutes : TiesAgree tlsRouteKey encodeTlsRoute v.tlsRoutes
  tlsBackends : ∀ r ∈ v.tlsRoutes, BackendsAlike r.backends
  referenceGrants : TiesAgree referenceGrantKey encodeReferenceGrant v.referenceGrants

/-- each collection is written the same in every order of it and of what it holds -/
structure ReconciledView.PartsStable (v : ReconciledView) : Prop where
  gateways : Stable (Shuffle GatewayState.Reordered) (encodeSorted gatewayKey encodeGateway) v.gateways
  listenerSets : Stable (Shuffle ListenerSetState.Reordered) (encodeSorted listenerSetKey encodeListenerSet) v.listenerSets
  routes : Stable (Shuffle RouteState.Reordered) (encodeSorted routeKey encodeRoute) v.routes
  httpRoutes : Stable (Shuffle HTTPRouteState.Reordered) (encodeSorted httpRouteKey encodeHttpRoute) v.httpRoutes
  tcpRoutes : Stable (Shuffle TCPRouteState.Reordered) (encodeSorted tcpRouteKey encodeTcpRoute) v.tcpRoutes
  udpRoutes : Stable (Shuffle UDPRouteState.Reordered) (encodeSorted udpRouteKey encodeUdpRoute) v.udpRoutes
  tlsRoutes : Stable (Shuffle TLSRouteState.Reordered) (encodeSorted tlsRouteKey encodeTlsRoute) v.tlsRoutes
  referenceGrants : Stable (Shuffle ReferenceGrantState.Reordered) (encodeSorted referenceGrantKey encodeReferenceGrant)
    v.referenceGrants

theorem GatewayState.Reordered.refl (g : GatewayState) : g.Reordered g := ⟨_, .refl _, rfl⟩

theorem ListenerSetState.Reordered.refl (l : ListenerSetState) : l.Reordered l := ⟨_, .refl _, rfl⟩

theorem RouteState.Reordered.refl (r : RouteState) : r.Reordered r := ⟨_, .refl _, rfl⟩

theorem HTTPRouteState.Reordered.refl (h : HTTPRouteState) : h.Reordered h :=
  ⟨_, _, _, .refl _, .refl _, forall₂_same.2 fun rule _ => ruleReordered_refl rule, rfl⟩

theorem GRPCRouteRule.Reordered.refl (r : GRPCRouteRule) : r.Reordered r :=
  ⟨_, _, .refl (fun _ => ⟨_, .refl _, rfl⟩) _, .refl _, rfl⟩

theorem GRPCRouteState.Reordered.refl (r : GRPCRouteState) : r.Reordered r :=
  ⟨_, _, _, .refl _, .refl _, forall₂_same.2 fun rule _ => .refl rule, rfl⟩

theorem TCPRouteState.Reordered.refl (t : TCPRouteState) : t.Reordered t := ⟨_, _, .refl _, .refl _, rfl⟩

theorem UDPRouteState.Reordered.refl (u : UDPRouteState) : u.Reordered u := ⟨_, _, .refl _, .refl _, rfl⟩

theorem TLSRouteState.Reordered.refl (t : TLSRouteState) : t.Reordered t := ⟨_, _, _, .refl _, .refl _, .refl _, rfl⟩

theorem ReferenceGrantState.Reordered.refl (r : ReferenceGrantState) : r.Reordered r := ⟨_, _, .refl _, .refl _, rfl⟩

theorem AllowedRoutes.Reordered.refl (a : AllowedRoutes) : a.Reordered a := ⟨_, .refl _, rfl⟩

theorem allowedReordered_refl (m : ListenerAllowedMap) : AllowedReordered m m :=
  forall₂_same.2 fun e _ => ⟨rfl, .refl e.2⟩

variable (v : ReconciledView)

theorem ReconciledView.Reordered.refl : v.Reordered v where
  gateways := .refl .refl v.gateways
  listenerSets := .refl .refl v.listenerSets
  routes := .refl .refl v.routes
  httpRoutes := .refl .refl v.httpRoutes
  grpcRoutes := .refl .refl v.grpcRoutes
  tcpRoutes := .refl .refl v.tcpRoutes
  udpRoutes := .refl .refl v.udpRoutes
  tlsRoutes := .refl .refl v.tlsRoutes
  referenceGrants := .refl .refl v.referenceGrants
  namespaceLabels := rfl
  listenerAllowed := allowedReordered_refl v.listenerAllowed
  listenerSetAllowed := allowedReordered_refl v.listenerSetAllowed

theorem encodeView_reordered_iff : Stable ReconciledView.Reordered encodeView v ↔ v.PartsStable := by
  apply Iff.intro
  · intro h
    -- one collection is reordered and the others stay as they are
    have hrefl := ReconciledView.Reordered.refl v
    constructor <;> intro l hl
    case' gateways => have hview := h { v with gateways := l } { hrefl with gateways := hl }
    case' listenerSets => have hview := h { v with listenerSets := l } { hrefl with listenerSets := hl }
    case' routes => have hview := h { v with routes := l } { hrefl with routes := hl }
    case' httpRoutes => have hview := h { v with httpRoutes := l } { hrefl with httpRoutes := hl }
    case' tcpRoutes => have hview := h { v with tcpRoutes := l } { hrefl with tcpRoutes := hl }
    case' udpRoutes => have hview := h { v with udpRoutes := l } { hrefl with udpRoutes := hl }
    case' tlsRoutes => have hview := h { v with tlsRoutes := l } { hrefl with tlsRoutes := hl }
    case' referenceGrants => have hview := h { v with referenceGrants := l } { hrefl with referenceGrants := hl }
    all_goals simpa only [encodeView, append_cancel_right_eq, append_cancel_left_eq] using hview
  · intro h w hw
    simp [encodeView, h.gateways _ hw.gateways, h.listenerSets _ hw.listenerSets, h.routes _ hw.routes,
      h.httpRoutes _ hw.httpRoutes, h.tcpRoutes _ hw.tcpRoutes, h.udpRoutes _ hw.udpRoutes, h.tlsRoutes _ hw.tlsRoutes,
      h.referenceGrants _ hw.referenceGrants, hw.namespaceLabels, encodeAllowedRoutesMap_reordered hw.listenerAllowed,
      encodeAllowedRoutesMap_reordered hw.listenerSetAllowed]

theorem partsStable_iff : v.PartsStable ↔ v.WrittenAlike := by
  have gateways_iff := objects_stable_iff gatewayKey .refl (by rintro _ _ ⟨_, _, rfl⟩; rfl)
    encodeGateway_reordered_iff v.gateways
  have sets_iff := objects_stable_iff listenerSetKey .refl (by rintro _ _ ⟨_, _, rfl⟩; rfl)
    encodeListenerSet_reordered_iff v.listenerSets
  have routes_iff := objects_stable_iff routeKey .refl (by rintro _ _ ⟨_, _, rfl⟩; rfl)
    (fun r => iff_true_intro (encodeRoute_reordered r)) v.routes
  have http_iff := objects_stable_iff httpRouteKey .refl (by rintro _ _ ⟨_, _, _, _, _, _, rfl⟩; rfl)
    encodeHttpRoute_reordered_iff v.httpRoutes
  have tcp_iff := objects_stable_iff tcpRouteKey .refl (by rintro _ _ ⟨_, _, _, _, rfl⟩; rfl)
    encodeTcpRoute_reordered_iff v.tcpRoutes
  have udp_iff := objects_stable_iff udpRouteKey .refl (by rintro _ _ ⟨_, _, _, _, rfl⟩; rfl)
    encodeUdpRoute_reordered_iff v.udpRoutes
  have tls_iff := objects_stable_iff tlsRouteKey .refl (by rintro _ _ ⟨_, _, _, _, _, _, rfl⟩; rfl)
    encodeTlsRoute_reordered_iff v.tlsRoutes
  have grants_iff := objects_stable_iff referenceGrantKey .refl
    (by rintro _ _ ⟨_, _, _, _, rfl⟩; rfl) (fun g => iff_true_intro (encodeReferenceGrant_reordered g)) v.referenceGrants
  apply Iff.intro
  · intro h
    have hgateways := gateways_iff.1 h.gateways
    have hsets := sets_iff.1 h.listenerSets
    have hhttp := http_iff.1 h.httpRoutes
    have htcp := tcp_iff.1 h.tcpRoutes
    have hudp := udp_iff.1 h.udpRoutes
    have htls := tls_iff.1 h.tlsRoutes
    have hrule := fun r hr rule hrule => (encodeHttpRouteRule_reordered_iff rule).1 (hhttp.1 r hr rule hrule)
    exact {
      gateways := hgateways.2
      gatewayListeners := hgateways.1
      listenerSets := hsets.2
      setListeners := hsets.1
      routes := (routes_iff.1 h.routes).2
      httpRoutes := hhttp.2
      matches_ := fun r hr rule hr' => (hrule r hr rule hr').2
      headers := fun r hr rule hr' m hm => ((hrule r hr rule hr').1 m hm).1
      queryParams := fun r hr rule hr' m hm => ((hrule r hr rule hr').1 m hm).2
      tcpRoutes := htcp.2
      tcpBackends := htcp.1
      udpRoutes := hudp.2
      udpBackends := hudp.1
      tlsRoutes := htls.2
      tlsBackends := htls.1
      referenceGrants := (grants_iff.1 h.referenceGrants).2 }
  · intro h
    have hrule := fun r hr rule hr' => (encodeHttpRouteRule_reordered_iff rule).2
      ⟨fun m hm => ⟨h.headers r hr rule hr' m hm, h.queryParams r hr rule hr' m hm⟩, h.matches_ r hr rule hr'⟩
    exact {
      gateways := gateways_iff.2 ⟨h.gatewayListeners, h.gateways⟩
      listenerSets := sets_iff.2 ⟨h.setListeners, h.listenerSets⟩
      routes := routes_iff.2 ⟨fun _ _ => trivial, h.routes⟩
      httpRoutes := http_iff.2 ⟨hrule, h.httpRoutes⟩
      tcpRoutes := tcp_iff.2 ⟨h.tcpBackends, h.tcpRoutes⟩
      udpRoutes := udp_iff.2 ⟨h.udpBackends, h.udpRoutes⟩
      tlsRoutes := tls_iff.2 ⟨h.tlsBackends, h.tlsRoutes⟩
      referenceGrants := grants_iff.2 ⟨fun _ _ => trivial, h.referenceGrants⟩ }

end SunbeamProxy.Gateway
