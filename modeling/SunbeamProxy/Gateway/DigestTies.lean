/-
Which ties of the digest's sorts are written alike, in terms of the view itself.

In a cluster the objects of one kind have distinct names, so that only parts of an object can tie.
-/
import SunbeamProxy.Gateway.DigestFormat
import SunbeamProxy.Gateway.DigestOrder

namespace SunbeamProxy.Gateway

open Codec List

structure ReconciledView.NamedApart (v : ReconciledView) : Prop where
  gateways : (v.gateways.map gatewayKey).Nodup
  listenerSets : (v.listenerSets.map listenerSetKey).Nodup
  routes : (v.routes.map routeKey).Nodup
  httpRoutes : (v.httpRoutes.map httpRouteKey).Nodup
  tcpRoutes : (v.tcpRoutes.map tcpRouteKey).Nodup
  udpRoutes : (v.udpRoutes.map udpRouteKey).Nodup
  tlsRoutes : (v.tlsRoutes.map tlsRouteKey).Nodup
  referenceGrants : (v.referenceGrants.map referenceGrantKey).Nodup

def ListenersFit (ls : List ListenerState) : Prop := ∀ l ∈ ls, Short l.name ∧ Short l.protocol

def BackendsFit (bs : List WeightedBackend) : Prop := ∀ b ∈ bs, Short b.backend ∧ b.weight < 2 ^ 32

structure MatchFits (m : RequestMatch) : Prop where
  headers : ∀ h ∈ m.headers, HeaderMatch.Fits h
  queryParams : ∀ q ∈ m.queryParams, QueryParamMatch.Fits q

/-- the texts that can tell ties apart fit their length fields -/
structure ReconciledView.TextsFit (v : ReconciledView) : Prop where
  gatewayListeners : ∀ g ∈ v.gateways, ListenersFit g.listeners
  setListeners : ∀ s ∈ v.listenerSets, ListenersFit s.listeners
  matches_ : ∀ r ∈ v.httpRoutes, ∀ rule ∈ r.rules, ∀ m ∈ rule.matches_, MatchFits m
  tcpBackends : ∀ r ∈ v.tcpRoutes, BackendsFit r.backends
  udpBackends : ∀ r ∈ v.udpRoutes, BackendsFit r.backends
  tlsBackends : ∀ r ∈ v.tlsRoutes, BackendsFit r.backends

def ListenersAlike (ls : List ListenerState) : Prop :=
  ls.Pairwise fun a b => a.name = b.name → a.protocol = b.protocol ∧ a.port = b.port

def HeadersAlike (hs : List HeaderMatch) : Prop := hs.Pairwise fun a b => a.name = b.name → a = b

def QueryParamsAlike (qs : List QueryParamMatch) : Prop := qs.Pairwise fun a b => a.name = b.name → a = b

def MatchesAlike (ms : List RequestMatch) : Prop :=
  ms.Pairwise fun a b => routeMatchKey a = routeMatchKey b → a.headers.Perm b.headers ∧ a.queryParams.Perm b.queryParams

def BackendsSame (bs : List WeightedBackend) : Prop := bs.Pairwise fun a b => a.backend = b.backend ∧ a.weight = b.weight

structure ReconciledView.TiesAlike (v : ReconciledView) : Prop where
  gatewayListeners : ∀ g ∈ v.gateways, ListenersAlike g.listeners
  setListeners : ∀ s ∈ v.listenerSets, ListenersAlike s.listeners
  matches_ : ∀ r ∈ v.httpRoutes, ∀ rule ∈ r.rules, MatchesAlike rule.matches_
  headers : ∀ r ∈ v.httpRoutes, ∀ rule ∈ r.rules, ∀ m ∈ rule.matches_, HeadersAlike m.headers
  queryParams : ∀ r ∈ v.httpRoutes, ∀ rule ∈ r.rules, ∀ m ∈ rule.matches_, QueryParamsAlike m.queryParams
  tcpBackends : ∀ r ∈ v.tcpRoutes, BackendsSame r.backends
  udpBackends : ∀ r ∈ v.udpRoutes, BackendsSame r.backends
  tlsBackends : ∀ r ∈ v.tlsRoutes, BackendsSame r.backends

theorem tiesAgree_of_nodup {α κ : Type} {key : α → κ} {enc : α → Bytes} {l : List α} (h : (l.map key).Nodup) :
    TiesAgree key enc l := (pairwise_map.1 h).imp fun hne heq => absurd heq hne

theorem tiesAgree_iff_of_reads {α κ : Type} {key : α → κ} {enc : α → Bytes} {fits : α → Prop} {l : List α}
    (henc : ReadsBack enc (fun a b => fits a ∧ fits b) (· = ·)) (hfit : ∀ a ∈ l, fits a) :
    TiesAgree key enc l ↔ l.Pairwise fun a b => key a = key b → a = b := by
  apply List.Pairwise.iff_of_mem
  intro a b ha hb
  apply imp_congr_right
  intro _
  apply Iff.intro
  · intro h
    exact (henc ⟨hfit a ha, hfit b hb⟩ h).1
  · intro h
    rw [h]

theorem headers_tiesAgree_iff {hs : List HeaderMatch} (hfit : ∀ h ∈ hs, HeaderMatch.Fits h) :
    TiesAgree (·.name) encodeHeaderMatch hs ↔ HeadersAlike hs := tiesAgree_iff_of_reads readsBack_headerMatch hfit

theorem queryParams_tiesAgree_iff {qs : List QueryParamMatch} (hfit : ∀ q ∈ qs, QueryParamMatch.Fits q) :
    TiesAgree (·.name) encodeQueryParamMatch qs ↔ QueryParamsAlike qs := tiesAgree_iff_of_reads readsBack_queryParamMatch hfit

theorem listeners_tiesAgree_iff {ls : List ListenerState} (hfit : ListenersFit ls) :
    TiesAgree (·.name) encodeListener ls ↔ ListenersAlike ls := by
  apply List.Pairwise.iff_of_mem
  intro a b ha hb
  apply imp_congr_right
  intro hname
  apply Iff.intro
  · intro h
    have hread := (listenerFormat.readsBack ⟨⟨⟨hfit a ha, trivial⟩, hfit b hb, trivial⟩, ⟨trivial, trivial⟩, trivial⟩ h).1
    exact ⟨hread.1.2, hread.2⟩
  · intro h
    have hname := hname
    simp [encodeListener, hname, h.1, h.2]

theorem backendsAlike_iff {bs : List WeightedBackend} (hfit : BackendsFit bs) : BackendsAlike bs ↔ BackendsSame bs := by
  apply List.Pairwise.iff_of_mem
  intro a b ha hb
  apply Iff.intro
  · intro h
    exact (backendFormat.readsBack ⟨⟨hfit a ha, hfit b hb⟩, trivial, trivial⟩ h).1
  · intro h
    simp [encodeWeightedBackend, h.1, h.2]

theorem pathKey_inj {a b : Option PathMatch} (h : pathKey a = pathKey b) : a = b := by
  cases a with
  | none =>
    cases b with
    | none => rfl
    | some q => cases q <;> simp [pathKey] at h
  | some p =>
    cases b with
    | none => cases p <;> simp [pathKey] at h
    | some q => cases p <;> cases q <;> simp_all [pathKey]

theorem sortByKey_eq_of_bytes {α κ : Type} [LinearOrder κ] {key : α → κ} {enc : α → Bytes} {U : α → α → Prop} {l m : List α}
    (henc : ReadsBack enc U (· = ·)) (hlen : l.length = m.length) (hu : ∀ a ∈ l, ∀ b ∈ m, U a b) {r s : Bytes}
    (h : encodeSorted key enc l ++ r = encodeSorted key enc m ++ s) : sortByKey key l = sortByKey key m ∧ r = s := by
  simp only [encodeSorted, hlen, append_assoc, append_cancel_left_eq] at h
  have hsorted : List.Forall₂ U (sortByKey key l) (sortByKey key m) := by
    refine forall₂_iff_get.2 ⟨by rw [(sortByKey_perm key l).length_eq, hlen, (sortByKey_perm key m).length_eq], ?_⟩
    intro i hl hm
    exact hu _ ((sortByKey_perm key l).subset (get_mem _ _)) _ ((sortByKey_perm key m).subset (get_mem _ _))
  obtain ⟨heq, hrest⟩ := readsBack_flatMap henc hsorted h
  exact ⟨forall₂_eq_eq_eq ▸ heq, hrest⟩

theorem perm_of_sortByKey {α κ : Type} [LinearOrder κ] {key : α → κ} {l m : List α} (h : sortByKey key l = sortByKey key m) :
    l.Perm m := (sortByKey_perm key l).symm.trans (h ▸ sortByKey_perm key m)

theorem matches_tiesAgree_iff {ms : List RequestMatch} (hfit : ∀ m ∈ ms, MatchFits m)
    (hheaders : ∀ m ∈ ms, HeadersAlike m.headers) (hquery : ∀ m ∈ ms, QueryParamsAlike m.queryParams) :
    TiesAgree routeMatchKey encodeRouteMatch ms ↔ MatchesAlike ms := by
  apply List.Pairwise.iff_of_mem
  intro a b ha hb
  apply imp_congr_right
  intro hkey
  simp only [routeMatchKey, toLex_inj, Prod.mk.injEq] at hkey
  obtain ⟨hpath, hmethod, hhlen, hqlen⟩ := hkey
  apply Iff.intro
  · intro h
    simp only [encodeRouteMatch, pathKey_inj hpath, optionKey_inj hmethod, append_assoc, append_cancel_left_eq] at h
    obtain ⟨hhs, h⟩ := sortByKey_eq_of_bytes readsBack_headerMatch hhlen
      (fun x hx y hy => ⟨(hfit a ha).headers x hx, (hfit b hb).headers y hy⟩) h
    obtain ⟨hqs, -⟩ := sortByKey_eq_of_bytes readsBack_queryParamMatch hqlen
      (fun x hx y hy => ⟨(hfit a ha).queryParams x hx, (hfit b hb).queryParams y hy⟩) h
    exact ⟨perm_of_sortByKey hhs, perm_of_sortByKey hqs⟩
  · intro h
    have hhs := (encodeSorted_perm_iff a.headers).2 ((headers_tiesAgree_iff (hfit a ha).headers).2 (hheaders a ha)) _ h.1
    have hqs := (encodeSorted_perm_iff a.queryParams).2
      ((queryParams_tiesAgree_iff (hfit a ha).queryParams).2 (hquery a ha)) _ h.2
    simp [encodeRouteMatch, pathKey_inj hpath, optionKey_inj hmethod, hhs, hqs]

theorem writtenAlike_iff {v : ReconciledView} (hnames : v.NamedApart) (hfit : v.TextsFit) : v.WrittenAlike ↔ v.TiesAlike := by
  have gatewayListeners_iff := forall₂_congr fun g hg => listeners_tiesAgree_iff (hfit.gatewayListeners g hg)
  have setListeners_iff := forall₂_congr fun s hs => listeners_tiesAgree_iff (hfit.setListeners s hs)
  have headers_iff := fun r hr rule hrule m hm => headers_tiesAgree_iff (hfit.matches_ r hr rule hrule m hm).headers
  have query_iff := fun r hr rule hrule m hm => queryParams_tiesAgree_iff (hfit.matches_ r hr rule hrule m hm).queryParams
  have tcp_iff := forall₂_congr fun r hr => backendsAlike_iff (hfit.tcpBackends r hr)
  have udp_iff := forall₂_congr fun r hr => backendsAlike_iff (hfit.udpBackends r hr)
  have tls_iff := forall₂_congr fun r hr => backendsAlike_iff (hfit.tlsBackends r hr)
  have matches_iff := fun r hr rule hrule => matches_tiesAgree_iff (hfit.matches_ r hr rule hrule)
  apply Iff.intro
  · intro h
    have hheaders := fun r hr rule hrule m hm => (headers_iff r hr rule hrule m hm).1 (h.headers r hr rule hrule m hm)
    have hquery := fun r hr rule hrule m hm => (query_iff r hr rule hrule m hm).1 (h.queryParams r hr rule hrule m hm)
    exact {
      gatewayListeners := gatewayListeners_iff.1 h.gatewayListeners
      setListeners := setListeners_iff.1 h.setListeners
      matches_ := fun r hr rule hrule => (matches_iff r hr rule hrule (hheaders r hr rule hrule) (hquery r hr rule hrule)).1
        (h.matches_ r hr rule hrule)
      headers := hheaders
      queryParams := hquery
      tcpBackends := tcp_iff.1 h.tcpBackends
      udpBackends := udp_iff.1 h.udpBackends
      tlsBackends := tls_iff.1 h.tlsBackends }
  · intro h
    exact {
      gateways := tiesAgree_of_nodup hnames.gateways
      gatewayListeners := gatewayListeners_iff.2 h.gatewayListeners
      listenerSets := tiesAgree_of_nodup hnames.listenerSets
      setListeners := setListeners_iff.2 h.setListeners
      routes := tiesAgree_of_nodup hnames.routes
      httpRoutes := tiesAgree_of_nodup hnames.httpRoutes
      matches_ := fun r hr rule hrule => (matches_iff r hr rule hrule (h.headers r hr rule hrule)
        (h.queryParams r hr rule hrule)).2 (h.matches_ r hr rule hrule)
      headers := fun r hr rule hrule m hm => (headers_iff r hr rule hrule m hm).2 (h.headers r hr rule hrule m hm)
      queryParams := fun r hr rule hrule m hm => (query_iff r hr rule hrule m hm).2 (h.queryParams r hr rule hrule m hm)
      tcpRoutes := tiesAgree_of_nodup hnames.tcpRoutes
      tcpBackends := tcp_iff.2 h.tcpBackends
      udpRoutes := tiesAgree_of_nodup hnames.udpRoutes
      udpBackends := udp_iff.2 h.udpBackends
      tlsRoutes := tiesAgree_of_nodup hnames.tlsRoutes
      tlsBackends := tls_iff.2 h.tlsBackends
      referenceGrants := tiesAgree_of_nodup hnames.referenceGrants }

/-- **When the digest ignores order.** In general, when ties are written alike; in a view whose objects have distinct names, when
listeners and matches that tie are written the same, and all backends of an L4 route are one with one weight. -/
theorem digest_ignores_order_iff (v : ReconciledView) : ((∀ w, v.Reordered w → encodeView w = encodeView v) ↔ v.WrittenAlike)
    ∧ (v.NamedApart → v.TextsFit → ((∀ w, v.Reordered w → encodeView w = encodeView v) ↔ v.TiesAlike)) := by
  have hwritten := (encodeView_reordered_iff v).trans (partsStable_iff v)
  exact ⟨hwritten, fun hnames hfit => hwritten.trans (writtenAlike_iff hnames hfit)⟩

def tcpView (backends : List WeightedBackend) : ReconciledView :=
  { tcpRoutes := [{ namespace_ := "default", name := "db", backends }] }

def twoBackends : List WeightedBackend := [{ backend := "10.0.0.1:5432" }, { backend := "10.0.0.2:5432" }]

theorem l4_backends_keep_order : (tcpView twoBackends).Reordered (tcpView twoBackends.reverse)
      ∧ encodeView (tcpView twoBackends.reverse) ≠ encodeView (tcpView twoBackends) := by
  apply And.intro
  · have hroute : TCPRouteState.Reordered { namespace_ := "default", name := "db", backends := twoBackends }
        { namespace_ := "default", name := "db", backends := twoBackends.reverse } :=
      ⟨[], twoBackends.reverse, .refl _, (reverse_perm _).symm, rfl⟩
    exact { ReconciledView.Reordered.refl (tcpView twoBackends) with tcpRoutes := ⟨_, .cons hroute .nil, .refl _⟩ }
  · decide

end SunbeamProxy.Gateway
