/-
Whether equal bytes mean equal data planes.
-/
import SunbeamProxy.Gateway.DigestReading
import SunbeamProxy.Gateway.Translate

namespace SunbeamProxy.Gateway

open List

/-- the tables have the same listeners, L4 routes and hosts, in any order -/
structure SameDataPlane (a b : RouteTable) : Prop where
  listeners : ∀ l, l ∈ a.listeners ↔ l ∈ b.listeners
  l4Routes : ∀ r, r ∈ a.l4Routes ↔ r ∈ b.l4Routes
  hosts : ∀ h, h ∈ a.hosts ↔ h ∈ b.hosts

theorem SameDataPlane.refl (t : RouteTable) : SameDataPlane t t := ⟨fun _ => .rfl, fun _ => .rfl, fun _ => .rfl⟩

theorem SameDataPlane.placements {a b : RouteTable} (h : SameDataPlane a b) {p : Placement} (hp : p ∈ tablePlacements b) :
    p ∈ tablePlacements a := by
  obtain ⟨host, hhost, hp⟩ := mem_flatMap.1 hp
  exact mem_flatMap.2 ⟨host, (h.hosts host).2 hhost, hp⟩

def hostGrpcRoute (host gateway : String) : GRPCRouteState :=
  { namespace_ := "default", name := "grpc", hostnames := [.exact host], rules := [{}], parentRefs := [{ name := gateway }] }

def GatewayView.withGrpc (view : GatewayView) (route : GRPCRouteState) : GatewayView :=
  { view with grpcRoutes := view.grpcRoutes ++ [route] }

variable (v : ReconciledView)

def ReconciledView.withGrpc (route : GRPCRouteState) : ReconciledView :=
  { v with toGatewayView := v.toGatewayView.withGrpc route }

theorem encodeView_withGrpc (route : GRPCRouteState) : encodeView (v.withGrpc route) = encodeView v := rfl

theorem exposures_withGrpc (view : GatewayView) (route : GRPCRouteState) :
    exposures (view.withGrpc route) = exposures view ++ (grpcSpec view (route, view.grpcRoutes.length)).exposures := by
  have hspecs : routeSpecs (view.withGrpc route) = routeSpecs view ++ [grpcSpec view (route, view.grpcRoutes.length)] := by
    rw [routeSpecs, GatewayView.withGrpc, zipIdx_append, map_append, ← append_assoc]
    simp only [Nat.zero_add]
    rfl
  rw [exposures, hspecs, flatMap_append, flatMap_singleton]
  rfl

theorem computeEffectiveHostnames_hostGrpcRoute {view : GatewayView} {host gateway : String}
    (h : ∀ g ∈ view.gateways, g.name ≠ gateway) :
    computeEffectiveHostnames view (hostGrpcRoute host gateway) "GRPCRoute" = [fallbackEntry (.exact host)] := by
  have hfind : ∀ ns, (view.gateways.find? fun g => g.namespace_ == ns && g.name == gateway) = none := by
    intro ns
    apply find?_eq_none.2
    intro g hg
    simp [h g hg]
  have hkind : ¬ "Gateway" = "ListenerSet" := by decide
  have hparent : (parentListeners view "default" { name := gateway }).found = false := by
    rw [parentListeners, if_neg hkind, hfind]
  have hentries : parentEntries view (hostGrpcRoute host gateway) "GRPCRoute" { name := gateway }
      = [fallbackEntry (.exact host)] := by
    unfold parentEntries
    have hns : parentNamespace (hostGrpcRoute host gateway) { name := gateway } = "default" := rfl
    simp only [hns, hparent]
    rfl
  exact (flatMap_singleton _ _).trans hentries

theorem exact_of_hostnameToPrefix {h : HostnameMatch} {s : String} (hs : '*' ∉ s.toList) (heq : hostnameToPrefix h = s) :
    h = .exact s := by
  cases h with
  | exact t => rw [← heq, hostnameToPrefix]
  | wildcard t | any =>
    rw [← heq, hostnameToPrefix] at hs
    simp at hs

theorem hostGrpcRoute_served {view : GatewayView} {host gateway : String} (hhost : '*' ∉ host.toList)
    (h : ∀ g ∈ view.gateways, g.name ≠ gateway) :
    ∃ p ∈ tablePlacements (translateViewToIr (view.withGrpc (hostGrpcRoute host gateway))), p.hostname = .exact host := by
  let a : Attachment :=
    ⟨.grpc view.grpcRoutes.length, fallbackEntry (.exact host), 0, 0, {}, (GRPCRouteRule.spec none {}).action {}⟩
  have ha : a ∈ attachments (view.withGrpc (hostGrpcRoute host gateway)) := by
    rw [attachments, exposures_withGrpc, flatMap_append]
    apply mem_append_right
    rw [grpcSpec, computeEffectiveHostnames_hostGrpcRoute h]
    exact mem_singleton.2 rfl
  refine ⟨_, (tablePlacements_perm _).mem_iff.2 (mem_map.2 ⟨a, ha, rfl⟩), ?_⟩
  have hkey := groupKey_groupEntry (view.withGrpc (hostGrpcRoute host gateway)) a
  simp only [groupKey, toLex_inj, Prod.mk.injEq] at hkey
  rw [Attachment.under, exact_of_hostnameToPrefix hhost hkey.2.1]
  rfl

theorem exists_fresh (l : List String) : ∃ s, s ∉ l ∧ '*' ∉ s.toList := by
  have hinj : Function.Injective fun n => String.ofList (replicate n 'x') := by
    intro n m h
    simpa using congrArg (fun s => s.toList.length) h
  obtain ⟨s, ⟨n, rfl⟩, hs⟩ := (Set.infinite_range_of_injective hinj).exists_notMem_finset l.toFinset
  refine ⟨_, by simpa using hs, ?_⟩
  simp

def exactName : SunbeamProxy.HostnameMatch → Option String
  | .exact s => some s
  | _ => none

/-- **No view's bytes decide its data plane.** -/
theorem exists_same_bytes : ∃ w : ReconciledView, encodeView w = encodeView v
      ∧ ¬ SameDataPlane (translateViewToIr v.toGatewayView) (translateViewToIr w.toGatewayView) := by
  obtain ⟨gateway, hgateway, -⟩ := exists_fresh (v.gateways.map (·.name))
  rcases exists_fresh ((tablePlacements (translateViewToIr v.toGatewayView)).filterMap fun p => exactName p.hostname) with
    ⟨host, hhost, hstar⟩
  refine ⟨v.withGrpc (hostGrpcRoute host gateway), encodeView_withGrpc v _, ?_⟩
  intro hsame
  have hnames : ∀ g ∈ v.gateways, g.name ≠ gateway := by
    intro g hg heq
    exact hgateway (heq ▸ mem_map_of_mem hg)
  obtain ⟨p, hp, hname⟩ := hostGrpcRoute_served hstar hnames
  apply hhost
  exact mem_filterMap.2 ⟨p, hsame.placements hp, by rw [hname]; rfl⟩

/-- **What the digest decides.** Among views that are readable beside each other, the data plane; for a view beside all
others, nothing of the kind. -/
theorem digest_decides_plane (v : ReconciledView) : (∀ w : ReconciledView, v.Readable w → encodeView v = encodeView w →
      SameDataPlane (translateViewToIr v.toGatewayView) (translateViewToIr w.toGatewayView))
    ∧ ∃ w : ReconciledView, encodeView w = encodeView v
      ∧ ¬ SameDataPlane (translateViewToIr v.toGatewayView) (translateViewToIr w.toGatewayView) := by
  refine ⟨?_, exists_same_bytes v⟩
  intro w hread hbytes
  have heq := (readsBack_view hread (congrArg (· ++ []) hbytes)).1
  rw [heq]
  exact .refl _

def webGateway : ReconciledView :=
  { gateways := [{ namespace_ := "default", name := "web", listeners := [{ name := "http" }] }] }

def webGatewayGrpc : ReconciledView := webGateway.withGrpc (hostGrpcRoute "grpc.example.com" "web")

theorem grpc_route_not_written : encodeView webGateway = encodeView webGatewayGrpc
      ∧ ¬ SameDataPlane (translateViewToIr webGateway.toGatewayView) (translateViewToIr webGatewayGrpc.toGatewayView) := by
  refine ⟨rfl, ?_⟩
  intro h
  have hnone : (translateViewToIr webGateway.toGatewayView).hosts = [] := rfl
  have hsome : (translateViewToIr webGatewayGrpc.toGatewayView).hosts.length = 1 := by decide
  obtain ⟨host, hhost⟩ := length_eq_one_iff.1 hsome
  have hmem := (h.hosts host).2 (by rw [hhost]; exact mem_singleton.2 rfl)
  cases hmem

end SunbeamProxy.Gateway
