/-
The traffic split of a rule after its Services are replaced by their endpoints (`expand_rule_backends` in
`gateway/reconcile/endpoints.rs`), as the weighted picker of the proxy sees it.
-/
import SunbeamProxy.Gateway.Endpoints
import SunbeamProxy.Gateway.HttpRoute
import SunbeamProxy.Proxy.Upstream

namespace SunbeamProxy.Gateway

open List

/-! ## Entries of a reference -/

def Cluster.readyEndpoints (cluster : Cluster) (ns name : String) : List EndpointInfo :=
  ((cluster.slices.flatMap sliceEndpoints).filter (·.1 = (ns, name))).map (·.2)

/-- how many entries a reference takes up: one for each ready address with a port where addresses take the place of the
Service, and one otherwise -/
def Cluster.entryCount (cluster : Cluster) (b : WeightedBackend) : ℕ :=
  match parseServiceTarget b.backend with
  | none => 1
  | some target =>
    match (buildServiceMap cluster.services).get (target.namespace_, target.name) with
    | none => 1
    | some info =>
      if needsEndpointResolution info then
        max 1 ((cluster.readyEndpoints target.namespace_ target.name).countP fun ep =>
          (resolveEndpointPort target.port info ep).isSome)
      else 1

section Entries

variable (cluster : Cluster)

theorem get_buildEndpointMap (slices : List EndpointSlice) (key : String × String) :
    ((buildEndpointMap slices).get key).getD [] = ((slices.flatMap sliceEndpoints).filter (·.1 = key)).map (·.2) := by
  have h := HashMap.get_foldl_extend (fun e : (String × String) × EndpointInfo => e.1) (fun e => [e.2])
    (slices.flatMap sliceEndpoints) ∅ key
  rw [HashMap.get_empty, Option.getD_none, ← map_eq_flatMap] at h
  exact h

theorem length_endpointBackends (info : ServiceInfo) (target : ServiceTarget) (b : WeightedBackend) :
    (cluster.maps.endpointBackends info target b).length = if needsEndpointResolution info then
        (cluster.readyEndpoints target.namespace_ target.name).countP fun ep => (resolveEndpointPort target.port info ep).isSome
      else 0 := by
  rw [ExpansionMaps.endpointBackends]
  split_ifs with hneeds
  · rw [length_filterMap_eq_countP, Cluster.readyEndpoints, ← get_buildEndpointMap]
    simp only [Option.isSome_map]
    rfl
  · rfl

variable (b : WeightedBackend)

theorem length_expandBackend : (cluster.maps.expandBackend b).length = cluster.entryCount b := by
  rw [ExpansionMaps.expandBackend, Cluster.entryCount]
  cases parseServiceTarget b.backend with
  | none => rfl
  | some target =>
    have hservices : cluster.maps.services = buildServiceMap cluster.services := rfl
    simp only [hservices]
    cases (buildServiceMap cluster.services).get (target.namespace_, target.name) with
    | none => rfl
    | some info =>
      have hlen := length_endpointBackends cluster info target b
      have hcount : (if needsEndpointResolution info then
          max 1 ((cluster.readyEndpoints target.namespace_ target.name).countP fun ep =>
            (resolveEndpointPort target.port info ep).isSome)
        else 1) = max 1 (cluster.maps.endpointBackends info target b).length := by
        rw [hlen]
        split_ifs <;> rfl
      simp only [hcount]
      by_cases hend : cluster.maps.endpointBackends info target b = []
      · rw [hend]
        rfl
      · rw [if_pos hend]
        have hpos := length_pos_iff.2 hend
        omega

theorem weight_of_mem_expandBackend {b e : WeightedBackend} (h : e ∈ cluster.maps.expandBackend b) : e.weight = b.weight := by
  rw [ExpansionMaps.expandBackend] at h
  split at h
  · rw [mem_singleton.1 h]
  · split at h
    · rw [mem_singleton.1 h]
    · simp only at h
      split_ifs at h
      · rw [ExpansionMaps.endpointBackends] at h
        split_ifs at h
        · obtain ⟨ep, _, h⟩ := mem_filterMap.1 h
          obtain ⟨port, _, rfl⟩ := Option.map_eq_some_iff.1 h
          rfl
        · cases h
      · rw [mem_singleton.1 h]

theorem one_le_entryCount : 1 ≤ cluster.entryCount b := by
  unfold Cluster.entryCount
  split
  · exact le_rfl
  · split
    · exact le_rfl
    · split_ifs
      · exact le_max_left 1 _
      · exact le_rfl

variable {cluster} in
theorem sum_expandBackend :
    ((cluster.maps.expandBackend b).map (·.weight)).sum = cluster.entryCount b * b.weight := by
  have hweights : (cluster.maps.expandBackend b).map (·.weight) = replicate (cluster.entryCount b) b.weight := by
    rw [← length_expandBackend]
    exact map_eq_replicate_iff.2 fun e he => weight_of_mem_expandBackend cluster he
  rw [hweights, sum_replicate, smul_eq_mul]

end Entries

section Shares

variable (cluster : Cluster) (backends : List WeightedBackend)

def Cluster.taggedEntries : List (ℕ × WeightedBackend) :=
  backends.zipIdx.flatMap fun r => (cluster.maps.expandBackend r.1).map fun entry => (r.2, entry)

theorem taggedEntries_snd : (cluster.taggedEntries backends).map (·.2) = cluster.maps.expandRuleBackends backends := by
  rw [Cluster.taggedEntries, map_flatMap, ExpansionMaps.expandRuleBackends]
  simp only [map_map, Function.comp_def, map_id']
  conv_rhs => rw [← zipIdx_map_fst 0 backends, flatMap_map]

def Cluster.irBackends : List SunbeamProxy.WeightedBackend :=
  (cluster.maps.expandRuleBackends backends).map irWeightedBackend

def Cluster.refWeight (i : ℕ) : ℕ := (((cluster.taggedEntries backends).filter (·.1 = i)).map (·.2.weight)).sum

def Cluster.pickedRef (counter : ℕ) : Option ℕ :=
  (pickWeightedBackendIrIndex (cluster.irBackends backends) counter).1.bind fun k =>
    ((cluster.taggedEntries backends)[k]?).map (·.1)

def Cluster.periodPicks (c i : ℕ) : ℕ :=
  ((List.range' c (totalWeight (cluster.irBackends backends))).map (cluster.pickedRef backends)).count (some i)

/-- each reference has its share of the weights, and of every period of the round robin -/
def Cluster.KeepsSplit : Prop := ∀ (i : ℕ) (b : WeightedBackend), backends[i]? = some b →
    (cluster.refWeight backends i : ℚ) / totalWeight (cluster.irBackends backends)
        = (b.weight : ℚ) / (backends.map (·.weight)).sum
      ∧ ∀ c, (cluster.periodPicks backends c i : ℚ) / totalWeight (cluster.irBackends backends)
        = (b.weight : ℚ) / (backends.map (·.weight)).sum

variable {cluster backends}

theorem weights_irBackends :
    weights (cluster.irBackends backends) = ((cluster.taggedEntries backends).map fun e => (e.1, e.2.weight)).map (·.2) := by
  simp only [weights, Cluster.irBackends, map_map, ← taggedEntries_snd]
  rfl

theorem periodPicks_eq (c i : ℕ) : cluster.periodPicks backends c i = cluster.refWeight backends i := by
  have hlabels := Weighted.count_pick_label_window ((cluster.taggedEntries backends).map fun e => (e.1, e.2.weight)) c i
  rw [← weights_irBackends, ← totalWeight] at hlabels
  rw [Cluster.periodPicks, Cluster.refWeight]
  rcases Nat.eq_zero_or_pos (totalWeight (cluster.irBackends backends)) with hzero | hpos
  · rw [hzero] at hlabels ⊢
    simpa [filter_map, Function.comp_def] using hlabels
  · have hpicked : cluster.pickedRef backends = fun n =>
        (Weighted.pick (weights (cluster.irBackends backends)) (n % totalWeight (cluster.irBackends backends))).bind
          fun k => (((cluster.taggedEntries backends).map fun e => (e.1, e.2.weight))[k]?).map (·.1) := by
      funext n
      rw [Cluster.pickedRef, pickWeightedBackendIrIndex_draws hpos]
      simp [Function.comp_def]
    rw [hpicked, hlabels]
    simp [filter_map, Function.comp_def]

theorem filter_zipIdx {α : Type} (l : List α) (k i : ℕ) :
    (l.zipIdx k).filter (·.2 = k + i) = ((l[i]?).map fun a => (a, k + i)).toList := by
  induction l generalizing k i with
  | nil => simp
  | cons a l ih =>
    rw [zipIdx_cons, filter_cons]
    cases i with
    | zero =>
      have hrest : (l.zipIdx (k + 1)).filter (·.2 = k + 0) = [] := by
        rw [filter_eq_nil_iff]
        intro e he
        have hle := le_snd_of_mem_zipIdx he
        simp only [decide_eq_true_eq]
        omega
      rw [hrest]
      simp
    | succ i =>
      have hrest := ih (k + 1) i
      rw [show k + 1 + i = k + (i + 1) by omega] at hrest
      rw [hrest]
      simp

theorem flatMap_filter {α β : Type} (p : α → Bool) (f : α → List β) (l : List α) :
    (l.filter p).flatMap f = l.flatMap fun a => if p a then f a else [] := by
  induction l with
  | nil => rfl
  | cons a l ih =>
    rw [filter_cons, flatMap_cons, ← ih]
    split_ifs <;> rfl

theorem refWeight_eq {i : ℕ} {b : WeightedBackend} (hb : backends[i]? = some b) :
    cluster.refWeight backends i = cluster.entryCount b * b.weight := by
  have hentries : (cluster.taggedEntries backends).filter (·.1 = i)
      = (cluster.maps.expandBackend b).map fun entry => (i, entry) := by
    have honly : backends.zipIdx.filter (·.2 = i) = [(b, i)] := by
      have := filter_zipIdx backends 0 i
      rwa [hb, Nat.zero_add] at this
    have hblock : ∀ r : WeightedBackend × ℕ, ((cluster.maps.expandBackend r.1).map fun entry => (r.2, entry)).filter (·.1 = i)
          = if r.2 = i then (cluster.maps.expandBackend r.1).map fun entry => (r.2, entry) else [] := by
      intro r
      rw [filter_map]
      split_ifs with hr <;> simp [Function.comp_def, hr]
    calc (cluster.taggedEntries backends).filter (·.1 = i) = backends.zipIdx.flatMap fun r =>
            if r.2 = i then (cluster.maps.expandBackend r.1).map fun entry => (r.2, entry) else [] := by
          rw [Cluster.taggedEntries, filter_flatMap]
          simp [hblock]
      _ = (backends.zipIdx.filter (·.2 = i)).flatMap fun r =>
            (cluster.maps.expandBackend r.1).map fun entry => (r.2, entry) := by
          rw [flatMap_filter]
          simp
      _ = (cluster.maps.expandBackend b).map fun entry => (i, entry) := by rw [honly, flatMap_singleton]
  rw [Cluster.refWeight, hentries, map_map]
  exact sum_expandBackend b

theorem totalWeight_irBackends :
    totalWeight (cluster.irBackends backends) = (backends.map fun b => cluster.entryCount b * b.weight).sum := by
  induction backends with
  | nil => rfl
  | cons b rest ih =>
    have hsplit : totalWeight (cluster.irBackends (b :: rest))
        = ((cluster.maps.expandBackend b).map (·.weight)).sum + totalWeight (cluster.irBackends rest) := by
      simp only [totalWeight, weights, Cluster.irBackends, ExpansionMaps.expandRuleBackends, flatMap_cons, map_append,
        sum_append, map_map]
      rfl
    rw [hsplit, sum_expandBackend, ih, map_cons, sum_cons]

theorem sum_of_equal_counts {m : ℕ} (h : ∀ b ∈ backends, 0 < b.weight → cluster.entryCount b = m) :
    (backends.map fun b => cluster.entryCount b * b.weight).sum = m * (backends.map (·.weight)).sum := by
  rw [← sum_map_mul_left]
  refine congrArg List.sum (map_congr_left fun b hb => ?_)
  rcases Nat.eq_zero_or_pos b.weight with hzero | hpos
  · simp [hzero]
  · rw [h b hb hpos]

theorem keepsSplit_iff_shares : cluster.KeepsSplit backends ↔ ∀ b ∈ backends,
    ((cluster.entryCount b * b.weight : ℕ) : ℚ) / ((backends.map fun b => cluster.entryCount b * b.weight).sum : ℕ)
      = (b.weight : ℚ) / (backends.map (·.weight)).sum := by
  rw [← totalWeight_irBackends]
  apply Iff.intro
  · intro h b hb
    obtain ⟨i, hi⟩ := mem_iff_getElem?.1 hb
    rw [← refWeight_eq hi]
    exact (h i b hi).1
  · intro h i b hi
    have hshare := h b (mem_of_getElem? hi)
    rw [← refWeight_eq hi] at hshare
    refine ⟨hshare, fun c => ?_⟩
    rw [periodPicks_eq]
    exact hshare

theorem entries_of_share {b : WeightedBackend} (hb : b ∈ backends) (hpos : 0 < b.weight)
    (hshare : ((cluster.entryCount b * b.weight : ℕ) : ℚ) / ((backends.map fun b => cluster.entryCount b * b.weight).sum : ℕ)
      = (b.weight : ℚ) / (backends.map (·.weight)).sum) :
    cluster.entryCount b * (backends.map (·.weight)).sum = (backends.map fun b => cluster.entryCount b * b.weight).sum := by
  have hone := one_le_entryCount cluster b
  have hsum : b.weight ≤ (backends.map (·.weight)).sum := le_sum_of_mem (mem_map_of_mem hb)
  have hsum' : cluster.entryCount b * b.weight ≤ (backends.map fun b => cluster.entryCount b * b.weight).sum :=
    le_sum_of_mem (mem_map_of_mem hb)
  have hpos' := Nat.mul_pos hone hpos
  have hcross := (div_eq_div_iff (Nat.cast_ne_zero.2 (by omega)) (Nat.cast_ne_zero.2 (by omega))).1 hshare
  have hnat : b.weight * (cluster.entryCount b * (backends.map (·.weight)).sum)
      = b.weight * (backends.map fun b => cluster.entryCount b * b.weight).sum := by
    calc b.weight * (cluster.entryCount b * (backends.map (·.weight)).sum)
        = cluster.entryCount b * b.weight * (backends.map (·.weight)).sum := by ring
      _ = b.weight * (backends.map fun b => cluster.entryCount b * b.weight).sum := by exact_mod_cast hcross
  exact Nat.eq_of_mul_eq_mul_left hpos hnat

/-- **The traffic split.** Every reference keeps its share exactly when all references of positive weight have the same
number of entries. -/
theorem split_kept_iff (cluster : Cluster) (backends : List WeightedBackend) : cluster.KeepsSplit backends ↔
      ∀ b ∈ backends, ∀ c ∈ backends, 0 < b.weight → 0 < c.weight → cluster.entryCount b = cluster.entryCount c := by
  rw [keepsSplit_iff_shares]
  apply Iff.intro
  · intro h b hb c hc hbpos hcpos
    have hsum : b.weight ≤ (backends.map (·.weight)).sum := le_sum_of_mem (mem_map_of_mem hb)
    have hratio := (entries_of_share hb hbpos (h b hb)).trans (entries_of_share hc hcpos (h c hc)).symm
    exact Nat.eq_of_mul_eq_mul_right (by omega) hratio
  · intro h b hb
    rcases Nat.eq_zero_or_pos b.weight with hzero | hpos
    · rw [hzero]
      simp
    · have hone := one_le_entryCount cluster b
      have hsame := sum_of_equal_counts fun c hc hcpos => h c hc b hb hcpos hpos
      calc ((cluster.entryCount b * b.weight : ℕ) : ℚ) / ((backends.map fun b => cluster.entryCount b * b.weight).sum : ℕ)
          = (cluster.entryCount b * b.weight : ℚ) / (cluster.entryCount b * (backends.map (·.weight)).sum) := by
            simp only [hsame, Nat.cast_mul]
        _ = (b.weight : ℚ) / (backends.map (·.weight)).sum := mul_div_mul_left _ _ (Nat.cast_ne_zero.2 (by omega))

end Shares

def headlessService (name : String) : ServiceObject :=
  { namespace_ := some "shop", name := some name, clusterIp := some "None", ports := some [{ port := 80 }] }

def sliceOf (name : String) (addresses : List String) : EndpointSlice :=
  { namespace_ := some "shop", labels := HashMap.ofPairs [("kubernetes.io/service-name", name)]
    ports := some [{ port := some 8080 }], endpoints := addresses.map fun a => { addresses := [a] } }

def unevenCluster : Cluster :=
  { services := [headlessService "cart", headlessService "search"]
    slices := [sliceOf "cart" ["10.0.0.1", "10.0.0.2", "10.0.0.3"], sliceOf "search" ["10.0.1.1"]] }

def evenRefs : List WeightedBackend :=
  [{ backend := "cart.shop.svc.cluster.local.:80" }, { backend := "search.shop.svc.cluster.local.:80" }]

theorem split_follows_endpoints : unevenCluster.refWeight evenRefs 0 = 3 ∧ unevenCluster.refWeight evenRefs 1 = 1
      ∧ totalWeight (unevenCluster.irBackends evenRefs) = 4 ∧ unevenCluster.periodPicks evenRefs 0 0 = 3
      ∧ ¬ unevenCluster.KeepsSplit evenRefs := by
  -- one evaluation, so that the expansion of the references is computed once
  have hweights : unevenCluster.refWeight evenRefs 0 = 3 ∧ unevenCluster.refWeight evenRefs 1 = 1
      ∧ totalWeight (unevenCluster.irBackends evenRefs) = 4 := by decide +kernel
  obtain ⟨hcart, hsearch, htotal⟩ := hweights
  refine ⟨hcart, hsearch, htotal, by rw [periodPicks_eq, hcart], ?_⟩
  intro h
  have hshare := (h 0 { backend := "cart.shop.svc.cluster.local.:80" } rfl).1
  rw [hcart, htotal] at hshare
  norm_num [evenRefs] at hshare

end SunbeamProxy.Gateway
