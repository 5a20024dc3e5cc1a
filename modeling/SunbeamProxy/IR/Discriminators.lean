/-
Discriminators against a linear scan of the same nodes.
-/
import SunbeamProxy.IR.Precedence

namespace SunbeamProxy

open Text PathTrieNode

mutual

def eraseDiscriminators : PathTrieNode → PathTrieNode
  | ⟨children, pp, ep, _⟩ => ⟨eraseChildDiscriminators children, pp, ep, none⟩

def eraseChildDiscriminators : List (String × PathTrieNode) → List (String × PathTrieNode)
  | [] => []
  | (k, c) :: rest => (k, eraseDiscriminators c) :: eraseChildDiscriminators rest

end

def HostNode.linear (n : HostNode) : HostNode := { n with pathTrie := eraseDiscriminators n.pathTrie }

theorem lookup_eraseChildDiscriminators (children : List (String × PathTrieNode)) (s : String) :
    (eraseChildDiscriminators children).lookup s = (children.lookup s).map eraseDiscriminators := by
  induction children with
  | nil => rfl
  | cons e rest ih =>
    rw [eraseChildDiscriminators, lookup_cons_ite, lookup_cons_ite, ih]
    split_ifs <;> rfl

theorem walk_eraseDiscriminators (k : List String) (t : PathTrieNode) :
    walk k (eraseDiscriminators t) = eraseDiscriminators (walk k t) := by
  refine walk_comm (by simp [PathTrieNode.empty, eraseDiscriminators, eraseChildDiscriminators]) ?_ k t
  intro t s
  obtain ⟨children, pp, ep, d⟩ := t
  rw [eraseDiscriminators, child, lookup_eraseChildDiscriminators, child]

theorem own_eraseDiscriminators (t : PathTrieNode) : own (eraseDiscriminators t) = eraseDiscriminators (own t) := by
  obtain ⟨children, pp, ep, d⟩ := t
  simp [own, eraseDiscriminators, eraseChildDiscriminators]

variable (ω : IterOrder)

theorem resolve_erased_rootNode (plans : List CompiledPlan) (r : RouteRequest) :
    resolveNodePlans (eraseDiscriminators (rootNode ω plans)) r = plans := by
  simp [rootNode, buildDiscriminators, eraseDiscriminators, resolveNodePlans]

def linearCandidates (re : RegexEngine) (plans : List CompiledPlan) (r : RouteRequest) : List CompiledPlan :=
  ((splitPath r.path).inits.flatMap fun k => plansUnder plans k) ++ regexMatches re plans r

theorem linear_lookup_eq (re : RegexEngine) (host : HostRoute) (r : RouteRequest) :
    (compileHost ω host).linear.lookup re r =
      (firstBest planBefore (planMatches re · r) ((hostPlans host).filter fun p => exactPath p = some r.path)).or
        (firstBest planBefore (planMatches re · r) (linearCandidates re (hostPlans host) r)) := by
  have hexact : (compileHost ω host).linear.exactPaths = exactPathPlans (hostPlans host) := rfl
  have hregex : (compileHost ω host).linear.regexPlans = sortPlans ((hostPlans host).filter isRegexPlan) := rfl
  have htrie : trieCandidates r (compileHost ω host).linear.pathTrie (splitPath r.path)
      = (splitPath r.path).inits.flatMap fun k => plansUnder (hostPlans host) k := by
    have hnode : ∀ k, resolveNodePlans (walk k (eraseDiscriminators (compileHost ω host).pathTrie)) r
        = plansUnder (hostPlans host) k := by
      intro k
      rw [walk_eraseDiscriminators, ← resolveNodePlans_own, own_eraseDiscriminators, own_walk_compileHost,
        resolve_erased_rootNode]
    rw [HostNode.linear, trieCandidates_eq]
    simp [hnode]
  unfold HostNode.lookup HostNode.regexCandidates
  simp only [hexact, bind_find?_eq, get_exactPathPlans, htrie, sortPlans, find?_stableSort_eq]
  rfl

theorem linear_lookup_fine (re : RegexEngine) (host : HostRoute) (r : RouteRequest) :
    (compileHost ω host).linear.lookup re r
      = firstBest (fineBefore (fun _ => none) r) (competes (fun _ => none) r re) (hostPlans host) := by
  rw [linear_lookup_eq]
  exact firstBest_lookup fun _ => none

/-! ## What a split changes -/

/-- at the node with these plans, an equally good plan that also matches is offered before `p` -/
def Overtaken (re : RegexEngine) (plans : List CompiledPlan) (r : RouteRequest) (p : CompiledPlan) : Prop :=
  ∃ a q, nodeAttribute ω plans = some a ∧ q ∈ plans ∧ planMatches re q r = true ∧ ¬ Hides ω plans r q
    ∧ q.precedence = p.precedence ∧ q.ruleOrder = p.ruleOrder ∧ (a.bucket q).place < (a.bucket p).place

section Split

variable {ω : IterOrder} {attr : List String → Option Attribute} {re : RegexEngine} {plans : List CompiledPlan}
  {r : RouteRequest} {p q x : CompiledPlan}

theorem isTriePlan_eq (p : CompiledPlan) : isTriePlan p = (!isExactPlan p && !isRegexPlan p) := by
  cases hpath : p.matches_.path with
  | none => simp [isTriePlan, isExactPlan, exactPath, isRegexPlan, hpath]
  | some pm => cases pm <;> simp [isTriePlan, isExactPlan, exactPath, isRegexPlan, hpath]

theorem isExactPlan_of_trie (h : isTriePlan p = true) : isExactPlan p = false ∧ isRegexPlan p = false := by
  simpa [isTriePlan_eq] using h

theorem meets_of_trie (h : isTriePlan p = true) : meets attr r p = 3 * (trieKey p).length + partOf attr p := by
  rw [meets, stopOf, (isExactPlan_of_trie h).1, (isExactPlan_of_trie h).2]
  rfl

theorem meets_of_not_trie (h : isTriePlan p = false) : meets attr r p = meets (fun _ => none) r p := by
  cases hexact : isExactPlan p with
  | true => simp [meets, stopOf, hexact]
  | false =>
    have hregex : isRegexPlan p = true := by simpa [isTriePlan_eq, hexact] using h
    simp [meets, stopOf, hregex]

theorem meets_split (attr : List String → Option Attribute) (r : RouteRequest) (p : CompiledPlan) :
    meets (fun _ => none) r p ≤ meets attr r p ∧ meets attr r p ≤ meets (fun _ => none) r p + 2
      ∧ 3 ∣ meets (fun _ => none) r p := by
  have hthree : 3 ∣ meets (fun _ => none) r p := by
    unfold meets stopOf partOf
    split_ifs <;> simp [Stop.place]
  cases h : isTriePlan p with
  | false => simp [meets_of_not_trie h, hthree]
  | true =>
    have hpart := partOf_le attr p
    have hzero : partOf (fun _ => none) p = 0 := rfl
    refine ⟨?_, ?_, hthree⟩
    all_goals
      simp only [meets_of_trie h]
      omega

theorem competes_linear (h : competes attr r re p = true) : competes (fun _ => none) r re p = true := by
  rw [competes_iff_hidden] at h ⊢
  exact ⟨h.1, fun _ => rfl⟩

theorem competes_of_trie (h : isTriePlan p = true) : competes attr r re p = true ↔
    trieKey p <+: splitPath r.path ∧ hidden attr r p = false ∧ planMatches re p r = true := by
  rw [competes, offered]
  cases hpath : p.matches_.path with
  | none => simp [and_assoc]
  | some pm => cases pm <;> simp_all [isTriePlan, and_assoc]

theorem same_node (hx : isTriePlan x = true) (hxc : competes (fun _ => none) r re x = true)
    (hqc : competes (fun _ => none) r re q = true) (hclass : isExactPlan x = isExactPlan q)
    (hmeet : meets (fun _ => none) r x = meets (fun _ => none) r q) : isTriePlan q = true ∧ trieKey q = trieKey x := by
  have hxkey := ((competes_of_trie hx).1 hxc).1
  have hmeets : ∀ p, isTriePlan p = true → meets (fun _ => none) r p = 3 * (trieKey p).length := fun p hp => meets_of_trie hp
  have hexact := hclass ▸ (isExactPlan_of_trie hx).1
  have hq : isTriePlan q = true := by
    cases hregex : isRegexPlan q with
    | false => simp [isTriePlan_eq, hexact, hregex]
    | true =>
      -- regexes are met behind every node
      have hlen := hxkey.length_le
      have hbehind : meets (fun _ => none) r q = 3 * ((splitPath r.path).length + 1) := by
        simp [meets, stopOf, hexact, hregex, Stop.place]
      rw [hmeets x hx] at hmeet
      omega
  rw [hmeets x hx, hmeets q hq] at hmeet
  have hlen : (trieKey q).length = (trieKey x).length := by omega
  have hqkey := ((competes_of_trie hq).1 hqc).1
  exact ⟨hq, (List.prefix_of_prefix_length_le hqkey hxkey hlen.le).eq_of_length hlen⟩

theorem overtaken_iff :
    Overtaken ω re (plansUnder plans (trieKey x)) r x ↔ ∃ q ∈ plansUnder plans (trieKey x), planMatches re q r = true
      ∧ ¬ Hides ω (plansUnder plans (trieKey x)) r q ∧ q.precedence = x.precedence ∧ q.ruleOrder = x.ruleOrder
      ∧ partOf (hostAttributes ω plans) q < partOf (hostAttributes ω plans) x := by
  unfold Overtaken
  cases ha : nodeAttribute ω (plansUnder plans (trieKey x)) with
  | none =>
    have hpart : partOf (hostAttributes ω plans) x = 0 := by simp [partOf, hostAttributes, ha]
    simp [hpart]
  | some a =>
    have hpart : ∀ q, trieKey q = trieKey x → partOf (hostAttributes ω plans) q = (a.bucket q).place := by
      intro q hq
      simp [partOf, hostAttributes, hq, ha]
    apply Iff.intro
    · rintro ⟨_, q, ⟨⟩, hq, hmatch, hvis, hprec, horder, hplace⟩
      exact ⟨q, hq, hmatch, hvis, hprec, horder, by rwa [hpart q (mem_plansUnder_key hq), hpart x rfl]⟩
    · rintro ⟨q, hq, hmatch, hvis, hprec, horder, hplace⟩
      rw [hpart q (mem_plansUnder_key hq), hpart x rfl] at hplace
      exact ⟨a, q, rfl, hq, hmatch, hvis, hprec, horder, hplace⟩

theorem before_iff_tied (h : planBefore p q = true) :
    planBefore q p = true ↔ q.precedence = p.precedence ∧ q.ruleOrder = p.ruleOrder := by
  rw [planBefore_iff] at h ⊢
  rw [← UInt64.toNat_inj]
  omega

theorem fineBefore_linear (h : fineBefore attr r p q = true) : fineBefore (fun _ => none) r p q = true := by
  obtain ⟨hp, -, hthree'⟩ := meets_split attr r p
  obtain ⟨-, hq, hthree⟩ := meets_split attr r q
  unfold fineBefore classFirst at *
  split_ifs at h ⊢
  · obtain ⟨hbefore, hmeet⟩ := tieBreak_iff.1 h
    refine tieBreak_iff.2 ⟨hbefore, fun htie => ?_⟩
    have hle := hmeet htie
    omega
  · exact h

/-- a plan behind another in the scan stays behind it, unless it is offered from an earlier bucket of the same node -/
theorem fineBefore_of_not_overtaken (hx : isTriePlan x = true → ¬ Overtaken ω re (plansUnder plans (trieKey x)) r x)
    (hxc : competes (fun _ => none) r re x = true) (hq : q ∈ plans)
    (hqc : competes (hostAttributes ω plans) r re q = true) (h : fineBefore (fun _ => none) r x q = true) :
    fineBefore (hostAttributes ω plans) r x q = true := by
  obtain ⟨-, hxle, hthree⟩ := meets_split (hostAttributes ω plans) r x
  obtain ⟨hqle, -, hthree'⟩ := meets_split (hostAttributes ω plans) r q
  unfold fineBefore classFirst at *
  split_ifs at h ⊢ with hclass
  · obtain ⟨hbefore, hmeet⟩ := tieBreak_iff.1 h
    refine tieBreak_iff.2 ⟨hbefore, fun htie => ?_⟩
    rcases (hmeet htie).lt_or_eq with hlt | heq
    · omega
    cases htrie : isTriePlan x with
    | false => rwa [meets_of_not_trie htrie, heq]
    | true =>
      obtain ⟨hqtrie, hkey⟩ := same_node htrie hxc (competes_linear hqc) hclass heq
      rw [meets_of_trie htrie, meets_of_trie hqtrie, hkey, Nat.add_le_add_iff_left]
      by_contra hpart
      obtain ⟨hholds, hvis⟩ := competes_iff.1 hqc
      obtain ⟨hprec, horder⟩ := (before_iff_tied hbefore).1 htie
      refine hx htrie (overtaken_iff.2 ⟨q, ?_, (holds_iff.1 hholds).2, hkey ▸ hvis hqtrie, hprec, horder, not_le.1 hpart⟩)
      simp [plansUnder, hq, hqtrie, hkey]
  · exact h

theorem firstBest_split_iff (h : firstBest (fineBefore (fun _ => none) r) (competes (fun _ => none) r re) plans = some x) :
    firstBest (fineBefore (hostAttributes ω plans) r) (competes (hostAttributes ω plans) r re) plans = some x ↔
      (isTriePlan x = true → ¬ Hides ω (plansUnder plans (trieKey x)) r x
        ∧ ¬ Overtaken ω re (plansUnder plans (trieKey x)) r x) := by
  obtain ⟨hx, hxc⟩ := firstBest_mem h
  apply Iff.intro
  · intro hpick htrie
    refine ⟨(competes_iff.1 (firstBest_mem hpick).2).2 htrie, fun hover => ?_⟩
    obtain ⟨q, hq, hmatch, hvis, hprec, horder, hpart⟩ := overtaken_iff.1 hover
    obtain ⟨hmem, hkey, hqtrie⟩ : q ∈ plans ∧ trieKey q = trieKey x ∧ isTriePlan q = true := by simpa [plansUnder] using hq
    have hqc : competes (hostAttributes ω plans) r re q = true := by
      rw [competes_of_trie hqtrie, hkey]
      refine ⟨((competes_of_trie htrie).1 hxc).1, ?_, hmatch⟩
      rw [← Bool.not_eq_true, hidden_iff, hkey]
      exact hvis
    have hclass : isExactPlan x = isExactPlan q := by rw [(isExactPlan_of_trie htrie).1, (isExactPlan_of_trie hqtrie).1]
    have hmeet := firstBest_le hpick q hmem hqc
    rw [fineBefore_iff_of_tie (by simp [noLower, classFirst, hclass, hprec]) (by simp [noLower, classFirst, hclass, hprec]),
      meets_of_trie htrie, meets_of_trie hqtrie, hkey] at hmeet
    omega
  · intro hnode
    obtain ⟨s, t, rfl, hs⟩ := firstBest_split h
    refine firstBest_append_cons (competes_iff.2 ⟨(competes_iff_hidden.1 hxc).1, fun htrie => (hnode htrie).1⟩) ?_ ?_
    · intro y hy hyc
      cases hyx : fineBefore (hostAttributes ω (s ++ x :: t)) r y x with
      | false => rfl
      | true => rw [← hs y hy (competes_linear hyc), fineBefore_linear hyx]
    · intro y hy hyc
      have hmem : y ∈ s ++ x :: t := List.mem_append_right _ (List.mem_cons_of_mem _ hy)
      exact fineBefore_of_not_overtaken (fun htrie => (hnode htrie).2) hxc hmem hyc (firstBest_le h y hmem (competes_linear hyc))

end Split

/-- **Discriminators.** Splitting crowded nodes gives the plan a linear scan gives, exactly when the plan the scan picks is
not hidden by the split of its node and not overtaken there by an equally good one. -/
theorem discriminators_transparent_iff (ω : IterOrder) (re : RegexEngine) (host : HostRoute) (r : RouteRequest) :
    (compileHost ω host).lookup re r = (compileHost ω host).linear.lookup re r ↔
      ∀ p, (compileHost ω host).linear.lookup re r = some p → isTriePlan p = true →
        ¬ Hides ω (plansUnder (hostPlans host) (trieKey p)) r p
          ∧ ¬ Overtaken ω re (plansUnder (hostPlans host) (trieKey p)) r p := by
  rw [compileHost_lookup_fine, linear_lookup_fine]
  cases hlin : firstBest (fineBefore (fun _ => none) r) (competes (fun _ => none) r re) (hostPlans host) with
  | none =>
    have hnone := firstBest_eq_none_iff.1 hlin
    have hsplit : firstBest (fineBefore (hostAttributes ω (hostPlans host)) r) (competes (hostAttributes ω (hostPlans host)) r re)
        (hostPlans host) = none := by
      rw [firstBest_eq_none_iff]
      intro q hq
      cases hqc : competes (hostAttributes ω (hostPlans host)) r re q with
      | false => rfl
      | true => rw [← hnone q hq, competes_linear hqc]
    simp [hsplit]
  | some x =>
    rw [firstBest_split_iff hlin]
    simp

def tenantHost : HostRoute :=
  { hostname := .exact "app.example.com"
    rules := ["Acme", "Blue", "Cyan", "Dusk", "Echo", "Fern", "Gold", "Hill", "Iris"].zipIdx.map fun (name, i) =>
      { matches_ := [{ headers := [⟨"x-tenant", .exact name⟩] }], action := .route {}, ruleOrder := i } }

def acmeRequest : RouteRequest :=
  { host := "app.example.com", port := 443, path := "/", method := "GET",
    headers := [("x-tenant", HeaderValue.ofString "acme")], query := none }

theorem tenant_lost_in_bucket : (compileHost IterOrder.stored tenantHost).lookup ⟨fun _ => none⟩ acmeRequest = none
      ∧ ((compileHost IterOrder.stored tenantHost).linear.lookup ⟨fun _ => none⟩ acmeRequest).map (·.ruleOrder) = some 0 := by
  constructor <;> rfl

end SunbeamProxy
