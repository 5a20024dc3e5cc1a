/-
Hosts whose rules ask for a path only.
-/
import SunbeamProxy.IR.Precedence

namespace SunbeamProxy

open Text

def Rule.path (rule : Rule) : Option PathMatch := rule.matches_.head?.bind (·.path)

def pathCovers (pattern : Option PathMatch) (path : String) : Bool :=
  match pattern with
  | none => true
  | some (.exact p) => decide (p = path)
  | some (.pathPrefix p) => (splitPath p).isPrefixOf (splitPath path)
  | some (.regex _) => false

def pathIsExact : Option PathMatch → Bool
  | some (.exact _) => true
  | _ => false

def pathWeight (pattern : Option PathMatch) : ℕ := ((pattern.map fun p => p.text.utf8ByteSize).getD 0) % 2 ^ 16

def pathSegments : Option PathMatch → List String
  | some (.pathPrefix p) => splitPath p
  | _ => []

def weightBefore (a b : Option PathMatch × ℕ) : Bool :=
  decide (pathWeight b.1 < pathWeight a.1) || (pathWeight a.1 == pathWeight b.1 && decide (a.2 ≤ b.2))

def patternBefore : Option PathMatch × ℕ → Option PathMatch × ℕ → Bool :=
  classFirst (fun a => pathIsExact a.1) (tieBreak weightBefore fun a => (pathSegments a.1).length)

structure Rule.PathOnly (rule : Rule) : Prop where
  matches_ : rule.matches_ = [{ path := rule.path }]
  noRegex : ∀ pattern, rule.path ≠ some (.regex pattern)

def Rule.place (rule : Rule) : Option PathMatch × ℕ := (rule.path, rule.ruleOrder)

def HostRoute.planOf (host : HostRoute) (rule : Rule) : CompiledPlan :=
  compilePlan rule (computePrecedence rule) { path := rule.path } host.gatewayApi host.disableSecureRedirection
    host.listenerHostname

variable {host : HostRoute}

theorem hostPlans_pathOnly (h : ∀ rule ∈ host.rules, rule.PathOnly) : hostPlans host = host.rules.map host.planOf := by
  rw [List.map_eq_flatMap]
  refine List.flatMap_congr fun rule hrule => ?_
  rw [(h rule hrule).matches_]
  rfl

theorem precedence_pathOnly {rule : Rule} (h : rule.PathOnly) :
    (computePrecedence rule).toNat = pathWeight rule.path * 2 ^ 48 := by
  have hpath : maxOf (rule.matches_.filterMap fun m => m.path.map fun p => p.text.utf8ByteSize)
      = (rule.path.map fun p => p.text.utf8ByteSize).getD 0 := by
    rw [h.matches_]
    cases rule.path <;> simp [maxOf]
  have hzero : ∀ f : RequestMatch → ℕ, f { path := rule.path } = 0 → maxOf (rule.matches_.map f) = 0 := by
    intro f hf
    rw [h.matches_, List.map_singleton, maxOf_singleton, hf]
  rw [computePrecedence, hpath, hzero _ (by simp), hzero _ (by simp), hzero _ (by simp), pathWeight]
  generalize (rule.path.map fun p => p.text.utf8ByteSize).getD 0 = n
  have hshift : (UInt64.ofNat n <<< 48).toNat = n % 2 ^ 16 * 2 ^ 48 := by
    have h48 : UInt64.toNat 48 % 64 = 48 := rfl
    rw [UInt64.toNat_shiftLeft, UInt64.toNat_ofNat', h48]
    omega
  have hrest : UInt64.ofNat 0 <<< 32 = 0 ∧ UInt64.ofNat 0 <<< 16 = 0 ∧ UInt64.ofNat 0 = 0 := by decide
  rw [hrest.1, hrest.2.1, hrest.2.2, UInt64.or_zero, UInt64.or_zero, UInt64.or_zero, hshift]

theorem weightBefore_iff {a b : Option PathMatch × ℕ} :
    weightBefore a b = true ↔ pathWeight b.1 < pathWeight a.1 ∨ (pathWeight a.1 = pathWeight b.1 ∧ a.2 ≤ b.2) := by
  simp [weightBefore]

instance weightBefore_total : Std.Total fun a b => weightBefore a b = true where
  total a b := by
    simp only [weightBefore_iff]
    omega

instance weightBefore_trans : IsTrans (Option PathMatch × ℕ) fun a b => weightBefore a b = true where
  trans a b c hab hbc := by
    simp only [weightBefore_iff] at hab hbc ⊢
    omega

theorem planBefore_planOf {a b : Rule} (ha : a.PathOnly) (hb : b.PathOnly) :
    planBefore (host.planOf a) (host.planOf b) = weightBefore a.place b.place := by
  refine Bool.eq_iff_iff.2 ?_
  rw [planBefore_iff, weightBefore_iff]
  simp only [HostRoute.planOf, compilePlan_precedence, compilePlan_ruleOrder, precedence_pathOnly ha, precedence_pathOnly hb]
  rw [Nat.mul_lt_mul_right (by norm_num), Nat.mul_left_inj (by norm_num)]
  rfl

/-! ## The lookup -/

theorem planMatches_planOf (re : RegexEngine) (host : HostRoute) (rule : Rule) (r : RouteRequest) :
    planMatches re (host.planOf rule) r = true := by
  simp [planMatches, HostRoute.planOf]

theorem nodeAttribute_planOf (ω : IterOrder) (host : HostRoute) (rules : List Rule) :
    nodeAttribute ω (rules.map host.planOf) = none := by
  have hmethod : (rules.map host.planOf).countP (fun p => p.matches_.method.isSome) = 0 := by
    rw [List.countP_eq_zero]
    intro p hp
    obtain ⟨rule, -, rfl⟩ := List.mem_map.1 hp
    simp [HostRoute.planOf]
  have hheaders : ((rules.map host.planOf).flatMap fun p => p.matches_.headers.map (·.name)) = [] := by
    rw [List.flatMap_eq_nil_iff]
    intro p hp
    obtain ⟨rule, -, rfl⟩ := List.mem_map.1 hp
    simp [HostRoute.planOf]
  have hquery : ((rules.map host.planOf).flatMap fun p => p.matches_.queryParams.map (·.name)) = [] := by
    rw [List.flatMap_eq_nil_iff]
    intro p hp
    obtain ⟨rule, -, rfl⟩ := List.mem_map.1 hp
    simp [HostRoute.planOf]
  have hcount : maxByKey Prod.snd (ω.order (countOccurrences []).pairs) = none := by
    have hempty : (countOccurrences []).pairs = [] := rfl
    have horder : ω.order ([] : List (String × ℕ)) = [] := List.Perm.eq_nil (ω.order_perm _)
    rw [hempty, horder]
    rfl
  rw [nodeAttribute]
  split_ifs
  · simp only [splitAttribute, hmethod, countHeaderOccurrences, countQueryOccurrences, hheaders, hquery, hcount]
    rfl
  · rfl

def Rule.weighs (a b : Rule) : Bool := weightBefore a.place b.place

abbrev Rule.fine : Rule → Rule → Bool := tieBreak Rule.weighs fun rule => (pathSegments rule.path).length

section Lookup

variable {ω : IterOrder} {re : RegexEngine} {host : HostRoute} {r : RouteRequest} {rules : List Rule} {rule : Rule}

theorem hostAttributes_planOf (ω : IterOrder) (host : HostRoute) (rules : List Rule) :
    hostAttributes ω (rules.map host.planOf) = fun _ => none := by
  funext k
  simp [hostAttributes, plansUnder, List.filter_map, nodeAttribute_planOf]

theorem competes_planOf (h : rule.PathOnly) : competes (fun _ => none) r re (host.planOf rule) = pathCovers rule.path r.path := by
  rw [competes, planMatches_planOf]
  simp only [offered, HostRoute.planOf, hidden, trieKey]
  cases hpath : rule.path with
  | none => simp [pathCovers]
  | some pattern =>
    cases pattern with
    | exact p => simp [pathCovers, beq_eq_decide]
    | pathPrefix p => simp [pathCovers]
    | regex p => exact absurd hpath (h.noRegex p)

theorem meets_planOf (h : rule.PathOnly) : meets (fun _ => none) r (host.planOf rule) = 3 * (pathSegments rule.path).length := by
  simp only [meets, stopOf, isExactPlan, exactPath, isRegexPlan, trieKey, partOf, HostRoute.planOf, compilePlan_matches]
  cases hpath : rule.path with
  | none => simp [pathSegments, Stop.place]
  | some pattern =>
    cases pattern with
    | exact p | pathPrefix p => simp [pathSegments, Stop.place]
    | regex p => exact absurd hpath (h.noRegex p)

theorem fineBefore_planOf {a b : Rule} (ha : a.PathOnly) (hb : b.PathOnly) :
    fineBefore (fun _ => none) r (host.planOf a) (host.planOf b)
      = classFirst (fun rule => pathIsExact rule.path) Rule.fine a b := by
  have hexact : ∀ rule : Rule, isExactPlan (host.planOf rule) = pathIsExact rule.path := by
    intro rule
    simp only [isExactPlan, exactPath, HostRoute.planOf, compilePlan_matches]
    cases rule.path with
    | none => rfl
    | some pattern => cases pattern <;> rfl
  have hfine : tieBreak planBefore (meets (fun _ => none) r) (host.planOf a) (host.planOf b) = Rule.fine a b := by
    rw [Bool.eq_iff_iff, tieBreak_iff, tieBreak_iff, planBefore_planOf ha hb, planBefore_planOf hb ha, meets_planOf ha,
      meets_planOf hb, Nat.mul_le_mul_left_iff (by norm_num)]
    rfl
  simp [fineBefore, classFirst, hexact, hfine]

end Lookup

/-- **Lookup by path.** The plan of the first rule that covers the path: exact paths first, then longer patterns, smaller
numbers, fewer segments, earlier rules. -/
theorem compileHost_lookup_pathRules (ω : IterOrder) (re : RegexEngine) (r : RouteRequest)
    (h : ∀ rule ∈ host.rules, rule.PathOnly) :
    (compileHost ω host).lookup re r
      = (firstBest (fun a b => patternBefore a.place b.place) (fun rule => pathCovers rule.path r.path) host.rules).map
          host.planOf := by
  have hlist : List.Forall₂ (fun p rule => p = host.planOf rule ∧ rule.PathOnly) (host.rules.map host.planOf) host.rules := by
    rw [List.forall₂_map_left_iff, List.forall₂_same]
    exact fun rule hrule => ⟨rfl, h rule hrule⟩
  rw [compileHost_lookup_fine, hostPlans_pathOnly h, hostAttributes_planOf]
  have hrel : Option.Rel (fun p rule => p = host.planOf rule ∧ rule.PathOnly)
      (firstBest (fineBefore (fun _ => none) r) (competes (fun _ => none) r re) (host.rules.map host.planOf))
      (firstBest (fun a b => patternBefore a.place b.place) (fun rule => pathCovers rule.path r.path) host.rules) := by
    refine firstBest_rel ?_ ?_ hlist
    · intro a b a' b' ha hb
      rw [ha.1, hb.1, fineBefore_planOf ha.2 hb.2]
      rfl
    · intro a a' ha
      rw [ha.1, competes_planOf ha.2]
  generalize firstBest (fineBefore (fun _ => none) r) (competes (fun _ => none) r re) (host.rules.map host.planOf) = x at hrel ⊢
  generalize firstBest (fun a b : Rule => patternBefore a.place b.place) (fun rule => pathCovers rule.path r.path) host.rules
    = y at hrel ⊢
  cases hrel with
  | none => rfl
  | some ha => rw [ha.1]; rfl

end SunbeamProxy
