/-
A lookup in a host as one pass over its plans.
-/
import SunbeamProxy.Core.FinerOrder
import SunbeamProxy.IR.Trie

namespace SunbeamProxy

open Text

def PathMatch.Holds (re : RegexEngine) (path : String) : PathMatch → Prop
  | .exact p => path = p
  | .pathPrefix p => splitPath p <+: splitPath path
  | .regex pattern => re.isMatch pattern path = true

instance (re : RegexEngine) (path : String) : ∀ m : PathMatch, Decidable (m.Holds re path)
  | .exact p => inferInstanceAs (Decidable (path = p))
  | .pathPrefix p => inferInstanceAs (Decidable (splitPath p <+: splitPath path))
  | .regex pattern => inferInstanceAs (Decidable (re.isMatch pattern path = true))

/-- path, method, headers and query all match -/
structure RequestMatch.Holds (re : RegexEngine) (m : RequestMatch) (r : RouteRequest) : Prop where
  path : ∀ p, m.path = some p → p.Holds re r.path
  method : ∀ name, m.method = some name → eqIgnoreAsciiCase name r.method = true
  headers : ∀ hm ∈ m.headers, headerMatches re (r.headerStr hm.name) hm.value = true
  query : ∀ qm ∈ m.queryParams, queryMatches re (r.queryParam qm.name) qm.value = true

theorem planMatches_iff {re : RegexEngine} {p : CompiledPlan} {r : RouteRequest} :
    planMatches re p r = true ↔ (∀ name, p.matches_.method = some name → eqIgnoreAsciiCase name r.method = true)
      ∧ (∀ hm ∈ p.matches_.headers, headerMatches re (r.headerStr hm.name) hm.value = true)
      ∧ ∀ qm ∈ p.matches_.queryParams, queryMatches re (r.queryParam qm.name) qm.value = true := by
  simp only [planMatches, Bool.and_eq_true, List.all_eq_true, and_assoc]
  refine and_congr ?_ .rfl
  cases p.matches_.method <;> simp

theorem holds_iff {re : RegexEngine} {p : CompiledPlan} {r : RouteRequest} :
    p.matches_.Holds re r ↔ (∀ pm, p.matches_.path = some pm → pm.Holds re r.path) ∧ planMatches re p r = true := by
  rw [planMatches_iff]
  exact ⟨fun h => ⟨h.path, h.method, h.headers, h.query⟩, fun h => ⟨h.1, h.2.1, h.2.2.1, h.2.2.2⟩⟩

def RequestMatch.IsExact (m : RequestMatch) : Prop := ∃ path, m.path = some (.exact path)

/-- in the trie, no plan of the same node hides this one -/
def Visible (ω : IterOrder) (plans : List CompiledPlan) (r : RouteRequest) (p : CompiledPlan) : Prop :=
  isTriePlan p = true → ¬ Hides ω (plansUnder plans (trieKey p)) r p

/-! ## Where a walk meets a plan -/

inductive Stop where
  | node (segments : List String) (part : ℕ)
  | regex
deriving DecidableEq, Repr

def Stop.place (depth : ℕ) : Stop → ℕ
  | .node segments part => 3 * segments.length + part
  | .regex => 3 * (depth + 1)

def Bucket.place : Bucket → ℕ
  | .exact _ => 0
  | .any => 1
  | .fallback => 2

def isExactPlan (p : CompiledPlan) : Bool := (exactPath p).isSome

def hostAttributes (ω : IterOrder) (plans : List CompiledPlan) (k : List String) : Option Attribute :=
  nodeAttribute ω (plansUnder plans k)

def nodeOffer (a : Option Attribute) (plans : List CompiledPlan) (r : RouteRequest) : List CompiledPlan :=
  match a with
  | none => plans
  | some a => splitPlans a.bucket plans (a.value r) (bucketOf a.bucket .fallback plans)

section Walk

variable (attr : List String → Option Attribute) (r : RouteRequest)

variable (p : CompiledPlan)

def partOf : ℕ := ((attr (trieKey p)).map fun a => (a.bucket p).place).getD 0

def hidden : Bool := (attr (trieKey p)).any fun a =>
    match a.bucket p with
    | .exact v => a.value r != some v
    | .any | .fallback => false

def stopOf : Stop := if isExactPlan p then .node [] 0 else if isRegexPlan p then .regex
  else .node (trieKey p) (partOf attr p)

def meets : ℕ := (stopOf attr p).place (splitPath r.path).length

def offered (re : RegexEngine) (p : CompiledPlan) : Bool :=
  match p.matches_.path with
  | some (.exact path) => path == r.path
  | some (.regex pattern) => re.isMatch pattern r.path
  | _ => (trieKey p).isPrefixOf (splitPath r.path) && !hidden attr r p

def competes (re : RegexEngine) (p : CompiledPlan) : Bool := offered attr r re p && planMatches re p r

def fineBefore (a b : CompiledPlan) : Bool := classFirst isExactPlan (tieBreak planBefore (meets attr r)) a b

def stops : List Stop := ((splitPath r.path).inits.flatMap fun k => [.node k 0, .node k 1, .node k 2]) ++ [.regex]

end Walk

variable {ω : IterOrder} {attr : List String → Option Attribute} {re : RegexEngine} {plans : List CompiledPlan}
  {r : RouteRequest} {p : CompiledPlan}

theorem hidden_iff : hidden (hostAttributes ω plans) r p = true ↔ Hides ω (plansUnder plans (trieKey p)) r p := by
  unfold hidden hostAttributes
  cases ha : nodeAttribute ω (plansUnder plans (trieKey p)) with
  | none => simp [not_hides_of_none ha]
  | some a =>
    rw [hides_iff ha]
    cases hb : a.bucket p <;> simp [hb]

theorem competes_iff_hidden :
    competes attr r re p = true ↔ p.matches_.Holds re r ∧ (isTriePlan p = true → hidden attr r p = false) := by
  rw [competes, offered, holds_iff]
  cases hpath : p.matches_.path with
  | none =>
    have hstart : (trieKey p).isPrefixOf (splitPath r.path) = true := by simp [trieKey, hpath]
    simp [isTriePlan, hpath, hstart]
    tauto
  | some pm =>
    cases pm with
    | exact path => simp [isTriePlan, hpath, PathMatch.Holds, eq_comm (a := r.path)]
    | regex pattern => simp [isTriePlan, hpath, PathMatch.Holds]
    | pathPrefix path =>
      have hkey : trieKey p = splitPath path := by simp [trieKey, hpath]
      simp [isTriePlan, hpath, hkey]
      tauto

theorem competes_iff : competes (hostAttributes ω plans) r re p = true ↔ p.matches_.Holds re r ∧ Visible ω plans r p := by
  rw [competes_iff_hidden, Visible, ← hidden_iff, Bool.not_eq_true]

theorem isExactPlan_iff : isExactPlan p = true ↔ p.matches_.IsExact := by
  cases hpath : p.matches_.path with
  | none => simp [isExactPlan, exactPath, RequestMatch.IsExact, hpath]
  | some pm => cases pm <;> simp [isExactPlan, exactPath, RequestMatch.IsExact, hpath]

theorem inits_pairwise (l : List String) : l.inits.Pairwise fun k k' => k.length < k'.length := by
  induction l with
  | nil => simp
  | cons a l ih =>
    rw [List.inits_cons, List.pairwise_cons, List.pairwise_map]
    refine ⟨?_, ih.imp fun h => by simpa using h⟩
    intro k hk
    obtain ⟨k', -, rfl⟩ := List.mem_map.1 hk
    simp

variable {k : List String}

theorem inits_length_le {segments : List String} (h : k ∈ segments.inits) : k.length ≤ segments.length :=
  ((List.mem_inits _ _).1 h).length_le

theorem stops_pairwise (r : RouteRequest) :
    (stops r).Pairwise fun s s' => s.place (splitPath r.path).length < s'.place (splitPath r.path).length := by
  rw [stops, List.pairwise_append]
  refine ⟨?_, List.pairwise_singleton _ _, ?_⟩
  · rw [List.pairwise_flatMap]
    refine ⟨?_, ?_⟩
    · simp [Stop.place]
    · refine (inits_pairwise _).imp ?_
      intro k k' hlen s hs s' hs'
      simp only [List.mem_cons, List.not_mem_nil, or_false] at hs hs'
      rcases hs with rfl | rfl | rfl <;> rcases hs' with rfl | rfl | rfl <;> simp only [Stop.place] <;> omega
  · intro s hs s' hs'
    obtain ⟨k, hk, hs⟩ := List.mem_flatMap.1 hs
    have hlen := inits_length_le hk
    rw [List.mem_singleton.1 hs']
    simp only [List.mem_cons, List.not_mem_nil, or_false] at hs
    rcases hs with rfl | rfl | rfl <;> simp only [Stop.place] <;> omega

/-! ## The walk, stop by stop -/

def metAt (attr : List String → Option Attribute) (re : RegexEngine) (plans : List CompiledPlan) (r : RouteRequest) (s : Stop) :
    List CompiledPlan :=
  (plans.filter fun p => !isExactPlan p && offered attr r re p).filter fun p => stopOf attr p = s

theorem metAt_node (hk : k ∈ (splitPath r.path).inits) (part : ℕ) : metAt attr re plans r (.node k part)
      = (plansUnder plans k).filter fun p => partOf attr p = part && !hidden attr r p := by
  have hstart := (List.mem_inits _ _).1 hk
  simp only [metAt, plansUnder, List.filter_filter]
  apply List.filter_congr
  intro p _
  cases hpath : p.matches_.path with
  | none =>
    have hkey : trieKey p = [] := by simp [trieKey, hpath]
    by_cases hp : [] = k
    · subst hp
      simp [stopOf, isExactPlan, exactPath, isRegexPlan, isTriePlan, offered, hpath, hkey]
    · simp [stopOf, isExactPlan, exactPath, isRegexPlan, hpath, hkey, hp]
  | some pm =>
    cases pm with
    | exact path => simp [isExactPlan, exactPath, isTriePlan, hpath]
    | regex pattern => simp [stopOf, isExactPlan, exactPath, isRegexPlan, isTriePlan, hpath]
    | pathPrefix path =>
      have hkey : trieKey p = splitPath path := by simp [trieKey, hpath]
      by_cases hp : splitPath path = k
      · have hprefix : (splitPath path).isPrefixOf (splitPath r.path) = true := by
          rw [hp]
          exact List.isPrefixOf_iff_prefix.2 hstart
        simp [stopOf, isExactPlan, exactPath, isRegexPlan, isTriePlan, offered, hpath, hkey, hp, hp ▸ hprefix]
      · simp [stopOf, isExactPlan, exactPath, isRegexPlan, hpath, hkey, hp]

theorem mem_plansUnder_key (h : p ∈ plansUnder plans k) : trieKey p = k := by simpa using (List.mem_filter.1 h).2

theorem filter_openBucket {a : Attribute} (ha : attr k = some a) :
    ((plansUnder plans k).filter fun p => partOf attr p = 0 && !hidden attr r p)
      = (plansUnder plans k).filter fun p => (a.value r).any fun v => a.bucket p = .exact v := by
  apply List.filter_congr
  intro p hp
  have hsplit : attr (trieKey p) = some a := by rw [mem_plansUnder_key hp, ha]
  cases hb : a.bucket p with
  | exact v =>
    cases hv : a.value r with
    | none => simp [hidden, hsplit, hb, hv]
    | some w =>
      by_cases hw : w = v
      · simp [partOf, hidden, hsplit, hb, hv, hw, Bucket.place]
      · simp [hidden, hsplit, hb, hv, hw, Ne.symm hw]
  | any | fallback => cases a.value r <;> simp [partOf, hsplit, hb, Bucket.place]

theorem filter_bucket {a : Attribute} (ha : attr k = some a) {b : Bucket} (hb : ∀ v, b ≠ .exact v) {n : ℕ} (hn : b.place = n) :
    ((plansUnder plans k).filter fun p => partOf attr p = n && !hidden attr r p)
      = (plansUnder plans k).filter fun p => a.bucket p = b := by
  subst hn
  apply List.filter_congr
  intro p hp
  have hsplit : attr (trieKey p) = some a := by rw [mem_plansUnder_key hp, ha]
  cases hp' : a.bucket p <;> cases b <;> simp_all [partOf, hidden, Bucket.place]

theorem firstBest_bucketAt (bucket : CompiledPlan → Bucket) (value : Option String) (test : CompiledPlan → Bool)
    (l : List CompiledPlan) :
    firstBest planBefore test (bucketAt (exactBuckets bucket l) value)
      = firstBest planBefore test (l.filter fun p => value.any fun v => bucket p = .exact v) := by
  cases value with
  | none => simp [bucketAt]
  | some v =>
    rw [bucketAt, Option.bind_some, get_exactBuckets, bucketOf, sortPlans, firstBest_stableSort]
    rfl

theorem firstBest_node (re : RegexEngine) (hk : k ∈ (splitPath r.path).inits) (test : CompiledPlan → Bool) :
    firstBest planBefore test (nodeOffer (attr k) (plansUnder plans k) r)
      = firstBest planBefore test (([.node k 0, .node k 1, .node k 2] : List Stop).flatMap (metAt attr re plans r)) := by
  simp only [List.flatMap_cons, List.flatMap_nil, List.append_nil, metAt_node hk]
  cases ha : attr k with
  | none =>
    have hsplit : ∀ p ∈ plansUnder plans k, attr (trieKey p) = none := by
      intro p hp
      rw [mem_plansUnder_key hp, ha]
    have hzero : ((plansUnder plans k).filter fun p => partOf attr p = 0 && !hidden attr r p) = plansUnder plans k := by
      rw [List.filter_eq_self]
      intro p hp
      simp [partOf, hidden, hsplit p hp]
    have hother : ∀ part, part ≠ 0 → ((plansUnder plans k).filter fun p => partOf attr p = part && !hidden attr r p) = [] := by
      intro part hpart
      rw [List.filter_eq_nil_iff]
      intro p hp
      simp [partOf, hsplit p hp, hpart.symm]
    simp [nodeOffer, hzero, hother 1 (by decide), hother 2 (by decide)]
  | some a =>
    rw [nodeOffer, splitPlans, List.append_assoc, filter_openBucket ha, filter_bucket ha (b := .any) (n := 1) (by simp) rfl,
      filter_bucket ha (b := .fallback) (n := 2) (by simp) rfl]
    simp [firstBest_append, firstBest_bucketAt, bucketOf, sortPlans, firstBest_stableSort]

theorem firstBest_regexMatches (attr : List String → Option Attribute) :
    firstBest planBefore (planMatches re · r) (regexMatches re plans r)
      = firstBest planBefore (planMatches re · r) (metAt attr re plans r .regex) := by
  simp only [regexMatches, firstBest_filter_and, sortPlans, firstBest_stableSort, metAt]
  apply firstBest_test_congr
  intro p _
  cases hpath : p.matches_.path with
  | none => simp [isRegexPlan, stopOf, isExactPlan, exactPath, hpath]
  | some pm =>
    cases pm with
    | exact path => simp [isRegexPlan, isExactPlan, exactPath, hpath]
    | pathPrefix path => simp [isRegexPlan, stopOf, isExactPlan, exactPath, hpath]
    | regex pattern =>
      simp only [stopOf, isExactPlan, exactPath, hpath, offered, planRegexPathMatches]
      cases re.isMatch pattern r.path <;> simp

theorem partOf_le (attr : List String → Option Attribute) (p : CompiledPlan) : partOf attr p ≤ 2 := by
  unfold partOf
  cases attr (trieKey p) with
  | none => simp
  | some a => cases hb : a.bucket p <;> simp [hb, Bucket.place]

theorem stopOf_mem_stops (hexact : isExactPlan p = false) (h : offered attr r re p = true) : stopOf attr p ∈ stops r := by
  rw [stopOf, if_neg (by simp [hexact])]
  by_cases hregex : isRegexPlan p = true
  · rw [if_pos hregex]
    exact List.mem_append_right _ (List.mem_singleton.2 rfl)
  · rw [if_neg hregex]
    have hstart : trieKey p <+: splitPath r.path := by
      cases hpath : p.matches_.path with
      | none => simp [trieKey, hpath]
      | some pm =>
        cases pm with
        | exact path => simp [isExactPlan, exactPath, hpath] at hexact
        | regex pattern => simp [isRegexPlan, hpath] at hregex
        | pathPrefix path =>
          simp only [offered, hpath, Bool.and_eq_true] at h
          exact List.isPrefixOf_iff_prefix.1 h.1
    have hpart := partOf_le attr p
    refine List.mem_append_left _ (List.mem_flatMap.2 ⟨_, (List.mem_inits _ _).2 hstart, ?_⟩)
    interval_cases partOf attr p <;> simp

theorem firstBest_walk : firstBest planBefore (planMatches re · r)
        (((splitPath r.path).inits.flatMap fun k => nodeOffer (attr k) (plansUnder plans k) r) ++ regexMatches re plans r)
      = firstBest (tieBreak planBefore (meets attr r)) (competes attr r re) (plans.filter fun p => !isExactPlan p) := by
  calc _ = firstBest planBefore (planMatches re · r) ((stops r).flatMap (metAt attr re plans r)) := by
        simp [stops, List.flatMap_assoc, firstBest_append, firstBest_regexMatches attr,
          firstBest_flatMap_congr fun k hk => firstBest_node re hk (planMatches re · r)]
    _ = firstBest (tieBreak planBefore (meets attr r)) (planMatches re · r)
          ((plans.filter fun p => !isExactPlan p && offered attr r re p).filter fun p => stopOf attr p ∈ stops r) :=
        firstBest_groups (stopOf attr) (Stop.place (splitPath r.path).length) (stops_pairwise r) _
    _ = firstBest (tieBreak planBefore (meets attr r)) (competes attr r re) (plans.filter fun p => !isExactPlan p) := by
        simp only [firstBest_filter_and]
        apply firstBest_test_congr
        intro p _
        cases hexact : isExactPlan p with
        | true => rfl
        | false =>
          cases hoffered : offered attr r re p with
          | false => simp [competes, hoffered]
          | true => simp [competes, hoffered, stopOf_mem_stops hexact hoffered]

theorem firstBest_exactPaths (attr : List String → Option Attribute) :
    firstBest planBefore (planMatches re · r) (plans.filter fun p => exactPath p = some r.path)
      = firstBest (tieBreak planBefore (meets attr r)) (competes attr r re) (plans.filter isExactPlan) := by
  simp only [firstBest_filter_and]
  calc firstBest planBefore (fun p => decide (exactPath p = some r.path) && planMatches re p r) plans
      = firstBest planBefore (fun p => isExactPlan p && competes attr r re p) plans := by
        apply firstBest_test_congr
        intro p _
        cases hpath : p.matches_.path with
        | none => simp [exactPath, isExactPlan, hpath]
        | some pm => cases pm <;> simp [exactPath, isExactPlan, competes, offered, hpath, beq_eq_decide]
    _ = firstBest (tieBreak planBefore (meets attr r)) (fun p => isExactPlan p && competes attr r re p) plans := by
        -- the plans with an exact path all have one place, so the place decides nothing among them
        apply firstBest_congr
        intro a b ha hb
        rw [Bool.and_eq_true] at ha hb
        simp [tieBreak, meets, stopOf, ha.1, hb.1]

theorem firstBest_lookup (attr : List String → Option Attribute) :
    (firstBest planBefore (planMatches re · r) (plans.filter fun p => exactPath p = some r.path)).or
        (firstBest planBefore (planMatches re · r)
          (((splitPath r.path).inits.flatMap fun k => nodeOffer (attr k) (plansUnder plans k) r) ++ regexMatches re plans r))
      = firstBest (fineBefore attr r) (competes attr r re) plans := by
  rw [firstBest_exactPaths attr, firstBest_walk, firstBest_or]
  rfl

/-- **A lookup as one pass over the rules.** -/
theorem compileHost_lookup_fine (ω : IterOrder) (re : RegexEngine) (host : HostRoute) (r : RouteRequest) :
    (compileHost ω host).lookup re r = firstBest (fineBefore (hostAttributes ω (hostPlans host)) r)
      (competes (hostAttributes ω (hostPlans host)) r re) (hostPlans host) := by
  have hnodes : ∀ k, nodePlans ω (plansUnder (hostPlans host) k) r
      = nodeOffer (hostAttributes ω (hostPlans host) k) (plansUnder (hostPlans host) k) r := fun k => nodePlans_eq ω _ r
  rw [compileHost_lookup_eq, candidates, ← firstBest_lookup]
  simp [hnodes]

instance fineBefore_total : Std.Total fun a b => fineBefore attr r a b = true := classFirst_total isExactPlan

instance fineBefore_trans : IsTrans CompiledPlan fun a b => fineBefore attr r a b = true := classFirst_trans isExactPlan

def noLower (p q : CompiledPlan) : Bool := classFirst isExactPlan (fun p q => decide (q.precedence ≤ p.precedence)) p q

variable {q : CompiledPlan}

theorem noLower_iff : noLower p q = true ↔ (isExactPlan q = true → isExactPlan p = true)
      ∧ (isExactPlan p = isExactPlan q → q.precedence.toNat ≤ p.precedence.toNat) := by
  unfold noLower classFirst
  cases hp : isExactPlan p <;> cases hq : isExactPlan q <;> simp [UInt64.le_iff_toNat_le]

theorem noLower_trans {o : CompiledPlan} (hop : noLower o p = true) (hpq : noLower p q = true) : noLower o q = true := by
  rw [noLower_iff] at *
  refine ⟨fun hq => hop.1 (hpq.1 hq), fun hoq => ?_⟩
  -- what lies between plans of one class is of that class
  have hclass : isExactPlan p = isExactPlan q := by cases hp : isExactPlan p <;> cases hq : isExactPlan q <;> simp_all
  exact (hpq.2 hclass).trans (hop.2 (hoq.trans hclass.symm))

theorem noLower_of_fineBefore (h : fineBefore attr r p q = true) : noLower p q = true := by
  rw [noLower_iff]
  unfold fineBefore classFirst at h
  split_ifs at h with hclass
  · have hbefore := (planBefore_iff _ _).1 (tieBreak_iff.1 h).1
    refine ⟨fun hq => hclass.trans hq, fun _ => ?_⟩
    omega
  · exact ⟨fun _ => h, fun heq => absurd heq hclass⟩

theorem fineBefore_of_not (h : fineBefore attr r p q = false) : fineBefore attr r q p = true := before_of_not h

theorem fineBefore_of_lower (hqp : noLower q p = false) : fineBefore attr r p q = true := by
  cases h : fineBefore attr r p q with
  | true => rfl
  | false =>
    have hback := noLower_of_fineBefore (fineBefore_of_not h)
    rw [hqp] at hback
    cases hback

theorem fineBefore_iff_of_tie (hpq : noLower p q = true) (hqp : noLower q p = true) : fineBefore attr r p q = true ↔
      p.ruleOrder < q.ruleOrder ∨ p.ruleOrder = q.ruleOrder ∧ meets attr r p ≤ meets attr r q := by
  rw [noLower_iff] at hpq hqp
  have hclass := Bool.eq_iff_iff.2 ⟨hqp.1, hpq.1⟩
  have hprecedence := le_antisymm (hqp.2 hclass.symm) (hpq.2 hclass)
  simp only [fineBefore, classFirst, if_pos hclass, tieBreak_iff, planBefore_iff]
  omega

end SunbeamProxy
