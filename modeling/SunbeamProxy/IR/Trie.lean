/-
The compiled host against the flat list of its plans.
-/
import SunbeamProxy.Core.Selection
import SunbeamProxy.IR.Lookup

namespace SunbeamProxy

open List

variable (rule : Rule) (precedence : UInt64) (m : RequestMatch) (g d : Bool) (lh : Option HostnameMatch)

@[simp]
theorem compilePlan_matches : (compilePlan rule precedence m g d lh).matches_ = m := by
  unfold compilePlan
  cases rule.action <;> rfl

@[simp]
theorem compilePlan_ruleOrder : (compilePlan rule precedence m g d lh).ruleOrder = rule.ruleOrder := by
  unfold compilePlan
  cases rule.action <;> rfl

@[simp]
theorem compilePlan_precedence : (compilePlan rule precedence m g d lh).precedence = precedence := by
  unfold compilePlan
  cases rule.action <;> rfl

variable {p : CompiledPlan}

theorem mem_hostPlans {host : HostRoute} :
    p ∈ hostPlans host ↔ ∃ rule ∈ host.rules, ∃ m ∈ rule.matches_, p = compilePlan rule (computePrecedence rule) m
      host.gatewayApi host.disableSecureRedirection host.listenerHostname := by
  simp [hostPlans, eq_comm]

theorem bind_find?_eq {α : Type} (x : Option (List α)) (p : α → Bool) : (x.bind fun l => l.find? p) = (x.getD []).find? p := by
  cases x <;> rfl

theorem get_exactPathPlans (plans : List CompiledPlan) (path : String) :
    ((exactPathPlans plans).get path).getD [] = sortPlans (plans.filter fun p => exactPath p = some path) := by
  have hpush := HashMap.get_pushAll exactPath plans ∅ path
  simp only [HashMap.get_empty, Option.getD_none, nil_append] at hpush
  rw [exactPathPlans, HashMap.get_mapValues, ← hpush]
  cases HashMap.get (HashMap.pushAll exactPath plans ∅) path <;> rfl

def trieKey (p : CompiledPlan) : List String :=
  match p.matches_.path with
  | some (.pathPrefix path) => splitPath path
  | _ => []

namespace PathTrieNode

def walk : List String → PathTrieNode → PathTrieNode
  | [], t => t
  | s :: ss, t => walk ss ((t.child s).getD empty)

def own (t : PathTrieNode) : PathTrieNode := { t with exactChildren := [] }

def addPlan (p : CompiledPlan) (t : PathTrieNode) : PathTrieNode := { t with prefixPlans := t.prefixPlans ++ [p] }

theorem walk_empty (k : List String) : walk k empty = empty := by
  induction k with
  | nil => rfl
  | cons s ss ih => exact ih

theorem lookup_cons_ite (k s : String) (c : PathTrieNode) (rest : List (String × PathTrieNode)) :
    ((k, c) :: rest).lookup s = if s = k then some c else rest.lookup s := by
  by_cases h : s = k
  · rw [h, lookup_cons_self, if_pos rfl]
  · rw [lookup_cons, beq_false_of_ne h, if_neg h]

theorem lookup_updateChild (s s' : String) (f : PathTrieNode → PathTrieNode) (children : List (String × PathTrieNode)) :
    (updateChild s f children).lookup s' = if s' = s then some (f ((children.lookup s).getD empty)) else children.lookup s' := by
  induction children with
  | nil => simp [updateChild, lookup_cons_ite]
  | cons e rest ih =>
    obtain ⟨k, c⟩ := e
    by_cases hk : k = s
    · subst hk
      simp only [updateChild, if_pos, lookup_cons_ite]
      split_ifs <;> rfl
    · simp only [updateChild, if_neg hk, lookup_cons_ite, if_neg (Ne.symm hk), ih]
      by_cases h : s' = k
      · subst h
        simp [hk]
      · simp [h]

theorem own_walk_updateAt (p : CompiledPlan) (key k : List String) (t : PathTrieNode) :
    own (walk k (updateAt key (addPlan p) t)) = if k = key then addPlan p (own (walk k t)) else own (walk k t) := by
  induction k generalizing key t with
  | nil => cases key <;> rfl
  | cons s' ss' ih =>
    cases key with
    | nil => rfl
    | cons s ss =>
      rw [updateAt, walk, child, lookup_updateChild]
      by_cases h : s' = s
      · subst h
        rw [if_pos rfl, Option.getD_some, ih]
        simp [walk, child]
      · rw [if_neg h, if_neg (by simp [h])]
        rfl

end PathTrieNode

open PathTrieNode

theorem insertPlanIntoTrie_eq (h : isTriePlan p = true) (t : PathTrieNode) :
    insertPlanIntoTrie t p = t.updateAt (trieKey p) (addPlan p) := by
  cases hpath : p.matches_.path with
  | none =>
    simp only [insertPlanIntoTrie, trieKey, hpath]
    rfl
  | some m =>
    cases m with
    | pathPrefix path =>
      simp only [insertPlanIntoTrie, trieKey, hpath]
      rfl
    | exact path | regex pattern => simp [isTriePlan, hpath] at h

theorem own_walk_foldl (plans : List CompiledPlan) (h : ∀ p ∈ plans, isTriePlan p = true) (k : List String) (t : PathTrieNode) :
    own (walk k (plans.foldl insertPlanIntoTrie t))
      = { own (walk k t) with prefixPlans := (walk k t).prefixPlans ++ plans.filter fun p => trieKey p = k } := by
  induction plans generalizing t with
  | nil => simp [own]
  | cons p plans ih =>
    have htail := fun q hq => h q (mem_cons_of_mem _ hq)
    have hstep := own_walk_updateAt p (trieKey p) k t
    rw [foldl_cons, insertPlanIntoTrie_eq (h p (mem_cons_self ..))]
    by_cases hk : k = trieKey p
    · subst hk
      simp_all [own, addPlan]
    · simp_all [own, Ne.symm hk]

/-! ## Discriminators -/

def rootNode (ω : IterOrder) (plans : List CompiledPlan) : PathTrieNode := buildDiscriminators ω ⟨[], plans, [], none⟩

def nodePlans (ω : IterOrder) (plans : List CompiledPlan) (r : RouteRequest) : List CompiledPlan :=
  resolveNodePlans (rootNode ω plans) r

theorem lookup_buildChildDiscriminators (ω : IterOrder) (children : List (String × PathTrieNode)) (s : String) :
    (buildChildDiscriminators ω children).lookup s = (children.lookup s).map (buildDiscriminators ω) := by
  induction children with
  | nil => rfl
  | cons e rest ih =>
    rw [buildChildDiscriminators, lookup_cons_ite, lookup_cons_ite, ih]
    split_ifs <;> rfl

theorem buildDiscriminators_empty (ω : IterOrder) : buildDiscriminators ω PathTrieNode.empty = PathTrieNode.empty := by
  simp [PathTrieNode.empty, buildDiscriminators, buildChildDiscriminators]

theorem walk_comm {f : PathTrieNode → PathTrieNode} (hempty : f empty = empty) (hchild : ∀ t s, (f t).child s = (t.child s).map f)
    (k : List String) (t : PathTrieNode) : walk k (f t) = f (walk k t) := by
  induction k generalizing t with
  | nil => rfl
  | cons s ss ih =>
    have hnext : ((f t).child s).getD empty = f ((t.child s).getD empty) := by
      rw [hchild]
      cases t.child s with
      | none => exact hempty.symm
      | some c => rfl
    rw [walk, hnext, ih]
    rfl

theorem walk_buildDiscriminators (ω : IterOrder) (k : List String) (t : PathTrieNode) :
    walk k (buildDiscriminators ω t) = buildDiscriminators ω (walk k t) := by
  refine walk_comm (buildDiscriminators_empty ω) ?_ k t
  intro t s
  obtain ⟨children, pp, ep, d⟩ := t
  rw [buildDiscriminators, child, lookup_buildChildDiscriminators, child]

theorem own_buildDiscriminators (ω : IterOrder) (t : PathTrieNode) :
    own (buildDiscriminators ω t) = buildDiscriminators ω (own t) := by
  obtain ⟨children, pp, ep, d⟩ := t
  simp [own, buildDiscriminators, buildChildDiscriminators]

theorem resolveNodePlans_own (t : PathTrieNode) (r : RouteRequest) : resolveNodePlans (own t) r = resolveNodePlans t r := rfl

theorem trieCandidates_eq (r : RouteRequest) (t : PathTrieNode) (segments : List String) :
    trieCandidates r t segments = segments.inits.flatMap fun k => resolveNodePlans (walk k t) r := by
  have hnone : ∀ l : List (List String), l.flatMap (fun k => resolveNodePlans (walk k empty) r) = [] := by
    intro l
    rw [flatMap_eq_nil_iff]
    intro k _
    rw [walk_empty]
    rfl
  induction segments generalizing t with
  | nil => simp [trieCandidates, walk]
  | cons s ss ih =>
    rw [trieCandidates, inits_cons, flatMap_cons, flatMap_map]
    cases hc : t.child s <;> simp only [walk, hc, Option.getD_none, hnone, Option.getD_some, ih]

/-! ### What a crowded node is split by -/

inductive Attribute where
  | method
  | header (name : String)
  | query (name : String)
deriving DecidableEq, Repr

namespace Attribute

def bucket : Attribute → CompiledPlan → Bucket
  | .method => methodBucket
  | .header name => headerBucket name
  | .query name => queryBucket name

def value : Attribute → RouteRequest → Option String
  | .method, r => some r.method
  | .header name, r => r.headerStr name
  | .query name, r => r.queryParam name

end Attribute

def splitAttribute (ω : IterOrder) (plans : List CompiledPlan) : Option Attribute :=
  let methodCount := plans.countP fun p => p.matches_.method.isSome
  let bestHeader := maxByKey Prod.snd (ω.order (countHeaderOccurrences plans).pairs)
  let bestQuery := maxByKey Prod.snd (ω.order (countQueryOccurrences plans).pairs)
  let headerCount := (bestHeader.map Prod.snd).getD 0
  let queryCount := (bestQuery.map Prod.snd).getD 0
  if headerCount ≤ methodCount ∧ queryCount ≤ methodCount ∧ 0 < methodCount then some .method
  else match (if queryCount ≤ headerCount then bestHeader else none), bestQuery with
    | some (name, _), _ => some (.header name)
    | none, some (name, _) => some (.query name)
    | none, none => none

theorem buildDiscriminator_eq (ω : IterOrder) (plans : List CompiledPlan) :
    buildDiscriminator ω plans = match splitAttribute ω plans with
      | some .method => buildMethodDiscriminator plans
      | some (.header name) => buildHeaderDiscriminator plans name
      | some (.query name) => buildQueryDiscriminator plans name
      | none => ⟨.byMethod ∅ [], plans⟩ := by
  simp only [buildDiscriminator, splitAttribute]
  generalize maxByKey Prod.snd (ω.order (countHeaderOccurrences plans).pairs) = bestHeader
  generalize maxByKey Prod.snd (ω.order (countQueryOccurrences plans).pairs) = bestQuery
  split_ifs
  · rfl
  · cases bestHeader <;> cases bestQuery <;> rfl
  · cases bestQuery <;> rfl

def nodeAttribute (ω : IterOrder) (plans : List CompiledPlan) : Option Attribute :=
  if discriminatorThreshold < plans.length then splitAttribute ω plans else none

def splitPlans (bucket : CompiledPlan → Bucket) (plans : List CompiledPlan) (value : Option String)
    (fallback : List CompiledPlan) : List CompiledPlan :=
  bucketAt (exactBuckets bucket plans) value ++ bucketOf bucket .any plans ++ fallback

theorem bucketOf_method_fallback (plans : List CompiledPlan) : bucketOf methodBucket .fallback plans = [] := by
  have hnone : (plans.filter fun p => methodBucket p = .fallback) = [] := by
    rw [filter_eq_nil_iff]
    intro p _
    cases hm : p.matches_.method <;> simp [methodBucket, hm]
  rw [bucketOf, hnone]
  rfl

theorem nodePlans_eq (ω : IterOrder) (plans : List CompiledPlan) (r : RouteRequest) :
    nodePlans ω plans r = match nodeAttribute ω plans with
      | none => plans
      | some a => splitPlans a.bucket plans (a.value r) (bucketOf a.bucket .fallback plans) := by
  by_cases hlen : discriminatorThreshold < plans.length
  · have hnode : (rootNode ω plans).discriminator = some (buildDiscriminator ω plans) := by
      simp [rootNode, buildDiscriminators, hlen]
    rw [nodePlans, resolveNodePlans, hnode, nodeAttribute, if_pos hlen, buildDiscriminator_eq]
    cases splitAttribute ω plans with
    | none => simp [bucketAt]
    | some a =>
      cases a with
      | method => simp [buildMethodDiscriminator, splitPlans, Attribute.bucket, Attribute.value, bucketOf_method_fallback]
      | header name | query name => rfl
  · have hnode : (rootNode ω plans).discriminator = none := by simp [rootNode, buildDiscriminators, hlen]
    rw [nodePlans, resolveNodePlans, hnode, nodeAttribute, if_neg hlen]
    simp [rootNode, buildDiscriminators]

variable {plans : List CompiledPlan}

theorem mem_bucketOf {bucket : CompiledPlan → Bucket} {b : Bucket} : p ∈ bucketOf bucket b plans ↔ p ∈ plans ∧ bucket p = b := by
  simp [bucketOf, sortPlans]

theorem mem_bucketAt {bucket : CompiledPlan → Bucket} {value : Option String} :
    p ∈ bucketAt (exactBuckets bucket plans) value ↔ ∃ x, value = some x ∧ p ∈ plans ∧ bucket p = .exact x := by
  cases value with
  | none => simp [bucketAt]
  | some x =>
    rw [bucketAt, Option.bind_some, get_exactBuckets, mem_bucketOf]
    simp

/-- the node with these plans keeps `p` from the request: `p` asks for an exact value that the request does not have
verbatim -/
def Hides (ω : IterOrder) (plans : List CompiledPlan) (r : RouteRequest) (p : CompiledPlan) : Prop :=
  ∃ a v, nodeAttribute ω plans = some a ∧ a.bucket p = .exact v ∧ a.value r ≠ some v

variable {ω : IterOrder}

theorem hides_iff {a : Attribute} (ha : nodeAttribute ω plans = some a) (r : RouteRequest) (p : CompiledPlan) :
    Hides ω plans r p ↔ ∃ v, a.bucket p = .exact v ∧ a.value r ≠ some v := by
  simp [Hides, ha]

theorem not_hides_of_none (ha : nodeAttribute ω plans = none) (r : RouteRequest) (p : CompiledPlan) : ¬ Hides ω plans r p := by
  simp [Hides, ha]

theorem mem_nodePlans {r : RouteRequest} : p ∈ nodePlans ω plans r ↔ p ∈ plans ∧ ¬ Hides ω plans r p := by
  rw [nodePlans_eq]
  cases ha : nodeAttribute ω plans with
  | none => simp [not_hides_of_none ha]
  | some a =>
    rw [hides_iff ha]
    simp only [splitPlans, mem_append, mem_bucketAt, mem_bucketOf]
    cases hb : a.bucket p <;> simp [and_comm]

def plansUnder (plans : List CompiledPlan) (k : List String) : List CompiledPlan :=
  (plans.filter isTriePlan).filter fun p => trieKey p = k

def regexMatches (re : RegexEngine) (plans : List CompiledPlan) (r : RouteRequest) : List CompiledPlan :=
  (sortPlans (plans.filter isRegexPlan)).filter fun p => planMatches re p r && planRegexPathMatches re p r.path

def candidates (ω : IterOrder) (re : RegexEngine) (plans : List CompiledPlan) (r : RouteRequest) : List CompiledPlan :=
  ((splitPath r.path).inits.flatMap fun k => nodePlans ω (plansUnder plans k) r) ++ regexMatches re plans r

theorem own_walk_compileHost (ω : IterOrder) (host : HostRoute) (k : List String) :
    own (walk k (compileHost ω host).pathTrie) = rootNode ω (plansUnder (hostPlans host) k) := by
  have hbare := own_walk_foldl ((hostPlans host).filter isTriePlan) (fun p hp => (mem_filter.1 hp).2) k
  have htree : (compileHost ω host).pathTrie = buildDiscriminators ω
      (((hostPlans host).filter isTriePlan).foldl insertPlanIntoTrie PathTrieNode.empty) := rfl
  rw [htree, walk_buildDiscriminators, own_buildDiscriminators, hbare, walk_empty]
  rfl

theorem compileHost_trieCandidates (ω : IterOrder) (host : HostRoute) (r : RouteRequest) (segments : List String) :
    trieCandidates r (compileHost ω host).pathTrie segments
      = segments.inits.flatMap fun k => nodePlans ω (plansUnder (hostPlans host) k) r := by
  rw [trieCandidates_eq]
  simp [← resolveNodePlans_own (walk _ _), own_walk_compileHost, nodePlans]

/-- **The compiled host.** A plan with the request's exact path, or else the best candidate. -/
theorem compileHost_lookup_eq (ω : IterOrder) (re : RegexEngine) (host : HostRoute) (r : RouteRequest) :
    (compileHost ω host).lookup re r =
      (firstBest planBefore (planMatches re · r) ((hostPlans host).filter fun p => exactPath p = some r.path)).or
        (firstBest planBefore (planMatches re · r) (candidates ω re (hostPlans host) r)) := by
  have hexact : (compileHost ω host).exactPaths = exactPathPlans (hostPlans host) := rfl
  have hregex : (compileHost ω host).regexPlans = sortPlans ((hostPlans host).filter isRegexPlan) := rfl
  unfold HostNode.lookup HostNode.regexCandidates
  simp only [hexact, bind_find?_eq, get_exactPathPlans, compileHost_trieCandidates, sortPlans, find?_stableSort_eq]
  rfl

mutual

theorem totalPlanCount_buildDiscriminators (ω : IterOrder) :
    ∀ t : PathTrieNode, (buildDiscriminators ω t).totalPlanCount = t.totalPlanCount
  | ⟨children, pp, ep, d⟩ => by
    rw [buildDiscriminators, totalPlanCount, totalPlanCount, childrenPlanCount_buildChildDiscriminators ω children]

theorem childrenPlanCount_buildChildDiscriminators (ω : IterOrder) : ∀ children : List (String × PathTrieNode),
      childrenPlanCount (buildChildDiscriminators ω children) = childrenPlanCount children
  | [] => rfl
  | (k, c) :: rest => by
    rw [buildChildDiscriminators, childrenPlanCount, childrenPlanCount, totalPlanCount_buildDiscriminators ω c,
      childrenPlanCount_buildChildDiscriminators ω rest]

end

theorem childrenPlanCount_updateChild {f : PathTrieNode → PathTrieNode}
    (hf : ∀ t, (f t).totalPlanCount = t.totalPlanCount + 1) (s : String) (children : List (String × PathTrieNode)) :
    childrenPlanCount (updateChild s f children) = childrenPlanCount children + 1 := by
  induction children with
  | nil =>
    simp only [updateChild, childrenPlanCount, hf]
    rfl
  | cons e rest ih =>
    rw [updateChild]
    split_ifs
    · simp only [childrenPlanCount, hf]
      omega
    · simp only [childrenPlanCount]
      omega

theorem totalPlanCount_updateAt (p : CompiledPlan) (key : List String) (t : PathTrieNode) :
    (updateAt key (addPlan p) t).totalPlanCount = t.totalPlanCount + 1 := by
  induction key generalizing t with
  | nil =>
    obtain ⟨children, pp, ep, d⟩ := t
    simp only [updateAt, addPlan, totalPlanCount, length_append, length_singleton]
    omega
  | cons s ss ih =>
    obtain ⟨children, pp, ep, d⟩ := t
    simp only [updateAt, totalPlanCount, childrenPlanCount_updateChild ih]
    omega

theorem totalPlanCount_foldl (plans : List CompiledPlan) (h : ∀ p ∈ plans, isTriePlan p = true) (t : PathTrieNode) :
    (plans.foldl insertPlanIntoTrie t).totalPlanCount = t.totalPlanCount + plans.length := by
  induction plans generalizing t with
  | nil => rfl
  | cons p plans ih =>
    rw [foldl_cons, ih fun q hq => h q (mem_cons_of_mem _ hq), insertPlanIntoTrie_eq (h p (mem_cons_self ..)),
      totalPlanCount_updateAt, length_cons]
    omega

theorem rulesCount_compileHost (ω : IterOrder) (host : HostRoute) : (compileHost ω host).rulesCount
      = ((hostPlans host).filter isTriePlan).length + ((hostPlans host).filter isRegexPlan).length := by
  have htrie : (compileHost ω host).pathTrie.totalPlanCount = ((hostPlans host).filter isTriePlan).length := by
    have hfold := totalPlanCount_foldl ((hostPlans host).filter isTriePlan) (fun p hp => (mem_filter.1 hp).2) PathTrieNode.empty
    rw [PathTrieNode.empty, totalPlanCount] at hfold
    rw [compileHost, totalPlanCount_buildDiscriminators, PathTrieNode.empty, hfold]
    simp [childrenPlanCount]
  rw [HostNode.rulesCount, htrie]
  exact congrArg _ (stableSort_perm planBefore _).length_eq

end SunbeamProxy
