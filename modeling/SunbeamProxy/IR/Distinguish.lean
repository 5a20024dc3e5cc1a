/-
What route tables can tell apart.
-/
import SunbeamProxy.IR.Hosts

namespace SunbeamProxy

open CompiledRouteTable

def oneHost (rules : List Rule) : HostRoute := { hostname := .any, rules }

theorem lookup_oneHost (ω : IterOrder) (re : RegexEngine) (rules : List Rule) (r : RouteRequest) :
    (compile ω { hosts := [oneHost rules] }).lookup re r = (compileHost ω (oneHost rules)).lookup re r := by
  have hchosen : chosenRoute ω [oneHost rules] r.host r.port = some (oneHost rules) :=
    chosenRoute_of_only (List.mem_singleton_self _) rfl (fun _ => rfl) fun h' hmem _ => List.mem_singleton.1 hmem
  rw [lookup, findHostNode_eq]
  rfl

section Mark

variable (act : Action) (m : RequestMatch)

def markRule : Rule := { matches_ := List.replicate (discriminatorThreshold + 1) m, action := act }

def restRule : Rule := { matches_ := [{}], action := act, ruleOrder := 1 }

def markPlan : CompiledPlan := compilePlan (markRule act m) (computePrecedence (markRule act m)) m false false none

def restPlan : CompiledPlan := compilePlan (restRule act) (computePrecedence (restRule act)) {} false false none

def markTable : RouteTable := { hosts := [oneHost [markRule act m, restRule act]] }

def markPlans : List CompiledPlan := List.replicate (discriminatorThreshold + 1) (markPlan act m) ++ [restPlan act]

theorem mem_markPlans {p : CompiledPlan} : p ∈ markPlans act m ↔ p = markPlan act m ∨ p = restPlan act := by simp [markPlans]

theorem markPlan_ne_restPlan : markPlan act m ≠ restPlan act := by
  intro h
  have horder := congrArg CompiledPlan.ruleOrder h
  simp [markPlan, restPlan, markRule, restRule] at horder

theorem rest_not_before_mark : planBefore (restPlan act) (markPlan act m) = false := by
  have hprec : (restPlan act).precedence.toNat = 0 := by simp [restPlan, computePrecedence, restRule, maxOf]
  rw [Bool.eq_false_iff, ne_eq, planBefore_iff, hprec]
  simp [markPlan, restPlan, markRule, restRule]

theorem restPlan_holds (re : RegexEngine) (r : RouteRequest) : (restPlan act).matches_.Holds re r := by
  rw [restPlan]
  exact ⟨by simp, by simp, by simp, by simp⟩

theorem restPlan_visible (ω : IterOrder) (r : RouteRequest) : Visible ω (markPlans act m) r (restPlan act) := by
  rintro - ⟨a, v, -, hbucket, -⟩
  cases a <;> simp [Attribute.bucket, methodBucket, restPlan, headerBucket, queryBucket] at hbucket

variable {act m} {ω : IterOrder} {re : RegexEngine} {r : RouteRequest}

theorem lookup_markTable_mem {p : CompiledPlan}
    (h : (compileHost ω (oneHost [markRule act m, restRule act])).lookup re r = some p) :
    p = markPlan act m ∨ p = restPlan act := by
  have hmem := (host_lookup_sound h).1
  exact (mem_markPlans act m).1 hmem

theorem lookup_mark (hholds : m.Holds re r) (hvis : Visible ω (markPlans act m) r (markPlan act m)) :
    (compile ω (markTable act m)).lookup re r = some (markPlan act m) := by
  have hmem : markPlan act m ∈ hostPlans (oneHost [markRule act m, restRule act]) := by exact (mem_markPlans act m).2 (.inl rfl)
  have hmark : (markPlan act m).matches_.Holds re r := by
    rw [markPlan, compilePlan_matches]
    exact hholds
  rw [markTable, lookup_oneHost]
  obtain ⟨p, hp⟩ := Option.isSome_iff_exists.1 (host_lookup_isSome_iff.2 ⟨_, hmem, hmark, hvis⟩)
  rcases lookup_markTable_mem hp with rfl | rfl
  · exact hp
  · have hrest : ¬ (restPlan act).matches_.IsExact := by simp [restPlan, RequestMatch.IsExact]
    have hclass := fun e => hrest (host_lookup_isExact hp hmem hmark e)
    have hbest := host_lookup_best hp hmem hmark hvis (iff_of_false hclass hrest)
    rw [rest_not_before_mark] at hbest
    cases hbest

theorem lookup_rest (h : m.Holds re r → ¬ Visible ω (markPlans act m) r (markPlan act m)) :
    (compile ω (markTable act m)).lookup re r = some (restPlan act) := by
  have hmem : restPlan act ∈ hostPlans (oneHost [markRule act m, restRule act]) := by exact (mem_markPlans act m).2 (.inr rfl)
  have hvis := restPlan_visible act m ω r
  rw [markTable, lookup_oneHost]
  obtain ⟨p, hp⟩ := Option.isSome_iff_exists.1 (host_lookup_isSome_iff.2 ⟨_, hmem, restPlan_holds act re r, hvis⟩)
  rcases lookup_markTable_mem hp with rfl | rfl
  · have hholds := (host_lookup_sound hp).2
    rw [markPlan, compilePlan_matches] at hholds
    exact absurd (host_lookup_visible hp) (h hholds)
  · exact hp

end Mark

theorem countOccurrences_replicate (n : String) (k : ℕ) : (countOccurrences (List.replicate (k + 1) n)).pairs = [(n, k + 1)] := by
  have hfold : ∀ k c, (List.replicate k n).foldl (fun m x => m.insert x ((HashMap.get m x).getD 0 + 1))
      (AList.singleton n c : HashMap String ℕ) = AList.singleton n (c + k) := by
    intro k
    induction k with
    | zero => intro c; rfl
    | succ k ih =>
      intro c
      have hget : HashMap.get (AList.singleton n c : HashMap String ℕ) n = some c := AList.lookup_insert (∅ : HashMap String ℕ)
      rw [List.replicate_succ, List.foldl_cons, hget, Option.getD_some, AList.insert_singleton_eq, ih]
      congr 1
      omega
  rw [countOccurrences, List.replicate_succ, List.foldl_cons, HashMap.get_empty, AList.insert_empty, hfold]
  simp [HashMap.pairs, Nat.add_comm]

/-! ### The three attributes -/

section Attributes

variable (act : Action) (ω : IterOrder)

theorem methodCount_mark (m : RequestMatch) : (markPlans act m).countP (fun p => p.matches_.method.isSome)
      = if m.method.isSome then discriminatorThreshold + 1 else 0 := by
  cases hm : m.method <;> simp [markPlans, markPlan, restPlan, hm, List.countP_replicate]

theorem nameCount_mark (m : RequestMatch) (names : RequestMatch → List String) (hrest : names {} = [])
    (o : Option String) (hm : names m = o.toList) :
    (countOccurrences ((markPlans act m).flatMap fun p => names p.matches_)).pairs
      = (o.map fun n => (n, discriminatorThreshold + 1)).toList := by
  have hnames : ((markPlans act m).flatMap fun p => names p.matches_)
      = (List.replicate (discriminatorThreshold + 1) o.toList).flatten := by
    simp [markPlans, markPlan, restPlan, hrest, hm, List.flatMap_replicate]
  rw [hnames]
  cases o with
  | none => rfl
  | some n =>
    rw [Option.toList_some, List.flatten_replicate_singleton, countOccurrences_replicate]
    rfl

theorem splitAttribute_mark (m : RequestMatch) (header query : Option String)
    (hh : m.headers.map (·.name) = header.toList) (hq : m.queryParams.map (·.name) = query.toList) :
    splitAttribute ω (markPlans act m) = match m.method, header, query with
      | some _, _, _ => some .method
      | none, some name, _ => some (.header name)
      | none, none, some name => some (.query name)
      | none, none, none => none := by
  have hheader := nameCount_mark act m (fun m => m.headers.map (·.name)) rfl header hh
  have hquery := nameCount_mark act m (fun m => m.queryParams.map (·.name)) rfl query hq
  simp only [splitAttribute, countHeaderOccurrences, countQueryOccurrences, methodCount_mark, hheader, hquery]
  cases m.method <;> cases header <;> cases query <;> simp [maxByKey]

theorem plansUnder_mark {m : RequestMatch} (hpath : m.path = none) :
    plansUnder (markPlans act m) (trieKey (markPlan act m)) = markPlans act m := by
  have hnone : ∀ p ∈ markPlans act m, p.matches_.path = none := by
    intro p hp
    rcases (mem_markPlans act m).1 hp with rfl | rfl <;> simp [markPlan, hpath, restPlan]
  have hkey : trieKey (markPlan act m) = [] := by simp [trieKey, markPlan, hpath]
  rw [hkey]
  refine (List.filter_eq_self.2 fun p hp => ?_).trans (List.filter_eq_self.2 fun p hp => ?_)
  · simp [trieKey, hnone p (List.mem_filter.1 hp).1]
  · simp [isTriePlan, hnone p hp]

theorem nodeAttribute_mark {m : RequestMatch} (hpath : m.path = none) :
    nodeAttribute ω (plansUnder (markPlans act m) (trieKey (markPlan act m))) = splitAttribute ω (markPlans act m) := by
  rw [plansUnder_mark act hpath, nodeAttribute]
  simp [markPlans]

end Attributes

/-! ## Separation -/

def PlanOf (act : Action) (p : CompiledPlan) : Prop :=
  ∃ rule precedence m g d lh, rule.action = act ∧ p = compilePlan rule precedence m g d lh

/-- some table of rules with that action sends the two requests to different plans, whatever the hash order -/
def Separated (re : RegexEngine) (act : Action) (r₁ r₂ : RouteRequest) : Prop :=
  ∃ ir p₁ p₂, p₁ ≠ p₂ ∧ PlanOf act p₁ ∧ PlanOf act p₂ ∧ ∀ ω : IterOrder,
    (compile ω ir).lookup re r₁ = some p₁ ∧ (compile ω ir).lookup re r₂ = some p₂

section Separation

variable {re : RegexEngine} {act : Action} {r₁ r₂ : RouteRequest}

theorem Separated.symm (h : Separated re act r₁ r₂) : Separated re act r₂ r₁ := by
  obtain ⟨ir, p₁, p₂, hne, h₁, h₂, hl⟩ := h
  exact ⟨ir, p₂, p₁, hne.symm, h₂, h₁, fun ω => (hl ω).symm⟩

theorem planOf_mark (m : RequestMatch) : PlanOf act (markPlan act m) := ⟨_, _, _, _, _, _, rfl, rfl⟩

theorem planOf_rest : PlanOf act (restPlan act) := ⟨_, _, _, _, _, _, rfl, rfl⟩

theorem separated_of_mark {m : RequestMatch} (hholds : m.Holds re r₁)
    (h₁ : ∀ ω : IterOrder, Visible ω (markPlans act m) r₁ (markPlan act m))
    (h₂ : ∀ ω : IterOrder, m.Holds re r₂ → ¬ Visible ω (markPlans act m) r₂ (markPlan act m)) :
    Separated re act r₁ r₂ :=
  ⟨markTable act m, _, _, markPlan_ne_restPlan act m, planOf_mark m, planOf_rest,
    fun ω => ⟨lookup_mark hholds (h₁ ω), lookup_rest (h₂ ω)⟩⟩

theorem separated_of_attribute {m : RequestMatch} {a : Attribute} {v : String} (hpath : m.path = none)
    (hsplit : ∀ ω : IterOrder, splitAttribute ω (markPlans act m) = some a)
    (hmark : a.bucket (markPlan act m) = .exact v) (hholds : m.Holds re r₁) (h₁ : a.value r₁ = some v)
    (h₂ : a.value r₂ ≠ some v) : Separated re act r₁ r₂ := by
  have hnode : ∀ ω : IterOrder, nodeAttribute ω (plansUnder (markPlans act m) (trieKey (markPlan act m))) = some a := by
    intro ω
    rw [nodeAttribute_mark act ω hpath, hsplit]
  refine separated_of_mark hholds (fun ω => ?_) fun ω _ hvis => ?_
  · rintro - ⟨a', v', ha, hbucket, hne⟩
    rw [hnode ω] at ha
    cases ha
    rw [hmark] at hbucket
    cases hbucket
    exact hne h₁
  · have htrie : isTriePlan (markPlan act m) = true := by simp [isTriePlan, markPlan, hpath]
    exact hvis htrie ⟨a, v, hnode ω, hmark, h₂⟩

theorem separated_of_method (h : r₁.method ≠ r₂.method) : Separated re act r₁ r₂ := by
  refine separated_of_attribute (m := { method := some r₁.method }) rfl
    (fun ω => splitAttribute_mark act ω _ none none rfl rfl) (v := r₁.method) ?_ ⟨by simp, ?_, by simp, by simp⟩ rfl
    fun e => h (Option.some.inj e).symm
  · simp [Attribute.bucket, methodBucket, markPlan]
  · simp [Text.eqIgnoreAsciiCase_refl]

theorem separated_of_header {n v : String} (h₁ : r₁.headerStr n = some v) (h₂ : r₂.headerStr n ≠ some v) :
    Separated re act r₁ r₂ := by
  refine separated_of_attribute (m := { headers := [⟨n, .exact v⟩] }) rfl
    (fun ω => splitAttribute_mark act ω _ (some n) none rfl rfl) ?_ ⟨by simp, by simp, ?_, by simp⟩ h₁ h₂
  · simp [Attribute.bucket, headerBucket, markPlan]
  · simp [h₁, headerMatches, Text.eqIgnoreAsciiCase_refl]

theorem separated_of_query {n v : String} (h₁ : r₁.queryParam n = some v) (h₂ : r₂.queryParam n ≠ some v) :
    Separated re act r₁ r₂ := by
  refine separated_of_attribute (m := { queryParams := [⟨n, .exact v⟩] }) rfl
    (fun ω => splitAttribute_mark act ω _ none (some n) rfl rfl) ?_ ⟨by simp, by simp, by simp, ?_⟩ h₁ h₂
  · simp [Attribute.bucket, queryBucket, markPlan]
  · simp [h₁, queryMatches]

theorem exists_some_of_ne {α : Type} {a b : Option α} (h : a ≠ b) :
    (∃ v, a = some v ∧ b ≠ some v) ∨ ∃ v, b = some v ∧ a ≠ some v := by
  cases a with
  | some v => exact .inl ⟨v, rfl, fun e => h e.symm⟩
  | none =>
    cases b with
    | some v => exact .inr ⟨v, rfl, by simp⟩
    | none => exact absurd rfl h

theorem separated_of_path (h : r₁.path ≠ r₂.path) : Separated re act r₁ r₂ := by
  -- an exact path is looked up before the trie, so nothing hides the mark
  refine separated_of_mark (m := { path := some (.exact r₁.path) }) ⟨?_, by simp, by simp, by simp⟩ (fun ω htrie => ?_)
    fun ω hholds => absurd (hholds.path _ rfl).symm h
  · simp [PathMatch.Holds]
  · simp [isTriePlan, markPlan] at htrie

/-! ### Listeners -/

def listenerHost (act : Action) (host : String) (port : UInt16) (order : ℕ) : HostRoute :=
  { hostname := .exact host, listenerPort := some port, rules := [{ restRule act with ruleOrder := order }] }

def listenerPlan (act : Action) (order : ℕ) : CompiledPlan :=
  compilePlan { restRule act with ruleOrder := order } (computePrecedence { restRule act with ruleOrder := order }) {}
    false false none

theorem listenerHost_lookup (ω : IterOrder) (host : String) (port : UInt16) (order : ℕ) (r : RouteRequest) :
    (compileHost ω (listenerHost act host port order)).lookup re r = some (listenerPlan act order) := by
  have hplans : hostPlans (listenerHost act host port order) = [listenerPlan act order] := by
    simp [hostPlans, listenerHost, listenerPlan, restRule]
  have hholds : (listenerPlan act order).matches_.Holds re r := by
    rw [listenerPlan]
    exact ⟨by simp, by simp, by simp, by simp⟩
  exact host_lookup_of_one hplans hholds

def listenerTable (act : Action) (r₁ r₂ : RouteRequest) : RouteTable :=
  { hosts := [listenerHost act r₁.host r₁.port 0, listenerHost act r₂.host r₂.port 1] }

theorem serves_listenerHost {host : String} {port : UInt16} {order : ℕ} {r : RouteRequest} :
    (listenerHost act host port order).serves r.host r.port = true ↔ r.host = host ∧ r.port = port := by
  simp [HostRoute.serves, HostRoute.onListener, listenerHost, irHostnameMatches, listenerHostnameMatches,
    listenerPortMatches, eq_comm (a := port)]

theorem lookup_listenerHost {ir : RouteTable} {order : ℕ} {r : RouteRequest} (ω : IterOrder)
    (hmem : listenerHost act r.host r.port order ∈ ir.hosts)
    (honly : ∀ h ∈ ir.hosts, h.serves r.host r.port = true → h = listenerHost act r.host r.port order) :
    (compile ω ir).lookup re r = some (listenerPlan act order) := by
  have hchosen := chosenRoute_of_only (ω := ω) hmem (serves_listenerHost.2 ⟨rfl, rfl⟩) (by simp [listenerHost]) honly
  exact lookup_eq_some_iff.2 ⟨_, hchosen, listenerHost_lookup ω ..⟩

theorem separated_of_listener (h : r₁.host ≠ r₂.host ∨ r₁.port ≠ r₂.port) : Separated re act r₁ r₂ := by
  have hne : listenerPlan act 0 ≠ listenerPlan act 1 := by
    intro e
    have horder := congrArg CompiledPlan.ruleOrder e
    simp [listenerPlan] at horder
  refine ⟨listenerTable act r₁ r₂, listenerPlan act 0, listenerPlan act 1, hne, ⟨_, _, _, _, _, _, rfl, rfl⟩,
    ⟨_, _, _, _, _, _, rfl, rfl⟩, fun ω => ⟨?_, ?_⟩⟩
  · refine lookup_listenerHost ω (by simp [listenerTable]) fun h' hmem hserves => ?_
    rcases List.mem_pair.1 hmem with rfl | rfl
    · rfl
    · obtain ⟨hhost, hport⟩ := serves_listenerHost.1 hserves
      exact absurd ⟨hhost, hport⟩ (not_and_or.2 h)
  · refine lookup_listenerHost ω (by simp [listenerTable]) fun h' hmem hserves => ?_
    rcases List.mem_pair.1 hmem with rfl | rfl
    · obtain ⟨hhost, hport⟩ := serves_listenerHost.1 hserves
      exact absurd ⟨hhost.symm, hport.symm⟩ (not_and_or.2 h)
    · rfl

theorem separated_of_not_alike (h : ¬ RoutesAlike r₁ r₂) : Separated re act r₁ r₂ := by
  by_contra hsep
  apply h
  refine ⟨?_, ?_, ?_, ?_, fun n => ?_, fun n => ?_⟩
  · by_contra hne
    exact hsep (separated_of_listener (.inl hne))
  · by_contra hne
    exact hsep (separated_of_listener (.inr hne))
  · by_contra hne
    exact hsep (separated_of_path hne)
  · by_contra hne
    exact hsep (separated_of_method hne)
  · by_contra hne
    rcases exists_some_of_ne hne with ⟨v, h₁, h₂⟩ | ⟨v, h₂, h₁⟩
    · exact hsep (separated_of_header h₁ h₂)
    · exact hsep (separated_of_header h₂ h₁).symm
  · by_contra hne
    rcases exists_some_of_ne hne with ⟨v, h₁, h₂⟩ | ⟨v, h₂, h₁⟩
    · exact hsep (separated_of_query h₁ h₂)
    · exact hsep (separated_of_query h₂ h₁).symm

end Separation

end SunbeamProxy
