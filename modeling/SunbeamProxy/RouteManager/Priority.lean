/-
Which source wins a conflict.

Merging walks the sources from the highest priority down. The first entry with a listener or certificate id stays; ACME entries
overwrite.
-/
import SunbeamProxy.Core.CanonicalOrder
import SunbeamProxy.IR.Hosts
import SunbeamProxy.RouteManager.Model

namespace SunbeamProxy

open List CompiledRouteTable

variable (priorities : HashMap SourceId ℤ)

/-- higher priority or, in a tie, the smaller source id -/
def Outranks (a b : SourceId) : Prop := priorityOf priorities b < priorityOf priorities a
    ∨ (priorityOf priorities a = priorityOf priorities b ∧ a < b)

def sourceRank (a : SourceId × RouteTable) : ℤᵒᵈ ×ₗ SourceId :=
  toLex (OrderDual.toDual (priorityOf priorities a.1), a.1)

theorem outranks_iff {priorities : HashMap SourceId ℤ} {a b : SourceId × RouteTable} :
    Outranks priorities a.1 b.1 ↔ sourceRank priorities a < sourceRank priorities b := by
  simp only [sourceRank, Prod.Lex.toLex_lt_toLex]
  rfl

theorem sourceBefore_eq :
    sourceBefore priorities = fun a b => decide (sourceRank priorities a ≤ sourceRank priorities b) := by
  funext a b
  rw [sourceBefore, Bool.eq_iff_iff, decide_eq_true_iff, sourceRank, sourceRank, Prod.Lex.toLex_le_toLex]
  simp

theorem not_outranks_of_outranks {priorities : HashMap SourceId ℤ} {a b : SourceId × RouteTable}
    (h : Outranks priorities a.1 b.1) : ¬ Outranks priorities b.1 a.1 := by
  rw [outranks_iff] at h ⊢
  exact lt_asymm h

section Ordered

variable {sources : HashMap SourceId RouteTable} {priorities : HashMap SourceId ℤ}

theorem stableSort_sourceBefore (l : List (SourceId × RouteTable)) :
    stableSort (sourceBefore priorities) l = sortByKey (sourceRank priorities) l := by
  rw [sourceBefore_eq, sortByKey]

theorem mem_orderedSources {a : SourceId × RouteTable} : a ∈ orderedSources sources priorities ↔ a ∈ sources.pairs :=
  mem_stableSort ..

theorem nodup_sourceRank (sources : HashMap SourceId RouteTable) (priorities : HashMap SourceId ℤ) :
    (sources.pairs.map (sourceRank priorities)).Nodup := by
  refine pairwise_map.2 ((pairwise_map.1 sources.nodup_keys_pairs).imp ?_)
  intro a b hne heq
  exact hne (congrArg (fun key => (ofLex key).2) heq)

theorem orderedSources_pairwise (sources : HashMap SourceId RouteTable) (priorities : HashMap SourceId ℤ) :
    (orderedSources sources priorities).Pairwise fun a b => Outranks priorities a.1 b.1 := by
  have hsorted : (orderedSources sources priorities).Pairwise fun a b => sourceRank priorities a ≤ sourceRank priorities b := by
    rw [orderedSources, stableSort_sourceBefore]
    exact sortByKey_pairwise _
  have hne : (orderedSources sources priorities).Pairwise fun a b => sourceRank priorities a ≠ sourceRank priorities b :=
    pairwise_map.1 (((stableSort_perm _ _).map _).nodup_iff.2 (nodup_sourceRank sources priorities))
  exact (hsorted.and hne).imp fun h => outranks_iff.2 (lt_of_le_of_ne h.1 h.2)

theorem orderedSources_split (priorities : HashMap SourceId ℤ) {a : SourceId × RouteTable} (h : a ∈ sources.pairs) :
    ∃ higher lower, orderedSources sources priorities = higher ++ a :: lower
      ∧ (∀ b ∈ higher, Outranks priorities b.1 a.1) ∧ ∀ b ∈ lower, Outranks priorities a.1 b.1 := by
  have hmem : a ∈ orderedSources sources priorities := mem_orderedSources.2 h
  obtain ⟨higher, lower, hsplit⟩ := append_of_mem hmem
  have hpair := orderedSources_pairwise sources priorities
  rw [hsplit, pairwise_append] at hpair
  exact ⟨higher, lower, hsplit, fun b hb => hpair.2.2 b hb a (mem_cons_self ..), fun b hb => rel_of_pairwise_cons hpair.2.1 hb⟩

/-- the source outranks every other one with the claim -/
structure Wins (sources : HashMap SourceId RouteTable) (priorities : HashMap SourceId ℤ) (claims : RouteTable → Prop)
    (a : SourceId × RouteTable) : Prop where
  recorded : a ∈ sources.pairs
  claimed : claims a.2
  outranks : ∀ b ∈ sources.pairs, claims b.2 → b ≠ a → Outranks priorities a.1 b.1

/-- every other source with the claim outranks this one -/
structure Yields (sources : HashMap SourceId RouteTable) (priorities : HashMap SourceId ℤ) (claims : RouteTable → Prop)
    (a : SourceId × RouteTable) : Prop where
  recorded : a ∈ sources.pairs
  claimed : claims a.2
  outranked : ∀ b ∈ sources.pairs, claims b.2 → b ≠ a → Outranks priorities b.1 a.1

variable {claims : RouteTable → Prop} {a : SourceId × RouteTable}

theorem Wins.split (h : Wins sources priorities claims a) :
    ∃ higher lower, orderedSources sources priorities = higher ++ a :: lower ∧ ∀ b ∈ higher, ¬ claims b.2 := by
  obtain ⟨higher, lower, hsplit, hhigher, -⟩ := orderedSources_split priorities h.recorded
  refine ⟨higher, lower, hsplit, fun b hb hclaims => ?_⟩
  have hba := hhigher b hb
  have hmem := mem_orderedSources.1 (hsplit ▸ mem_append_left _ hb)
  exact not_outranks_of_outranks hba (h.outranks b hmem hclaims fun heq => not_outranks_of_outranks hba (heq ▸ hba))

theorem Yields.split (h : Yields sources priorities claims a) :
    ∃ higher lower, orderedSources sources priorities = higher ++ a :: lower ∧ ∀ b ∈ lower, ¬ claims b.2 := by
  obtain ⟨higher, lower, hsplit, -, hlower⟩ := orderedSources_split priorities h.recorded
  refine ⟨higher, lower, hsplit, fun b hb hclaims => ?_⟩
  have hab := hlower b hb
  have hmem := mem_orderedSources.1 (hsplit ▸ mem_append_right _ (mem_cons_of_mem _ hb))
  exact not_outranks_of_outranks hab (h.outranked b hmem hclaims fun heq => not_outranks_of_outranks hab (heq ▸ hab))

theorem exists_yields (h : ∃ b ∈ sources.pairs, claims b.2) : ∃ z, Yields sources priorities claims z := by
  classical
  have hclaims : ∀ b, b ∈ (orderedSources sources priorities).filter (fun b => claims b.2) ↔ b ∈ sources.pairs ∧ claims b.2 := by
    intro b
    rw [mem_filter, mem_orderedSources, decide_eq_true_iff]
  have hpair := (orderedSources_pairwise sources priorities).filter fun b => decide (claims b.2)
  obtain ⟨b, hb⟩ := h
  obtain ⟨front, z, hsplit⟩ := (eq_nil_or_concat' _).resolve_left (ne_nil_of_mem ((hclaims b).2 hb))
  rw [hsplit] at hclaims hpair
  refine ⟨z, ((hclaims z).1 (by simp)).1, ((hclaims z).1 (by simp)).2, fun c hc hcc hne => ?_⟩
  have hmem := (hclaims c).2 ⟨hc, hcc⟩
  rw [mem_append, mem_singleton] at hmem
  exact (pairwise_append.1 hpair).2.2 c (hmem.resolve_right hne) z (mem_singleton_self z)

end Ordered

theorem find?_flatMap_split {α β : Type} {f : α → List β} {q : β → Bool} {higher lower : List α} {a : α}
    (hhigher : ∀ b ∈ higher, ∀ x ∈ f b, q x = false) (ha : ∃ x ∈ f a, q x = true) :
    ((higher ++ a :: lower).flatMap f).find? q = (f a).find? q := by
  have hnone : (higher.flatMap f).find? q = none := by
    rw [find?_eq_none]
    intro x hx
    obtain ⟨b, hb, hx⟩ := mem_flatMap.1 hx
    simp [hhigher b hb x hx]
  have hsome := find?_isSome.2 ha
  simp only [flatMap_append, flatMap_cons, find?_append, hnone]
  exact Option.or_of_isSome hsome

theorem get_gather_first {α : Type} (id : α → String) (l : List α) (k : String) :
    (OrderedMap.gather id (fun a => a) (fun _ first => first) l).get k = l.find? fun x => id x = k := by
  rw [OrderedMap.get_gather, ← head?_filter]
  cases l.filter (fun x => id x = k) with
  | nil => rfl
  | cons x rest =>
    have hfirst : ∀ (rest : List α) (x : α), rest.foldl (fun v _ => v) x = x := by
      intro rest x
      induction rest with
      | nil => rfl
      | cons y rest ih => exact ih
    rw [OrderedMap.groupValue, hfirst, head?_cons]

theorem find?_firstById {α : Type} (id : α → String) (l : List α) (k : String) :
    (firstById id l).find? (fun x => id x = k) = l.find? fun x => id x = k := by
  have hid : ∀ e ∈ (OrderedMap.gather id (fun a => a) (fun _ first => first) l).entries, id e.2 = e.1 := by
    intro e he
    have hfind := (get_gather_first id l e.1).symm.trans (OrderedMap.get_of_mem he)
    simpa using find?_some hfind
  rw [firstById, OrderedMap.find?_values hid, get_gather_first]

theorem firstById_subset {α : Type} (id : α → String) (l : List α) : firstById id l ⊆ l := by
  intro x hx
  obtain ⟨e, he, rfl⟩ := mem_map.1 hx
  have hfind := (get_gather_first id l e.1).symm.trans (OrderedMap.get_of_mem he)
  exact mem_of_find?_eq_some hfind

section Merged

variable {sources : HashMap SourceId RouteTable} {priorities : HashMap SourceId ℤ} {a : SourceId × RouteTable}

theorem find?_merged {α : Type} (id : α → String) (entries : RouteTable → List α) (k : String)
    (h : Wins sources priorities (fun t => ∃ x ∈ entries t, id x = k) a) :
    (firstById id (((orderedSources sources priorities).map (·.2)).flatMap entries)).find? (fun x => id x = k)
      = (entries a.2).find? fun x => id x = k := by
  obtain ⟨higher, lower, hsplit, hhigher⟩ := h.split
  rw [find?_firstById, hsplit, map_append]
  apply find?_flatMap_split
  · intro t ht x hx
    obtain ⟨b, hb, rfl⟩ := mem_map.1 ht
    have := hhigher b hb
    simp only [not_exists, not_and] at this
    simpa using this x hx
  · simpa using h.claimed

theorem get_merged_acmeRoutes {path : String} (h : Yields sources priorities (fun t => (t.acmeRoutes.get path).isSome) a) :
    (mergeSources sources priorities).acmeRoutes.get path = a.2.acmeRoutes.get path := by
  obtain ⟨higher, lower, hsplit, hlower⟩ := h.split
  have hfold : ∀ (l : List RouteTable) (m : HashMap String String), (∀ t ∈ l, t.acmeRoutes.get path = none) →
      (l.foldl (fun m t => m.extend t.acmeRoutes) m).get path = m.get path := by
    intro l m hl
    induction l generalizing m with
    | nil => rfl
    | cons t l ih =>
      rw [foldl_cons, ih _ fun t' ht' => hl t' (mem_cons_of_mem _ ht'), HashMap.get_extend,
        hl t (mem_cons_self ..), Option.none_or]
  obtain ⟨v, hv⟩ := Option.isSome_iff_exists.1 h.claimed
  simp only [mergeSources, hsplit, map_append, map_cons, foldl_append, foldl_cons]
  rw [hfold, HashMap.get_extend, hv, Option.some_or]
  intro t ht
  obtain ⟨b, hb, rfl⟩ := mem_map.1 ht
  simpa using hlower b hb

end Merged

/-! ## Host routes for one hostname and listener -/

structure HostKey where
  hostname : HostnameMatch
  listenerHostname : Option HostnameMatch
  listenerPort : Option UInt16
deriving DecidableEq, Repr

def HostRoute.key (h : HostRoute) : HostKey := ⟨h.hostname, h.listenerHostname, h.listenerPort⟩

def HostNode.key (n : HostNode) : HostKey := ⟨n.hostname, n.listenerHostname, n.listenerPort⟩

def CompiledRouteTable.effectiveNode (t : CompiledRouteTable) (host : String) (k : HostKey) : Option HostNode :=
  (t.hostCandidates host).find? fun n => n.key = k

variable {host : String}

def HostRoute.ruleCount (h : HostRoute) : ℕ :=
  ((hostPlans h).filter isTriePlan).length + ((hostPlans h).filter isRegexPlan).length

def fewerRules (a b : HostRoute) : Bool := decide (a.ruleCount ≤ b.ruleCount)

def effectiveRoute (hosts : List HostRoute) (k : HostKey) : Option HostRoute :=
  match k.hostname with
  | .exact _ => hosts.find? fun h => h.key = k
  | .any => (lastCatchAll hosts).filter fun h => h.key = k
  | _ => firstBest fewerRules (fun h => h.key = k) hosts

theorem wildcardBefore_iff {a b : HostnameMatch × HostNode} : wildcardBefore a b = true ↔
    specificityScore b.1 < specificityScore a.1
      ∨ (specificityScore a.1 = specificityScore b.1 ∧ a.2.rulesCount ≤ b.2.rulesCount) := by
  simp [wildcardBefore]

instance (f : HostRoute → HostnameMatch × HostNode) : Std.Total fun a b => wildcardBefore (f a) (f b) = true where
  total a b := by
    simp only [wildcardBefore_iff]
    omega

instance (f : HostRoute → HostnameMatch × HostNode) : IsTrans HostRoute fun a b => wildcardBefore (f a) (f b) = true where
  trans a b c hab hbc := by
    simp only [wildcardBefore_iff] at hab hbc ⊢
    omega

variable (ω : IterOrder)

def patternEntry (h : HostRoute) : HostnameMatch × HostNode := (h.hostname, compileHost ω h)

theorem firstBest_wildcardBefore (hosts : List HostRoute) (k : HostKey) :
    firstBest (fun a b => wildcardBefore (patternEntry ω a) (patternEntry ω b)) (fun h => h.key = k) hosts
      = firstBest fewerRules (fun h => h.key = k) hosts := by
  apply firstBest_congr
  intro a b ha hb
  have hname : a.hostname = b.hostname := by
    have hkey := (of_decide_eq_true ha).trans (of_decide_eq_true hb).symm
    exact congrArg HostKey.hostname hkey
  rw [Bool.eq_iff_iff, fewerRules, HostRoute.ruleCount, HostRoute.ruleCount]
  simp [wildcardBefore_iff, patternEntry, hname, rulesCount_compileHost]

variable {k : HostKey}

theorem find?_key_eq_none {l : List HostRoute} (hl : ∀ h ∈ l, h.hostname ≠ k.hostname) : l.find? (fun h => h.key = k) = none := by
  rw [find?_eq_none]
  intro h hh
  have hne : h.key ≠ k := fun hkey => hl h hh (congrArg HostKey.hostname hkey)
  simpa using hne

def patternWalk (hosts : List HostRoute) (host : String) : List HostRoute :=
  (stableSort (fun a b => wildcardBefore (patternEntry ω a) (patternEntry ω b)) (hosts.filter (·.isPattern))).filter
    fun h => irHostnameMatches host h.hostname

theorem walkOrder_eq (hosts : List HostRoute) (host : String) : walkOrder ω hosts host
      = (hosts.filter fun h => h.hostname = .exact host) ++ patternWalk ω hosts host ++ (lastCatchAll hosts).toList := rfl

variable {hosts : List HostRoute}

theorem isPattern_of_mem_patternWalk {ω : IterOrder} {h : HostRoute} (hh : h ∈ patternWalk ω hosts host) : h.isPattern = true :=
  (mem_filter.1 ((mem_stableSort ..).1 (mem_of_mem_filter hh))).2

theorem hostname_of_mem_lastCatchAll {h : HostRoute} (hh : h ∈ (lastCatchAll hosts).toList) : h.hostname = .any := by
  have hlast := mem_of_getLast? (Option.mem_toList.1 hh)
  simpa using (mem_filter.1 hlast).2

theorem find?_exactHosts {name : String} (hk : k.hostname = .exact name) :
    (hosts.filter fun h => h.hostname = .exact name).find? (fun h => h.key = k) = hosts.find? fun h => h.key = k := by
  rw [find?_filter]
  refine find?_congr fun h _ => ?_
  by_cases hkey : h.key = k
  · have hname : h.hostname = .exact name := (congrArg HostKey.hostname hkey).trans hk
    simp [hname]
  · simp [hkey]

theorem find?_patternWalk (hosts : List HostRoute) (hmatch : irHostnameMatches host k.hostname = true)
    (hexact : ∀ name, k.hostname ≠ .exact name) (hany : k.hostname ≠ .any) :
    (patternWalk ω hosts host).find? (fun h => h.key = k) = firstBest fewerRules (fun h => h.key = k) hosts := by
  have hsort : ∀ q : HostRoute → Bool,
      (stableSort (fun a b => wildcardBefore (patternEntry ω a) (patternEntry ω b)) (hosts.filter (·.isPattern))).find? q
        = firstBest (fun a b => wildcardBefore (patternEntry ω a) (patternEntry ω b)) q (hosts.filter (·.isPattern)) :=
    fun q => find?_stableSort_eq _
  rw [patternWalk, find?_filter]
  refine (hsort _).trans ?_
  rw [← firstBest_wildcardBefore ω, ← firstBest_filter_test, ← firstBest_filter_test hosts, filter_filter]
  refine congrArg _ (filter_congr fun h _ => ?_)
  by_cases hkey : h.key = k
  · have hname : h.hostname = k.hostname := congrArg HostKey.hostname hkey
    have hp := isPattern_of (fun name hn => hexact name (hname ▸ hn)) fun hn => hany (hname ▸ hn)
    simp [hp, hname, hmatch]
  · simp [hkey]

theorem find?_walkOrder (hosts : List HostRoute) (hmatch : irHostnameMatches host k.hostname = true) :
    (walkOrder ω hosts host).find? (fun h => h.key = k) = effectiveRoute hosts k := by
  have hpatterns : (∃ name, k.hostname = .exact name) ∨ k.hostname = .any →
      (patternWalk ω hosts host).find? (fun h => h.key = k) = none := by
    intro hk
    apply find?_key_eq_none
    intro h hh hname
    have hpattern := isPattern_of_mem_patternWalk hh
    rcases hk with ⟨name, hk⟩ | hk <;> simp [HostRoute.isPattern, hname, hk] at hpattern
  have hcatchAll : k.hostname ≠ .any → (lastCatchAll hosts).toList.find? (fun h => h.key = k) = none := by
    intro hany
    apply find?_key_eq_none
    intro h hh hname
    exact hany (hname ▸ hostname_of_mem_lastCatchAll hh)
  have hexacts : k.hostname ≠ .exact host → (hosts.filter fun h => h.hostname = .exact host).find? (fun h => h.key = k) = none := by
    intro hne
    apply find?_key_eq_none
    intro h hh hname
    exact hne (hname ▸ of_decide_eq_true (mem_filter.1 hh).2)
  simp only [walkOrder_eq, find?_append]
  by_cases hany : k.hostname = .any
  · rw [hexacts (by rw [hany]; simp), hpatterns (.inr hany), effectiveRoute, hany]
    cases lastCatchAll hosts with
    | none => rfl
    | some h => by_cases hk : h.key = k <;> simp [Option.filter]
  · rw [hcatchAll hany, Option.or_none]
    by_cases hexact : ∃ name, k.hostname = .exact name
    · obtain ⟨name, hk⟩ := hexact
      have hhost : host = name := by simpa [hk, irHostnameMatches] using hmatch
      rw [hpatterns (.inl ⟨name, hk⟩), Option.or_none, effectiveRoute, hk, hhost, find?_exactHosts hk]
    · have hname := fun name hk => hexact ⟨name, hk⟩
      rw [hexacts (hname host), find?_patternWalk ω hosts hmatch hname hany, effectiveRoute]
      split
      · exact absurd ‹_› (hname _)
      · exact absurd ‹_› hany
      · rfl

theorem exists_host (pattern : HostnameMatch) : ∃ host, irHostnameMatches host pattern = true := by
  cases pattern with
  | exact s => exact ⟨s, by simp [irHostnameMatches]⟩
  | labelPrefix p => exact ⟨p, by simp [irHostnameMatches]⟩
  | wildcard suffix => exact ⟨"w" ++ "." ++ suffix, (irHostnameMatches_wildcard ..).2 ⟨"w", by decide, rfl⟩⟩
  | any => exact ⟨"", rfl⟩

/-- two sources make the claim -/
def Contested (sources : HashMap SourceId RouteTable) (claims : RouteTable → Prop) : Prop :=
  ∃ a ∈ sources.pairs, ∃ b ∈ sources.pairs, a ≠ b ∧ claims a.2 ∧ claims b.2

def ClaimsListener (id : String) (t : RouteTable) : Prop := ∃ l ∈ t.listeners, l.id = id

def ClaimsCert (id : String) (t : RouteTable) : Prop := ∃ c ∈ t.tlsCerts, c.id = id

def ClaimsPath (path : String) (t : RouteTable) : Prop := (t.acmeRoutes.get path).isSome

def HostRoute.Claims (k : HostKey) (m : RequestMatch) (h : HostRoute) : Prop :=
  h.key = k ∧ ∃ rule ∈ h.rules, m ∈ rule.matches_

def ClaimsRule (k : HostKey) (m : RequestMatch) (t : RouteTable) : Prop := ∃ h ∈ t.hosts, h.Claims k m

/-- the winner's value is the effective one, whatever is contested -/
structure PriorityDecides (ω : IterOrder) (sources : HashMap SourceId RouteTable) (priorities : HashMap SourceId ℤ) : Prop where
  listeners : ∀ id a, Contested sources (ClaimsListener id) → Wins sources priorities (ClaimsListener id) a →
    (mergeSources sources priorities).listeners.find? (fun l => l.id = id) = a.2.listeners.find? fun l => l.id = id
  tlsCerts : ∀ id a, Contested sources (ClaimsCert id) → Wins sources priorities (ClaimsCert id) a →
    (mergeSources sources priorities).tlsCerts.find? (fun c => c.id = id) = a.2.tlsCerts.find? fun c => c.id = id
  acmeRoutes : ∀ path a, Contested sources (ClaimsPath path) → Wins sources priorities (ClaimsPath path) a →
    (compile ω (mergeSources sources priorities)).acmeRoutes.get path = a.2.acmeRoutes.get path
  rules : ∀ k m a, Contested sources (ClaimsRule k m) → Wins sources priorities (ClaimsRule k m) a →
    ∀ host, irHostnameMatches host k.hostname = true → ∃ h ∈ a.2.hosts, h.Claims k m
      ∧ (compile ω (mergeSources sources priorities)).effectiveNode host k = some (compileHost ω h)

/-- sources for which it is: on a contested path the highest and the lowest priority agree, and under a contested hostname,
listener and match the host route that becomes effective is one of the winner's, or compiles to the same -/
structure RespectsPriority (ω : IterOrder) (sources : HashMap SourceId RouteTable) (priorities : HashMap SourceId ℤ) : Prop where
  acmeRoutes : ∀ path a z, Contested sources (ClaimsPath path) → Wins sources priorities (ClaimsPath path) a →
    Yields sources priorities (ClaimsPath path) z → a.2.acmeRoutes.get path = z.2.acmeRoutes.get path
  rules : ∀ k m a, Contested sources (ClaimsRule k m) → Wins sources priorities (ClaimsRule k m) a →
    ∃ h ∈ a.2.hosts, h.Claims k m
      ∧ (effectiveRoute ((orderedSources sources priorities).flatMap (·.2.hosts)) k).map (compileHost ω) = some (compileHost ω h)

theorem hosts_mergeSources (sources : HashMap SourceId RouteTable) (priorities : HashMap SourceId ℤ) :
    (mergeSources sources priorities).hosts = (orderedSources sources priorities).flatMap (·.2.hosts) := flatMap_map ..

theorem effectiveNode_compile (t : RouteTable) (hmatch : irHostnameMatches host k.hostname = true) :
    (compile ω t).effectiveNode host k = (effectiveRoute t.hosts k).map (compileHost ω) := by
  rw [effectiveNode, hostCandidates_compile, find?_map, ← find?_walkOrder ω t.hosts hmatch]
  rfl

/-- **Priority.** The highest priority wins every conflict exactly for these sources. Listeners and certificates need
nothing. -/
theorem priority_decides_iff (ω : IterOrder) (sources : HashMap SourceId RouteTable) (priorities : HashMap SourceId ℤ) :
    PriorityDecides ω sources priorities ↔ RespectsPriority ω sources priorities := by
  constructor
  · intro h
    refine ⟨fun path a z hcon hwins hyields => ?_, fun k m a hcon hwins => ?_⟩
    · rw [← h.acmeRoutes path a hcon hwins, ← get_merged_acmeRoutes hyields]
      rfl
    · obtain ⟨host, hhost⟩ := exists_host k.hostname
      obtain ⟨route, hmem, hclaims, heffective⟩ := h.rules k m a hcon hwins host hhost
      rw [effectiveNode_compile ω _ hhost, hosts_mergeSources] at heffective
      exact ⟨route, hmem, hclaims, heffective⟩
  · intro h
    refine ⟨fun id a _ hwins => find?_merged (·.id) (·.listeners) id hwins,
      fun id a _ hwins => find?_merged (·.id) (·.tlsCerts) id hwins, fun path a hcon hwins => ?_,
      fun k m a hcon hwins host hhost => ?_⟩
    · obtain ⟨z, hz⟩ : ∃ z, Yields sources priorities (ClaimsPath path) z := exists_yields ⟨a, hwins.recorded, hwins.claimed⟩
      rw [h.acmeRoutes path a z hcon hwins hz, ← get_merged_acmeRoutes hz]
      rfl
    · obtain ⟨route, hmem, hclaims, heffective⟩ := h.rules k m a hcon hwins
      rw [effectiveNode_compile ω _ hhost, hosts_mergeSources]
      exact ⟨route, hmem, hclaims, heffective⟩

def backendTable (backend : String) : RouteTable :=
  { acmeRoutes := HashMap.ofPairs [("/challenge", backend)]
    hosts := [{ hostname := .any, rules := [{ matches_ := [{}], action := .route { backends := [{ backend, weight := 1 }] } }] }] }

def contestedSources : HashMap SourceId RouteTable :=
  HashMap.ofPairs [("caddyfile", backendTable "low:80"), ("gateway-api", backendTable "high:80")]

def contestedPriorities : HashMap SourceId ℤ := HashMap.ofPairs [("caddyfile", 0), ("gateway-api", 10)]

theorem lowest_priority_wins : (¬ PriorityDecides .stored contestedSources contestedPriorities)
      ∧ (compile .stored (mergeSources contestedSources contestedPriorities)).acmeRoutes.get "/challenge"
        = some "low:80"
      ∧ effectiveRoute (mergeSources contestedSources contestedPriorities).hosts ⟨.any, none, none⟩
        = (backendTable "low:80").hosts.head? := by
  refine ⟨fun h => ?_, by decide, by decide⟩
  have hpairs : contestedSources.pairs = [("gateway-api", backendTable "high:80"), ("caddyfile", backendTable "low:80")] := rfl
  have hwins : Wins contestedSources contestedPriorities (ClaimsPath "/challenge") ("gateway-api", backendTable "high:80") := by
    refine ⟨by simp [hpairs], rfl, fun b hb _ hne => ?_⟩
    rcases mem_cons.1 hb with rfl | hb
    · exact absurd rfl hne
    · rw [mem_singleton.1 hb]
      exact .inl (by decide)
  have hcontested : Contested contestedSources (ClaimsPath "/challenge") := by
    refine ⟨("gateway-api", backendTable "high:80"), by simp [hpairs], ("caddyfile", backendTable "low:80"),
      by simp [hpairs], fun heq => absurd (congrArg Prod.fst heq) (by decide), rfl, rfl⟩
  exact absurd (h.acmeRoutes "/challenge" _ hcontested hwins) (by decide)

end SunbeamProxy
