/-
Which host route of a table serves a request.
-/
import SunbeamProxy.IR.Precedence

namespace SunbeamProxy

open List

/-! ## The walk over a table -/

@[simp]
theorem compilePlan_listenerHostname (rule : Rule) (precedence : UInt64) (m : RequestMatch) (g d : Bool)
    (lh : Option HostnameMatch) : (compilePlan rule precedence m g d lh).listenerHostname = lh := by
  unfold compilePlan
  cases rule.action <;> rfl

theorem listenerHostname_of_mem {host : HostRoute} {p : CompiledPlan} (h : p ∈ hostPlans host) :
    p.listenerHostname = host.listenerHostname := by
  obtain ⟨rule, -, m, -, rfl⟩ := mem_hostPlans.1 h
  exact compilePlan_listenerHostname ..

namespace HostRoute

def onListener (host : String) (port : UInt16) (h : HostRoute) : Bool :=
  listenerHostnameMatches host h.listenerHostname && listenerPortMatches port h.listenerPort

def serves (host : String) (port : UInt16) (h : HostRoute) : Bool :=
  irHostnameMatches host h.hostname && h.onListener host port

def isPattern (h : HostRoute) : Bool :=
  match h.hostname with
  | .labelPrefix _ => true
  | .wildcard _ => true
  | _ => false

def moreSpecific (a b : HostRoute) : Bool :=
  scoreBefore (fun h : HostRoute => listenerSpecificityScore h.listenerHostname) (fun h => specificityScore h.hostname) a b

instance : Std.Total fun a b => moreSpecific a b = true :=
  inferInstanceAs (Std.Total fun a b : HostRoute => scoreBefore _ _ a b = true)

instance : IsTrans HostRoute fun a b => moreSpecific a b = true :=
  inferInstanceAs (IsTrans HostRoute fun a b => scoreBefore _ _ a b = true)

/-- a rule of the host takes the request -/
def Matches (re : RegexEngine) (r : RouteRequest) (h : HostRoute) : Prop :=
  ∃ rule ∈ h.rules, ∃ m ∈ rule.matches_, m.Holds re r

end HostRoute

def lastCatchAll (hosts : List HostRoute) : Option HostRoute := (hosts.filter fun h => h.hostname = .any).getLast?

def walkOrder (ω : IterOrder) (hosts : List HostRoute) (host : String) : List HostRoute :=
  (hosts.filter fun h => h.hostname = .exact host)
    ++ (stableSort (fun a b => wildcardBefore (a.hostname, compileHost ω a) (b.hostname, compileHost ω b))
      (hosts.filter (·.isPattern))).filter (fun h => irHostnameMatches host h.hostname)
    ++ (lastCatchAll hosts).toList

section Walk

variable (ω : IterOrder)

theorem foldl_addHost (hosts : List HostRoute) (t : CompiledRouteTable) (host : String) :
    (((hosts.foldl (CompiledRouteTable.addHost ω) t).exactHosts.get host).getD []
        = (t.exactHosts.get host).getD [] ++ (hosts.filter fun h => h.hostname = .exact host).map (compileHost ω))
      ∧ (hosts.foldl (CompiledRouteTable.addHost ω) t).wildcardHosts
        = t.wildcardHosts ++ (hosts.filter (·.isPattern)).map (fun h => (h.hostname, compileHost ω h))
      ∧ (hosts.foldl (CompiledRouteTable.addHost ω) t).anyHost = ((lastCatchAll hosts).map (compileHost ω)).or t.anyHost := by
  induction hosts generalizing t with
  | nil => simp [lastCatchAll]
  | cons h hosts ih =>
    obtain ⟨hexact, hpattern, hany⟩ := ih (CompiledRouteTable.addHost ω t h)
    rw [foldl_cons, hexact, hpattern, hany]
    cases hname : h.hostname with
    | exact name =>
      by_cases hn : name = host
      · subst hn
        simp [CompiledRouteTable.addHost, hname, HostRoute.isPattern, lastCatchAll, HashMap.push, HashMap.get_insert]
      · simp [CompiledRouteTable.addHost, hname, HostRoute.isPattern, lastCatchAll, HashMap.push, HashMap.get_insert,
          hn, Ne.symm hn]
    | labelPrefix label => simp [CompiledRouteTable.addHost, hname, HostRoute.isPattern, lastCatchAll]
    | wildcard suffix => simp [CompiledRouteTable.addHost, hname, HostRoute.isPattern, lastCatchAll]
    | any =>
      refine ⟨by simp [CompiledRouteTable.addHost, hname], by simp [CompiledRouteTable.addHost, hname, HostRoute.isPattern], ?_⟩
      have hlast : lastCatchAll (h :: hosts) = (lastCatchAll hosts).or (some h) := by
        rw [lastCatchAll, filter_cons_of_pos (by simpa using hname), lastCatchAll, getLast?_cons]
        cases (hosts.filter fun h => h.hostname = .any).getLast? <;> rfl
      rw [hlast]
      cases lastCatchAll hosts <;> simp [CompiledRouteTable.addHost, hname]

variable (ir : RouteTable)

theorem hostCandidates_compile (host : String) :
    (CompiledRouteTable.compile ω ir).hostCandidates host = (walkOrder ω ir.hosts host).map (compileHost ω) := by
  obtain ⟨hexact, hpattern, hany⟩ := foldl_addHost ω ir.hosts CompiledRouteTable.empty host
  have hsort : stableSort wildcardBefore ((ir.hosts.filter (·.isPattern)).map fun h => (h.hostname, compileHost ω h))
      = (stableSort (fun a b => wildcardBefore (a.hostname, compileHost ω a) (b.hostname, compileHost ω b))
        (ir.hosts.filter (·.isPattern))).map fun h => (h.hostname, compileHost ω h) :=
    (map_insertionSort (fun a b : HostRoute => wildcardBefore (a.hostname, compileHost ω a)
      (b.hostname, compileHost ω b) = true) (fun a b => wildcardBefore a b = true) _ _ fun _ _ _ _ => .rfl).symm
  have hfilter : ∀ l : List HostRoute, ((l.map fun h => (h.hostname, compileHost ω h)).filter fun e =>
      irHostnameMatches host e.1).map (·.2) = (l.filter fun h => irHostnameMatches host h.hostname).map (compileHost ω) := by
    intro l
    rw [filter_map, map_map]
    rfl
  simp only [CompiledRouteTable.empty, nil_append] at hexact hpattern hany
  simp only [CompiledRouteTable.hostCandidates, CompiledRouteTable.compile, CompiledRouteTable.empty, hexact, hpattern,
    hany, hsort, hfilter, walkOrder, map_append]
  cases lastCatchAll ir.hosts <;> rfl

variable {ω}

variable {h : HostRoute}

theorem isPattern_of (h₁ : ∀ name, h.hostname ≠ .exact name) (h₂ : h.hostname ≠ .any) : h.isPattern = true := by
  unfold HostRoute.isPattern
  cases hname : h.hostname with
  | exact name => exact absurd hname (h₁ name)
  | labelPrefix label | wildcard suffix => rfl
  | any => exact absurd hname h₂

variable {hosts : List HostRoute} {host : String}

theorem mem_walkOrder : h ∈ walkOrder ω hosts host ↔
      h ∈ hosts ∧ irHostnameMatches host h.hostname = true ∧ (h.hostname = .any → lastCatchAll hosts = some h) := by
  simp only [walkOrder, mem_append, mem_filter, mem_stableSort, decide_eq_true_eq, Option.mem_toList]
  constructor
  · rintro ((⟨hmem, hname⟩ | ⟨⟨hmem, hpat⟩, hmatch⟩) | hlast)
    · exact ⟨hmem, by simp [hname, irHostnameMatches], fun e => by rw [hname] at e; cases e⟩
    · exact ⟨hmem, hmatch, fun e => by simp [HostRoute.isPattern, e] at hpat⟩
    · obtain ⟨hmem, hany⟩ := mem_filter.1 (mem_of_getLast? hlast)
      have hany : h.hostname = .any := by simpa using hany
      exact ⟨hmem, by simp [hany, irHostnameMatches], fun _ => hlast⟩
  · rintro ⟨hmem, hmatch, hlast⟩
    by_cases hany : h.hostname = .any
    · exact .inr (hlast hany)
    · by_cases hexact : ∃ name, h.hostname = .exact name
      · obtain ⟨name, hname⟩ := hexact
        have he : host = name := by simpa [hname, irHostnameMatches] using hmatch
        exact .inl (.inl ⟨hmem, by rw [hname, he]⟩)
      · exact .inl (.inr ⟨⟨hmem, isPattern_of (by simpa using hexact) hany⟩, hmatch⟩)

theorem onListener_compileHost (host : String) (port : UInt16) (h : HostRoute) :
    CompiledRouteTable.onListener host port (compileHost ω h) = h.onListener host port := rfl

variable (ω)

theorem considered_eq (host : String) (port : UInt16) :
    ((CompiledRouteTable.compile ω ir).hostCandidates host).filter (CompiledRouteTable.onListener host port)
      = ((walkOrder ω ir.hosts host).filter (·.onListener host port)).map (compileHost ω) := by
  rw [hostCandidates_compile, filter_map]
  rfl

def chosenRoute (hosts : List HostRoute) (host : String) (port : UInt16) : Option HostRoute :=
  firstBest HostRoute.moreSpecific (·.onListener host port) (walkOrder ω hosts host)

/-- **The chosen host.** A lookup searches the first of the most specific host routes on the listener. -/
theorem findHostNode_eq (host : String) (port : UInt16) :
    (CompiledRouteTable.compile ω ir).findHostNode host port = (chosenRoute ω ir.hosts host port).map (compileHost ω) := by
  unfold CompiledRouteTable.findHostNode chosenRoute
  rw [considered_eq, ← firstBest_filter_test]
  rw [find?_maxima_eq, firstBest_map]
  rfl

variable {ω}

variable {port : UInt16} {c : HostRoute}

theorem chosenRoute_mem (h : chosenRoute ω hosts host port = some c) :
    c ∈ walkOrder ω hosts host ∧ c.onListener host port = true := firstBest_mem h

theorem chosenRoute_best (h : chosenRoute ω hosts host port = some c) {h' : HostRoute}
    (hmem : h' ∈ walkOrder ω hosts host) (hon : h'.onListener host port = true) :
    c.moreSpecific h' = true := firstBest_le h h' hmem hon

theorem lookup_eq_some_iff {re : RegexEngine} {ir : RouteTable} {r : RouteRequest} {p : CompiledPlan} :
    (CompiledRouteTable.compile ω ir).lookup re r = some p ↔
      ∃ c, chosenRoute ω ir.hosts r.host r.port = some c ∧ (compileHost ω c).lookup re r = some p := by
  rw [CompiledRouteTable.lookup, findHostNode_eq, Option.bind_eq_some_iff]
  constructor
  · rintro ⟨n, hn, hp⟩
    obtain ⟨c, hc, rfl⟩ := Option.map_eq_some_iff.1 hn
    exact ⟨c, hc, hp⟩
  · rintro ⟨c, hc, hp⟩
    exact ⟨_, by rw [hc]; rfl, hp⟩

theorem serves_of_chosen (h : chosenRoute ω hosts host port = some c) : c ∈ hosts ∧ c.serves host port = true := by
  obtain ⟨hwalk, hon⟩ := chosenRoute_mem h
  obtain ⟨hmem, hmatch, -⟩ := mem_walkOrder.1 hwalk
  exact ⟨hmem, by rw [HostRoute.serves, hmatch, hon, Bool.and_self]⟩

theorem chosenRoute_of_only (hmem : h ∈ hosts) (hserves : h.serves host port = true)
    (hkept : h.hostname = .any → lastCatchAll hosts = some h)
    (honly : ∀ h' ∈ hosts, h'.serves host port = true → h' = h) : chosenRoute ω hosts host port = some h := by
  rw [HostRoute.serves, Bool.and_eq_true] at hserves
  have hsome : (chosenRoute ω hosts host port).isSome := firstBest_isSome_iff.2
    ⟨h, mem_walkOrder.2 ⟨hmem, hserves.1, hkept⟩, hserves.2⟩
  obtain ⟨c, hc⟩ := Option.isSome_iff_exists.1 hsome
  obtain ⟨hcmem, hcserves⟩ := serves_of_chosen hc
  rw [hc, honly c hcmem hcserves]

end Walk

/-- **Soundness of lookup.** A plan that a lookup returns is the plan of a match of a rule of a host route of the table, whose
hostname, listener hostname and listener port take the request and whose match holds. -/
theorem lookup_sound (ω : IterOrder) (re : RegexEngine) (ir : RouteTable) (r : RouteRequest) (p : CompiledPlan)
    (h : (CompiledRouteTable.compile ω ir).lookup re r = some p) :
    ∃ host ∈ ir.hosts, ∃ rule ∈ host.rules, ∃ m ∈ rule.matches_,
      p = compilePlan rule (computePrecedence rule) m host.gatewayApi host.disableSecureRedirection host.listenerHostname
        ∧ irHostnameMatches r.host host.hostname = true
        ∧ listenerHostnameMatches r.host host.listenerHostname = true
        ∧ listenerPortMatches r.port host.listenerPort = true
        ∧ m.Holds re r := by
  obtain ⟨c, hchosen, hlookup⟩ := lookup_eq_some_iff.1 h
  obtain ⟨hwalk, hon⟩ := chosenRoute_mem hchosen
  obtain ⟨hmem, hmatch, -⟩ := mem_walkOrder.1 hwalk
  obtain ⟨hplan, hholds⟩ := host_lookup_sound hlookup
  obtain ⟨rule, hrule, m, hm, rfl⟩ := mem_hostPlans.1 hplan
  rw [HostRoute.onListener, Bool.and_eq_true] at hon
  exact ⟨c, hmem, rule, hrule, m, hm, rfl, hmatch, hon.1, hon.2, by simpa using hholds⟩

def pathRequest (host : String) (port : UInt16) (path : String) : RouteRequest :=
  { host, port, path, method := "GET", headers := [], query := none }

def prefixRule (path : String) : Rule := { matches_ := [{ path := some (.pathPrefix path) }], action := .route {} }

def twoFileTable : RouteTable := { hosts := [{ hostname := .exact "app.example.com", rules := [prefixRule "/a"] },
      { hostname := .exact "app.example.com", rules := [prefixRule "/b"] }] }

def firstFilePlan : CompiledPlan :=
  compilePlan (prefixRule "/a") (computePrecedence (prefixRule "/a")) { path := some (.pathPrefix "/a") } false false none

theorem first_file_sound : ∃ host ∈ twoFileTable.hosts, ∃ rule ∈ host.rules, ∃ m ∈ rule.matches_,
      firstFilePlan = compilePlan rule (computePrecedence rule) m host.gatewayApi host.disableSecureRedirection
          host.listenerHostname
        ∧ irHostnameMatches "app.example.com" host.hostname = true
        ∧ listenerHostnameMatches "app.example.com" host.listenerHostname = true
        ∧ listenerPortMatches 443 host.listenerPort = true
        ∧ m.Holds ⟨fun _ => none⟩ (pathRequest "app.example.com" 443 "/a/x") :=
  lookup_sound IterOrder.stored ⟨fun _ => none⟩ twoFileTable (pathRequest "app.example.com" 443 "/a/x") firstFilePlan rfl

/-- every host route of the table that takes the host and the port has its node among those considered -/
def AllRepresented (ω : IterOrder) (ir : RouteTable) (host : String) (port : UInt16) : Prop :=
  ∀ h ∈ ir.hosts, irHostnameMatches host h.hostname = true → listenerHostnameMatches host h.listenerHostname = true →
    listenerPortMatches port h.listenerPort = true →
    compileHost ω h ∈ ((CompiledRouteTable.compile ω ir).hostCandidates host).filter
      (CompiledRouteTable.onListener host port)

/-- **Lost hosts.** No host route is lost exactly when every catch-all that takes the request compiles to the node of the
table's last catch-all. -/
theorem hosts_represented_iff (ω : IterOrder) (ir : RouteTable) (host : String) (port : UInt16) :
    AllRepresented ω ir host port ↔ ∀ h ∈ ir.hosts, h.hostname = .any → h.onListener host port = true →
      (lastCatchAll ir.hosts).map (compileHost ω) = some (compileHost ω h) := by
  unfold AllRepresented
  rw [considered_eq]
  constructor
  · intro hall h hmem hany hon
    have hon' := hon
    rw [HostRoute.onListener, Bool.and_eq_true] at hon'
    obtain ⟨h', hkept, hnode⟩ := mem_map.1 (hall h hmem (by rw [hany]; rfl) hon'.1 hon'.2)
    have hname := (congrArg HostNode.hostname hnode).trans hany
    rw [(mem_walkOrder.1 (mem_filter.1 hkept).1).2.2 hname, Option.map_some, hnode]
  · intro hany h hmem hmatch hlisten hport
    have hon : h.onListener host port = true := by rw [HostRoute.onListener, hlisten, hport, Bool.and_self]
    by_cases hname : h.hostname = .any
    · obtain ⟨last, hlast, hnode⟩ := Option.map_eq_some_iff.1 (hany h hmem hname hon)
      have hlastmem := mem_filter.1 (mem_of_getLast? hlast)
      have hlastany : last.hostname = .any := by simpa using hlastmem.2
      refine mem_map.2 ⟨last, mem_filter.2 ⟨mem_walkOrder.2 ⟨hlastmem.1, ?_, fun _ => hlast⟩, ?_⟩, hnode⟩
      · rw [hlastany]
        rfl
      · rw [← onListener_compileHost (ω := ω), hnode]
        exact hon
    · exact mem_map.2 ⟨h, mem_filter.2 ⟨mem_walkOrder.2 ⟨hmem, hmatch, fun e => absurd e hname⟩, hon⟩, rfl⟩

def portRoute (port : UInt16) : HostRoute :=
  { hostname := .any, listenerPort := some port, rules := [{ matches_ := [{}], action := .route {} }] }

theorem first_port_lost : ¬ AllRepresented IterOrder.stored { hosts := [portRoute 80, portRoute 8080] } "app.example.com" 80 := by
  intro hall
  have hmem := hall (portRoute 80) (mem_cons_self ..) rfl rfl rfl
  cases hmem

/-- no host that serves the name and port is more specific -/
structure MostSpecific (hosts : List HostRoute) (host : String) (port : UInt16) (h : HostRoute) : Prop where
  mem : h ∈ hosts
  serves : h.serves host port = true
  best : ∀ h' ∈ hosts, h'.serves host port = true → h.moreSpecific h' = true

section Specific

variable {ω : IterOrder} {re : RegexEngine} {ir : RouteTable} {r : RouteRequest}

theorem chosen_moreSpecific {c h : HostRoute} (hc : chosenRoute ω ir.hosts r.host r.port = some c) (hmem : h ∈ ir.hosts)
    (hserves : h.serves r.host r.port = true) (hlisten : c.listenerHostname = h.listenerHostname) :
    c.moreSpecific h = true := by
  rw [HostRoute.serves, Bool.and_eq_true] at hserves
  by_cases hany : h.hostname = .any
  · rw [HostRoute.moreSpecific, scoreBefore_iff]
    exact .inr ⟨by rw [hlisten], by simp [hany, specificityScore]⟩
  · exact chosenRoute_best hc (mem_walkOrder.2 ⟨hmem, hserves.1, fun e => absurd e hany⟩) hserves.2

theorem mostSpecific_of_chosen {c h : HostRoute} (hc : chosenRoute ω ir.hosts r.host r.port = some c)
    (hbest : MostSpecific ir.hosts r.host r.port h) (hlisten : c.listenerHostname = h.listenerHostname) :
    MostSpecific ir.hosts r.host r.port c := by
  obtain ⟨hmem, hserves⟩ := serves_of_chosen hc
  refine ⟨hmem, hserves, fun h' hmem' hserves' => ?_⟩
  exact before_trans (chosen_moreSpecific hc hbest.mem hbest.serves hlisten) (hbest.best h' hmem' hserves')

end Specific

/-- **Equally specific hosts.** A request that some most specific host route matches is served by one of those exactly when
the chosen host route is one of them and itself has a matching rule that it does not hide. -/
theorem equally_specific_iff (ω : IterOrder) (re : RegexEngine) (ir : RouteTable) (r : RouteRequest) :
    ((∃ h, MostSpecific ir.hosts r.host r.port h ∧ h.Matches re r) →
        ∃ h p, MostSpecific ir.hosts r.host r.port h ∧ p ∈ hostPlans h ∧ (CompiledRouteTable.compile ω ir).lookup re r = some p)
      ↔ ((∃ h, MostSpecific ir.hosts r.host r.port h ∧ h.Matches re r) →
        ∃ c, chosenRoute ω ir.hosts r.host r.port = some c ∧ MostSpecific ir.hosts r.host r.port c
          ∧ ∃ p ∈ hostPlans c, p.matches_.Holds re r ∧ Visible ω (hostPlans c) r p) := by
  refine imp_congr .rfl ?_
  constructor
  · rintro ⟨h, p, hbest, hplan, hlookup⟩
    obtain ⟨c, hc, hp⟩ := lookup_eq_some_iff.1 hlookup
    have hlisten : c.listenerHostname = h.listenerHostname := by
      rw [← listenerHostname_of_mem (host_lookup_sound hp).1, listenerHostname_of_mem hplan]
    exact ⟨c, hc, mostSpecific_of_chosen hc hbest hlisten, host_lookup_isSome_iff.1 (by rw [hp]; rfl)⟩
  · rintro ⟨c, hc, hbest, hvisible⟩
    obtain ⟨p, hp⟩ := Option.isSome_iff_exists.1 (host_lookup_isSome_iff.2 hvisible)
    exact ⟨c, p, hbest, (host_lookup_sound hp).1, lookup_eq_some_iff.2 ⟨c, hc, hp⟩⟩

theorem second_file_not_searched : (∃ h, MostSpecific twoFileTable.hosts "app.example.com" 443 h
        ∧ h.Matches ⟨fun _ => none⟩ (pathRequest "app.example.com" 443 "/b"))
      ∧ (CompiledRouteTable.compile IterOrder.stored twoFileTable).lookup ⟨fun _ => none⟩
        (pathRequest "app.example.com" 443 "/b") = none := by
  refine ⟨⟨{ hostname := .exact "app.example.com", rules := [prefixRule "/b"] }, ⟨by simp [twoFileTable], rfl, ?_⟩, ?_⟩, rfl⟩
  · decide
  · refine ⟨prefixRule "/b", by simp, _, mem_singleton.2 rfl, ⟨?_, by simp, by simp, by simp⟩⟩
    decide

def listenerSpecificity (hosts : List HostRoute) (host : String) (port : UInt16) : ℕ :=
  maxOf ((hosts.filter (·.onListener host port)).map fun h => listenerSpecificityScore h.listenerHostname)

/-- **Listener isolation.** Lookups stay on the most specific listener exactly when the chosen host route has no matching rule
that it does not hide, or a host route on such a listener has a hostname that takes the host and is not a replaced catch-all. -/
theorem listener_isolation_iff (ω : IterOrder) (re : RegexEngine) (ir : RouteTable) (r : RouteRequest) :
    (∀ p, (CompiledRouteTable.compile ω ir).lookup re r = some p → ∃ h ∈ ir.hosts, p ∈ hostPlans h
        ∧ listenerSpecificityScore h.listenerHostname = listenerSpecificity ir.hosts r.host r.port)
      ↔ ((∃ c, chosenRoute ω ir.hosts r.host r.port = some c
            ∧ ∃ p ∈ hostPlans c, p.matches_.Holds re r ∧ Visible ω (hostPlans c) r p) →
          ∃ h ∈ ir.hosts, h.serves r.host r.port = true
            ∧ listenerSpecificityScore h.listenerHostname = listenerSpecificity ir.hosts r.host r.port
            ∧ (h.hostname = .any → lastCatchAll ir.hosts = some h)) := by
  constructor
  · rintro hall ⟨c, hc, hvisible⟩
    obtain ⟨p, hp⟩ := Option.isSome_iff_exists.1 (host_lookup_isSome_iff.2 hvisible)
    obtain ⟨h, hh, hplan', hscore⟩ := hall p (lookup_eq_some_iff.2 ⟨c, hc, hp⟩)
    obtain ⟨hmem, hmatch, hlast⟩ := mem_walkOrder.1 (chosenRoute_mem hc).1
    have hlisten : c.listenerHostname = h.listenerHostname := by
      rw [← listenerHostname_of_mem (host_lookup_sound hp).1, listenerHostname_of_mem hplan']
    exact ⟨c, hmem, (serves_of_chosen hc).2, by rw [hlisten, hscore], hlast⟩
  · intro hcond p hlookup
    obtain ⟨c, hc, hp⟩ := lookup_eq_some_iff.1 hlookup
    obtain ⟨hwalk, hon⟩ := chosenRoute_mem hc
    obtain ⟨hmem, -, -⟩ := mem_walkOrder.1 hwalk
    obtain ⟨h, hh, hserves, hscore, hkept⟩ := hcond ⟨c, hc, host_lookup_isSome_iff.1 (by rw [hp]; rfl)⟩
    rw [HostRoute.serves, Bool.and_eq_true] at hserves
    -- the chosen route is at least as specific as `h`, and no listener is more specific than `h`'s
    have hbest := chosenRoute_best hc (mem_walkOrder.2 ⟨hh, hserves.1, hkept⟩) hserves.2
    have hle : listenerSpecificityScore c.listenerHostname ≤ listenerSpecificity ir.hosts r.host r.port :=
      le_maxOf (mem_map_of_mem (f := fun h : HostRoute => listenerSpecificityScore h.listenerHostname)
        (mem_filter.2 ⟨hmem, hon⟩))
    rw [HostRoute.moreSpecific, scoreBefore_iff] at hbest
    exact ⟨c, hmem, (host_lookup_sound hp).1, by omega⟩

def wildcardListenerTable : RouteTable := { hosts :=
      [{ hostname := .exact "a.example.com", listenerHostname := some (.wildcard "example.com"), rules := [prefixRule "/"] },
        { hostname := .any, rules := [prefixRule "/"] }] }

theorem claimed_host_escapes : listenerSpecificity wildcardListenerTable.hosts "b.example.com" 443 = 101
      ∧ ((CompiledRouteTable.compile IterOrder.stored wildcardListenerTable).lookup ⟨fun _ => none⟩
        (pathRequest "b.example.com" 443 "/")).map (fun p => listenerSpecificityScore p.listenerHostname) = some 0 :=
  ⟨by decide, by decide⟩

end SunbeamProxy
