/-
Directives of a Caddyfile site taken together (`caddyfile/translate.rs` with `ir/compile.rs`).
-/
import SunbeamProxy.Caddyfile.Blocks

namespace SunbeamProxy.Caddy

open CompiledRouteTable

def RuleKind.isTerminal : RuleKind → Bool
  | .fileServer => true
  | .reverseProxy => true
  | _ => false

def RuleKind.isModifier : RuleKind → Bool
  | .header => true
  | .requestHeader => true
  | .rewrite => true
  | _ => false

def patternLength (pattern : Option PathMatch) : ℕ := (pattern.map fun p => p.text.utf8ByteSize).getD 0

/-- an exact path against another pattern, or the longer of two -/
def MoreSpecific (a b : Option PathMatch) : Prop :=
  (pathIsExact a = true ∧ pathIsExact b = false) ∨ (pathIsExact a = pathIsExact b ∧ patternLength b < patternLength a)

/-- a `reverse_proxy` for the path, and nothing more specific that answers is -/
structure Proxied (site : SiteBlock) (path : String) (d : Occurrence) : Prop where
  mem : d ∈ siteOccurrences site
  kind : d.kind = .reverseProxy
  covers : d.covers path = true
  best : ∀ t ∈ siteOccurrences site, t.kind.isTerminal = true → t.covers path = true → ¬MoreSpecific t.pattern d.pattern

/-- the plan has backends, and all are among the addresses -/
def ForwardsTo (p : CompiledPlan) (addresses : List String) : Prop :=
  ∃ upstream, p.upstream = some upstream ∧ upstream.backends ≠ [] ∧ ∀ b ∈ upstream.backends, b.backend ∈ addresses

/-- the plan carries the filters the directive stands for -/
def Applies (p : CompiledPlan) (o : Occurrence) : Prop :=
  (∀ f ∈ o.directive.requestFilters o.kind, compileRequestFilter f ∈ p.upstreamRequestMutations)
    ∧ ∀ f ∈ o.directive.responseFilters o.kind, compileResponseFilter f ∈ p.responseMutations

/-- the request is given a plan that forwards to the addresses -/
def Forwarded (ω : IterOrder) (re : RegexEngine) (table : RouteTable) (r : RouteRequest) (addresses : List String) : Prop :=
  ∃ p, (compile ω table).lookup re r = some p ∧ ForwardsTo p addresses

/-- one modifier is added to a list of directives, at the top or inside a handle block -/
inductive AddsDirective : List Directive → List Directive → Prop
  | here (above below : List Directive) (d : Directive) (kind : RuleKind) (hkind : ruleKind d.name = some kind)
      (hmodifier : kind.isModifier = true) : AddsDirective (above ++ below) (above ++ d :: below)
  | block (above below inner inner' : List Directive) (group : Directive) (hhandle : isHandle group.name = true)
      (h : AddsDirective inner inner') :
      AddsDirective (above ++ { group with block := some inner } :: below) (above ++ { group with block := some inner' } :: below)

/-- the same file with one such directive more in a site -/
def AddsModifier (old new : Caddyfile) : Prop :=
  ∃ above below site directives, AddsDirective site.directives directives ∧ old.sites = above ++ site :: below
    ∧ new = { old with sites := above ++ { site with directives } :: below }

/-- a proxied request is forwarded with every modifier that covers its path, and adding a modifier takes no forwarding away -/
structure Composes (caddyfile : Caddyfile) : Prop where
  forwarded : ∀ table, translate caddyfile = .ok table → ∀ ω re r, ∀ site ∈ caddyfile.sites, ServedBy ω table site r →
    ∀ d, Proxied site r.path d → ∃ p, (compile ω table).lookup re r = some p
      ∧ ForwardsTo p d.directive.arguments
      ∧ ∀ o ∈ siteOccurrences site, o.kind.isModifier = true → o.covers r.path = true → Applies p o
  kept : ∀ old, AddsModifier old caddyfile → ∀ oldTable table, translate old = .ok oldTable → translate caddyfile = .ok table →
    ∀ ω re r, ∀ site ∈ caddyfile.sites, ServedBy ω table site r → ∀ d, Proxied site r.path d →
      Forwarded ω re oldTable r d.directive.arguments → Forwarded ω re table r d.directive.arguments

/-- a `reverse_proxy` with addresses comes first, and nothing for the path changes anything -/
def ProxiedFirst (caddyfile : Caddyfile) : Prop :=
  ∀ table, translate caddyfile = .ok table → ∀ ω r, ∀ site ∈ caddyfile.sites, ServedBy ω table site r →
    ∀ d, Proxied site r.path d →
      (∃ o, firstOccurrence site r.path = some o ∧ o.kind = .reverseProxy ∧ o.directive.arguments ≠ []
        ∧ o.directive.arguments ⊆ d.directive.arguments)
      ∧ ∀ o ∈ siteOccurrences site, o.covers r.path = true →
        o.directive.requestFilters o.kind = [] ∧ o.directive.responseFilters o.kind = []

/-! ## Plans -/

variable {host : HostRoute} {o : Occurrence}

theorem forwardsTo_planOf {rule : Rule} (h : Renders rule o) (addresses : List String) : ForwardsTo (host.planOf rule) addresses
      ↔ o.kind = .reverseProxy ∧ o.directive.arguments ≠ [] ∧ o.directive.arguments ⊆ addresses := by
  by_cases hfiles : o.kind = .fileServer
  · obtain ⟨files, haction⟩ := h.files hfiles
    simp [ForwardsTo, HostRoute.planOf, compilePlan, haction, hfiles]
  · have haction := h.routes hfiles
    have hbackends : ForwardsTo (host.planOf rule) addresses
        ↔ o.directive.backends o.kind ≠ [] ∧ ∀ b ∈ o.directive.backends o.kind, b.backend ∈ addresses := by
      simp [ForwardsTo, HostRoute.planOf, compilePlan, haction, Occurrence.action, Directive.action]
    rw [hbackends]
    cases hkind : o.kind <;> simp [Directive.backends, List.subset_def]

theorem compile_ne_stripPrefix {d : Directive} {kind : RuleKind} {f : RequestFilter} (hf : f ∈ d.requestFilters kind)
    (path : String) : compileRequestFilter f ≠ .stripPrefix path := by
  unfold Directive.requestFilters at hf
  split at hf
  · split at hf
    · rw [List.mem_singleton.1 hf]
      simp [compileRequestFilter]
    · rw [List.mem_singleton.1 hf]
      simp [compileRequestFilter]
    · cases hf
  · split at hf
    · rw [List.mem_singleton.1 hf]
      split_ifs <;> simp [compileRequestFilter]
    · cases hf
  · cases hf

theorem mutations_planOf (host : HostRoute) {rule : Rule} (h : Renders rule o) (hkind : o.kind = .reverseProxy) :
    (host.planOf rule).upstreamRequestMutations = o.strip.map compileRequestFilter
      ∧ (host.planOf rule).responseMutations = [] := by
  have haction := h.routes (by rw [hkind]; decide)
  simp [HostRoute.planOf, compilePlan, haction, Occurrence.action, Directive.action, hkind, Directive.requestFilters,
    Directive.responseFilters]

theorem compile_strip {mutation : UpstreamRequestMutation} (h : mutation ∈ o.strip.map compileRequestFilter) :
    ∃ path, mutation = .stripPrefix path := by
  obtain ⟨f, hf, rfl⟩ := List.mem_map.1 h
  unfold Occurrence.strip at hf
  split at hf
  · split_ifs at hf
    · obtain ⟨p, -, rfl⟩ := Option.map_eq_some_iff.1 (Option.mem_toList.1 hf)
      exact ⟨p.text, rfl⟩
    · cases hf
  · cases hf

theorem applies_planOf {rule : Rule} {first : Occurrence} (h : Renders rule first)
    (hkind : first.kind = .reverseProxy) (o : Occurrence) :
    Applies (host.planOf rule) o ↔ o.directive.requestFilters o.kind = [] ∧ o.directive.responseFilters o.kind = [] := by
  obtain ⟨hrequest, hresponse⟩ := mutations_planOf host h hkind
  apply Iff.intro
  · rintro ⟨hrequests, hresponses⟩
    refine ⟨List.eq_nil_iff_forall_not_mem.2 fun f hf => ?_, List.eq_nil_iff_forall_not_mem.2 fun f hf => ?_⟩
    · obtain ⟨path, hpath⟩ := compile_strip (hrequest ▸ hrequests f hf)
      exact compile_ne_stripPrefix hf path hpath
    · have hmem := hresponses f hf
      rw [hresponse] at hmem
      cases hmem
  · rintro ⟨hrequests, hresponses⟩
    refine ⟨fun f hf => ?_, fun f hf => ?_⟩
    · rw [hrequests] at hf
      cases hf
    · rw [hresponses] at hf
      cases hf

theorem filters_of_not_modifier {d : Directive} {kind : RuleKind} (h : kind.isModifier = false) :
    d.requestFilters kind = [] ∧ d.responseFilters kind = [] := by
  cases kind <;> first | exact ⟨rfl, rfl⟩ | cases h

theorem lookup_of_chosen {ω : IterOrder} {re : RegexEngine} {table : RouteTable} {r : RouteRequest}
    (h : chosenRoute ω table.hosts r.host r.port = some host) :
    (compile ω table).lookup re r = (compileHost ω host).lookup re r := by
  refine Option.ext fun p => ?_
  rw [lookup_eq_some_iff]
  apply Iff.intro
  · rintro ⟨c, hc, hp⟩
    cases h.symm.trans hc
    exact hp
  · intro hp
    exact ⟨host, h, hp⟩

/-- **Composition.** The directives of every site compose exactly when what is proxied has its `reverse_proxy` first and no
directive that changes anything. -/
theorem directives_compose_iff (caddyfile : Caddyfile) : Composes caddyfile ↔ ProxiedFirst caddyfile := by
  apply Iff.intro
  · intro h table htable ω r site hsite hserved d hd
    obtain ⟨p, hp, hforwards, hmodified⟩ := h.forwarded table htable ω ⟨fun _ => none⟩ r site hsite hserved d hd
    obtain ⟨host, listener, hhost, hchosen⟩ := hserved
    have hrel := lookup_firstOccurrence ω ⟨fun _ => none⟩ r hhost
    rw [← lookup_of_chosen hchosen, hp] at hrel
    generalize firstOccurrence site r.path = first at hrel ⊢
    cases hrel with
    | some hrule =>
      rename_i o
      obtain ⟨rule, rfl, hrenders⟩ := hrule
      have hproxy := (forwardsTo_planOf hrenders _).1 hforwards
      refine ⟨⟨o, rfl, hproxy⟩, fun m hm hcovers => ?_⟩
      cases hmodifier : m.kind.isModifier with
      | true => exact (applies_planOf hrenders hproxy.1 m).1 (hmodified m hm hmodifier hcovers)
      | false => exact filters_of_not_modifier hmodifier
  · intro h
    have hforwarded : ∀ table, translate caddyfile = .ok table → ∀ ω re r, ∀ site ∈ caddyfile.sites, ServedBy ω table site r →
        ∀ d, Proxied site r.path d → ∃ p, (compile ω table).lookup re r = some p
          ∧ ForwardsTo p d.directive.arguments
          ∧ ∀ o ∈ siteOccurrences site, o.kind.isModifier = true → o.covers r.path = true → Applies p o := by
      intro table htable ω re r site hsite hserved d hd
      obtain ⟨⟨o, hfirst, hproxy⟩, hplain⟩ := h table htable ω r site hsite hserved d hd
      obtain ⟨host, listener, hhost, hchosen⟩ := hserved
      have hrel := lookup_firstOccurrence ω re r hhost
      rw [← lookup_of_chosen hchosen, hfirst] at hrel
      generalize (compile ω table).lookup re r = found at hrel ⊢
      cases hrel with
      | some hrule =>
        obtain ⟨rule, rfl, hrenders⟩ := hrule
        exact ⟨_, rfl, (forwardsTo_planOf hrenders _).2 hproxy,
          fun m hm _ hcovers => (applies_planOf hrenders hproxy.1 m).2 (hplain m hm hcovers)⟩
    refine ⟨hforwarded, ?_⟩
    intro old _ oldTable table _ htable ω re r site hsite hserved d hd _
    obtain ⟨p, hp, hforwards, -⟩ := hforwarded table htable ω re r site hsite hserved d hd
    exact ⟨p, hp, hforwards⟩

def proxySite : SiteBlock :=
  { addresses := [{ host := "app.example.com" }], directives := [{ name := "reverse_proxy", arguments := ["localhost:3000"] }] }

def headedSite : SiteBlock :=
  { proxySite with
    directives := { name := "request_header", arguments := ["X-Proxy", "sunbeam"] } :: proxySite.directives }

def headedHost : HostRoute :=
  { hostname := .exact "app.example.com"
    rules :=
      [{ matches_ := [{}], action := .route { requestFilters := [.setHeader "X-Proxy" "sunbeam"] }, ruleOrder := 0 },
        { matches_ := [{}], action := .route { backends := [{ backend := "localhost:3000", weight := 1 }] }, ruleOrder := 1 }] }

def backendsFor (table : RouteTable) (r : RouteRequest) : Option (List String) :=
  ((compile IterOrder.stored table).lookup ⟨fun _ => none⟩ r).bind
    (·.upstream.map fun u => u.backends.map (·.backend))

theorem header_takes_backend : AddsModifier { sites := [proxySite] } { sites := [headedSite] }
      ∧ translate { sites := [headedSite] } = .ok { hosts := [headedHost] }
      ∧ (translate { sites := [proxySite] }).toOption.bind (backendsFor · (pathRequest "app.example.com" 80 "/"))
        = some ["localhost:3000"]
      ∧ backendsFor { hosts := [headedHost] } (pathRequest "app.example.com" 80 "/") = some []
      ∧ ¬Composes { sites := [headedSite] } := by
  have htable : translate { sites := [headedSite] } = .ok { hosts := [headedHost] } := by rfl
  have hchosen : chosenRoute IterOrder.stored [headedHost] "app.example.com" 80 = some headedHost := by decide
  have hlost : backendsFor { hosts := [headedHost] } (pathRequest "app.example.com" 80 "/") = some [] := by decide
  refine ⟨⟨[], [], proxySite, headedSite.directives, ?_, rfl, rfl⟩, htable, by decide, hlost, ?_⟩
  · exact .here [] proxySite.directives _ .requestHeader rfl rfl
  · intro h
    have hsite : siteOccurrences headedSite
        = [⟨none, { name := "request_header", arguments := ["X-Proxy", "sunbeam"] }, .requestHeader, 0⟩,
          ⟨none, { name := "reverse_proxy", arguments := ["localhost:3000"] }, .reverseProxy, 1⟩] := by rfl
    have hproxied : Proxied headedSite "/" ⟨none, { name := "reverse_proxy", arguments := ["localhost:3000"] }, .reverseProxy, 1⟩ := by
      refine ⟨by simp [hsite], rfl, rfl, ?_⟩
      intro t ht _ _ hspecific
      have hpattern : t.pattern = none := by
        rw [hsite, List.mem_pair] at ht
        rcases ht with rfl | rfl <;> rfl
      rw [hpattern] at hspecific
      rcases hspecific with ⟨hexact, -⟩ | ⟨-, hlt⟩
      · cases hexact
      · exact absurd hlt (Nat.lt_irrefl _)
    rcases h.forwarded _ htable IterOrder.stored ⟨fun _ => none⟩ (pathRequest "app.example.com" 80 "/") headedSite
      (List.mem_singleton.2 rfl) ⟨headedHost, none, rfl, hchosen⟩ _ hproxied with ⟨p, hp, ⟨upstream, hupstream, hne, -⟩, -⟩
    rw [backendsFor, hp, Option.bind_some, hupstream] at hlost
    exact hne (List.map_eq_nil_iff.1 (Option.some.inj hlost))

end SunbeamProxy.Caddy
