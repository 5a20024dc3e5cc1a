/-
A Caddyfile site read directive by directive (`caddyfile/translate.rs`), blocks included.
-/
import SunbeamProxy.Caddyfile.Translate
import SunbeamProxy.IR.Hosts
import SunbeamProxy.IR.PathRules

namespace SunbeamProxy.Caddy

open Option

variable (d : Directive)

def Directive.pattern : Option PathMatch :=
  match d.matcher with
  | some (.path path) => some (translatePathMatcher path)
  | _ => none

def Directive.backends : RuleKind → List WeightedBackend
  | .reverseProxy => d.arguments.map fun addr => { backend := addr, weight := 1 }
  | _ => []

def Directive.requestFilters : RuleKind → List RequestFilter
  | .rewrite =>
    match d.matcher, d.arguments with
    | some _, target :: _ => [.rewritePath (.fullReplace target)]
    | none, source :: target :: _ => [.rewritePath (.prefixReplace source target)]
    | _, _ => []
  | .requestHeader =>
    match d.arguments with
    | name :: value :: _ => [if value = "" then .removeHeader name else .setHeader name value]
    | _ => []
  | _ => []

def Directive.responseFilters : RuleKind → List ResponseFilter
  | .header =>
    match d.arguments with
    | name :: value :: _ => [if value = "" then .removeHeader name else .setHeader name value]
    | _ => []
  | _ => []

def Directive.auth : RuleKind → Option AuthConfig
  | .forwardAuth => d.arguments.head?.map fun url => { url }
  | _ => none

def Directive.action (kind : RuleKind) : RouteAction :=
  { backends := d.backends kind
    requestFilters := d.requestFilters kind
    responseFilters := d.responseFilters kind
    auth := d.auth kind }

structure Occurrence where
  /-- the block -/
  group : Option Directive
  directive : Directive
  kind : RuleKind
  /-- the number of the rule -/
  order : ℕ

def Directive.occurrences (group : Option Directive) (order : ℕ) : List Occurrence :=
  (ruleKind d.name).toList.map fun kind => ⟨group, d, kind, order⟩

def directiveOccurrences (idx : ℕ) : List Occurrence := if isHandle d.name then
    (d.block.getD []).zipIdx.flatMap fun e => e.1.occurrences (some d) (idx * 1000 + e.2)
  else d.occurrences none idx

def siteOccurrences (site : SiteBlock) : List Occurrence :=
  site.directives.zipIdx.flatMap fun e => directiveOccurrences e.1 e.2

namespace Occurrence

variable (o : Occurrence)

def pattern : Option PathMatch := o.directive.pattern.or (o.group.bind Directive.pattern)

def place : Option PathMatch × ℕ := (o.pattern, o.order)

def covers (path : String) : Bool :=
  pathCovers (o.group.bind Directive.pattern) path && pathCovers o.directive.pattern path

def strip : List RequestFilter :=
  match o.group with
  | some group => if group.name == "handle_path" then (group.pattern.map fun p => .stripPrefix p.text).toList else []
  | none => []

def action : RouteAction :=
  { o.directive.action o.kind with requestFilters := o.strip ++ o.directive.requestFilters o.kind }

end Occurrence

def firstOccurrence (site : SiteBlock) (path : String) : Option Occurrence :=
  firstBest (fun a b => patternBefore a.place b.place) (fun o => pathCovers o.pattern path) (siteOccurrences site)

/-- the rule asks and does what the occurrence says; the settings of a file server are another matter -/
structure Renders (rule : Rule) (o : Occurrence) : Prop where
  matches_ : rule.matches_ = [{ path := o.pattern }]
  order : rule.ruleOrder = o.order
  noRegex : ∀ pattern, o.pattern ≠ some (.regex pattern)
  files : o.kind = .fileServer → ∃ files, rule.action = .staticFiles files
  routes : o.kind ≠ .fileServer → rule.action = .route o.action

/-! ## Directives -/

theorem translatePathMatcher_ne_regex (path pattern : String) : translatePathMatcher path ≠ .regex pattern := by
  unfold translatePathMatcher
  split_ifs
  · simp
  · split <;> simp

theorem pattern_ne_regex (pattern : String) : d.pattern ≠ some (.regex pattern) := by
  unfold Directive.pattern
  split
  · rename_i path _
    intro h
    exact translatePathMatcher_ne_regex path pattern (Option.some.inj h)
  · simp

variable {d : Directive} {m : Option RequestMatch}

theorem translateMatcher_ok (h : translateMatcher d.matcher = .ok m) :
    m.getD {} = { path := d.pattern } ∧ (∀ outer, m = some outer → outer = { path := d.pattern })
      ∧ (m = none → d.pattern = none) := by
  unfold Directive.pattern
  cases hmatcher : d.matcher with
  | none =>
    rw [hmatcher] at h
    cases h
    simp
  | some matcher =>
    rw [hmatcher] at h
    cases matcher with
    | all | path path =>
      cases h
      simp
    | named name => cases h

theorem map_ok {α β : Type} {f : α → β} {x : Except String α} {b : β} (h : f <$> x = .ok b) : ∃ a, x = .ok a ∧ f a = b := by
  cases x with
  | error e => cases h
  | ok a => exact ⟨a, rfl, Except.ok.inj h⟩

variable {kind : RuleKind}

variable {idx : ℕ}

theorem renders_route (hm : translateMatcher d.matcher = .ok m) (hkind : kind ≠ .fileServer) :
    Renders { matches_ := [m.getD {}], action := .route (d.action kind), ruleOrder := idx } ⟨none, d, kind, idx⟩ := by
  refine ⟨?_, rfl, ?_, fun h => absurd h hkind, fun _ => rfl⟩
  · rw [(translateMatcher_ok hm).1, Occurrence.pattern, bind_none, or_none]
  · rw [Occurrence.pattern, bind_none, or_none]
    exact pattern_ne_regex d

variable {rule : Rule}

theorem renders_routeRule (h : routeRule d idx (d.action kind) = .ok rule) (hkind : kind ≠ .fileServer) :
    Renders rule ⟨none, d, kind, idx⟩ := by
  obtain ⟨m, hm, h⟩ := bind_ok h
  cases h
  exact renders_route hm hkind

theorem renders_staticFiles {directives : List Directive} {rule : Option Rule}
    (hd : directives[idx]? = some d) (hname : d.name = "file_server")
    (h : translateStaticFileBlock directives idx = .ok rule) :
    List.Forall₂ Renders rule.toList [⟨none, d, .fileServer, idx⟩] := by
  simp only [translateStaticFileBlock, hd, hname] at h
  obtain ⟨m, hm, h⟩ := bind_ok h
  cases h
  have hpattern : Occurrence.pattern ⟨none, d, .fileServer, idx⟩ = d.pattern := by rw [Occurrence.pattern, bind_none, or_none]
  refine .cons ⟨?_, rfl, ?_, fun _ => ⟨_, rfl⟩, fun h => absurd rfl h⟩ .nil
  · rw [(translateMatcher_ok hm).1, hpattern]
  · rw [hpattern]
    exact pattern_ne_regex d

theorem rewriteFilter_ok {filter : RequestFilter} (hm : translateMatcher d.matcher = .ok m)
    (h : rewriteFilter m d.arguments idx = .ok filter) :
    d.requestFilters .rewrite = [filter] := by
  unfold Directive.requestFilters
  cases hmatcher : d.matcher with
  | none =>
    rw [hmatcher] at hm
    cases hm
    cases hargs : d.arguments with
    | nil => rw [hargs] at h; cases h
    | cons source rest =>
      cases rest with
      | nil => rw [hargs] at h; cases h
      | cons target rest => rw [hargs] at h; cases h; rfl
  | some matcher =>
    have hsome : ∃ m', m = some m' := by
      rw [hmatcher] at hm
      cases matcher with
      | all | path path => cases hm; exact ⟨_, rfl⟩
      | named name => cases hm
    obtain ⟨m', rfl⟩ := hsome
    cases hargs : d.arguments with
    | nil => rw [hargs] at h; cases h
    | cons target rest => rw [hargs] at h; cases h; rfl

theorem renders_rewrite (h : translateRewrite d idx = .ok rule) : Renders rule ⟨none, d, .rewrite, idx⟩ := by
  obtain ⟨m, hm, h⟩ := bind_ok h
  obtain ⟨filter, hfilter, h⟩ := bind_ok h
  cases h
  rw [← rewriteFilter_ok hm hfilter]
  exact renders_route hm (show RuleKind.rewrite ≠ .fileServer by decide)

theorem renders_forwardAuth (h : translateForwardAuth d idx = .ok rule) : Renders rule ⟨none, d, .forwardAuth, idx⟩ := by
  obtain ⟨m, hm, h⟩ := bind_ok h
  cases hargs : d.arguments with
  | nil => simp [hargs] at h
  | cons url rest =>
    simp only [hargs] at h
    cases h
    have haction : d.action .forwardAuth = { auth := some { url } } := by
      simp [Directive.action, Directive.backends, Directive.requestFilters, Directive.responseFilters, Directive.auth, hargs]
    rw [← haction]
    exact renders_route hm (by decide)

theorem ruleKind_fileServer {name : String} (h : ruleKind name = some .fileServer) : name = "file_server" := by
  unfold ruleKind at h
  split at h <;> first | rfl | cases h

theorem renders_directive {directives : List Directive} {rules : List Rule} (hd : directives[idx]? = some d)
    (h : directiveRules directives d idx = .ok rules) :
    List.Forall₂ Renders rules (d.occurrences none idx) := by
  unfold directiveRules at h
  unfold Directive.occurrences
  cases hkind : ruleKind d.name with
  | none =>
    rw [hkind] at h
    cases h
    exact .nil
  | some kind =>
    rw [hkind] at h
    cases kind with
    | fileServer =>
      obtain ⟨rule, hrule, rfl⟩ := map_ok h
      exact renders_staticFiles hd (ruleKind_fileServer hkind) hrule
    | reverseProxy | header | requestHeader =>
      obtain ⟨rule, hrule, rfl⟩ := map_ok h
      exact .cons (renders_routeRule hrule (by decide)) .nil
    | rewrite =>
      obtain ⟨rule, hrule, rfl⟩ := map_ok h
      exact .cons (renders_rewrite hrule) .nil
    | forwardAuth =>
      obtain ⟨rule, hrule, rfl⟩ := map_ok h
      exact .cons (renders_forwardAuth hrule) .nil

/-! ## Blocks -/

theorem renders_underHandle (h : Renders rule ⟨none, d, kind, idx⟩) (group : Directive) (number : ℕ) :
    Renders { underHandle (group.name == "handle_path") { path := group.pattern } rule with ruleOrder := number }
      ⟨some group, d, kind, number⟩ := by
  have hmatches : rule.matches_ = [{ path := d.pattern }] := by rw [h.matches_, Occurrence.pattern, bind_none, or_none]
  refine ⟨?_, rfl, ?_, ?_, ?_⟩
  · simp [underHandle, hmatches, combineMatches, Occurrence.pattern]
  · intro p
    cases hpattern : d.pattern with
    | none => simpa [Occurrence.pattern, hpattern] using pattern_ne_regex group p
    | some q => simpa [Occurrence.pattern, hpattern] using pattern_ne_regex d p
  · intro hkind
    obtain ⟨files, hfiles⟩ := h.files hkind
    exact ⟨files, by simp [underHandle, hfiles]⟩
  · intro hkind
    have haction : rule.action = .route (d.action kind) := h.routes hkind
    cases hpattern : group.pattern with
    | none => simp [underHandle, haction, hpattern, Occurrence.action, Occurrence.strip]; rfl
    | some p =>
      cases hstrip : group.name == "handle_path" with
      | true => simp [underHandle, haction, hpattern, hstrip, Occurrence.action, Occurrence.strip]; rfl
      | false => simp [underHandle, haction, hstrip, Occurrence.action, Occurrence.strip]; rfl

theorem elim_underHandle {group : Directive} {pattern : Option PathMatch}
    (hm : translateMatcher group.matcher = .ok m) (hrule : rule.matches_ = [{ path := pattern }]) (stripPath : Bool) :
    m.elim rule (underHandle stripPath · rule) = underHandle stripPath { path := group.pattern } rule := by
  cases m with
  | none =>
    rw [(translateMatcher_ok hm).2.2 rfl]
    cases rule with
    | mk matches_ action ruleOrder =>
      cases hrule
      cases action <;> simp [underHandle, combineMatches]
  | some outer => rw [(translateMatcher_ok hm).2.1 outer rfl]; rfl

theorem getElem?_of_mem_zipIdx {l : List Directive} {e : Directive × ℕ} (h : e ∈ l.zipIdx) : l[e.2]? = some e.1 :=
  List.mem_zipIdx_iff_getElem?.1 h

theorem renders_handleGroup {group : Directive} {rules : List Rule} (h : translateHandleGroup group idx = .ok rules) :
    List.Forall₂ Renders rules
      ((group.block.getD []).zipIdx.flatMap fun e => e.1.occurrences (some group) (idx * 1000 + e.2)) := by
  obtain ⟨m, hm, h⟩ := bind_ok h
  obtain ⟨groups, hgroups, h⟩ := bind_ok h
  cases h
  refine List.rel_flatten (mapM_ok_rel (fun e he inner hinner => ?_) hgroups)
  obtain ⟨own, hown, rfl⟩ := map_ok hinner
  have hrenders := renders_directive (getElem?_of_mem_zipIdx he) hown
  unfold Directive.occurrences at hrenders ⊢
  cases hkind : ruleKind e.1.name with
  | none =>
    rw [hkind] at hrenders
    cases hrenders
    exact .nil
  | some kind =>
    rw [hkind] at hrenders
    obtain ⟨rule, rest, hrule, hrest, rfl⟩ := List.forall₂_cons_right_iff.1 hrenders
    cases hrest
    refine .cons ?_ .nil
    have hunder := renders_underHandle hrule group (idx * 1000 + e.2)
    rw [← elim_underHandle hm hrule.matches_] at hunder
    exact hunder

/-- **The rules of a site are its directives.** -/
theorem renders_site {site : SiteBlock} {host : HostRoute} {listener : Option ListenerConfig}
    (h : translateSite site = .ok (host, listener)) : List.Forall₂ Renders host.rules (siteOccurrences site) := by
  obtain ⟨groups, hgroups, h⟩ := bind_ok h
  cases h
  refine List.rel_flatten (mapM_ok_rel (fun e he rules hrules => ?_) hgroups)
  unfold siteRules at hrules
  unfold directiveOccurrences
  split_ifs at hrules ⊢
  · exact renders_handleGroup hrules
  · exact renders_directive (getElem?_of_mem_zipIdx he) hrules

theorem hosts_translate {caddyfile : Caddyfile} {table : RouteTable} (h : translate caddyfile = .ok table) :
    List.Forall₂ (fun host site => ∃ listener, translateSite site = .ok (host, listener)) table.hosts caddyfile.sites := by
  obtain ⟨sites, hsites, rfl⟩ := translate_ok h
  rw [List.forall₂_map_left_iff]
  exact hsites.imp fun pair site hsite => ⟨pair.2, hsite⟩

/-- one of the rule's matches holds -/
def RuleMatches (re : RegexEngine) (rule : Rule) (r : RouteRequest) : Prop := ∃ m ∈ rule.matches_, m.Holds re r

/-- the matcher of the directive, if it has one, takes the request -/
def Directive.Matches (re : RegexEngine) (d : Directive) (r : RouteRequest) : Prop :=
  ∀ m, translateMatcher d.matcher = .ok (some m) → m.Holds re r

variable {re : RegexEngine} {r : RouteRequest}

theorem holds_path {pattern : Option PathMatch} :
    RequestMatch.Holds re { path := pattern } r ↔ ∀ p, pattern = some p → p.Holds re r.path := by
  refine ⟨fun h => h.path, fun h => ⟨h, ?_, ?_, ?_⟩⟩
  · intro name hname
    cases hname
  · intro hm hmem
    cases hmem
  · intro qm hmem
    cases hmem

theorem ruleMatches_iff {o : Occurrence} (h : Renders rule o) :
    RuleMatches re rule r ↔ ∀ p, o.pattern = some p → p.Holds re r.path := by
  rw [RuleMatches, h.matches_]
  simp [holds_path]

theorem directive_matches_iff : d.Matches re r ↔ ∀ p, d.pattern = some p → p.Holds re r.path := by
  unfold Directive.Matches Directive.pattern
  cases d.matcher with
  | none => simp [translateMatcher]
  | some matcher => cases matcher <;> simp [translateMatcher, holds_path]

/-- **Nested matchers.** The rule of a directive in a block matches what the directive's own matcher matches, and what the
matcher of the block does too unless the directive has a path of its own. -/
theorem nested_matchers (caddyfile : Caddyfile) (table : RouteTable) (h : translate caddyfile = .ok table) :
    List.Forall₂ (fun host site => List.Forall₂ (fun rule o => ∀ group, o.group = some group → ∀ re r,
      (RuleMatches re rule r ↔ o.directive.Matches re r ∧ (o.directive.pattern = none → group.Matches re r)))
        host.rules (siteOccurrences site)) table.hosts caddyfile.sites := by
  refine (hosts_translate h).imp ?_
  rintro host site ⟨listener, hsite⟩
  refine (renders_site hsite).imp ?_
  intro rule o hrule group hgroup re r
  simp only [ruleMatches_iff hrule, directive_matches_iff, Occurrence.pattern, hgroup]
  cases o.directive.pattern <;> simp

def adminBlock : Directive :=
  { name := "handle", matcher := some (.path "/api/*")
    block := some [{ name := "reverse_proxy", matcher := some (.path "/admin/*"), arguments := ["localhost:9000"] }] }

def adminFile : Caddyfile := { sites := [{ addresses := [{ host := "app.example.com" }], directives := [adminBlock] }] }

def adminRule : Rule :=
  { matches_ := [{ path := some (.pathPrefix "/admin/") }]
    action := .route { backends := [{ backend := "localhost:9000", weight := 1 }] } }

def adminTable : RouteTable := { hosts := [{ hostname := .exact "app.example.com", rules := [adminRule] }] }

theorem inner_path_leaves_block :
    translate adminFile = .ok adminTable ∧ RuleMatches ⟨fun _ => none⟩ adminRule (pathRequest "app.example.com" 80 "/admin/users")
      ∧ ¬adminBlock.Matches ⟨fun _ => none⟩ (pathRequest "app.example.com" 80 "/admin/users")
      ∧ ((CompiledRouteTable.compile IterOrder.stored adminTable).lookup ⟨fun _ => none⟩
          (pathRequest "app.example.com" 80 "/admin/users")).bind (·.upstream.map fun u => u.backends.map (·.backend))
        = some ["localhost:9000"] := by
  refine ⟨rfl, ?_, ?_, by decide⟩
  · refine ⟨_, List.mem_singleton.2 rfl, holds_path.2 ?_⟩
    decide
  · rw [directive_matches_iff]
    intro h
    exact absurd (h _ rfl) (by decide)

theorem nested_matchers_admin : translate adminFile = .ok adminTable
      ∧ List.Forall₂ (fun host site => List.Forall₂ (fun rule o => ∀ group, o.group = some group → ∀ re r,
        (RuleMatches re rule r ↔ o.directive.Matches re r ∧ (o.directive.pattern = none → group.Matches re r)))
          host.rules (siteOccurrences site)) adminTable.hosts adminFile.sites :=
  ⟨rfl, nested_matchers adminFile adminTable rfl⟩

/-- the host route that the request selects is the one of the site -/
def ServedBy (ω : IterOrder) (table : RouteTable) (site : SiteBlock) (r : RouteRequest) : Prop :=
  ∃ host listener, translateSite site = .ok (host, listener) ∧ chosenRoute ω table.hosts r.host r.port = some host

theorem Renders.path {o : Occurrence} (h : Renders rule o) : rule.path = o.pattern := by
  rw [Rule.path, h.matches_]
  rfl

theorem lookup_firstOccurrence (ω : IterOrder) (re : RegexEngine) (r : RouteRequest) {site : SiteBlock} {host : HostRoute}
    {listener : Option ListenerConfig} (h : translateSite site = .ok (host, listener)) :
    Option.Rel (fun p o => ∃ rule, p = host.planOf rule ∧ Renders rule o) ((compileHost ω host).lookup re r)
      (firstOccurrence site r.path) := by
  have hrules := renders_site h
  have hpathOnly : ∀ rule ∈ host.rules, rule.PathOnly := by
    intro rule hrule
    obtain ⟨hlength, hget⟩ := List.forall₂_iff_get.1 hrules
    obtain ⟨i, rfl⟩ := List.mem_iff_get.1 hrule
    have hrenders := hget i i.isLt (hlength ▸ i.isLt)
    exact ⟨by rw [hrenders.path]; exact hrenders.matches_, by rw [hrenders.path]; exact hrenders.noRegex⟩
  have hrel : Option.Rel Renders
      (firstBest (fun a b => patternBefore a.place b.place) (fun rule => pathCovers rule.path r.path) host.rules)
      (firstOccurrence site r.path) := by
    refine firstBest_rel ?_ ?_ hrules
    · intro a b a' b' ha hb
      simp only [Rule.place, ha.path, hb.path, ha.order, hb.order]
      rfl
    · intro a a' ha
      rw [ha.path]
  rw [compileHost_lookup_pathRules ω re r hpathOnly]
  generalize firstBest (fun a b => patternBefore a.place b.place) (fun rule => pathCovers rule.path r.path) host.rules = x
    at hrel ⊢
  generalize firstOccurrence site r.path = y at hrel ⊢
  cases hrel with
  | none => exact .none
  | some hrenders => exact .some ⟨_, rfl, hrenders⟩

end SunbeamProxy.Caddy
