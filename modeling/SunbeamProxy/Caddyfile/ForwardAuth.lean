/-
What a `forward_auth` of a Caddyfile protects (`caddyfile/translate.rs` with `ir/compile.rs`).
-/
import SunbeamProxy.Caddyfile.Blocks

namespace SunbeamProxy.Caddy

structure Entry where
  pattern : Option PathMatch
  order : ℕ
  serves : Bool
deriving DecidableEq, Repr

def Entry.place (e : Entry) : Option PathMatch × ℕ := (e.pattern, e.order)

variable (d : Directive)

def Directive.serves : RuleKind → Bool
  | .fileServer => true
  | .reverseProxy => !d.arguments.isEmpty
  | _ => false

def Directive.entries (outer : Option PathMatch) (order : ℕ) : List Entry :=
  (ruleKind d.name).toList.map fun kind => ⟨d.pattern.or outer, order, d.serves kind⟩

def directiveEntries (idx : ℕ) : List Entry := if isHandle d.name then
    (d.block.getD []).zipIdx.flatMap fun e => e.1.entries d.pattern (idx * 1000 + e.2)
  else d.entries none idx

variable (site : SiteBlock)

def siteEntries : List Entry := site.directives.zipIdx.flatMap fun e => directiveEntries e.1 e.2

def firstEntry (path : String) : Option Entry :=
  firstBest (fun a b => patternBefore a.place b.place) (fun e => pathCovers e.pattern path) (siteEntries site)

def Action.forwards : Action → Bool
  | .route action => !action.backends.isEmpty
  | .staticFiles _ => true
  | _ => false

def Action.auth : Action → Option AuthConfig
  | .route action => action.auth
  | _ => none

/-- the rule asks and does what the entry says, and what forwards or serves has no authentication -/
structure Translates (rule : Rule) (e : Entry) : Prop where
  matches_ : rule.matches_ = [{ path := e.pattern }]
  order : rule.ruleOrder = e.order
  serves : Action.forwards rule.action = e.serves
  plain : e.serves = true → Action.auth rule.action = none
  noRegex : ∀ pattern, e.pattern ≠ some (.regex pattern)

def Occurrence.entry (o : Occurrence) : Entry := ⟨o.pattern, o.order, o.directive.serves o.kind⟩

theorem siteEntries_eq : siteEntries site = (siteOccurrences site).map Occurrence.entry := by
  have hentries : ∀ (d : Directive) (group : Option Directive) (order : ℕ),
      d.entries (group.bind Directive.pattern) order = (d.occurrences group order).map Occurrence.entry := by
    intro d group order
    rw [Directive.occurrences, List.map_map]
    rfl
  rw [siteOccurrences, List.map_flatMap]
  refine List.flatMap_congr fun e _ => ?_
  unfold directiveEntries directiveOccurrences
  split_ifs
  · rw [List.map_flatMap]
    exact List.flatMap_congr fun inner _ => hentries inner.1 (some e.1) _
  · exact hentries e.1 none e.2

theorem Renders.translates {rule : Rule} {o : Occurrence} (h : Renders rule o) : Translates rule o.entry := by
  refine ⟨h.matches_, h.order, ?_, ?_, h.noRegex⟩
  · obtain ⟨group, d, kind, order⟩ := o
    by_cases hkind : kind = .fileServer
    · obtain ⟨files, hfiles⟩ := h.files hkind
      rw [hfiles, hkind]
      rfl
    · rw [h.routes hkind]
      cases kind <;> simp [Action.forwards, Occurrence.action, Directive.action, Directive.backends, Occurrence.entry,
        Directive.serves] at hkind ⊢
  · obtain ⟨group, d, kind, order⟩ := o
    intro hserves
    by_cases hkind : kind = .fileServer
    · obtain ⟨files, hfiles⟩ := h.files hkind
      rw [hfiles]
      rfl
    · rw [h.routes hkind]
      cases kind <;> simp [Action.auth, Occurrence.action, Directive.action, Directive.auth, Occurrence.entry,
        Directive.serves] at hkind hserves ⊢

/-! ## Protection -/

/-- a `forward_auth` with the URL, of the site or of a `handle` block in it, covers the path -/
inductive Covered (site : SiteBlock) (path url : String) : Prop
  | site (d : Directive) (hd : d ∈ site.directives) (hname : d.name = "forward_auth") (hurl : d.arguments.head? = some url)
      (hpath : pathCovers d.pattern path = true)
  | handle (group d : Directive) (hgroup : group ∈ site.directives) (hhandle : isHandle group.name = true)
      (hd : d ∈ group.block.getD []) (hname : d.name = "forward_auth") (hurl : d.arguments.head? = some url)
      (houter : pathCovers group.pattern path = true) (hpath : pathCovers d.pattern path = true)

/-- the plan has a backend or serves files -/
def PlanServes (p : CompiledPlan) : Prop :=
  (∃ upstream, p.upstream = some upstream ∧ upstream.backends ≠ []) ∨ ∃ files, .staticFiles files ∈ p.requestStages

/-- what is forwarded or served under a `forward_auth` carries its authentication -/
def AuthGuards (caddyfile : Caddyfile) : Prop :=
  ∀ table, translate caddyfile = .ok table → ∀ ω re r, ∀ site ∈ caddyfile.sites, ServedBy ω table site r →
    ∀ url, Covered site r.path url → ∀ p, (CompiledRouteTable.compile ω table).lookup re r = some p → PlanServes p →
      .auth { url } ∈ p.requestStages

/-- for what a `forward_auth` covers, what comes first neither forwards nor serves -/
def NothingServedFirst (caddyfile : Caddyfile) : Prop :=
  ∀ table, translate caddyfile = .ok table → ∀ ω r, ∀ site ∈ caddyfile.sites, ServedBy ω table site r →
    ∀ url, Covered site r.path url → ∀ e, firstEntry site r.path = some e → e.serves = false

theorem planServes_planOf (host : HostRoute) (rule : Rule) :
    PlanServes (host.planOf rule) ↔ Action.forwards rule.action = true := by
  unfold PlanServes HostRoute.planOf compilePlan
  cases haction : rule.action <;> simp [Action.forwards]

theorem auth_planOf {host : HostRoute} {rule : Rule} {config : AuthConfig}
    (h : .auth config ∈ (host.planOf rule).requestStages) : Action.auth rule.action = some config := by
  unfold HostRoute.planOf compilePlan at h
  cases haction : rule.action with
  | route action => simpa [haction, Action.auth] using h
  | redirect action | staticFiles action | fixedResponse action => simp [haction] at h

theorem firstEntry_eq (path : String) :
    firstEntry site path = (firstOccurrence site path).map Occurrence.entry := by
  rw [firstEntry, siteEntries_eq, firstBest_map]
  rfl

theorem lookup_firstEntry (ω : IterOrder) (re : RegexEngine) (r : RouteRequest) {site : SiteBlock} {host : HostRoute}
    {listener : Option ListenerConfig} (h : translateSite site = .ok (host, listener)) :
    Option.Rel (fun p e => ∃ rule, p = host.planOf rule ∧ Translates rule e) ((compileHost ω host).lookup re r)
      (firstEntry site r.path) := by
  have hrel := lookup_firstOccurrence ω re r h
  rw [firstEntry_eq]
  generalize (compileHost ω host).lookup re r = x at hrel ⊢
  generalize firstOccurrence site r.path = y at hrel ⊢
  cases hrel with
  | none => exact .none
  | some hrule =>
    obtain ⟨rule, rfl, hrenders⟩ := hrule
    exact .some ⟨rule, rfl, hrenders.translates⟩

theorem serves_iff_of_rel (host : HostRoute) {rule : Rule} {e : Entry} (h : Translates rule e) :
    (PlanServes (host.planOf rule) ↔ e.serves = true)
      ∧ (PlanServes (host.planOf rule) → ∀ config, .auth config ∉ (host.planOf rule).requestStages) := by
  have hserves : PlanServes (host.planOf rule) ↔ e.serves = true := by rw [planServes_planOf, h.serves]
  refine ⟨hserves, fun hplan config hauth => ?_⟩
  have hnone := h.plain (hserves.1 hplan)
  rw [auth_planOf hauth] at hnone
  cases hnone

/-- **What `forward_auth` protects.** Every plan that forwards or serves a request a `forward_auth` covers has its
authentication, exactly when no such request has a forwarding or serving directive first. -/
theorem forward_auth_guards_iff (caddyfile : Caddyfile) : AuthGuards caddyfile ↔ NothingServedFirst caddyfile := by
  apply Iff.intro
  · intro h table htable ω r site hsite hserved url hcovered e he
    obtain ⟨host, listener, hhost, hchosen⟩ := id hserved
    have hrel := lookup_firstEntry ω ⟨fun _ => none⟩ r hhost
    rw [he] at hrel
    generalize hlookup : (compileHost ω host).lookup ⟨fun _ => none⟩ r = found at hrel
    cases hrel with
    | some hplan =>
      obtain ⟨rule, rfl, htranslates⟩ := hplan
      obtain ⟨hserves, hplain⟩ := serves_iff_of_rel host htranslates
      rw [← Bool.not_eq_true, ← hserves]
      intro hplan
      exact hplain hplan _ (h table htable ω _ r site hsite hserved url hcovered _
        (lookup_eq_some_iff.2 ⟨host, hchosen, hlookup⟩) hplan)
  · intro h table htable ω re r site hsite hserved url hcovered p hp hplan
    obtain ⟨host, listener, hhost, hchosen⟩ := id hserved
    obtain ⟨c, hc, hlookup⟩ := lookup_eq_some_iff.1 hp
    cases hchosen.symm.trans hc
    have hrel := lookup_firstEntry ω re r hhost
    rw [hlookup] at hrel
    generalize hfirst : firstEntry site r.path = first at hrel
    cases hrel with
    | some hrule =>
      obtain ⟨rule, rfl, htranslates⟩ := hrule
      have hserves := (serves_iff_of_rel host htranslates).1.1 hplan
      rw [h table htable ω r site hsite hserved url hcovered _ hfirst] at hserves
      cases hserves

def guardedSite : SiteBlock :=
  { addresses := [{ host := "app.example.com" }]
    directives :=
      [{ name := "forward_auth", arguments := ["localhost:9000"] },
        { name := "reverse_proxy", matcher := some (.path "/api/*"), arguments := ["localhost:3000"] }] }

def guardedFile : Caddyfile := { sites := [guardedSite] }

def guardedHost : HostRoute :=
  { hostname := .exact "app.example.com"
    rules :=
      [{ matches_ := [{}], action := .route { auth := some { url := "localhost:9000" } }, ruleOrder := 0 },
        { matches_ := [{ path := some (.pathPrefix "/api/") }]
          action := .route { backends := [{ backend := "localhost:3000", weight := 1 }] }, ruleOrder := 1 }] }

def ordersRequest : RouteRequest := pathRequest "app.example.com" 80 "/api/orders"

theorem proxied_path_unguarded :
    translate guardedFile = .ok { hosts := [guardedHost] } ∧ Covered guardedSite ordersRequest.path "localhost:9000"
      ∧ ((CompiledRouteTable.compile IterOrder.stored { hosts := [guardedHost] }).lookup ⟨fun _ => none⟩ ordersRequest).map
          (fun p => (p.requestStages, p.upstream.map fun u => u.backends.map (·.backend)))
        = some ([], some ["localhost:3000"])
      ∧ ¬AuthGuards guardedFile := by
  have htable : translate guardedFile = .ok { hosts := [guardedHost] } := by rfl
  have hsite : translateSite guardedSite = .ok (guardedHost, none) := by rfl
  have hchosen : chosenRoute IterOrder.stored [guardedHost] "app.example.com" 80 = some guardedHost := by decide
  have hcovered : Covered guardedSite ordersRequest.path "localhost:9000" := .site _ (List.mem_cons_self ..) rfl rfl rfl
  have hplan : ((CompiledRouteTable.compile IterOrder.stored { hosts := [guardedHost] }).lookup ⟨fun _ => none⟩
      ordersRequest).map (fun p => (p.requestStages, p.upstream.map fun u => u.backends.map (·.backend)))
        = some ([], some ["localhost:3000"]) := by decide
  refine ⟨htable, hcovered, hplan, ?_⟩
  intro h
  obtain ⟨p, hp, heq⟩ := Option.map_eq_some_iff.1 hplan
  have hstages : p.requestStages = [] := congrArg Prod.fst heq
  obtain ⟨upstream, hupstream, hbackends⟩ := Option.map_eq_some_iff.1 (congrArg Prod.snd heq)
  have hne : upstream.backends ≠ [] := by
    intro hnil
    rw [hnil] at hbackends
    cases hbackends
  have hauth := h _ htable _ _ _ guardedSite (List.mem_cons_self ..) ⟨guardedHost, none, hsite, hchosen⟩ _ hcovered p hp
    (.inl ⟨upstream, hupstream, hne⟩)
  rw [hstages] at hauth
  cases hauth

end SunbeamProxy.Caddy
