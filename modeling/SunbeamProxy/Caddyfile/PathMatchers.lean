/-
Path matchers of a Caddyfile and what `handle_path` takes off (`caddyfile/translate.rs`, `proxy/filters.rs`).
-/
import SunbeamProxy.Caddyfile.Compose
import SunbeamProxy.Proxy.Paths

namespace SunbeamProxy.Caddy

open Text List

/-- the matcher is for the path in Caddy's own terms, and `rest` is what follows the text before its `*` -/
def MatchedRest (matcher path rest : String) : Prop :=
  match stripEnd matcher "*" with
  | some start => path = start ++ rest
  | none => path = matcher ∧ rest = ""

theorem eq_slash_of_prefix {l : List Char} (h : l <+: '/' :: l) {c : Char} (hc : c ∈ l) : c = '/' := by
  induction l with
  | nil => cases hc
  | cons a l ih =>
    obtain ⟨rfl, htail⟩ := cons_prefix_cons.1 h
    rcases mem_cons.1 hc with rfl | hc
    · rfl
    · exact ih htail hc

theorem splitPath_of_prefix {start rest : String} (h : "/" ++ start = start ++ rest) : splitPath start = [] := by
  have hprefix : start.toList <+: '/' :: start.toList :=
    ⟨rest.toList, by rw [← String.toList_append, ← h, String.toList_append]; rfl⟩
  refine eq_nil_iff_forall_not_mem.2 fun s hs => of_decide_eq_true (mem_filter.1 hs).2 (String.toList_eq_nil_iff.1 ?_)
  refine eq_nil_iff_forall_not_mem.2 fun c hc => no_slash_of_mem_splitPath hs ?_
  rwa [← eq_slash_of_prefix hprefix (mem_of_mem_splitPath hs hc)]

theorem pathCovers_matcher {matcher start : String} (h : stripEnd matcher "*" = some start) (path : String) :
    pathCovers (some (translatePathMatcher matcher)) path = (splitPath start).isPrefixOf (splitPath path) := by
  unfold translatePathMatcher
  split_ifs with hstar
  · subst hstar
    cases h
    rfl
  · rw [h]
    rfl

/-- **Path matchers.** The rule of a directive takes the paths its matcher is for exactly when the matcher does not end in `*`
or is for every path. -/
theorem path_matcher_kept_iff (ω : IterOrder) (re : RegexEngine) (d : Directive) (matcher : String)
    (hmatcher : d.matcher = some (.path matcher)) (rule : Rule) (hrule : directiveRules [d] d 0 = .ok [rule])
    (host : HostRoute) (hhost : host.rules = [rule]) :
    (∀ r : RouteRequest, startsWith r.path "/" = true →
        (((compileHost ω host).lookup re r).isSome = true ↔ ∃ rest, MatchedRest matcher r.path rest))
      ↔ stripEnd matcher "*" = none ∨ matcher = "*" ∨ matcher = "/*" := by
  have hrenders := renders_directive (getElem?_cons_zero ..) hrule
  have hpath : rule.PathOnly ∧ rule.path = some (translatePathMatcher matcher) := by
    unfold Directive.occurrences at hrenders
    cases hkind : ruleKind d.name with
    | none => rw [hkind] at hrenders; cases hrenders
    | some kind =>
      rw [hkind] at hrenders
      have hone := (forall₂_cons.1 hrenders).1
      have hpattern : rule.path = some (translatePathMatcher matcher) := by
        rw [hone.path, Occurrence.pattern, Option.bind_none, Option.or_none, Directive.pattern, hmatcher]
      exact ⟨⟨by rw [hone.path]; exact hone.matches_, by rw [hone.path]; exact hone.noRegex⟩, hpattern⟩
  have htakes : ∀ r, ((compileHost ω host).lookup re r).isSome = true
      ↔ pathCovers (some (translatePathMatcher matcher)) r.path = true := by
    intro r
    rw [compileHost_lookup_pathRules ω re r (by simpa [hhost] using hpath.1), Option.isSome_map, firstBest_isSome_iff, hhost,
      ← hpath.2]
    simp
  simp only [htakes, MatchedRest]
  cases hstrip : stripEnd matcher "*" with
  | none =>
    have hexact : translatePathMatcher matcher = .exact matcher := by
      unfold translatePathMatcher
      rw [if_neg (by rintro rfl; cases hstrip), hstrip]
    refine iff_of_true (fun r _ => ?_) (.inl rfl)
    rw [hexact, pathCovers, decide_eq_true_iff]
    apply Iff.intro
    · exact fun h => ⟨"", h.symm, rfl⟩
    · intro h
      obtain ⟨_, hpath, -⟩ := h
      exact hpath.symm
  | some start =>
    have hmatcher := stripEnd_eq_some.1 hstrip
    simp only [pathCovers_matcher hstrip, reduceCtorEq, false_or, isPrefixOf_iff_prefix]
    apply Iff.intro
    · intro h
      -- a doubled slash makes no difference to segments, so the text can only be slashes; and then `/` is taken too
      obtain ⟨rest, hrest⟩ := (h (pathRequest "" 0 ("/" ++ start)) (startsWith_iff.2 ⟨start, rfl⟩)).1
        (by rw [pathRequest, splitPath_slash_append])
      obtain ⟨rest', hroot⟩ := (h (pathRequest "" 0 "/") rfl).1 (by rw [ splitPath_of_prefix hrest]; exact nil_prefix)
      have hlist : ['/'] = start.toList ++ rest'.toList := by rw [← String.toList_append, ← hroot]; rfl
      rcases append_eq_singleton_iff.1 hlist.symm with ⟨hnil, -⟩ | ⟨hslash, -⟩
      · exact .inl (by rw [hmatcher, String.toList_eq_nil_iff.1 hnil]; rfl)
      · exact .inr (by rw [hmatcher, String.toList_inj.1 (hslash.trans (rfl : _ = "/".toList))]; rfl)
    · rintro (rfl | rfl) r habs
      · cases hstrip
        exact iff_of_true nil_prefix ⟨r.path, (String.empty_append).symm⟩
      · cases hstrip
        exact iff_of_true nil_prefix (startsWith_iff.1 habs)

variable (matcher : String)

def proxyFor : Directive := { name := "reverse_proxy", matcher := some (.path matcher), arguments := ["app:80"] }

def proxyRule : Rule :=
  { matches_ := [{ path := some (translatePathMatcher matcher) }]
    action := .route { backends := [{ backend := "app:80", weight := 1 }] } }

theorem path_matcher_kept_star :
    ((compileHost IterOrder.stored { hostname := .any, rules := [proxyRule "/*"] }).lookup ⟨fun _ => none⟩
        (pathRequest "app.example.com" 80 "/apix")).isSome = true
      ↔ ∃ rest, MatchedRest "/*" "/apix" rest :=
  (path_matcher_kept_iff _ _ (proxyFor "/*") "/*" rfl (proxyRule "/*") rfl { hostname := .any, rules := [proxyRule "/*"] } rfl).2
    (by decide) (pathRequest "app.example.com" 80 "/apix") rfl

theorem star_inside_segment : directiveRules [proxyFor "/api*"] (proxyFor "/api*") 0 = .ok [proxyRule "/api*"]
      ∧ MatchedRest "/api*" "/apix" "x"
      ∧ (compileHost IterOrder.stored { hostname := .any, rules := [proxyRule "/api*"] }).lookup ⟨fun _ => none⟩
        (pathRequest "app.example.com" 80 "/apix") = none :=
  ⟨rfl, rfl, by decide⟩

/-! ## What `handle_path` takes off -/

def absolutePath (rest : String) : String := if startsWith rest "/" then rest else "/" ++ rest

variable (authorityHost : String → Option String)

/-- the plan's changes give the request this path -/
def SentTo (plan : CompiledPlan) (req : RequestHeader) (path : String) : Prop :=
  ∃ sent, plan.upstreamRequestMutations.foldlM (applyUpstreamRequestMutation authorityHost) req = .ok sent ∧ sent.uri.path = path

theorem sentTo_stripped {plan : CompiledPlan} {req : RequestHeader} {text rest path : String}
    (hplan : plan.upstreamRequestMutations = [.stripPrefix text]) (hreq : req.uri.WellFormed) (hpath : req.uri.path = text ++ rest) :
    SentTo authorityHost plan req path ↔ normalizePath (if rest = "" then "/" else rest) = some path := by
  have htext : PathText (if rest = "" then "/" else rest) := by
    split_ifs
    · decide
    · exact (PathText.append_iff.1 (hpath ▸ hreq.path)).2
  have hset := @setPath_eq "prefix strip" _ _ hreq htext
  rw [SentTo, hplan, foldlM_cons, applyUpstreamRequestMutation, stripStart_eq_some.2 hpath]
  simp only [hset]
  cases normalizePath (if rest = "" then "/" else rest) <;> simp [bind, Except.bind, pure, Except.pure]

theorem normalizePath_absolute_iff {rest : String} : normalizePath rest = some (absolutePath rest) ↔ CleanPath rest := by
  refine ⟨fun h => ?_, fun h => ?_⟩
  · have habs := (normalizePath_eq_some_iff.1 h).1
    rw [absolutePath, if_pos habs] at h
    exact normalizePath_clean h
  · rw [absolutePath, if_pos h.startsWith]
    exact h.normalizePath

theorem cleanPath_root : CleanPath "/" := ⟨[], rfl, by simp⟩

theorem sentTo_whole_iff {plan : CompiledPlan} {req : RequestHeader}
    (hplan : plan.upstreamRequestMutations = [.stripPrefix "/"]) (hreq : req.uri.WellFormed) :
    SentTo authorityHost plan req (absolutePath req.uri.path) ↔ req.uri.path = "/" := by
  by_cases habs : startsWith req.uri.path "/" = true
  · obtain ⟨more, hmore⟩ := startsWith_iff.1 habs
    rw [sentTo_stripped authorityHost hplan hreq hmore, absolutePath, if_pos habs, hmore]
    by_cases hnil : more = ""
    · subst hnil
      exact iff_of_true cleanPath_root.normalizePath rfl
    · rw [if_neg hnil]
      refine iff_of_false (fun hn => ?_) fun hroot => hnil ((String.append_right_inj "/").1 hroot)
      obtain ⟨again, rfl⟩ := startsWith_iff.1 (normalizePath_eq_some_iff.1 hn).1
      exact CleanPath.no_double_slash (a := "") (by rw [String.empty_append]; exact normalizePath_clean hn)
  · have hstay := stripStart_eq_none.2 fun h => habs (startsWith_iff.2 h)
    refine iff_of_false ?_ fun hroot => habs (startsWith_iff.2 ⟨"", hroot⟩)
    rintro ⟨sent, hsent, hpath⟩
    rw [hplan, foldlM_cons, applyUpstreamRequestMutation, hstay] at hsent
    cases hsent
    rw [absolutePath, if_neg habs] at hpath
    exact habs (startsWith_iff.2 ⟨_, hpath⟩)

/-- **`handle_path`.** A `reverse_proxy` in the block gets the request, with what follows the matcher's text as its path, exactly
when nothing follows or what follows is itself a path in normal form. -/
theorem handle_path_strips_iff {site : SiteBlock} {host : HostRoute} {listener : Option ListenerConfig}
    (hsite : translateSite site = .ok (host, listener)) {rule : Rule} {o : Occurrence}
    (hrule : (rule, o) ∈ host.rules.zip (siteOccurrences site)) (hkind : o.kind = .reverseProxy) {group : Directive}
    (hgroup : o.group = some group) (hname : group.name = "handle_path") {matcher : String}
    (hmatcher : group.matcher = some (.path matcher)) (hinner : o.directive.pattern = none)
    {req : RequestHeader} (hreq : req.uri.WellFormed) {rest : String} (hrest : MatchedRest matcher req.uri.path rest) :
    pathCovers rule.path req.uri.path = true ∧ SentTo authorityHost (host.planOf rule) req (absolutePath rest)
      ↔ rest = "" ∨ (CleanPath rest ∧ (matcher = "*" → rest = "/")) := by
  have hrenders := (forall₂_iff_zip.1 (renders_site hsite)).2 hrule
  have hpattern : group.pattern = some (translatePathMatcher matcher) := by rw [Directive.pattern, hmatcher]
  have hpath : rule.path = some (translatePathMatcher matcher) := by
    rw [hrenders.path, Occurrence.pattern, hinner, hgroup, Option.none_or, Option.bind_some, hpattern]
  have hplan : (host.planOf rule).upstreamRequestMutations = [.stripPrefix (translatePathMatcher matcher).text] := by
    rw [(mutations_planOf host hrenders hkind).1, Occurrence.strip, hgroup]
    simp [hname, hpattern, compileRequestFilter]
  rw [hpath]
  by_cases hstar : matcher = "*"
  · subst hstar
    have hwhole := hrest.trans String.empty_append
    subst hwhole
    have hcovers : pathCovers (some (translatePathMatcher "*")) req.uri.path = true := rfl
    rw [sentTo_whole_iff authorityHost hplan hreq, and_iff_right hcovers]
    refine ⟨fun hroot => .inr ⟨hroot ▸ cleanPath_root, fun _ => hroot⟩, fun h => ?_⟩
    exact (h.resolve_left hreq.not_empty).2 rfl
  · have htext : req.uri.path = (translatePathMatcher matcher).text ++ rest
        ∧ (rest = "" ∨ CleanPath rest → pathCovers (some (translatePathMatcher matcher)) req.uri.path = true) := by
      unfold MatchedRest at hrest
      unfold translatePathMatcher
      rw [if_neg hstar]
      cases hstrip : stripEnd matcher "*" with
      | none =>
        rw [hstrip] at hrest
        obtain ⟨hsame, rfl⟩ := hrest
        exact ⟨hsame.trans String.append_empty.symm, fun _ => decide_eq_true hsame.symm⟩
      | some start =>
        rw [hstrip] at hrest
        refine ⟨hrest, fun h => isPrefixOf_iff_prefix.2 ?_⟩
        rw [hrest]
        rcases h with rfl | ⟨segments, rfl, -⟩
        · rw [String.append_empty]
        · rw [splitPath_append_slash]
          exact prefix_append _ _
    rw [sentTo_stripped authorityHost hplan hreq htext.1]
    by_cases hnil : rest = ""
    · subst hnil
      exact iff_of_true ⟨htext.2 (.inl rfl), cleanPath_root.normalizePath⟩ (.inl rfl)
    · rw [if_neg hnil, normalizePath_absolute_iff, or_iff_right hnil]
      exact ⟨fun h => ⟨h.2, fun h' => absurd h' hstar⟩, fun h => ⟨htext.2 (.inr h.1), h.1⟩⟩

def apiSite : SiteBlock :=
  { addresses := [{ host := "app.example.com" }]
    directives := [{ name := "handle_path", matcher := some (.path matcher)
                     block := some [{ name := "reverse_proxy", arguments := ["app:80"] }] }] }

def apiGet (path : String) : RequestHeader := { method := "GET", uri := ⟨path, none, none⟩ }

def apiRule : Rule :=
  { matches_ := [{ path := some (translatePathMatcher matcher) }]
    action := .route { backends := [{ backend := "app:80", weight := 1 }]
                       requestFilters := [.stripPrefix (translatePathMatcher matcher).text] } }

def apiHost : HostRoute := { hostname := .exact "app.example.com", rules := [apiRule matcher] }

theorem handle_path_strips_api : SentTo (fun _ => none) ((apiHost "/api*").planOf (apiRule "/api*")) (apiGet "/api/x") "/x" :=
  have hsite : translateSite (apiSite "/api*") = .ok (apiHost "/api*", none) := rfl
  have hget : (apiGet "/api/x").uri.WellFormed := ⟨by decide, by decide, nofun⟩
  have hrest : MatchedRest "/api*" (apiGet "/api/x").uri.path "/x" := rfl
  ((handle_path_strips_iff (fun _ => none) hsite (mem_singleton.2 rfl) rfl rfl rfl rfl rfl hget hrest).2
    (.inr ⟨⟨["x"], rfl, forall_mem_singleton.2 ⟨by decide, by decide, by decide, by decide⟩⟩, by decide⟩)).2

theorem handle_path_refuses : translateSite (apiSite "/api/*") = .ok (apiHost "/api/*", none) ∧ MatchedRest "/api/*" "/api/x" "x"
      ∧ pathCovers (apiRule "/api/*").path "/api/x" = true
      ∧ ((apiHost "/api/*").planOf (apiRule "/api/*")).upstreamRequestMutations.foldlM
          (applyUpstreamRequestMutation fun _ => none) (apiGet "/api/x")
        = .error ⟨.httpStatus 400, "invalid path after prefix strip"⟩ :=
  ⟨rfl, rfl, rfl, rfl⟩

end SunbeamProxy.Caddy
