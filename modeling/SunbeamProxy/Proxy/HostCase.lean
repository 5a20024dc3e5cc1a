/-
Routing under a change of case in the host name: `find_host_node` and `ir_hostname_matches` (`ir/compile.rs`) and
`find_tls_route` (`l4/router.rs`).

Hostnames of routes and listeners are lower case, as the Gateway API demands.
-/
import SunbeamProxy.IR.Distinguish
import SunbeamProxy.L4.Router
import SunbeamProxy.Proxy.CacheResponse

namespace SunbeamProxy

open Text List

def LowerCase (s : String) : Prop := toAsciiLowercase s = s

namespace HostnameMatch

def LowerCase : HostnameMatch → Prop
  | .exact s | .labelPrefix s | .wildcard s => SunbeamProxy.LowerCase s
  | .any => True

end HostnameMatch

def RouteTable.LowerCase (ir : RouteTable) : Prop :=
  ∀ h ∈ ir.hosts, h.hostname.LowerCase ∧ ∀ lh, h.listenerHostname = some lh → lh.LowerCase

def L4Match.LowerCase : L4Match → Prop
  | .any => True
  | .sni hostname => hostname.LowerCase

def CompiledL4Route.LowerCase (r : CompiledL4Route) : Prop := r.listenerHostname.LowerCase ∧ r.match_.LowerCase

theorem eqIgnoreAsciiCase_iff_lowercase {a b : String} : eqIgnoreAsciiCase a b = true ↔ toAsciiLowercase a = toAsciiLowercase b := by
  simp [eqIgnoreAsciiCase, toAsciiLowercase, String.ofList_inj]

theorem toLower_eq_dot (c : Char) : c.toLower = '.' ↔ c = '.' := by
  apply Iff.intro
  · intro h
    unfold Char.toLower at h
    split_ifs at h with hupper
    · have hval := congrArg (fun d => d.val.toNat) h
      simp only [UInt32.toNat_add, UInt32.le_iff_toNat_le] at hval hupper
      have hshift : ('a'.val - 'A'.val).toNat = 32 := rfl
      have hdot : '.'.val.toNat = 46 := rfl
      have hfirst : 'A'.val.toNat = 65 := rfl
      have hlast : 'Z'.val.toNat = 90 := rfl
      omega
    · exact h
  · rintro rfl
    rfl

variable (host : String)

def labels : List String := splitChar '.' host

theorem labels_toAsciiLowercase : labels (toAsciiLowercase host) = (labels host).map toAsciiLowercase := by
  simp only [labels, splitChar, toAsciiLowercase, String.toList_ofList, splitOn_map toLower_eq_dot, map_map]
  apply map_congr_left
  simp [toAsciiLowercase]

theorem labels_append (a b : String) : labels (a ++ "." ++ b) = labels a ++ labels b := by
  rw [String.append_assoc]
  exact splitChar_append_sep '.' a b

theorem exists_labels {host : String} {part : List String} (hne : part ≠ []) (h : part ⊆ labels host) : ∃ s, labels s = part :=
  ⟨joinChar '.' part, splitChar_joinChar hne fun _ hp => notMem_of_mem_splitChar (h hp)⟩

variable {s : String}

theorem lowerCase_iff : LowerCase s ↔ ∀ label ∈ labels s, toAsciiLowercase label = label := by
  apply Iff.intro
  · intro h
    have hlabels : (labels s).map toAsciiLowercase = (labels s).map id := by rw [← labels_toAsciiLowercase, h, map_id]
    exact map_inj_left.1 hlabels
  · intro h
    apply splitChar_inj (c := '.')
    have hlabels := labels_toAsciiLowercase s
    rwa [map_of_fixed h] at hlabels

theorem irHostnameMatches_labelPrefix {host p : String} :
    irHostnameMatches host (.labelPrefix p) = true ↔ labels p <+: labels host := by
  simp only [irHostnameMatches, Bool.or_eq_true, beq_iff_eq, startsWith_iff]
  apply Iff.intro
  · rintro (rfl | ⟨rest, rfl⟩)
    · exact prefix_refl _
    · rw [labels_append]
      exact prefix_append _ _
  · rintro ⟨back, hback⟩
    by_cases hne : back = []
    · left
      rw [hne, append_nil] at hback
      exact (splitChar_inj hback).symm
    · right
      have hpart := hback ▸ subset_append_right _ _
      obtain ⟨rest, hrest⟩ := exists_labels hne hpart
      refine ⟨rest, splitChar_inj (c := '.') ?_⟩
      rw [← labels, ← labels, labels_append, hrest, hback]

theorem irHostnameMatches_wildcard_labels {host suffix : String} : irHostnameMatches host (.wildcard suffix) = true
      ↔ ∃ front, front ≠ [] ∧ front ≠ [""] ∧ labels host = front ++ labels suffix := by
  rw [irHostnameMatches_wildcard]
  apply Iff.intro
  · rintro ⟨rest, hne, rfl⟩
    refine ⟨labels rest, splitChar_ne_nil _ _, ?_, labels_append rest suffix⟩
    intro hempty
    exact hne (splitChar_inj (c := '.') (hempty.trans (by decide)))
  · rintro ⟨front, hne, hempty, hhost⟩
    have hpart := hhost ▸ subset_append_left _ _
    obtain ⟨rest, rfl⟩ := exists_labels hne hpart
    refine ⟨rest, ?_, splitChar_inj (c := '.') ?_⟩
    · rintro rfl
      exact hempty (by decide)
    · rw [← labels, ← labels, labels_append, hhost]

def lowerHead : ℕ := (fixedFront toAsciiLowercase (labels host)).length

def lowerTail : ℕ := (fixedFront toAsciiLowercase (labels host).reverse).length

variable {h h' : String}

theorem map_labels_eq (hcase : eqIgnoreAsciiCase h h' = true) :
    (labels h).map toAsciiLowercase = (labels h').map toAsciiLowercase := by
  simp [← labels_toAsciiLowercase, eqIgnoreAsciiCase_iff_lowercase.1 hcase]

theorem length_labels_eq (hcase : eqIgnoreAsciiCase h h' = true) : (labels h).length = (labels h').length := by
  simpa using congrArg List.length (map_labels_eq hcase)

theorem labels_prefix_of_head (hcase : eqIgnoreAsciiCase h h' = true) (hhead : lowerHead h = lowerHead h')
    (hs : LowerCase s) (hbegins : labels s <+: labels h) : labels s <+: labels h' := by
  have hfixed := lowerCase_iff.1 hs
  apply prefix_of_map_eq (map_labels_eq hcase) hfixed hbegins
  exact (length_le_fixedFront hfixed hbegins).trans_eq hhead

theorem labels_suffix_of_tail (hcase : eqIgnoreAsciiCase h h' = true) (htail : lowerTail h = lowerTail h')
    (hs : LowerCase s) (hsuffix : labels s <:+ labels h) : labels s <:+ labels h' := by
  have hfixed : ∀ label ∈ (labels s).reverse, toAsciiLowercase label = label := by simpa using lowerCase_iff.1 hs
  have hbegins := reverse_prefix.2 hsuffix
  apply reverse_prefix.1
  apply prefix_of_map_eq _ hfixed hbegins
  · exact (length_le_fixedFront hfixed hbegins).trans_eq htail
  · simp [map_reverse, map_labels_eq hcase]

theorem toAsciiLowercase_eq_empty (hs : toAsciiLowercase s = "") : s = "" := by
  have hlist := congrArg String.toList hs
  simpa [toAsciiLowercase] using hlist

theorem matches_of_alike (hcase : eqIgnoreAsciiCase h h' = true) (hhead : lowerHead h = lowerHead h')
    (htail : lowerTail h = lowerTail h') {pat : HostnameMatch} (hlower : pat.LowerCase)
    (hmatch : irHostnameMatches h pat = true) : irHostnameMatches h' pat = true := by
  cases pat with
  | any => rfl
  | exact s =>
    obtain rfl : h = s := by simpa [irHostnameMatches] using hmatch
    have hsame := (labels_prefix_of_head hcase hhead hlower (prefix_refl _)).eq_of_length (length_labels_eq hcase)
    simpa [irHostnameMatches] using (splitChar_inj hsame).symm
  | labelPrefix s =>
    rw [irHostnameMatches_labelPrefix] at hmatch ⊢
    exact labels_prefix_of_head hcase hhead hlower hmatch
  | wildcard s =>
    rw [irHostnameMatches_wildcard_labels] at hmatch ⊢
    obtain ⟨front, hne, hempty, hfront⟩ := hmatch
    obtain ⟨front', hfront'⟩ := labels_suffix_of_tail hcase htail hlower ⟨front, hfront.symm⟩
    -- the labels before the suffix are two spellings of each other
    have hmap := map_labels_eq hcase
    simp only [hfront, ← hfront', map_append] at hmap
    have hspelling := append_cancel_right hmap
    refine ⟨front', ?_, ?_, hfront'.symm⟩
    · rintro rfl
      exact hne (map_eq_nil_iff.1 hspelling)
    · rintro rfl
      obtain ⟨label, rfl, hlabel⟩ := map_eq_singleton_iff.1 hspelling
      rw [toAsciiLowercase_eq_empty hlabel] at hempty
      exact hempty rfl

theorem matches_iff_of_alike (hcase : eqIgnoreAsciiCase h h' = true) (hhead : lowerHead h = lowerHead h')
    (htail : lowerTail h = lowerTail h') {pat : HostnameMatch} (hlower : pat.LowerCase) :
    irHostnameMatches h pat = irHostnameMatches h' pat := by
  have hcase' : eqIgnoreAsciiCase h' h = true := by rwa [eqIgnoreAsciiCase_comm]
  rw [Bool.eq_iff_iff]
  exact ⟨matches_of_alike hcase hhead htail hlower, matches_of_alike hcase' hhead.symm htail.symm hlower⟩

theorem mem_fixedFront {f : String → String} {l : List String} {a : String} (ha : a ∈ fixedFront f l) : f a = a := by
  simpa using mem_takeWhile_imp ha

theorem lowerHead_le (hmatch : ∀ pat : HostnameMatch, pat.LowerCase → irHostnameMatches h pat = true →
    irHostnameMatches h' pat = true) : lowerHead h ≤ lowerHead h' := by
  by_cases hne : fixedFront toAsciiLowercase (labels h) = []
  · simp [lowerHead, hne]
  · have hbegins : fixedFront toAsciiLowercase (labels h) <+: labels h := takeWhile_prefix _
    obtain ⟨s, hs⟩ := exists_labels hne hbegins.subset
    have hfixed : ∀ label ∈ labels s, toAsciiLowercase label = label := by
      rw [hs]
      exact fun _ => mem_fixedFront
    have hother := hmatch (.labelPrefix s) (lowerCase_iff.2 hfixed) (irHostnameMatches_labelPrefix.2 (hs ▸ hbegins))
    calc lowerHead h = (labels s).length := by rw [hs, lowerHead]
      _ ≤ lowerHead h' := length_le_fixedFront hfixed (irHostnameMatches_labelPrefix.1 hother)

theorem lowerTail_le (hmatch : ∀ pat : HostnameMatch, pat.LowerCase → irHostnameMatches h pat = true →
    irHostnameMatches h' pat = true) : lowerTail h ≤ lowerTail h' := by
  by_cases hlower : LowerCase h
  · have hsame := hmatch (.exact h) hlower (by simp [irHostnameMatches])
    obtain rfl : h' = h := by simpa [irHostnameMatches] using hsame
    exact le_rfl
  by_cases hne : fixedFront toAsciiLowercase (labels h).reverse = []
  · simp [lowerTail, hne]
  have hbegins : fixedFront toAsciiLowercase (labels h).reverse <+: (labels h).reverse := takeWhile_prefix _
  have hends : (fixedFront toAsciiLowercase (labels h).reverse).reverse <:+ labels h := by simpa using reverse_suffix.2 hbegins
  obtain ⟨s, hs⟩ := exists_labels (by simpa using hne) hends.subset
  obtain ⟨front, hfront⟩ := hends
  have hfixed : ∀ label ∈ labels s, toAsciiLowercase label = label := by
    intro label hlabel
    rw [hs, mem_reverse] at hlabel
    exact mem_fixedFront hlabel
  rw [← hs] at hfront
  -- a name with capitals has one before the labels counted
  have hcapital : ¬∀ label ∈ front, toAsciiLowercase label = label := by
    intro hall
    apply hlower
    rw [lowerCase_iff, ← hfront]
    intro label hlabel
    rcases mem_append.1 hlabel with hin | hin
    · exact hall label hin
    · exact hfixed label hin
  have htakes : irHostnameMatches h (.wildcard s) = true := by
    rw [irHostnameMatches_wildcard_labels]
    refine ⟨front, ?_, ?_, hfront.symm⟩
    · rintro rfl
      exact hcapital (by simp)
    · rintro rfl
      exact hcapital (by simp [toAsciiLowercase])
  obtain ⟨front', -, -, hfront'⟩ := irHostnameMatches_wildcard_labels.1 (hmatch (.wildcard s) (lowerCase_iff.2 hfixed) htakes)
  have hback : (labels s).reverse <+: (labels h').reverse := by
    rw [hfront', reverse_append]
    exact prefix_append _ _
  calc lowerTail h = (labels s).reverse.length := by rw [hs, reverse_reverse, lowerTail]
    _ ≤ lowerTail h' := length_le_fixedFront (by simpa using hfixed) hback

theorem same_patterns_iff (hcase : eqIgnoreAsciiCase h h' = true) :
    (∀ pat : HostnameMatch, pat.LowerCase → irHostnameMatches h pat = irHostnameMatches h' pat)
      ↔ lowerHead h = lowerHead h' ∧ lowerTail h = lowerTail h' := by
  apply Iff.intro
  · intro hsame
    have hto : ∀ pat : HostnameMatch, pat.LowerCase → irHostnameMatches h pat = true → irHostnameMatches h' pat = true :=
      fun pat hpat hm => by rwa [← hsame pat hpat]
    have hfrom : ∀ pat : HostnameMatch, pat.LowerCase → irHostnameMatches h' pat = true → irHostnameMatches h pat = true :=
      fun pat hpat hm => by rwa [hsame pat hpat]
    exact ⟨le_antisymm (lowerHead_le hto) (lowerHead_le hfrom), le_antisymm (lowerTail_le hto) (lowerTail_le hfrom)⟩
  · rintro ⟨hhead, htail⟩ pat hpat
    exact matches_iff_of_alike hcase hhead htail hpat

/-! ## The routers -/

/-- a table in lower case finds the same plan for both hosts, whatever the rest of the request -/
def SamePlan (h h' : String) : Prop :=
  ∀ (ω : IterOrder) (re : RegexEngine) (ir : RouteTable), ir.LowerCase → ∀ r : RouteRequest,
    (CompiledRouteTable.compile ω ir).lookup re { r with host := h }
      = (CompiledRouteTable.compile ω ir).lookup re { r with host := h' }

/-- lower-case routes do not tell the two names apart -/
def SameTlsRoute (h h' : String) : Prop := ∀ routes : List CompiledL4Route, (∀ r ∈ routes, r.LowerCase) → ∀ listenerId,
    findTlsRoute routes listenerId (some h) = findTlsRoute routes listenerId (some h')

section Routers

variable (hsame : ∀ pat : HostnameMatch, pat.LowerCase → irHostnameMatches h pat = irHostnameMatches h' pat)

include hsame

variable {ir : RouteTable}

theorem onListener_eq (hlower : ir.LowerCase) {c : HostRoute} (hc : c ∈ ir.hosts) (port : UInt16) :
    c.onListener h port = c.onListener h' port := by
  have hlistener : listenerHostnameMatches h c.listenerHostname = listenerHostnameMatches h' c.listenerHostname := by
    cases hname : c.listenerHostname with
    | none => rfl
    | some lh =>
      have hpat := hsame lh ((hlower c hc).2 lh hname)
      cases lh with
      | exact s => simp [listenerHostnameMatches, hpat]
      | labelPrefix s | wildcard s => exact hpat
      | any => rfl
  simp [HostRoute.onListener, hlistener]

theorem walkOrder_of_same (ω : IterOrder) (hlower : ir.LowerCase) : walkOrder ω ir.hosts h = walkOrder ω ir.hosts h' := by
  have hexact : ir.hosts.filter (fun c => c.hostname = .exact h) = ir.hosts.filter (fun c => c.hostname = .exact h') := by
    apply filter_congr
    intro c hc
    have hpat := hsame _ (hlower c hc).1
    cases hname : c.hostname with
    | exact s =>
      rw [hname] at hpat
      simp only [irHostnameMatches] at hpat
      have hnames : h = s ↔ h' = s := by rw [← beq_iff_eq (a := h), ← beq_iff_eq (a := h'), hpat]
      simp only [decide_eq_decide, HostnameMatch.exact.injEq]
      exact ⟨fun e => (hnames.1 e.symm).symm, fun e => (hnames.2 e.symm).symm⟩
    | labelPrefix s | wildcard s | any => simp
  rw [walkOrder]
  congr 2
  apply filter_congr
  intro c hc
  rw [mem_stableSort] at hc
  exact hsame _ (hlower c (mem_of_mem_filter hc)).1

theorem chosenRoute_eq (ω : IterOrder) (hlower : ir.LowerCase) (port : UInt16) :
    chosenRoute ω ir.hosts h port = chosenRoute ω ir.hosts h' port := by
  have hon : (walkOrder ω ir.hosts h').filter (·.onListener h port) = (walkOrder ω ir.hosts h').filter (·.onListener h' port) := by
    apply filter_congr
    intro c hc
    exact onListener_eq hsame hlower (mem_walkOrder.1 hc).1 port
  rw [chosenRoute, walkOrder_of_same hsame ω hlower]
  calc firstBest HostRoute.moreSpecific (·.onListener h port) (walkOrder ω ir.hosts h')
    _ = firstBest HostRoute.moreSpecific (fun _ => true) ((walkOrder ω ir.hosts h').filter (·.onListener h port)) :=
      (firstBest_filter_test _).symm
    _ = firstBest HostRoute.moreSpecific (fun _ => true) ((walkOrder ω ir.hosts h').filter (·.onListener h' port)) := by rw [hon]
    _ = firstBest HostRoute.moreSpecific (·.onListener h' port) (walkOrder ω ir.hosts h') := firstBest_filter_test _

theorem matchRoute_eq {m : L4Match} (hm : m.LowerCase) : matchRoute m (some h) = matchRoute m (some h') := by
  cases m with
  | any => rfl
  | sni hostname => exact hsame hostname hm

theorem sameTlsRoute_of_patterns : SameTlsRoute h h' := by
  intro routes hlower listenerId
  have hcandidates : routes.filter (fun r => r.listenerId = listenerId && irHostnameMatches h r.listenerHostname)
      = routes.filter (fun r => r.listenerId = listenerId && irHostnameMatches h' r.listenerHostname) := by
    apply filter_congr
    intro r hr
    rw [hsame _ (hlower r hr).1]
  simp only [findTlsRoute, Option.bind_some, hcandidates]
  apply find?_congr
  intro r hr
  exact matchRoute_eq hsame (hlower r (mem_of_mem_filter (mem_of_mem_filter hr))).2

end Routers

theorem hostNode_lookup_host (re : RegexEngine) (n : HostNode) (r : RouteRequest) (host : String) :
    n.lookup re { r with host } = n.lookup re r := by
  simp only [HostNode.lookup, trieCandidates_eq]
  rfl

theorem samePlan_of_patterns
    (hsame : ∀ pat : HostnameMatch, pat.LowerCase → irHostnameMatches h pat = irHostnameMatches h' pat) : SamePlan h h' := by
  intro ω re ir hlower r
  have hnode : (CompiledRouteTable.compile ω ir).findHostNode h r.port
      = (CompiledRouteTable.compile ω ir).findHostNode h' r.port := by
    simp [findHostNode_eq, chosenRoute_eq hsame ω hlower]
  simp [CompiledRouteTable.lookup, hnode, hostNode_lookup_host]

def patternHost (pat : HostnameMatch) : HostRoute :=
  { hostname := pat, rules := [restRule (.fixedResponse { status := 200 })] }

def patternRoute (pat : HostnameMatch) : CompiledL4Route :=
  { listenerId := "", listenerHostname := .any, match_ := .sni pat, action := .tlsPassthrough [] }

theorem patternHost_lookup (ω : IterOrder) (re : RegexEngine) (pat : HostnameMatch) (r : RouteRequest) :
    (compileHost ω (patternHost pat)).lookup re r = some (restPlan (.fixedResponse { status := 200 })) := by
  apply host_lookup_of_one _ (restPlan_holds _ re r)
  simp [hostPlans, patternHost, restPlan, restRule]

theorem patternHost_isSome_iff (ω : IterOrder) (re : RegexEngine) (pat : HostnameMatch) (r : RouteRequest) :
    ((CompiledRouteTable.compile ω { hosts := [patternHost pat] }).lookup re r).isSome = true
      ↔ irHostnameMatches r.host pat = true := by
  rw [Option.isSome_iff_exists]
  apply Iff.intro
  · rintro ⟨plan, hplan⟩
    obtain ⟨c, hc, -⟩ := lookup_eq_some_iff.1 hplan
    obtain ⟨hmem, hmatch, -⟩ := mem_walkOrder.1 (chosenRoute_mem hc).1
    rw [mem_singleton.1 hmem] at hmatch
    exact hmatch
  · intro hmatch
    have hserves : (patternHost pat).serves r.host r.port = true := by
      simp [HostRoute.serves, HostRoute.onListener, patternHost, hmatch, listenerHostnameMatches, listenerPortMatches]
    have hlast : (patternHost pat).hostname = .any → lastCatchAll [patternHost pat] = some (patternHost pat) := by
      intro hany
      simp [lastCatchAll, hany]
    have hchosen := chosenRoute_of_only (ω := ω) (mem_singleton_self _) hserves hlast fun h' hmem _ => mem_singleton.1 hmem
    exact ⟨_, lookup_eq_some_iff.2 ⟨_, hchosen, patternHost_lookup ω re pat r⟩⟩

def noRegex : RegexEngine where
  compile _ := none

theorem patterns_of_samePlan (hplan : SamePlan h h') (pat : HostnameMatch) (hpat : pat.LowerCase) :
    irHostnameMatches h pat = irHostnameMatches h' pat := by
  have hlower : RouteTable.LowerCase { hosts := [patternHost pat] } := by
    intro c hc
    rw [mem_singleton.1 hc]
    exact ⟨hpat, by simp [patternHost]⟩
  let r : RouteRequest := { host := h, port := 80, path := "/", method := "GET", headers := [], query := none }
  have hboth := hplan .stored noRegex _ hlower r
  rw [Bool.eq_iff_iff, ← patternHost_isSome_iff .stored noRegex pat { r with host := h }, hboth]
  exact patternHost_isSome_iff .stored noRegex pat { r with host := h' }

theorem patterns_of_sameTlsRoute (hroute : SameTlsRoute h h') (pat : HostnameMatch) (hpat : pat.LowerCase) :
    irHostnameMatches h pat = irHostnameMatches h' pat := by
  have hfound : ∀ sni, (findTlsRoute [patternRoute pat] "" (some sni)).isSome = irHostnameMatches sni pat := by
    intro sni
    have hany : irHostnameMatches sni .any = true := rfl
    cases hmatch : irHostnameMatches sni pat <;> simp [findTlsRoute, patternRoute, hany, matchRoute, maxOf, hmatch]
  have hlower : ∀ r ∈ [patternRoute pat], r.LowerCase := by
    intro r hr
    rw [mem_singleton.1 hr]
    exact ⟨trivial, hpat⟩
  rw [← hfound h, ← hfound h', hroute _ hlower]

/-- **Case of names.** Two spellings of a name are routed alike by every table in lower case exactly when they have equally many
labels in lower case at the front and equally many at the back. -/
theorem case_blind_iff (h h' : String) (hcase : eqIgnoreAsciiCase h h' = true) :
    (SamePlan h h' ↔ lowerHead h = lowerHead h' ∧ lowerTail h = lowerTail h')
      ∧ (SameTlsRoute h h' ↔ lowerHead h = lowerHead h' ∧ lowerTail h = lowerTail h') := by
  rw [← same_patterns_iff hcase]
  exact ⟨⟨patterns_of_samePlan, samePlan_of_patterns⟩, patterns_of_sameTlsRoute, sameTlsRoute_of_patterns⟩

theorem middle_label_blind : eqIgnoreAsciiCase "WWW.Shop.example.COM" "Www.shop.example.Com" = true
      ∧ SamePlan "WWW.Shop.example.COM" "Www.shop.example.Com" :=
  ⟨by decide, (case_blind_iff "WWW.Shop.example.COM" "Www.shop.example.Com" (by decide)).1.2 (by decide)⟩

theorem capital_loses_route :
    extractHost ⟨{ method := "GET", uri := { path := "/" }, headers := [("host", .ofString "Shop.example.com:443")] }, none, none⟩
        = "Shop.example.com"
      ∧ eqIgnoreAsciiCase "shop.example.com" "Shop.example.com" = true
      ∧ ¬SamePlan "shop.example.com" "Shop.example.com" ∧ ¬SameTlsRoute "shop.example.com" "Shop.example.com" := by
  have hlower : LowerCase "shop.example.com" := by rw [LowerCase]; decide
  refine ⟨by decide, by decide, ?_, ?_⟩
  · intro hplan
    exact absurd (patterns_of_samePlan hplan (.exact "shop.example.com") hlower) (by decide)
  · intro hroute
    exact absurd (patterns_of_sameTlsRoute hroute (.exact "shop.example.com") hlower) (by decide)

end SunbeamProxy
