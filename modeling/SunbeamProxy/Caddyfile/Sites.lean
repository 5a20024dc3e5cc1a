/-
What a site block promises by its layout (`translate_site`, `translate_handle_group`, `translate_static_file_block`).
-/
import SunbeamProxy.Caddyfile.Blocks

namespace SunbeamProxy.Caddy

open Text List

/-! ## Numbers of rules -/

variable (d : Directive)

def rulePlaces : List ℕ :=
  ((d.block.getD []).zipIdx.filter fun e => (ruleKind e.1.name).isSome).map (·.2)

def ruleNumbers (idx : ℕ) : List ℕ :=
  if isHandle d.name then (rulePlaces d).map (idx * 1000 + ·) else if (ruleKind d.name).isSome then [idx] else []

variable (site : SiteBlock)

/-- a thousand times the place of a `handle` block, and a place inside it, stay below the places of the directives after it, counted
in the same way where these are `handle` blocks -/
def BlocksBelow : Prop :=
  ∀ i j d d', i < j → site.directives[i]? = some d → site.directives[j]? = some d' → isHandle d.name = true →
    ∀ k ∈ rulePlaces d, (isHandle d'.name = true → ∀ k' ∈ rulePlaces d', i * 1000 + k < j * 1000 + k')
      ∧ (isHandle d'.name = false → (ruleKind d'.name).isSome = true → i * 1000 + k < j)

/-- of two directives with one matcher the one written first answers -/
def FirstWins : Prop :=
  ∀ path before o between o' after, siteOccurrences site = before ++ o :: between ++ o' :: after → o.pattern = o'.pattern →
    firstOccurrence site path ≠ some o'

theorem order_occurrences (group : Option Directive) (order : ℕ) :
    (d.occurrences group order).map (·.order) = if (ruleKind d.name).isSome then [order] else [] := by
  unfold Directive.occurrences
  cases ruleKind d.name <;> rfl

theorem order_directiveOccurrences (idx : ℕ) : (directiveOccurrences d idx).map (·.order) = ruleNumbers d idx := by
  unfold directiveOccurrences ruleNumbers
  split_ifs with hhandle hkind
  · rw [map_flatMap, rulePlaces, map_map]
    simp only [order_occurrences]
    induction (d.block.getD []).zipIdx with
    | nil => rfl
    | cons e l ih => cases h : (ruleKind e.1.name).isSome <;> simp [h, ih]
  · rw [order_occurrences, if_pos hkind]
  · rw [order_occurrences, if_neg hkind]

variable {site : SiteBlock}

theorem orders_site {host : HostRoute} {listener : Option ListenerConfig} (h : translateSite site = .ok (host, listener)) :
    host.rules.map (·.ruleOrder) = site.directives.zipIdx.flatMap fun e => ruleNumbers e.1 e.2 := by
  simp only [← order_directiveOccurrences, ← map_flatMap]
  have hrel : Forall₂ (fun m n : ℕ => m = n) (host.rules.map (·.ruleOrder)) ((siteOccurrences site).map (·.order)) := by
    rw [forall₂_map_left_iff, forall₂_map_right_iff]
    exact (renders_site h).imp fun rule o hrule => hrule.order
  exact forall₂_eq_eq_eq ▸ hrel

theorem zipIdx_increasing (l : List Directive) : (l.zipIdx.map (·.2)).Pairwise (· < ·) := by
  rw [zipIdx_map_snd]
  exact pairwise_lt_range'

theorem ruleNumbers_increasing (idx : ℕ) : (ruleNumbers d idx).Pairwise (· < ·) := by
  unfold ruleNumbers
  split_ifs
  · rw [pairwise_map]
    have hplaces : (rulePlaces d).Pairwise (· < ·) := (zipIdx_increasing _).sublist (filter_sublist.map _)
    exact hplaces.imp fun h => by omega
  · exact pairwise_singleton ..
  · exact .nil

theorem ruleNumbers_lt_iff {d d' : Directive} (h : isHandle d.name = true) (i j : ℕ) :
    (∀ m ∈ ruleNumbers d i, ∀ n ∈ ruleNumbers d' j, m < n)
      ↔ ∀ k ∈ rulePlaces d, (isHandle d'.name = true → ∀ k' ∈ rulePlaces d', i * 1000 + k < j * 1000 + k')
        ∧ (isHandle d'.name = false → (ruleKind d'.name).isSome = true → i * 1000 + k < j) := by
  rw [ruleNumbers, if_pos h, forall_mem_map]
  refine forall₂_congr fun k _ => ?_
  unfold ruleNumbers
  cases isHandle d'.name <;> cases (ruleKind d'.name).isSome <;> simp

theorem le_of_mem_ruleNumbers {d : Directive} {idx n : ℕ} (h : n ∈ ruleNumbers d idx) : idx ≤ n := by
  unfold ruleNumbers at h
  split_ifs at h
  · obtain ⟨k, -, rfl⟩ := mem_map.1 h
    omega
  · exact (mem_singleton.1 h).ge
  · cases h

instance Occurrence.before_total : Std.Total fun a b : Occurrence => patternBefore a.place b.place = true where
  total a b := (classFirst_total fun a : Option PathMatch × ℕ => pathIsExact a.1).total a.place b.place

instance Occurrence.before_trans : IsTrans Occurrence fun a b => patternBefore a.place b.place = true where
  trans a b c := (classFirst_trans fun a : Option PathMatch × ℕ => pathIsExact a.1).trans a.place b.place c.place

theorem firstWins_of_increasing (h : ((siteOccurrences site).map (·.order)).Pairwise (· < ·)) : FirstWins site := by
  intro path before o between o' after hsplit hpattern hfirst
  have horder : o.order < o'.order := by
    rw [hsplit, map_append, pairwise_append] at h
    exact h.2.2 _ (by simp) _ (by simp)
  have hcovers := hpattern ▸ (firstBest_mem hfirst).2
  have hbefore := firstBest_le hfirst o (by simp [hsplit]) hcovers
  simp [patternBefore, classFirst, tieBreak, weightBefore, Occurrence.place, hpattern] at hbefore
  omega

/-- **Numbers of rules** follow the document exactly when those inside each `handle` block stay below those after it; then
the directive written first answers. -/
theorem rule_numbers_increase_iff {site : SiteBlock} {host : HostRoute} {listener : Option ListenerConfig}
    (h : translateSite site = .ok (host, listener)) :
    ((host.rules.map (·.ruleOrder)).Pairwise (· < ·) ↔ BlocksBelow site) ∧ (BlocksBelow site → FirstWins site) := by
  have hiff : (host.rules.map (·.ruleOrder)).Pairwise (· < ·) ↔ BlocksBelow site := by
    rw [orders_site h, pairwise_flatMap,
      and_iff_right fun e (_ : e ∈ site.directives.zipIdx) => ruleNumbers_increasing e.1 e.2, pairwise_iff_getElem]
    simp only [length_zipIdx, getElem_zipIdx, zero_add]
    apply Iff.intro
    · intro hpairs i j d d' hij hd hd' hhandle
      obtain ⟨hi, rfl⟩ := List.getElem?_eq_some_iff.1 hd
      obtain ⟨hj, rfl⟩ := List.getElem?_eq_some_iff.1 hd'
      exact (ruleNumbers_lt_iff hhandle i j).1 (hpairs i j hi hj hij)
    · intro hblocks i j hi hj hij m hm n hn
      cases hhandle : isHandle site.directives[i].name with
      | true =>
        have hplaces := hblocks i j _ _ hij (getElem?_eq_getElem hi) (getElem?_eq_getElem hj) hhandle
        exact (ruleNumbers_lt_iff hhandle i j).2 hplaces m hm n hn
      | false =>
        -- outside a block the number is the place
        have hle := le_of_mem_ruleNumbers hn
        rw [ruleNumbers, hhandle, if_neg Bool.false_ne_true] at hm
        split_ifs at hm
        · rw [mem_singleton.1 hm]
          omega
        · cases hm
  refine ⟨hiff, fun hblocks => firstWins_of_increasing ?_⟩
  have hincreasing := hiff.2 hblocks
  rwa [orders_site h, ← funext fun e : Directive × ℕ => order_directiveOccurrences e.1 e.2, ← map_flatMap] at hincreasing

def blockFirst : SiteBlock :=
  { addresses := [{ host := "app.example.com" }]
    directives := [{ name := "encode" }, { name := "handle", block := some [{ name := "reverse_proxy", arguments := ["first:80"] }] },
      { name := "reverse_proxy", arguments := ["second:80"] }] }

theorem rule_numbers_increase_two : BlocksBelow { blockFirst with directives := blockFirst.directives.tail } :=
  (@rule_numbers_increase_iff { blockFirst with directives := blockFirst.directives.tail } _ _ rfl).1.1 (by decide)

theorem later_directive_first : (translateSite blockFirst).map (fun e => e.1.rules.map (·.ruleOrder)) = .ok [1000, 2]
    ∧ (firstOccurrence blockFirst "/").map (·.directive.arguments) = some ["second:80"] := ⟨rfl, by decide⟩

def SiteBlock.NoBind : Prop := ∀ d ∈ site.directives, d.name ≠ "bind"

namespace SiteBlock

variable (site : SiteBlock)

def firstHost : HostnameMatch := ((site.addresses.map translateAddress).head?.map Prod.fst).getD .any

def lastListener : Option ListenerConfig :=
  ((site.directives.filter (·.name == "bind")).map translateBindDirective).getLast?.or
    ((site.addresses.map translateAddress).filterMap Prod.snd).getLast?

def rules : Except String (List Rule) :=
  (site.directives.zipIdx.mapM fun e => siteRules site.directives e.1 e.2).map flatten

theorem translateSite_eq :
    translateSite site = site.rules.map fun rules => ({ hostname := site.firstHost, rules }, site.lastListener) := by
  unfold translateSite rules
  cases site.directives.zipIdx.mapM fun e => siteRules site.directives e.1 e.2 <;> rfl

end SiteBlock

/-- some site has the host of the address first and the rules of the address's own site, and some site keeps the listener of its port
last, or a global `bind` names it, unless a `bind` of the site replaces it -/
structure AddressCovered (caddyfile : Caddyfile) (site : SiteBlock) (addr : Address) : Prop where
  host : ∃ other ∈ caddyfile.sites, other.firstHost = (translateAddress addr).1 ∧ other.rules = site.rules
  listener : site.NoBind → ∀ l ∈ (translateAddress addr).2,
    (∃ d ∈ caddyfile.globalOptions.getD [], d.name = "bind" ∧ translateBindDirective d = l)
      ∨ ∃ other ∈ caddyfile.sites, other.lastListener = some l

/-- the table has a host for the address with the rules, and the listener of its port unless a `bind` replaces it -/
structure AddressServed (table : RouteTable) (site : SiteBlock) (rules : List Rule) (addr : Address) : Prop where
  host : ∃ host ∈ table.hosts, host.hostname = (translateAddress addr).1 ∧ host.rules = rules
  listener : site.NoBind → ∀ l ∈ (translateAddress addr).2, l ∈ table.listeners

theorem SiteBlock.translated_iff {host : HostRoute} {listener : Option ListenerConfig} : translateSite site = .ok (host, listener)
      ↔ ∃ rules, site.rules = .ok rules ∧ host = { hostname := site.firstHost, rules } ∧ listener = site.lastListener := by
  rw [site.translateSite_eq]
  cases site.rules with
  | error e => simp [Except.map]
  | ok rules => simp [Except.map, eq_comm]

section Table

variable {caddyfile : Caddyfile} {table : RouteTable}

theorem translate_pairs (h : translate caddyfile = .ok table) : ∃ pairs : List (HostRoute × Option ListenerConfig),
    table = { listeners := ((caddyfile.globalOptions.getD []).filter (·.name == "bind")).map translateBindDirective
                ++ pairs.filterMap Prod.snd
              hosts := pairs.map Prod.fst }
      ∧ (∀ site ∈ caddyfile.sites, ∃ rules, site.rules = .ok rules)
      ∧ ∀ pair, pair ∈ pairs ↔ ∃ site ∈ caddyfile.sites, translateSite site = .ok pair := by
  obtain ⟨pairs, hpairs, rfl⟩ := translate_ok h
  refine ⟨pairs, rfl, ?_, fun pair => ⟨fun hpair => exists_mem_of_forall₂ hpairs.flip hpair, ?_⟩⟩
  · intro site hsite
    obtain ⟨pair, -, hok⟩ := exists_mem_of_forall₂ hpairs hsite
    obtain ⟨rules, hrules, -⟩ := SiteBlock.translated_iff.1 hok
    exact ⟨rules, hrules⟩
  · rintro ⟨site, hsite, hok⟩
    obtain ⟨pair', hpair', hok'⟩ := exists_mem_of_forall₂ hpairs hsite
    rwa [← Except.ok.inj (hok'.symm.trans hok)]

theorem mem_hosts_iff (h : translate caddyfile = .ok table) {hostname : HostnameMatch} {rules : List Rule} :
    (∃ host ∈ table.hosts, host.hostname = hostname ∧ host.rules = rules)
      ↔ ∃ site ∈ caddyfile.sites, site.firstHost = hostname ∧ site.rules = .ok rules := by
  obtain ⟨pairs, rfl, -, hpairs⟩ := translate_pairs h
  constructor
  · rintro ⟨host, hhost, rfl, rfl⟩
    obtain ⟨pair, hpair, rfl⟩ := mem_map.1 hhost
    obtain ⟨site, hsite, hok⟩ := (hpairs pair).1 hpair
    obtain ⟨rules, hrules, hhost, -⟩ := SiteBlock.translated_iff.1 hok
    rw [hhost]
    exact ⟨site, hsite, rfl, hrules⟩
  · rintro ⟨site, hsite, rfl, hrules⟩
    have hpair := (hpairs _).2 ⟨site, hsite, SiteBlock.translated_iff.2 ⟨rules, hrules, rfl, rfl⟩⟩
    exact ⟨_, mem_map_of_mem hpair, rfl, rfl⟩

theorem mem_listeners_iff (h : translate caddyfile = .ok table) {l : ListenerConfig} : l ∈ table.listeners
    ↔ (∃ d ∈ caddyfile.globalOptions.getD [], d.name = "bind" ∧ translateBindDirective d = l)
      ∨ ∃ site ∈ caddyfile.sites, site.lastListener = some l := by
  obtain ⟨pairs, rfl, hrules, hpairs⟩ := translate_pairs h
  rw [mem_append]
  refine or_congr (by simp [and_assoc]) ⟨?_, ?_⟩
  · intro hl
    obtain ⟨pair, hpair, hpl⟩ := mem_filterMap.1 hl
    obtain ⟨site, hsite, hok⟩ := (hpairs pair).1 hpair
    obtain ⟨-, -, -, hlistener⟩ := SiteBlock.translated_iff.1 hok
    exact ⟨site, hsite, hlistener ▸ hpl⟩
  · rintro ⟨site, hsite, hl⟩
    obtain ⟨rules, hrules⟩ := hrules site hsite
    have hpair := (hpairs _).2 ⟨site, hsite, SiteBlock.translated_iff.2 ⟨rules, hrules, rfl, rfl⟩⟩
    exact mem_filterMap.2 ⟨_, hpair, hl⟩

end Table

/-- **Addresses.** Every address of a site is served exactly when some site has its host first, with the same rules, and some site
keeps its listener. -/
theorem addresses_served_iff (caddyfile : Caddyfile) (table : RouteTable) (h : translate caddyfile = .ok table) :
    (∀ site ∈ caddyfile.sites, ∃ host listener, translateSite site = .ok (host, listener)
        ∧ ∀ addr ∈ site.addresses, AddressServed table site host.rules addr)
      ↔ ∀ site ∈ caddyfile.sites, ∀ addr ∈ site.addresses, AddressCovered caddyfile site addr := by
  refine forall₂_congr fun site hsite => ?_
  obtain ⟨-, -, hall, -⟩ := translate_pairs h
  obtain ⟨rules, hrules⟩ := hall site hsite
  have hserved (addr : Address) : AddressServed table site rules addr ↔ AddressCovered caddyfile site addr := by
    constructor
    · rintro ⟨hhost, hlistener⟩
      exact ⟨hrules ▸ (mem_hosts_iff h).1 hhost, fun hbind l hl => (mem_listeners_iff h).1 (hlistener hbind l hl)⟩
    · rintro ⟨hhost, hlistener⟩
      exact ⟨(mem_hosts_iff h).2 (hrules ▸ hhost), fun hbind l hl => (mem_listeners_iff h).2 (hlistener hbind l hl)⟩
  constructor
  · rintro ⟨host, listener, hok, hall⟩ addr haddr
    obtain ⟨rules', hrules', rfl, -⟩ := SiteBlock.translated_iff.1 hok
    obtain rfl := Except.ok.inj (hrules'.symm.trans hrules)
    exact (hserved addr).1 (hall addr haddr)
  · intro hcovered
    exact ⟨_, _, SiteBlock.translated_iff.2 ⟨rules, hrules, rfl, rfl⟩, fun addr haddr => (hserved addr).2 (hcovered addr haddr)⟩

/-- of a site with two addresses the second one is served by the site after it -/
def sharedFile : Caddyfile :=
  { sites := [⟨[{ host := "a.example.com" }, { host := "b.example.com", port := some 8080 }], [{ name := "file_server" }]⟩,
      ⟨[{ host := "b.example.com" }], [{ name := "file_server" }]⟩] }

theorem addresses_served_shared : ∃ table, translate sharedFile = .ok table ∧ ∀ site ∈ sharedFile.sites, ∃ host listener,
    translateSite site = .ok (host, listener) ∧ ∀ addr ∈ site.addresses, AddressServed table site host.rules addr := by
  refine ⟨_, rfl, (addresses_served_iff sharedFile _ rfl).2 ?_⟩
  simp only [sharedFile, forall_mem_cons, not_mem_nil, false_imp_iff, forall_true_iff, and_true]
  refine ⟨⟨⟨⟨_, mem_cons_self, rfl, rfl⟩, nofun⟩, ⟨⟨_, mem_cons_of_mem _ mem_cons_self, rfl, rfl⟩, ?_⟩⟩,
    ⟨_, mem_cons_of_mem _ mem_cons_self, rfl, rfl⟩, nofun⟩
  rintro - l ⟨⟩
  exact .inr ⟨_, mem_cons_self, rfl⟩

def twoAddresses : Caddyfile :=
  { sites := [{ addresses := [{ host := "a.example.com", port := some 8080 }, { host := "b.example.com", port := some 9090 }]
                directives := [{ name := "file_server" }] }] }

theorem second_address_unserved : (translate twoAddresses).map (fun table => (table.hosts.map (·.hostname), table.listeners.map (·.id)))
    = .ok ([.exact "a.example.com"], ["0.0.0.0:9090"]) := rfl

def rootOf : String := (directiveValues d).head?.getD "."

def fallbackOf : Option String := (directiveValues d).getLast?.filter fun last => !startsWith last "\x7b"

def named (name : String) (ds : List Directive) : List Directive := ds.filter (·.name == name)

def settingsAbove (directives : List Directive) (idx : ℕ) : List Directive :=
  (directives.take idx).reverse.takeWhile fun d => d.name == "root" || d.name == "try_files"

/-- what its own block sets, or else the nearest settings above -/
structure UsesNearest (directives : List Directive) (idx : ℕ) (own : List Directive) (files : StaticFileAction) : Prop where
  root : files.root = ((((named "root" own).getLast?).or (named "root" (settingsAbove directives idx)).head?).map rootOf).getD "."
  fallback : files.fallback = (((named "try_files" own).filterMap fallbackOf).getLast?).or
    ((named "try_files" (settingsAbove directives idx)).head?.bind fallbackOf)

/-- the farthest settings above say what the nearest say, where the own block does not -/
structure SettingsAgree (directives : List Directive) (idx : ℕ) (own : List Directive) : Prop where
  root : named "root" own = [] → ((named "root" (settingsAbove directives idx)).getLast?.map rootOf).getD "."
    = ((named "root" (settingsAbove directives idx)).head?.map rootOf).getD "."
  fallback : (named "try_files" own).filterMap fallbackOf = [] →
    ((named "try_files" (settingsAbove directives idx)).filterMap fallbackOf).getLast?
      = (named "try_files" (settingsAbove directives idx)).head?.bind fallbackOf

theorem root_foldl (ds : List Directive) (files : StaticFileAction) :
    (ds.foldl fileSetting files).root = ((named "root" ds).getLast?.map rootOf).getD files.root := by
  induction ds generalizing files with
  | nil => rfl
  | cons d ds ih =>
    rw [foldl_cons, ih]
    unfold fileSetting named
    split
    · rename_i hname
      rw [filter_cons_of_pos (by simp [hname]), getLast?_cons]
      cases (ds.filter fun d => d.name == "root").getLast? <;> rfl
    all_goals rw [filter_cons_of_neg (by simp_all)]

theorem fallback_foldl (ds : List Directive) (files : StaticFileAction) :
    (ds.foldl fileSetting files).fallback = ((named "try_files" ds).filterMap fallbackOf).getLast?.or files.fallback := by
  induction ds generalizing files with
  | nil => rfl
  | cons d ds ih =>
    rw [foldl_cons, ih]
    unfold fileSetting named
    split
    · rw [filter_cons_of_neg (by simp_all)]
    · rename_i hname
      rw [filter_cons_of_pos (by simp [hname]), filterMap_cons, fallbackOf]
      cases (directiveValues d).getLast?.filter fun last => !startsWith last "\x7b" with
      | none => rfl
      | some last =>
        rw [getLast?_cons]
        cases ((ds.filter fun d => d.name == "try_files").filterMap fallbackOf).getLast? <;> rfl
    · rw [filter_cons_of_neg (by simp_all)]

/-- **File servers** use the nearest settings exactly when the farthest say the same. -/
theorem nearest_settings_iff (directives : List Directive) (idx : ℕ) (d : Directive) (rule : Rule) (files : StaticFileAction)
    (hd : directives[idx]? = some d) (h : translateStaticFileBlock directives idx = .ok (some rule))
    (hfiles : rule.action = .staticFiles files) :
    UsesNearest directives idx (d.block.getD []) files ↔ SettingsAgree directives idx (d.block.getD []) := by
  have hfold : files = (d.block.getD []).foldl fileSetting ((settingsAbove directives idx).foldl fileSetting { root := "." }) := by
    rw [translateStaticFileBlock, hd] at h
    simp only at h
    split_ifs at h
    · cases h
    · obtain ⟨matcher, -, h⟩ := bind_ok h
      cases h
      exact (Action.staticFiles.inj hfiles).symm
  have hroot := root_foldl (d.block.getD []) ((settingsAbove directives idx).foldl fileSetting { root := "." })
  have hfallback := fallback_foldl (d.block.getD []) ((settingsAbove directives idx).foldl fileSetting { root := "." })
  rw [← hfold, root_foldl] at hroot
  rw [← hfold, fallback_foldl] at hfallback
  have hiff : UsesNearest directives idx (d.block.getD []) files ↔ _ ∧ _ := ⟨fun h => ⟨h.root, h.fallback⟩, fun h => ⟨h.1, h.2⟩⟩
  have hagree : SettingsAgree directives idx (d.block.getD []) ↔ _ ∧ _ := ⟨fun h => ⟨h.root, h.fallback⟩, fun h => ⟨h.1, h.2⟩⟩
  rw [hiff, hagree, hroot, hfallback]
  refine and_congr ?_ ?_
  · cases hown : (named "root" (d.block.getD [])).getLast? with
    | none => simp [getLast?_eq_none_iff.1 hown]
    | some own => simp [ne_nil_of_mem (mem_of_getLast? hown)]
  · cases hown : ((named "try_files" (d.block.getD [])).filterMap fallbackOf).getLast? with
    | none => simp [getLast?_eq_none_iff.1 hown]
    | some own => simp [ne_nil_of_mem (mem_of_getLast? hown)]

def twoRoots : List Directive :=
  [{ name := "root", arguments := ["/srv/old"] }, { name := "root", arguments := ["/srv/new"] }, { name := "file_server" }]

def rootAndFallback : List Directive := [{ name := "root", arguments := ["/srv/new"] },
  { name := "try_files", arguments := ["/docs", "/index.html"] }, { name := "file_server" }]

theorem nearest_settings_two : UsesNearest rootAndFallback 2 [] { root := "/srv/new", fallback := some "/index.html", rewrites := [⟨"/docs", "/index.html"⟩] } :=
  (nearest_settings_iff rootAndFallback 2 { name := "file_server" } _ _ rfl rfl rfl).2 ⟨fun _ => rfl, fun _ => rfl⟩

theorem farthest_root_used : translateStaticFileBlock twoRoots 2
    = .ok (some { matches_ := [{}], action := .staticFiles { root := "/srv/old" }, ruleOrder := 2 })
    ∧ ¬UsesNearest twoRoots 2 [] { root := "/srv/old" } :=
  ⟨rfl, fun h => absurd h.root (by decide)⟩

end SunbeamProxy.Caddy
