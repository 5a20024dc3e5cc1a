/-
A directory of Caddyfiles (`parse_dir` and `merge_tables` in `caddyfile/parser.rs`).
-/
import SunbeamProxy.Caddyfile.Blocks
import SunbeamProxy.RouteManager.Priority

namespace SunbeamProxy.Caddy

open Text List

def isCaddyfile (name : String) : Bool := name == "Caddyfile" || ".caddyfile".toList.isSuffixOf name.toList

def dirEntries (dir : List (String × Caddyfile)) : List (String × Caddyfile) :=
  stableSort (fun a b => decide (a.1 ≤ b.1)) (dir.filter fun file => isCaddyfile file.1)

def mergeTables (into other : RouteTable) : RouteTable :=
  { listeners := into.listeners ++ other.listeners
    hosts := into.hosts ++ other.hosts
    acmeRoutes := into.acmeRoutes.extend other.acmeRoutes
    l4Routes := into.l4Routes ++ other.l4Routes
    tlsCerts := into.tlsCerts ++ other.tlsCerts }

def parseDir (dir : List (String × Caddyfile)) : Except String RouteTable := do
  let tables ← (dirEntries dir).mapM fun file => translate file.2
  pure (tables.foldl mergeTables {})

def onlySource (source : SourceId) (table : RouteTable) : HashMap SourceId RouteTable :=
  (∅ : HashMap SourceId RouteTable).insert source table

/-- the last file of the directory that makes the declaration -/
def LastDeclaring (tables : List RouteTable) (declares : RouteTable → Prop) (file : RouteTable) : Prop :=
  ∃ before after, tables = before ++ file :: after ∧ declares file ∧ ∀ t ∈ after, ¬declares t

/-- the table has a plan of this precedence that takes the request under the host name -/
def OffersPlan (re : RegexEngine) (r : RouteRequest) (hostname : HostnameMatch) (precedence : UInt64) (t : RouteTable) : Prop :=
  ∃ h ∈ t.hosts, h.hostname = hostname ∧ ∃ q ∈ hostPlans h, q.matches_.Holds re r ∧ q.precedence = precedence

/-- what is served for an id or for a request is from the last file that has it, or a plan as good for the same host -/
structure LaterOverrides (ω : IterOrder) (re : RegexEngine) (tables : List RouteTable) (merged : RouteTable) : Prop where
  listeners : ∀ id file, LastDeclaring tables (ClaimsListener id) file →
    ∃ l ∈ file.listeners, merged.listeners.find? (fun l => l.id = id) = some l
  plans : ∀ r p, (CompiledRouteTable.compile ω merged).lookup re r = some p → ∃ c, chosenRoute ω merged.hosts r.host r.port = some c
    ∧ p ∈ hostPlans c ∧ ∀ file, LastDeclaring tables (OffersPlan re r c.hostname p.precedence) file → c ∈ file.hosts

/-- a plan of the host route that matches and is not hidden, with no better one -/
structure Foremost (ω : IterOrder) (re : RegexEngine) (r : RouteRequest) (c : HostRoute) (p : CompiledPlan) : Prop where
  mem : p ∈ hostPlans c
  holds : p.matches_.Holds re r
  visible : Visible ω (hostPlans c) r p
  best : ∀ q ∈ hostPlans c, q.matches_.Holds re r → Visible ω (hostPlans c) r q → noLower p q = true

/-- the first listener declared with an id is one of the last file with it, and the host route chosen for a request is one of the last
file that has a rule for the same hostname, as specific as the foremost one -/
structure FilesAgree (ω : IterOrder) (re : RegexEngine) (tables : List RouteTable) : Prop where
  listeners : ∀ id file, LastDeclaring tables (ClaimsListener id) file →
    ∀ l, (tables.flatMap (·.listeners)).find? (fun l => l.id = id) = some l → l ∈ file.listeners
  plans : ∀ r c p, chosenRoute ω (tables.flatMap (·.hosts)) r.host r.port = some c → Foremost ω re r c p →
    ∀ file, LastDeclaring tables (OffersPlan re r c.hostname p.precedence) file → c ∈ file.hosts

/-- listeners with one id are alike, and only sites for all hosts are in several files -/
structure FilesApart (tables : List RouteTable) : Prop where
  listeners : ∀ t ∈ tables, ∀ t' ∈ tables, ∀ l ∈ t.listeners, ∀ l' ∈ t'.listeners, l.id = l'.id → l = l'
  hosts : tables.Pairwise fun t t' => ∀ h ∈ t.hosts, ∀ h' ∈ t'.hosts, h.hostname = h'.hostname → h.hostname = .any

theorem foldl_mergeTables (tables : List RouteTable) (into : RouteTable) :
    (tables.foldl mergeTables into).listeners = into.listeners ++ tables.flatMap (·.listeners)
      ∧ (tables.foldl mergeTables into).hosts = into.hosts ++ tables.flatMap (·.hosts) := by
  induction tables generalizing into with
  | nil => simp
  | cons t tables ih =>
    obtain ⟨hlisteners, hhosts⟩ := ih (mergeTables into t)
    rw [foldl_cons, hlisteners, hhosts]
    simp [mergeTables]

theorem lastCatchAll_mem {before after : List RouteTable} {file : RouteTable} {c h : HostRoute}
    (hc : lastCatchAll ((before ++ file :: after).flatMap (·.hosts)) = some c) (hh : h ∈ file.hosts) (hany : h.hostname = .any) :
    c ∈ file.hosts ∨ ∃ t ∈ after, c ∈ t.hosts := by
  simp only [lastCatchAll, flatMap_append, flatMap_cons, filter_append, getLast?_append] at hc
  cases hafter : ((after.flatMap (·.hosts)).filter fun h => h.hostname = .any).getLast? with
  | some c' =>
    rw [hafter] at hc
    cases hc
    exact .inr (mem_flatMap.1 (mem_filter.1 (mem_of_getLast? hafter)).1)
  | none =>
    have hmem : h ∈ file.hosts.filter fun h => h.hostname = .any := mem_filter.2 ⟨hh, decide_eq_true hany⟩
    obtain ⟨c', hfile⟩ := Option.isSome_iff_exists.1 (getLast?_isSome.2 (ne_nil_of_mem hmem))
    rw [hafter, hfile] at hc
    cases hc
    exact .inl (mem_filter.1 (mem_of_getLast? hfile)).1

section Agree

variable {ω : IterOrder} {re : RegexEngine} {tables : List RouteTable}

theorem FilesApart.agree (h : FilesApart tables) : FilesAgree ω re tables := by
  refine ⟨?_, ?_⟩
  · rintro id file ⟨before, after, rfl, ⟨l, hl, hid⟩, -⟩ l' hfind
    obtain ⟨t, ht, hl'⟩ := mem_flatMap.1 (mem_of_find?_eq_some hfind)
    have hid' : l'.id = id := by simpa using find?_some hfind
    rwa [h.listeners t ht file (by simp) l' hl' l hl (hid'.trans hid.symm)]
  · rintro r c p hc hp file ⟨before, after, rfl, ⟨h', hh, hname, -⟩, hlast⟩
    obtain ⟨hmem, -, hcatch⟩ := mem_walkOrder.1 (chosenRoute_mem hc).1
    by_cases hany : c.hostname = .any
    · rcases lastCatchAll_mem (hcatch hany) hh (hname.trans hany) with hfile | ⟨t, ht, hct⟩
      · exact hfile
      · exact absurd ⟨c, hct, rfl, p, hp.mem, hp.holds, rfl⟩ (hlast t ht)
    · -- the name is in one file only
      obtain ⟨t, ht, hct⟩ := mem_flatMap.1 hmem
      have hpair := h.hosts
      rw [pairwise_append, pairwise_cons] at hpair
      rcases mem_append.1 ht with hbefore | hrest
      · exact absurd (hpair.2.2 t hbefore file mem_cons_self c hct h' hh hname.symm) hany
      · rcases mem_cons.1 hrest with rfl | hafter
        · exact hct
        · exact absurd (hname ▸ hpair.2.1.1 t hafter h' hh c hct hname) hany

theorem foremost_of_lookup {r : RouteRequest} {c : HostRoute} {p : CompiledPlan} (h : (compileHost ω c).lookup re r = some p) :
    Foremost ω re r c p :=
  ⟨(host_lookup_sound h).1, (host_lookup_sound h).2, host_lookup_visible h,
    fun _ hq hholds hvis => noLower_of_fineBefore (host_lookup_fineBefore h hq hholds hvis)⟩

theorem Foremost.precedence_eq {r : RouteRequest} {c : HostRoute} {p q : CompiledPlan} (hp : Foremost ω re r c p)
    (hq : Foremost ω re r c q) : p.precedence = q.precedence := by
  have hpq := noLower_iff.1 (hp.best q hq.mem hq.holds hq.visible)
  have hqp := noLower_iff.1 (hq.best p hp.mem hp.holds hp.visible)
  have hclass : isExactPlan p = isExactPlan q := Bool.eq_iff_iff.2 ⟨hqp.1, hpq.1⟩
  exact UInt64.toNat_inj.1 (le_antisymm (hqp.2 hclass.symm) (hpq.2 hclass))

theorem laterOverrides_iff {merged : RouteTable} (hlisteners : merged.listeners = firstById (·.id) (tables.flatMap (·.listeners)))
    (hhosts : merged.hosts = tables.flatMap (·.hosts)) : LaterOverrides ω re tables merged ↔ FilesAgree ω re tables := by
  constructor
  · rintro ⟨hl, hp⟩
    refine ⟨fun id file hfile l hfind => ?_, fun r c p hc hbest file hfile => ?_⟩
    · obtain ⟨l', hmem, hfind'⟩ := hl id file hfile
      rw [hlisteners, find?_firstById, hfind] at hfind'
      cases hfind'
      exact hmem
    · rw [← hhosts] at hc
      obtain ⟨q, hq⟩ := Option.isSome_iff_exists.1 (host_lookup_isSome_iff.2 ⟨p, hbest.mem, hbest.holds, hbest.visible⟩)
      obtain ⟨c', hc', -, hlast⟩ := hp r q (lookup_eq_some_iff.2 ⟨c, hc, hq⟩)
      cases hc.symm.trans hc'
      rw [hbest.precedence_eq (foremost_of_lookup hq)] at hfile
      exact hlast file hfile
  · rintro ⟨hl, hp⟩
    refine ⟨fun id file hfile => ?_, fun r p hlookup => ?_⟩
    · obtain ⟨before, after, hsplit, ⟨l, hmem, hid⟩, hrest⟩ := hfile
      have hsome : ((tables.flatMap (·.listeners)).find? fun l => l.id = id).isSome := by
        rw [find?_isSome]
        exact ⟨l, mem_flatMap.2 ⟨file, by simp [hsplit], hmem⟩, decide_eq_true hid⟩
      obtain ⟨l', hfind⟩ := Option.isSome_iff_exists.1 hsome
      exact ⟨l', hl id file ⟨before, after, hsplit, ⟨l, hmem, hid⟩, hrest⟩ l' hfind, by rw [hlisteners, find?_firstById, hfind]⟩
    · obtain ⟨c, hc, hq⟩ := lookup_eq_some_iff.1 hlookup
      refine ⟨c, hc, (host_lookup_sound hq).1, fun file hfile => hp r c p ?_ (foremost_of_lookup hq) file hfile⟩
      rwa [← hhosts]

end Agree

/-- **Later files override earlier ones** exactly when the files agree, as they do if listeners they declare with one id are alike and
no host but the catch-all is in several files. -/
theorem later_files_override_iff (ω : IterOrder) (re : RegexEngine) (source : SourceId) (priorities : HashMap SourceId ℤ)
    (dir : List (String × Caddyfile)) (tables : List RouteTable)
    (h : (dirEntries dir).mapM (fun file => translate file.2) = .ok tables) :
    (∃ table, parseDir dir = .ok table
        ∧ (LaterOverrides ω re tables (mergeSources (onlySource source table) priorities) ↔ FilesAgree ω re tables))
      ∧ (FilesApart tables → FilesAgree ω re tables) := by
  refine ⟨⟨tables.foldl mergeTables {}, by rw [parseDir, h]; rfl, ?_⟩, FilesApart.agree⟩
  obtain ⟨hlisteners, hhosts⟩ := foldl_mergeTables tables {}
  generalize tables.foldl mergeTables {} = table at hlisteners hhosts ⊢
  have hone : orderedSources (onlySource source table) priorities = [(source, table)] := rfl
  exact laterOverrides_iff (by simp [mergeSources, hone, hlisteners]) (by simp [mergeSources, hone, hhosts])

def forwardFile (address : String) : Caddyfile :=
  { sites := [{ addresses := [{ host := "example.com" }], directives := [{ name := "reverse_proxy", arguments := [address] }] }] }

def mailFile : Caddyfile :=
  { sites := [{ addresses := [{ host := "mail.example.com", port := some 8080 }], directives := [{ name := "file_server" }] }] }

/-- two files, for two hosts -/
def apartFiles : List (String × Caddyfile) := [("002.caddyfile", forwardFile "first:80"), ("001.caddyfile", mailFile)]

theorem later_files_override_two : ∃ table tables, parseDir apartFiles = .ok table
    ∧ (dirEntries apartFiles).mapM (fun file => translate file.2) = .ok tables
    ∧ LaterOverrides .stored ⟨fun _ => none⟩ tables (mergeSources (onlySource "caddyfile" table) ∅) := by
  obtain ⟨⟨table, hparse, hiff⟩, hapart⟩ := later_files_override_iff .stored ⟨fun _ => none⟩ "caddyfile" ∅ apartFiles _ rfl
  exact ⟨table, _, hparse, rfl, hiff.2 (hapart ⟨by decide, by decide⟩)⟩

theorem earlier_file_answers :
    (parseDir [("001.caddyfile", forwardFile "first:80"), ("002.caddyfile", forwardFile "second:80")]).map (fun table =>
        ((CompiledRouteTable.compile .stored (mergeSources (onlySource "caddyfile" table) ∅)).lookup ⟨fun _ => none⟩
          (pathRequest "example.com" 80 "/")).bind (·.upstream.map fun u => u.backends.map (·.backend)))
      = .ok (some ["first:80"]) := by
  decide

end SunbeamProxy.Caddy
