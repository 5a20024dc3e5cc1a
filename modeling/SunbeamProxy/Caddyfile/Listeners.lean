/-
Listeners of a Caddyfile (`caddyfile/translate.rs` with `ir/compile.rs`, `route_manager.rs` and `l4/router.rs`).
-/
import SunbeamProxy.Caddyfile.Translate
import SunbeamProxy.IR.L4Faithful
import SunbeamProxy.L4.Router
import SunbeamProxy.RouteManager.Priority

namespace SunbeamProxy.Caddy

open List

def bindListeners (directives : List Directive) : List ListenerConfig :=
  (directives.filter (·.name == "bind")).map translateBindDirective

def SiteBlock.declared (site : SiteBlock) : List ListenerConfig :=
  site.addresses.filterMap (fun addr => (translateAddress addr).2) ++ bindListeners site.directives

def declaredListeners (caddyfile : Caddyfile) : List ListenerConfig :=
  bindListeners (caddyfile.globalOptions.getD []) ++ caddyfile.sites.flatMap SiteBlock.declared

theorem mem_declared_of_site {site : SiteBlock} {host : HostRoute} {l : ListenerConfig}
    (h : translateSite site = .ok (host, some l)) : l ∈ site.declared := by
  obtain ⟨groups, -, h⟩ := bind_ok h
  have hlistener := congrArg Prod.snd (Except.ok.inj h)
  rcases Option.or_eq_some_iff.1 hlistener with hbind | ⟨-, haddr⟩
  · exact mem_append_right _ (mem_of_getLast? hbind)
  · refine mem_append_left _ ?_
    have hmem := mem_of_getLast? haddr
    rwa [filterMap_map] at hmem

variable {table : RouteTable}

theorem listeners_translate {caddyfile : Caddyfile} (h : translate caddyfile = .ok table) :
    table.listeners ⊆ declaredListeners caddyfile ∧ table.l4Routes = [] := by
  obtain ⟨sites, hsites, rfl⟩ := translate_ok h
  refine ⟨?_, rfl⟩
  intro l hl
  rcases mem_append.1 hl with hglobal | hsite
  · exact mem_append_left _ hglobal
  · obtain ⟨⟨host, listener⟩, hpair, rfl⟩ := mem_filterMap.1 hsite
    obtain ⟨hlength, hget⟩ := forall₂_iff_get.1 hsites
    obtain ⟨i, hi⟩ := mem_iff_get.1 hpair
    have hok := hget i i.isLt (hlength ▸ i.isLt)
    rw [hi] at hok
    exact mem_append_right _ (mem_flatMap.2 ⟨_, get_mem _ _, mem_declared_of_site hok⟩)

/-! ## Serving them -/

def L4Action.IsProxied : L4Action → Prop
  | .terminateAndHttp _ => True
  | .httpRelay _ => True
  | _ => False

/-- connections of the listener's socket are handed to the HTTP proxy -/
def HandedToProxy (config : CompiledL4Config) (l : ListenerConfig) : Prop :=
  ∃ socket ∈ config.listeners, Represents socket l
    ∧ ∃ route ∈ routesForProtocol config socket.protocol, route.listenerId = socket.id ∧ L4Action.IsProxied route.action

/-- both compilers accept the table, also merged with sources they accept, and the declared listeners are served -/
structure ServesTable (table : RouteTable) (declared : List ListenerConfig) : Prop where
  compiles : ∀ ω re, ∃ compiled, compileMerged ω re table = .ok compiled
  merges : ∀ ω re (sources : HashMap SourceId RouteTable) priorities source,
    (∀ e ∈ sources.pairs, ∃ compiled, compileMerged ω re e.2 = .ok compiled) →
      ∃ compiled, compileMerged ω re (mergeSources (sources.insert source table) priorities) = .ok compiled
  handed : ∀ ω re compiled, compileMerged ω re table = .ok compiled → ∀ l ∈ declared, HandedToProxy compiled.l4Config l

/-- whatever the Caddyfile translates to serves every listener it declares -/
def Servable (caddyfile : Caddyfile) : Prop :=
  ∀ table, translate caddyfile = .ok table → ServesTable table (declaredListeners caddyfile)

theorem compileMerged_isOk_iff (ω : IterOrder) (re : RegexEngine) (table : RouteTable) :
    (∃ compiled, compileMerged ω re table = .ok compiled) ↔ TlsConfigured table := by
  rw [← CompiledL4Config.compile_isOk_iff ω table, compileMerged]
  cases CompiledL4Config.compile ω table <;> simp

theorem tlsConfigured_merge {sources : HashMap SourceId RouteTable} {priorities : HashMap SourceId ℤ}
    (h : ∀ e ∈ sources.pairs, TlsConfigured e.2) : TlsConfigured (mergeSources sources priorities) := by
  intro l hl
  obtain ⟨table, htable, hmem⟩ := mem_flatMap.1 (firstById_subset _ _ hl)
  obtain ⟨e, he, rfl⟩ := mem_map.1 htable
  exact h e (mem_orderedSources.1 he) l hmem

theorem pairs_insert {sources : HashMap SourceId RouteTable} {source : SourceId} {e : SourceId × RouteTable}
    (h : e ∈ HashMap.pairs (sources.insert source table)) : e.2 = table ∨ e ∈ sources.pairs := by
  have hget := HashMap.mem_pairs_iff.1 h
  rw [HashMap.get_insert] at hget
  split_ifs at hget with hkey
  · exact .inl (Option.some.inj hget).symm
  · exact .inr (HashMap.mem_pairs_iff.2 hget)

theorem not_handed {ω : IterOrder} {re : RegexEngine} {compiled : Compiled}
    (h : compileMerged ω re table = .ok compiled) (hroutes : table.l4Routes = []) (l : ListenerConfig) :
    ¬HandedToProxy compiled.l4Config l := by
  rintro ⟨socket, -, -, route, hroute, -⟩
  cases hcompile : CompiledL4Config.compile ω table with
  | error e =>
    rw [compileMerged, hcompile] at h
    cases h
  | ok config =>
    rw [compileMerged, hcompile] at h
    cases h
    rw [routesForProtocol_compile hcompile, hroutes] at hroute
    cases hroute

/-- **Servable Caddyfiles** are those that declare no listener. -/
theorem servable_iff (caddyfile : Caddyfile) :
    Servable caddyfile ↔ ∀ table, translate caddyfile = .ok table → declaredListeners caddyfile = [] := by
  refine forall_congr' fun table => forall_congr' fun htable => ?_
  obtain ⟨hdeclared, hroutes⟩ := listeners_translate htable
  apply Iff.intro
  · intro h
    obtain ⟨compiled, hcompiled⟩ := h.compiles IterOrder.stored ⟨fun _ => none⟩
    exact eq_nil_iff_forall_not_mem.2 fun l hl => not_handed hcompiled hroutes l (h.handed _ _ compiled hcompiled l hl)
  · intro hnone
    have hlisteners := subset_nil.1 (hnone ▸ hdeclared)
    have htls : TlsConfigured table := by
      intro l hl
      rw [hlisteners] at hl
      cases hl
    refine ⟨fun ω re => (compileMerged_isOk_iff ω re table).2 htls, ?_, ?_⟩
    · intro ω re sources priorities source hsources
      refine (compileMerged_isOk_iff ω re _).2 (tlsConfigured_merge fun e he => ?_)
      rcases pairs_insert he with rfl | hold
      · exact htls
      · exact (compileMerged_isOk_iff ω re e.2).1 (hsources e hold)
    · intro ω re compiled _ l hl
      rw [hnone] at hl
      cases hl

def filesSite (addr : Address) : Caddyfile := { sites := [{ addresses := [addr], directives := [{ name := "file_server" }] }] }

def filesTable (hostname : HostnameMatch) (l : ListenerConfig) : RouteTable :=
  { listeners := [l]
    hosts := [{ hostname, rules := [{ matches_ := [{}], action := .staticFiles { root := "." } }] }] }

def httpListener : ListenerConfig := { id := "0.0.0.0:8080", bindAddr := "0.0.0.0:8080", protocol := .http }

def httpsListener : ListenerConfig := { id := "0.0.0.0:8443", bindAddr := "0.0.0.0:8443", protocol := .https }

theorem declared_listeners_unserved : translate (filesSite { host := "", port := some 8080 }) = .ok (filesTable .any httpListener)
      ∧ CompiledL4Config.compile .stored (filesTable .any httpListener)
        = .ok { listeners := [⟨"0.0.0.0:8080#Http", "0.0.0.0:8080", .http, none, false, none⟩] }
      ∧ handleTcp { listeners := [⟨"0.0.0.0:8080#Http", "0.0.0.0:8080", .http, none, false, none⟩] } "0.0.0.0:8080#Http" .http
        none none = none
      ∧ ¬Servable (filesSite { host := "", port := some 8080 })
      ∧ translate (filesSite { scheme := some .https, host := "example.com", port := some 8443 })
        = .ok (filesTable (.exact "example.com") httpsListener)
      ∧ CompiledL4Config.compile .stored (filesTable (.exact "example.com") httpsListener)
        = .error ⟨"listener 0.0.0.0:8443 (Https) requires TLS configuration"⟩
      ∧ ¬Servable (filesSite { scheme := some .https, host := "example.com", port := some 8443 }) := by
  have hhttp : translate (filesSite { host := "", port := some 8080 }) = .ok (filesTable .any httpListener) := by rfl
  have hhttps : translate (filesSite { scheme := some .https, host := "example.com", port := some 8443 })
      = .ok (filesTable (.exact "example.com") httpsListener) := by rfl
  refine ⟨hhttp, rfl, rfl, ?_, hhttps, rfl, ?_⟩
  · intro h
    have hserves := h _ hhttp
    obtain ⟨compiled, hcompiled⟩ := hserves.compiles IterOrder.stored ⟨fun _ => none⟩
    exact not_handed hcompiled rfl _ (hserves.handed _ _ compiled hcompiled httpListener (mem_singleton.2 rfl))
  · intro h
    have htls := (compileMerged_isOk_iff _ _ _).1 ((h _ hhttps).compiles IterOrder.stored ⟨fun _ => none⟩)
    exact absurd (htls httpsListener (mem_singleton.2 rfl) rfl) (by decide)

end SunbeamProxy.Caddy
