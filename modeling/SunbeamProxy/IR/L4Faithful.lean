/-
What the L4 compiler keeps of a table (`CompiledL4Config::compile`).
-/
import SunbeamProxy.Core.CanonicalOrder
import SunbeamProxy.IR.L4

namespace SunbeamProxy

open List HashMap

/-- listeners that get one socket: same address and protocol, or both speak TLS -/
def SameSocket (addr addr' : String) (p q : Protocol) : Prop := addr = addr' ∧ (p = q ∨ p.isTls = true ∧ q.isTls = true)

/-- the compiled listener has the socket the configuration asks for -/
def Represents (c : CompiledListener) (l : ListenerConfig) : Prop := SameSocket c.bindAddr l.bindAddr c.protocol l.protocol

variable {addr : String}

theorem sameSocket_of_key {groups : ListenerGroups} {addr' : String} {p q : Protocol}
    (h : canonicalKey groups addr p = canonicalKey groups addr' q) : SameSocket addr addr' p q := by
  obtain ⟨haddr, hsame | ⟨-, htls⟩⟩ := canonicalKey_eq_iff.1 h
  · exact ⟨haddr, .inl hsame⟩
  · exact ⟨haddr, .inr htls⟩

/-! ## Groups -/

variable (ir : RouteTable)

def listenersOn (addr : String) (p : Protocol) : List ListenerConfig :=
  ir.listeners.filter fun l => l.bindAddr = addr ∧ l.protocol = p

def bucket (listeners : List CompiledListener) (addr : String) (p : Protocol) : List CompiledListener :=
  listeners.filter fun l => l.bindAddr = addr ∧ l.protocol = p

theorem getD_groupListeners (listeners : List CompiledListener) (addr : String) (p : Protocol) :
    ((groupListeners listeners).get (addr, p)).getD [] = bucket listeners addr p := by
  rw [groupListeners, get_pushAll]
  simp [bucket]

theorem bucket_map_copyListener (addr : String) (p : Protocol) :
    bucket (ir.listeners.map copyListener) addr p = (listenersOn ir addr p).map copyListener := by
  rw [bucket, filter_map]
  rfl

theorem get_groupListeners_iff {ir : RouteTable} {p : Protocol} {group : List CompiledListener} :
    (groupListeners (ir.listeners.map copyListener)).get (addr, p) = some group
      ↔ listenersOn ir addr p ≠ [] ∧ group = (listenersOn ir addr p).map copyListener := by
  have hget : ((groupListeners (ir.listeners.map copyListener)).get (addr, p)).getD []
      = (listenersOn ir addr p).map copyListener := by
    rw [getD_groupListeners, bucket_map_copyListener]
  have hsome : ((groupListeners (ir.listeners.map copyListener)).get (addr, p)).isSome = true ↔ listenersOn ir addr p ≠ [] := by
    rw [groupListeners, get_pushAll_isSome, listenersOn]
    simp [copyListener]
  rw [← hget, ← hsome]
  cases (groupListeners (ir.listeners.map copyListener)).get (addr, p) <;> simp [eq_comm]

theorem sharedTlsAddr_iff (addr : String) :
    sharedTlsAddr (groupListeners (ir.listeners.map copyListener)) addr = true
      ↔ listenersOn ir addr .https ≠ [] ∧ listenersOn ir addr .tls ≠ [] := by
  simp [sharedTlsAddr, Option.isSome_iff_exists, get_groupListeners_iff]

theorem perm_pair {α : Type} {l : List α} {a b : α} (h : l.Perm [a, b]) : l = [a, b] ∨ l = [b, a] := by
  match l, h.length_eq with
  | [x, y], _ =>
    have hx := h.mem_iff.1 (mem_cons_self (a := x) (l := [y]))
    rcases mem_pair.1 hx with rfl | rfl
    · exact .inl (by rw [perm_singleton.1 ((perm_cons x).1 h)])
    · exact .inr (by rw [perm_singleton.1 ((perm_cons x).1 (h.trans (.swap x a [])))])

namespace CompiledL4Config

def socketProtocols (ir : RouteTable) (l : ListenerConfig) : List Protocol :=
  if l.protocol.isTls && sharedTlsAddr (groupListeners (ir.listeners.map copyListener)) l.bindAddr then [.https, .tls]
  else [l.protocol]

theorem key_eq_socketKey_iff {ir : RouteTable} {l : ListenerConfig} {addr : String} {p : Protocol} :
    canonicalKey (groupListeners (ir.listeners.map copyListener)) addr p = socketKey ir l
      ↔ addr = l.bindAddr ∧ p ∈ socketProtocols ir l := by
  rw [socketKey, canonicalKey_eq_iff, socketProtocols]
  refine and_congr_right ?_
  rintro rfl
  cases sharedTlsAddr (groupListeners (ir.listeners.map copyListener)) l.bindAddr <;> cases l.protocol <;> cases p <;> decide

variable (ω : IterOrder)

def socketGroup (ir : RouteTable) (l : ListenerConfig) : List CompiledListener :=
  ((mergeGroups ω (groupListeners (ir.listeners.map copyListener))).get (socketKey ir l)).getD []

theorem socketListeners_socketKey (ir : RouteTable) (l : ListenerConfig) :
    socketListeners ω ir (socketKey ir l) = socketGroup ω ir l := rfl

section Socket

variable {ir : RouteTable} {l : ListenerConfig} (hl : l ∈ ir.listeners)
include hl

theorem listenersOn_ne_nil {p : Protocol} (hp : p ∈ socketProtocols ir l) : listenersOn ir l.bindAddr p ≠ [] := by
  unfold socketProtocols at hp
  split_ifs at hp with hshared
  · rw [Bool.and_eq_true, sharedTlsAddr_iff] at hshared
    rcases mem_pair.1 hp with rfl | rfl
    · exact hshared.2.1
    · exact hshared.2.2
  · rw [mem_singleton.1 hp]
    exact ne_nil_of_mem (mem_filter.2 ⟨hl, by simp⟩)

variable (ω : IterOrder)

theorem socket_entries_perm : ((ω.order (groupListeners (ir.listeners.map copyListener)).pairs).filter fun e =>
        canonicalKey (groupListeners (ir.listeners.map copyListener)) e.1.1 e.1.2 = socketKey ir l).Perm
      ((socketProtocols ir l).map fun p => ((l.bindAddr, p), (listenersOn ir l.bindAddr p).map copyListener)) := by
  have hpairs : (ω.order (groupListeners (ir.listeners.map copyListener)).pairs).Nodup :=
    (ω.order_perm _).nodup_iff.2 (Nodup.of_map _ (nodup_keys_pairs _))
  have hprotocols : (socketProtocols ir l).Nodup := by
    unfold socketProtocols
    split_ifs <;> simp
  have hexpected := hprotocols.map
    (f := fun p => ((l.bindAddr, p), (listenersOn ir l.bindAddr p).map copyListener)) fun p q heq => (Prod.ext_iff.1 (Prod.ext_iff.1 heq).1).2
  refine (perm_ext_iff_of_nodup (hpairs.filter _) hexpected).2 fun e => ?_
  obtain ⟨⟨addr, p⟩, group⟩ := e
  rw [mem_filter, (ω.order_perm _).mem_iff, decide_eq_true_iff, mem_pairs_iff, get_groupListeners_iff,
    key_eq_socketKey_iff, mem_map]
  apply Iff.intro
  · intro h
    obtain ⟨⟨-, rfl⟩, rfl, hp⟩ := h
    exact ⟨p, hp, rfl⟩
  · intro h
    obtain ⟨q, hq, heq⟩ := h
    cases heq
    exact ⟨⟨listenersOn_ne_nil hl hq, rfl⟩, rfl, hq⟩

theorem socketGroup_alone (halone : socketProtocols ir l = [l.protocol]) :
    socketGroup ω ir l = (listenersOn ir l.bindAddr l.protocol).map copyListener := by
  have hperm := socket_entries_perm hl ω
  rw [halone, map_singleton, perm_singleton] at hperm
  rw [socketGroup, get_mergeGroups, hperm]
  simp

theorem socketGroup_shared (hshared : socketProtocols ir l = [.https, .tls]) : socketGroup ω ir l
        = (listenersOn ir l.bindAddr .https).map copyListener ++ (listenersOn ir l.bindAddr .tls).map copyListener
      ∨ socketGroup ω ir l
        = (listenersOn ir l.bindAddr .tls).map copyListener ++ (listenersOn ir l.bindAddr .https).map copyListener := by
  have hperm := socket_entries_perm hl ω
  rw [hshared] at hperm
  rw [socketGroup, get_mergeGroups]
  rcases perm_pair hperm with h | h
  · exact .inl (by simp [h])
  · exact .inr (by simp [h])

theorem socketGroup_reversed (hshared : socketProtocols ir l = [.https, .tls]) : ∃ ω ω' : IterOrder, socketGroup ω ir l
          = (listenersOn ir l.bindAddr .https).map copyListener ++ (listenersOn ir l.bindAddr .tls).map copyListener
        ∧ socketGroup ω' ir l
          = (listenersOn ir l.bindAddr .tls).map copyListener ++ (listenersOn ir l.bindAddr .https).map copyListener := by
  have hperm := socket_entries_perm hl .stored
  rw [hshared] at hperm
  have hturn : (IterOrder.reversed.order (groupListeners (ir.listeners.map copyListener)).pairs).filter (fun e =>
        canonicalKey (groupListeners (ir.listeners.map copyListener)) e.1.1 e.1.2 = socketKey ir l)
      = ((IterOrder.stored.order (groupListeners (ir.listeners.map copyListener)).pairs).filter fun e =>
        canonicalKey (groupListeners (ir.listeners.map copyListener)) e.1.1 e.1.2 = socketKey ir l).reverse :=
    filter_reverse ..
  rcases perm_pair hperm with h | h
  · exact ⟨.stored, .reversed, by simp [socketGroup, get_mergeGroups, h], by simp [socketGroup, get_mergeGroups, hturn, h]⟩
  · exact ⟨.reversed, .stored, by simp [socketGroup, get_mergeGroups, hturn, h], by simp [socketGroup, get_mergeGroups, h]⟩

theorem socketKey_eq_iff {l' : ListenerConfig} (hl' : l' ∈ ir.listeners) :
    socketKey ir l = socketKey ir l' ↔ SameSocket l.bindAddr l'.bindAddr l.protocol l'.protocol := by
  refine ⟨sameSocket_of_key, ?_⟩
  intro h
  obtain ⟨haddr, hsame | ⟨htls, htls'⟩⟩ := h
  · simp [socketKey, haddr, hsame]
  · exact canonicalKey_eq_of_tls (mem_map_of_mem hl) (mem_map_of_mem hl') haddr htls htls'

end Socket

theorem nodup_ids_merged (ir : RouteTable) :
    (((mergedPairs ω ir).filterMap fun e => mergedListener e.1 e.2).map (·.id)).Nodup := by
  have hkeys : (mergedPairs ω ir).Pairwise fun e e' => e.1 ≠ e'.1 :=
    pairwise_map.1 (((ω.order_perm _).map _).nodup_iff.2 (nodup_keys_pairs _))
  rw [Nodup, pairwise_map, pairwise_filterMap]
  refine hkeys.imp fun {e e'} hne c hc c' hc' => ?_
  rw [mergedListener_id hc, mergedListener_id hc']
  exact hne

section Compiled

variable {ω : IterOrder} {ir : RouteTable} {config : CompiledL4Config} (h : compile ω ir = .ok config)
include h

theorem nodup_ids : (config.listeners.map (·.id)).Nodup := by
  rw [compile_eq_ok h, foldl_addRoute_listeners]
  exact ((sortByKey_perm _ _).map _).nodup_iff.2 (nodup_ids_merged ω ir)

variable {c : CompiledListener}

theorem eq_of_id_eq {c' : CompiledListener} (hc : c ∈ config.listeners) (hc' : c' ∈ config.listeners)
    (hid : c.id = c'.id) : c = c' :=
  inj_on_of_nodup_map (nodup_ids h) hc hc' hid

/-- a compiled listener comes from a listener of the table: its id is that listener's key, its address that listener's, and
its protocol too, unless both speak TLS -/
theorem exists_source (hc : c ∈ config.listeners) : ∃ l ∈ ir.listeners, socketKey ir l = c.id ∧ Represents c l := by
  have hsame : ∀ x ∈ socketListeners ω ir c.id, x.bindAddr = c.bindAddr ∧ x.protocol.isTls = c.protocol.isTls :=
    fun x hx => of_mem_socketListeners h hc hx
  have hmem : ∀ x ∈ socketListeners ω ir c.id, _ := fun x hx => mem_socketListeners.1 hx
  obtain ⟨first, rest, hgroup, hmerged⟩ := exists_group h hc
  rw [hgroup] at hsame hmem
  obtain ⟨hfirst, hkey⟩ := hmem first (mem_cons_self ..)
  obtain ⟨l, hl, rfl⟩ := mem_map.1 hfirst
  obtain ⟨haddr, htls⟩ := hsame _ (mem_cons_self ..)
  refine ⟨l, hl, hkey, haddr.symm, ?_⟩
  cases hctls : c.protocol.isTls with
  | true => exact .inr ⟨rfl, htls.trans hctls⟩
  | false =>
    -- no listener of the group speaks TLS, so the protocol is that of the first
    have hnone : ((copyListener l :: rest).any fun x => decide (x.protocol = .tls)) = false := by
      rw [any_eq_false]
      intro x hx hxtls
      have hfalse := (hsame x hx).2.trans hctls
      rw [of_decide_eq_true hxtls] at hfalse
      cases hfalse
    simp only [mergedListener, hnone, Option.some.injEq] at hmerged
    rw [← hmerged]
    exact .inl rfl

theorem represents_iff (hc : c ∈ config.listeners) {l : ListenerConfig} (hl : l ∈ ir.listeners) :
    Represents c l ↔ c.id = socketKey ir l := by
  obtain ⟨m, hm, hkey, haddr, hprotocol⟩ := exists_source h hc
  rw [← hkey, socketKey_eq_iff hm hl, Represents, haddr]
  refine and_congr_right fun _ => ?_
  rcases hprotocol with hprotocol | ⟨hctls, hmtls⟩
  · rw [hprotocol]
  · apply Iff.intro
    · intro hl
      rcases hl with hl | hl
      · exact .inr ⟨hmtls, hl ▸ hctls⟩
      · exact .inr ⟨hmtls, hl.2⟩
    · intro hl
      rcases hl with hl | hl
      · exact .inr ⟨hctls, hl ▸ hmtls⟩
      · exact .inr ⟨hctls, hl.2⟩

theorem existsUnique_represents {l : ListenerConfig} (hl : l ∈ ir.listeners) : ∃! c, c ∈ config.listeners ∧ Represents c l := by
  obtain ⟨c, hc, hid⟩ := exists_compiled hl h
  refine ⟨c, ⟨hc, (represents_iff h hc hl).2 hid⟩, ?_⟩
  intro c' hc'
  obtain ⟨hc', hrep⟩ := hc'
  exact eq_of_id_eq h hc' hc (((represents_iff h hc' hl).1 hrep).trans hid.symm)

end Compiled

end CompiledL4Config

/-! ## Routes -/

inductive L4Kind where
  | tcp | udp | tls | https | http
deriving DecidableEq, Repr

def L4Action.kind : L4Action → L4Kind
  | .tcpRelay _ => .tcp
  | .udpRelay _ => .udp
  | .tlsPassthrough _ => .tls
  | .tlsTerminate _ => .tls
  | .terminateAndHttp _ => .https
  | .httpRelay _ => .http

namespace CompiledL4Config

def routesOf (c : CompiledL4Config) : L4Kind → List CompiledL4Route
  | .tcp => c.tcpRoutes
  | .udp => c.udpRoutes
  | .tls => c.tlsRoutes
  | .https => c.httpsRoutes
  | .http => c.httpRoutes

theorem routesOf_addRoute (c : CompiledL4Config) (r : CompiledL4Route) (kind : L4Kind) :
    (c.addRoute r).routesOf kind = c.routesOf kind ++ if r.action.kind = kind then [r] else [] := by
  unfold addRoute
  cases r.action <;> cases kind <;> simp [routesOf, L4Action.kind]

theorem routesOf_foldl_addRoute (routes : List CompiledL4Route) (c : CompiledL4Config) (kind : L4Kind) :
    (routes.foldl addRoute c).routesOf kind = c.routesOf kind ++ routes.filter (·.action.kind = kind) := by
  induction routes generalizing c with
  | nil => simp
  | cons r routes ih =>
    rw [foldl_cons, ih, routesOf_addRoute]
    by_cases hkind : r.action.kind = kind <;> simp [hkind]

def renames (merged : List (String × List CompiledListener)) : List (String × String) :=
  merged.flatMap fun e => e.2.map fun l => (l.id, e.1)

theorem listenerIdMap_eq (merged : List (String × List CompiledListener)) :
    listenerIdMap merged = ofPairs (renames merged) := by
  rw [listenerIdMap, ofPairs, renames, foldl_flatMap]
  simp [foldl_map]

variable {ir : RouteTable}

theorem mem_renames {ω : IterOrder} {id key : String} :
    (id, key) ∈ renames (mergedPairs ω ir) ↔ ∃ l ∈ ir.listeners, l.id = id ∧ socketKey ir l = key := by
  have hgroup : ∀ x, (∃ group, (key, group) ∈ mergedPairs ω ir ∧ x ∈ group) ↔ x ∈ socketListeners ω ir key := by
    simp [mem_mergedPairs, socketListeners, mem_getD_nil]
  rw [renames, mem_flatMap]
  apply Iff.intro
  · intro h
    obtain ⟨⟨key', group⟩, he, h⟩ := h
    obtain ⟨x, hx, h⟩ := mem_map.1 h
    cases h
    obtain ⟨hmem, hx⟩ := mem_socketListeners.1 ((hgroup x).1 ⟨group, he, hx⟩)
    obtain ⟨l, hl, rfl⟩ := mem_map.1 hmem
    exact ⟨l, hl, rfl, hx⟩
  · intro h
    obtain ⟨l, hl, rfl, rfl⟩ := h
    obtain ⟨group, he, hx⟩ := (hgroup _).2 (mem_socketListeners_socketKey hl)
    exact ⟨(_, group), he, mem_map.2 ⟨_, hx, rfl⟩⟩

theorem exists_of_get_listenerIdMap {ω : IterOrder} {id key : String}
    (h : (listenerIdMap (mergedPairs ω ir)).get id = some key) : ∃ l ∈ ir.listeners, l.id = id ∧ socketKey ir l = key := by
  rw [listenerIdMap_eq] at h
  exact mem_renames.1 (mem_of_get_ofPairs h)

theorem get_listenerIdMap_isSome (ω : IterOrder) {l : ListenerConfig} (hl : l ∈ ir.listeners) :
    ∃ key, (listenerIdMap (mergedPairs ω ir)).get l.id = some key := by
  have hmem : (l.id, socketKey ir l) ∈ (renames (mergedPairs ω ir)).reverse := mem_reverse.2 (mem_renames.2 ⟨l, hl, rfl, rfl⟩)
  rw [listenerIdMap_eq, get_ofPairs]
  cases hfind : (renames (mergedPairs ω ir)).reverse.find? (·.1 = l.id) with
  | none => exact absurd (find?_eq_none.1 hfind _ hmem) (by simp)
  | some e => exact ⟨e.2, rfl⟩

end CompiledL4Config

/-- the compiled route does what the route says, on the sockets of its listener -/
structure Compiles (ir : RouteTable) (config : CompiledL4Config) (r : L4Route) (c : CompiledL4Route) : Prop where
  hostname : c.listenerHostname = r.listenerHostname
  match_ : c.match_ = r.match_
  action : c.action = r.action
  socket : ∀ l ∈ ir.listeners, l.id = r.listenerId → ∃ s ∈ config.listeners, s.id = c.listenerId ∧ Represents s l

/-- ids tell the compiled listeners apart, every listener of the table has one of them, and every list of routes holds the
routes of the table with its actions, in their order -/
structure FaithfulL4 (ir : RouteTable) (config : CompiledL4Config) : Prop where
  ids : (config.listeners.map (·.id)).Nodup
  sockets : ∀ l ∈ ir.listeners, ∃! c, c ∈ config.listeners ∧ Represents c l
  routes : ∀ kind, List.Forall₂ (Compiles ir config) (ir.l4Routes.filter (·.action.kind = kind)) (config.routesOf kind)

/-- listeners that share the id a route names share the socket -/
def NamesOneSocket : Prop :=
  ∀ r ∈ ir.l4Routes, ∀ l ∈ ir.listeners, ∀ l' ∈ ir.listeners, l.id = r.listenerId → l'.id = r.listenerId →
    SameSocket l.bindAddr l'.bindAddr l.protocol l'.protocol

namespace CompiledL4Config

variable {config : CompiledL4Config} {ir : RouteTable} {ω : IterOrder}

theorem routesOf_eq (h : compile ω ir = .ok config) (kind : L4Kind) : config.routesOf kind
      = (ir.l4Routes.filter (·.action.kind = kind)).map (compileRoute (listenerIdMap (mergedPairs ω ir))) := by
  rw [compile_eq_ok h, routesOf_foldl_addRoute, filter_map]
  cases kind <;> rfl

theorem compiles_of_one_socket (h : compile ω ir = .ok config) {r : L4Route}
    (hone : ∀ l ∈ ir.listeners, ∀ l' ∈ ir.listeners, l.id = r.listenerId → l'.id = r.listenerId →
      SameSocket l.bindAddr l'.bindAddr l.protocol l'.protocol) :
    Compiles ir config r (compileRoute (listenerIdMap (mergedPairs ω ir)) r) := by
  refine ⟨rfl, rfl, rfl, ?_⟩
  intro l hl hid
  obtain ⟨key, hkey⟩ := get_listenerIdMap_isSome ω hl
  obtain ⟨l', hl', hid', rfl⟩ := exists_of_get_listenerIdMap hkey
  obtain ⟨s, hs, hsid⟩ := exists_compiled hl h
  have hsame := (socketKey_eq_iff hl' hl).2 (hone l' hl' l hl (hid'.trans hid) hid)
  refine ⟨s, hs, ?_, (represents_iff h hs hl).2 hsid⟩
  rw [compileRoute, ← hid, hkey, Option.getD_some, hsame, hsid]

/-- **Faithful compilation.** Ids, sockets and routes come out as they should exactly when no route names an id that listeners
of two sockets share. -/
theorem faithful_iff_namesOneSocket (h : compile ω ir = .ok config) : FaithfulL4 ir config ↔ NamesOneSocket ir := by
  apply Iff.intro
  · intro hfaithful r hr l hl l' hl' hid hid'
    have hroutes := hfaithful.routes r.action.kind
    rw [routesOf_eq h, forall₂_map_right_iff, forall₂_same] at hroutes
    have hr' : r ∈ ir.l4Routes.filter (·.action.kind = r.action.kind) := mem_filter.2 ⟨hr, by simp⟩
    obtain ⟨s, hs, hsid, hrep⟩ := (hroutes r hr').socket l hl hid
    obtain ⟨s', hs', hsid', hrep'⟩ := (hroutes r hr').socket l' hl' hid'
    have hsame := eq_of_id_eq h hs hs' (hsid.trans hsid'.symm)
    subst hsame
    rw [← socketKey_eq_iff hl hl', ← (represents_iff h hs hl).1 hrep, ← (represents_iff h hs hl').1 hrep']
  · intro hone
    refine ⟨nodup_ids h, fun l hl => existsUnique_represents h hl, fun kind => ?_⟩
    rw [routesOf_eq h, forall₂_map_right_iff, forall₂_same]
    intro r hr
    exact compiles_of_one_socket h (hone r (mem_filter.1 hr).1)

end CompiledL4Config

/-- two optional settings that do not contradict each other -/
def Agree {α : Type} (o o' : Option α) : Prop := ∀ a b, o = some a → o' = some b → a = b

@[simp]
theorem agree_none_left {α : Type} (o : Option α) : Agree none o := by simp [Agree]

@[simp]
theorem agree_none_right {α : Type} (o : Option α) : Agree o none := by simp [Agree]

theorem or_comm_iff {α : Type} {o o' : Option α} : o.or o' = o'.or o ↔ Agree o o' := by
  unfold Agree
  cases o with
  | none => simp
  | some a => cases o' <;> simp

variable (ls : List ListenerConfig)

def firstTls : Option TlsConfig := ls.findSome? (·.tls)

def firstStrict : Option FrontendValidation :=
  (ls.filterMap (·.frontendValidation)).find? fun v => !v.allowInsecureFallback

def firstValidation : Option FrontendValidation := ls.findSome? (·.frontendValidation)

/-- the HTTPS and the TLS listeners of an address do not contradict each other: neither in their first certificates, nor in
the first settings that insist on client certificates, nor, where none insist, in their first settings for them -/
structure SharedSettingsAgree (ir : RouteTable) (addr : String) : Prop where
  tls : Agree (firstTls (listenersOn ir addr .https)) (firstTls (listenersOn ir addr .tls))
  strict : Agree (firstStrict (listenersOn ir addr .https)) (firstStrict (listenersOn ir addr .tls))
  lenient : firstStrict (listenersOn ir addr .https) = none → firstStrict (listenersOn ir addr .tls) = none →
    Agree (firstValidation (listenersOn ir addr .https)) (firstValidation (listenersOn ir addr .tls))

theorem mergedValidation_append (ls ls' : List ListenerConfig) : mergedValidation (ls.map copyListener ++ ls'.map copyListener)
      = ((firstStrict ls).or (firstStrict ls')).or ((firstValidation ls).or (firstValidation ls')) := by
  simp only [mergedValidation, ← map_append, filterMap_map, findSome?_map]
  rw [filterMap_append, find?_append, findSome?_append]
  rfl

theorem mergedValidation_comm_iff (ls ls' : List ListenerConfig) : mergedValidation (ls.map copyListener ++ ls'.map copyListener)
        = mergedValidation (ls'.map copyListener ++ ls.map copyListener)
      ↔ Agree (firstStrict ls) (firstStrict ls')
        ∧ (firstStrict ls = none → firstStrict ls' = none → Agree (firstValidation ls) (firstValidation ls')) := by
  simp only [mergedValidation_append, ← or_comm_iff]
  cases firstStrict ls
  all_goals cases firstStrict ls' <;> simp

theorem mergedListener_of_tls {key : String} {group : List CompiledListener} (haddr : ∀ x ∈ group, x.bindAddr = addr)
    (htls : ∃ x ∈ group, x.protocol = .tls) :
    mergedListener key group = some
      { id := key, bindAddr := addr, protocol := .tls, tls := group.findSome? (·.tls)
        redirectHttpToHttps := group.any (·.redirectHttpToHttps), frontendValidation := mergedValidation group } := by
  have hany : (group.any fun x => decide (x.protocol = .tls)) = true := by simpa using htls
  cases group with
  | nil => cases hany
  | cons first rest => rw [mergedListener, hany, haddr first (mem_cons_self ..), if_pos rfl]

theorem mergedListener_comm_iff {ir : RouteTable} (key : String) (htls : listenersOn ir addr .tls ≠ []) :
    mergedListener key ((listenersOn ir addr .https).map copyListener ++ (listenersOn ir addr .tls).map copyListener)
        = mergedListener key ((listenersOn ir addr .tls).map copyListener ++ (listenersOn ir addr .https).map copyListener)
      ↔ SharedSettingsAgree ir addr := by
  have hon : ∀ p, ∀ x ∈ (listenersOn ir addr p).map copyListener, x.bindAddr = addr ∧ x.protocol = p := by
    intro p x hx
    obtain ⟨l, hl, rfl⟩ := mem_map.1 hx
    exact of_decide_eq_true (mem_filter.1 hl).2
  have haddr : ∀ p q, ∀ x ∈ (listenersOn ir addr p).map copyListener ++ (listenersOn ir addr q).map copyListener,
      x.bindAddr = addr := by
    intro p q x hx
    rcases mem_append.1 hx with hx | hx
    · exact (hon p x hx).1
    · exact (hon q x hx).1
  obtain ⟨l, hl⟩ := exists_mem_of_ne_nil _ htls
  have hmem : copyListener l ∈ (listenersOn ir addr .tls).map copyListener := mem_map_of_mem hl
  have hprotocol := (hon .tls _ hmem).2
  rw [mergedListener_of_tls (haddr .https .tls) ⟨_, mem_append_right _ hmem, hprotocol⟩,
    mergedListener_of_tls (haddr .tls .https) ⟨_, mem_append_left _ hmem, hprotocol⟩]
  simp only [Option.some.injEq, CompiledListener.mk.injEq, mergedValidation_comm_iff, true_and]
  have hredirect : ∀ s t : List CompiledListener,
      (s ++ t).any (·.redirectHttpToHttps) = (t ++ s).any (·.redirectHttpToHttps) := by
    intro s t
    simp [any_append, Bool.or_comm]
  have hcert : ((listenersOn ir addr .https).map copyListener ++ (listenersOn ir addr .tls).map copyListener).findSome? (·.tls)
        = ((listenersOn ir addr .tls).map copyListener ++ (listenersOn ir addr .https).map copyListener).findSome? (·.tls)
      ↔ Agree (firstTls (listenersOn ir addr .https)) (firstTls (listenersOn ir addr .tls)) := by
    simp only [findSome?_append, findSome?_map]
    exact or_comm_iff
  rw [hcert]
  apply Iff.intro
  · intro h
    exact ⟨h.1, h.2.2.1, h.2.2.2⟩
  · intro h
    exact ⟨h.tls, hredirect _ _, h.strict, h.lenient⟩

/-! ## Independence of the walk -/

/-- the listeners that speak TLS have a certificate; other tables are refused -/
def TlsConfigured : Prop := ∀ l ∈ ir.listeners, l.protocol.isTls = true → l.tls.isSome = true

theorem compileListener_isOk_iff {l : ListenerConfig} :
    (∃ c, compileListener l = .ok c) ↔ (l.protocol.isTls = true → l.tls.isSome = true) := by
  unfold compileListener
  cases l.protocol.isTls <;> cases l.tls <;> simp

theorem mapM_compileListener_isOk_iff {ls : List ListenerConfig} :
    (∃ cs, ls.mapM compileListener = .ok cs) ↔ ∀ l ∈ ls, l.protocol.isTls = true → l.tls.isSome = true := by
  induction ls with
  | nil =>
    apply Iff.intro
    · intro _ l hl
      cases hl
    · intro _
      exact ⟨[], rfl⟩
  | cons l ls ih =>
    rw [forall_mem_cons, ← ih, ← compileListener_isOk_iff, mapM_cons]
    apply Iff.intro
    · intro h
      obtain ⟨cs, h⟩ := h
      obtain ⟨c, hc, h⟩ := bind_ok h
      obtain ⟨rest, hrest, _⟩ := bind_ok h
      exact ⟨⟨c, hc⟩, rest, hrest⟩
    · intro h
      obtain ⟨⟨c, hc⟩, rest, hrest⟩ := h
      rw [hc, hrest]
      exact ⟨c :: rest, rfl⟩

namespace CompiledL4Config

theorem compile_isOk_iff (ω : IterOrder) (ir : RouteTable) : (∃ config, compile ω ir = .ok config) ↔ TlsConfigured ir := by
  rw [TlsConfigured, ← mapM_compileListener_isOk_iff]
  apply Iff.intro
  · intro h
    obtain ⟨config, h⟩ := h
    obtain ⟨cs, hcs, _⟩ := bind_ok h
    exact ⟨cs, hcs⟩
  · intro h
    obtain ⟨cs, hcs⟩ := h
    unfold compile
    rw [hcs]
    exact ⟨_, rfl⟩

variable {ir : RouteTable}

theorem compile_refused (h : ¬ TlsConfigured ir) (ω ω' : IterOrder) : compile ω ir = compile ω' ir := by
  rw [TlsConfigured, ← mapM_compileListener_isOk_iff] at h
  unfold compile
  cases hcs : ir.listeners.mapM compileListener with
  | ok cs => exact absurd ⟨cs, hcs⟩ h
  | error e => rfl

theorem mergedListener_walk (hagree : ∀ addr, SharedSettingsAgree ir addr) (key : String) (ω ω' : IterOrder) :
    mergedListener key (socketListeners ω ir key) = mergedListener key (socketListeners ω' ir key) := by
  by_cases hkey : ∃ l ∈ ir.listeners, socketKey ir l = key
  · obtain ⟨l, hl, rfl⟩ := hkey
    by_cases hshared : socketProtocols ir l = [.https, .tls]
    · have htls : listenersOn ir l.bindAddr .tls ≠ [] := listenersOn_ne_nil hl (by simp [hshared])
      have hcomm := (mergedListener_comm_iff (socketKey ir l) htls).2 (hagree l.bindAddr)
      simp only [socketListeners_socketKey]
      rcases socketGroup_shared hl ω hshared with h | h <;> rcases socketGroup_shared hl ω' hshared with h' | h'
      · rw [h, h']
      · rw [h, h']
        exact hcomm
      · rw [h, h']
        exact hcomm.symm
      · rw [h, h']
    · have halone : socketProtocols ir l = [l.protocol] := by
        unfold socketProtocols at hshared ⊢
        split_ifs at hshared ⊢ <;> trivial
      simp [socketListeners_socketKey, socketGroup_alone hl ω halone, socketGroup_alone hl ω' halone]
  · have hempty : ∀ ω, socketListeners ω ir key = [] := by
      intro ω
      refine eq_nil_iff_forall_not_mem.2 fun x hx => hkey ?_
      obtain ⟨hmem, hx⟩ := mem_socketListeners.1 hx
      obtain ⟨l, hl, rfl⟩ := mem_map.1 hmem
      exact ⟨l, hl, hx⟩
    simp [hempty]

theorem compileRoute_walk {r : L4Route}
    (hone : ∀ l ∈ ir.listeners, ∀ l' ∈ ir.listeners, l.id = r.listenerId → l'.id = r.listenerId →
      SameSocket l.bindAddr l'.bindAddr l.protocol l'.protocol)
    (ω ω' : IterOrder) :
    compileRoute (listenerIdMap (mergedPairs ω ir)) r = compileRoute (listenerIdMap (mergedPairs ω' ir)) r := by
  have hget : (listenerIdMap (mergedPairs ω ir)).get r.listenerId = (listenerIdMap (mergedPairs ω' ir)).get r.listenerId := by
    by_cases hnamed : ∃ l ∈ ir.listeners, l.id = r.listenerId
    · obtain ⟨l, hl, hid⟩ := hnamed
      obtain ⟨key, hkey⟩ := get_listenerIdMap_isSome ω hl
      obtain ⟨key', hkey'⟩ := get_listenerIdMap_isSome ω' hl
      obtain ⟨m, hm, hmid, hmkey⟩ := exists_of_get_listenerIdMap hkey
      obtain ⟨m', hm', hmid', hmkey'⟩ := exists_of_get_listenerIdMap hkey'
      rw [← hid, hkey, hkey', ← hmkey, ← hmkey',
        (socketKey_eq_iff hm hm').2 (hone m hm m' hm' (hmid.trans hid) (hmid'.trans hid))]
    · have hnone : ∀ ω, (listenerIdMap (mergedPairs ω ir)).get r.listenerId = none := by
        intro ω
        cases hkey : (listenerIdMap (mergedPairs ω ir)).get r.listenerId with
        | none => rfl
        | some key =>
          obtain ⟨l, hl, hid, _⟩ := exists_of_get_listenerIdMap hkey
          exact absurd ⟨l, hl, hid⟩ hnamed
      rw [hnone, hnone]
  simp [compileRoute, hget]

theorem compile_walk (hone : NamesOneSocket ir) (hagree : ∀ addr, SharedSettingsAgree ir addr) (ω ω' : IterOrder) :
    compile ω ir = compile ω' ir := by
  by_cases hok : TlsConfigured ir
  · obtain ⟨config, h⟩ := (compile_isOk_iff ω ir).2 hok
    obtain ⟨config', h'⟩ := (compile_isOk_iff ω' ir).2 hok
    have hmerged : ((mergedPairs ω ir).filterMap fun e => mergedListener e.1 e.2).Perm
        ((mergedPairs ω' ir).filterMap fun e => mergedListener e.1 e.2) := by
      refine (perm_ext_iff_of_nodup (nodup_ids_merged ω ir).of_map (nodup_ids_merged ω' ir).of_map).2 fun c => ?_
      simp only [mem_merged_iff, mergedListener_walk hagree c.id ω ω']
    have hlisteners := sortByKey_eq_of_perm (nodup_ids_merged ω ir) hmerged
    simp only [sortByKey] at hlisteners
    have hroutes := map_congr_left fun r hr => compileRoute_walk (hone r hr) ω ω'
    rw [h, h', compile_eq_ok h, compile_eq_ok h', hlisteners, hroutes]
  · exact compile_refused hok ω ω'

theorem sharedSettingsAgree_of_walk (hok : TlsConfigured ir) (hwalk : ∀ ω ω', compile ω ir = compile ω' ir)
    (addr : String) : SharedSettingsAgree ir addr := by
  by_cases hshared : listenersOn ir addr .https = [] ∨ listenersOn ir addr .tls = []
  · rcases hshared with hnone | hnone
    all_goals exact ⟨by simp [hnone, firstTls], by simp [hnone, firstStrict], by simp [hnone, firstValidation]⟩
  · rw [not_or] at hshared
    obtain ⟨l, hl⟩ := exists_mem_of_ne_nil _ hshared.2
    obtain ⟨hmem, hon⟩ := mem_filter.1 hl
    obtain ⟨rfl, hprotocol⟩ := of_decide_eq_true hon
    have hprotocols : socketProtocols ir l = [.https, .tls] := by
      rw [socketProtocols, (sharedTlsAddr_iff ir l.bindAddr).2 hshared, hprotocol]
      rfl
    -- one walk meets the HTTPS listeners first, another the TLS listeners; both configurations have the one socket
    obtain ⟨ω, ω', hfirst, hsecond⟩ := socketGroup_reversed hmem hprotocols
    obtain ⟨config, h⟩ := (compile_isOk_iff ω ir).2 hok
    obtain ⟨c, hc, hid⟩ := exists_compiled hmem h
    have hsocket := (mem_listeners_iff h).1 hc
    have hsocket' := (mem_listeners_iff ((hwalk ω' ω).trans h)).1 hc
    rw [hid, socketListeners_socketKey, hfirst] at hsocket
    rw [hid, socketListeners_socketKey, hsecond] at hsocket'
    exact (mergedListener_comm_iff (socketKey ir l) hshared.2).1 (hsocket.trans hsocket'.symm)

end CompiledL4Config

open CompiledL4Config in
/-- **Faithful and independent of hashing** is what a table compiles to exactly when no route names an id that listeners of two
sockets share and the HTTPS and TLS listeners of no address contradict each other in the settings of their socket. -/
theorem l4_compile_faithful_iff (ir : RouteTable) :
    ((∀ ω config, compile ω ir = .ok config → FaithfulL4 ir config) ∧ ∀ ω ω', compile ω ir = compile ω' ir)
      ↔ (TlsConfigured ir → NamesOneSocket ir ∧ ∀ addr, SharedSettingsAgree ir addr) := by
  apply Iff.intro
  · intro h hok
    obtain ⟨hfaithful, hwalk⟩ := h
    obtain ⟨config, hconfig⟩ := (compile_isOk_iff .stored ir).2 hok
    exact ⟨(faithful_iff_namesOneSocket hconfig).1 (hfaithful _ config hconfig), sharedSettingsAgree_of_walk hok hwalk⟩
  · intro h
    refine ⟨?_, ?_⟩
    · intro ω config hconfig
      exact (faithful_iff_namesOneSocket hconfig).2 (h ((compile_isOk_iff ω ir).1 ⟨config, hconfig⟩)).1
    · intro ω ω'
      by_cases hok : TlsConfigured ir
      · exact compile_walk (h hok).1 (h hok).2 ω ω'
      · exact compile_refused hok ω ω'

def twoCertificates : RouteTable := { listeners :=
      [{ id := "shop/edge/web", bindAddr := "0.0.0.0:443", protocol := .https, tls := some (.files "web.crt" "web.key") },
       { id := "shop/edge/raw", bindAddr := "0.0.0.0:443", protocol := .tls, tls := some (.files "raw.crt" "raw.key") }] }

theorem two_certificates_depend_on_walk :
    (CompiledL4Config.compile .stored twoCertificates).toOption.map (·.listeners.map (·.tls))
        = some [some (.files "raw.crt" "raw.key")]
      ∧ (CompiledL4Config.compile .reversed twoCertificates).toOption.map (·.listeners.map (·.tls))
        = some [some (.files "web.crt" "web.key")]
      ∧ ¬ ∀ ω ω', CompiledL4Config.compile ω twoCertificates = CompiledL4Config.compile ω' twoCertificates := by
  have hstored : (CompiledL4Config.compile .stored twoCertificates).toOption.map (·.listeners.map (·.tls))
      = some [some (.files "raw.crt" "raw.key")] := by decide
  have hreversed : (CompiledL4Config.compile .reversed twoCertificates).toOption.map (·.listeners.map (·.tls))
      = some [some (.files "web.crt" "web.key")] := by decide
  refine ⟨hstored, hreversed, ?_⟩
  intro h
  rw [h .stored .reversed] at hstored
  exact absurd hstored (by decide)

end SunbeamProxy
