/-
The L4 router's choice of a route (`l4/router.rs`), on sockets that several listeners share.
-/
import SunbeamProxy.Core.Selection
import SunbeamProxy.IR.L4

namespace SunbeamProxy

open List

variable (c : CompiledL4Config)

def routesForProtocol : Protocol → List CompiledL4Route
  | .tcp => c.tcpRoutes
  | .udp => c.udpRoutes
  | .tls => c.tlsRoutes
  | .https => c.httpsRoutes
  | .http => c.httpRoutes

def matchRoute : L4Match → Option String → Bool
  | .any, _ => true
  | .sni hostname, sni => sni.any (irHostnameMatches · hostname)

variable (routes : List CompiledL4Route)

def findRoute (listenerId : String) (sni : Option String) : Option CompiledL4Route :=
  routes.find? fun r => r.listenerId = listenerId && matchRoute r.match_ sni

def findTlsRoute (listenerId : String) (sni : Option String) : Option CompiledL4Route :=
  sni.bind fun sni =>
    let candidates := routes.filter fun r => r.listenerId = listenerId && irHostnameMatches sni r.listenerHostname
    let bestScore := maxOf (candidates.map fun r => irListenerSpecificityScore r.listenerHostname)
    (candidates.filter fun r => irListenerSpecificityScore r.listenerHostname = bestScore).find? fun r =>
      matchRoute r.match_ (some sni)

def handleTcp (listenerId : String) (protocol : Protocol) (sni peeked : Option String) :
    Option CompiledL4Route :=
  let routes := routesForProtocol c protocol
  let sni := sni.or (if protocol.isTls then peeked else none)
  if protocol.isTls then findTlsRoute routes listenerId sni else findRoute routes listenerId sni

def CompiledListener.route (socket : CompiledListener) (c : CompiledL4Config) (peeked : Option String) :
    Option CompiledL4Route :=
  handleTcp c socket.id socket.protocol none peeked

def findListener (listenerId : String) : Option CompiledListener :=
  c.listeners.find? (·.id = listenerId)

def handshakeValidation (socket : CompiledListener) (peeked : Option String) :
    Option (Option FrontendValidation) :=
  (socket.route c peeked).bind fun route => match route.action with
    | .tlsTerminate _ => (findListener c socket.id).map (·.frontendValidation)
    | .terminateAndHttp _ => (findListener c socket.id).map (·.frontendValidation)
    | _ => none

/-- a listener of the address that speaks TLS has a route under a hostname that takes the SNI -/
structure Claims (ir : RouteTable) (addr sni : String) (l : ListenerConfig) (r : L4Route) : Prop where
  listener : l ∈ ir.listeners
  addr : l.bindAddr = addr
  tls : l.protocol.isTls = true
  route : r ∈ ir.l4Routes
  attached : r.listenerId = l.id
  hostname : irHostnameMatches sni r.listenerHostname = true

/-- the listener's hostname is the most specific one of the address that takes the SNI -/
def Owns (ir : RouteTable) (addr sni : String) (l : ListenerConfig) : Prop :=
  ∃ r, Claims ir addr sni l r ∧ ∀ l' r', Claims ir addr sni l' r' →
    irListenerSpecificityScore r'.listenerHostname ≤ irListenerSpecificityScore r.listenerHostname

section Socket

variable {ω : IterOrder} {ir : RouteTable} {c : CompiledL4Config} {socket : CompiledListener}

theorem findListener_socket (hc : CompiledL4Config.compile ω ir = .ok c) (hs : socket ∈ c.listeners) :
    findListener c socket.id = some socket := by
  cases hfind : findListener c socket.id with
  | none =>
    have := find?_eq_none.1 hfind socket hs
    simp at this
  | some other =>
    have hid : other.id = socket.id := by simpa using find?_some hfind
    have hother := (CompiledL4Config.mem_listeners_iff hc).1 (mem_of_find?_eq_some hfind)
    rw [hid, (CompiledL4Config.mem_listeners_iff hc).1 hs] at hother
    exact hother.symm

theorem handshakeValidation_eq (hc : CompiledL4Config.compile ω ir = .ok c) (hs : socket ∈ c.listeners)
    {sni : Option String} {v : Option FrontendValidation} (hv : handshakeValidation c socket sni = some v) :
    v = mergedValidation (socketListeners ω ir socket.id) := by
  obtain ⟨route, -, haction⟩ := Option.bind_eq_some_iff.1 hv
  rw [findListener_socket hc hs] at haction
  rw [← CompiledL4Config.frontendValidation_socket hc hs]
  cases hact : route.action <;> simp [hact] at haction <;> exact haction.symm

/-- **Client validation of an owned SNI.** The handshake is validated as the owner of the SNI asks exactly when the owner's
settings are those that prevail among the listeners merged into the socket. -/
theorem owner_validates_iff (hc : CompiledL4Config.compile ω ir = .ok c) (hs : socket ∈ c.listeners) {sni : String}
    {v : Option FrontendValidation} (hv : handshakeValidation c socket (some sni) = some v) :
    (∀ l, Owns ir socket.bindAddr sni l → v = l.frontendValidation) ↔
      ∀ l, Owns ir socket.bindAddr sni l → Prevails l.frontendValidation (socketListeners ω ir socket.id) := by
  refine forall₂_congr fun l _ => ?_
  rw [handshakeValidation_eq hc hs hv, mergedValidation_iff]

end Socket

def twoCaTable : RouteTable :=
  { listeners :=
      [{ id := "a", bindAddr := "0.0.0.0:443", protocol := .https, tls := some (.registry "")
         frontendValidation := some ⟨"CA of a", false⟩ },
       { id := "b", bindAddr := "0.0.0.0:443", protocol := .https, tls := some (.registry "")
         frontendValidation := some ⟨"CA of b", false⟩ }]
    l4Routes :=
      [{ listenerId := "a", listenerHostname := .exact "a.example", match_ := .any
         action := .terminateAndHttp "127.0.0.1:8080" },
       { listenerId := "b", listenerHostname := .exact "b.example", match_ := .any
         action := .terminateAndHttp "127.0.0.1:8080" }] }

def twoCaSocket : CompiledListener :=
  { id := "0.0.0.0:443#Https", bindAddr := "0.0.0.0:443", protocol := .https, tls := some (.registry "")
    redirectHttpToHttps := false, frontendValidation := some ⟨"CA of a", false⟩ }

def twoCaConfig : CompiledL4Config :=
  { listeners := [twoCaSocket]
    httpsRoutes :=
      [{ listenerId := "0.0.0.0:443#Https", listenerHostname := .exact "a.example", match_ := .any
         action := .terminateAndHttp "127.0.0.1:8080" },
       { listenerId := "0.0.0.0:443#Https", listenerHostname := .exact "b.example", match_ := .any
         action := .terminateAndHttp "127.0.0.1:8080" }] }

theorem compile_twoCaTable : CompiledL4Config.compile .stored twoCaTable = .ok twoCaConfig := rfl

theorem first_ca_validates : handshakeValidation twoCaConfig twoCaSocket (some "a.example") = some (some ⟨"CA of a", false⟩)
      ∧ Owns twoCaTable "0.0.0.0:443" "a.example" twoCaTable.listeners[0]
      ∧ some ⟨"CA of a", false⟩ = twoCaTable.listeners[0].frontendValidation := by
  have hvalidation : handshakeValidation twoCaConfig twoCaSocket (some "a.example") = some (some ⟨"CA of a", false⟩) := rfl
  have howns : Owns twoCaTable "0.0.0.0:443" "a.example" twoCaTable.listeners[0] := by
    refine ⟨twoCaTable.l4Routes[0], ⟨by decide, rfl, rfl, by decide, rfl, rfl⟩, ?_⟩
    rintro l' r' ⟨-, -, -, hroute, -, hhost⟩
    rcases mem_pair.1 hroute with rfl | rfl
    · rfl
    · cases hhost
  refine ⟨hvalidation, howns, ?_⟩
  refine (owner_validates_iff compile_twoCaTable (mem_singleton_self _) hvalidation).2 ?_ _ howns
  rintro l ⟨r, ⟨hlistener, -, -, hroute, hattached, hhost⟩, -⟩
  rcases mem_pair.1 hroute with rfl | rfl
  · rcases mem_pair.1 hlistener with rfl | rfl
    · exact .strict (s := []) rfl rfl (by simp)
    · exact absurd hattached (by decide)
  · cases hhost

theorem other_ca_validates : CompiledL4Config.compile .stored twoCaTable = .ok twoCaConfig ∧ twoCaSocket ∈ twoCaConfig.listeners
      ∧ handshakeValidation twoCaConfig twoCaSocket (some "b.example") = some (some ⟨"CA of a", false⟩)
      ∧ ∃ l, Owns twoCaTable "0.0.0.0:443" "b.example" l ∧ l.frontendValidation = some ⟨"CA of b", false⟩ := by
  refine ⟨compile_twoCaTable, mem_singleton_self _, rfl, twoCaTable.listeners[1], ?_, rfl⟩
  refine ⟨twoCaTable.l4Routes[1], ⟨by decide, rfl, rfl, by decide, rfl, rfl⟩, ?_⟩
  rintro l' r' ⟨-, -, -, hroute, -, hhost⟩
  rcases mem_pair.1 hroute with rfl | rfl
  · cases hhost
  · rfl

def L4Action.protocol : L4Action → Protocol
  | .tcpRelay _ => .tcp
  | .udpRelay _ => .udp
  | .tlsPassthrough _ => .tls
  | .tlsTerminate _ => .tls
  | .terminateAndHttp _ => .https
  | .httpRelay _ => .http

theorem routesForProtocol_addRoute (r : CompiledL4Route) (p : Protocol) :
    routesForProtocol (c.addRoute r) p = routesForProtocol c p ++ [r].filter (·.action.protocol = p) := by
  rw [CompiledL4Config.addRoute]
  cases hact : r.action <;> cases p <;> simp [routesForProtocol, hact, L4Action.protocol]

theorem routesForProtocol_foldl (c : CompiledL4Config) (p : Protocol) :
    routesForProtocol (routes.foldl CompiledL4Config.addRoute c) p
      = routesForProtocol c p ++ routes.filter (·.action.protocol = p) := by
  induction routes generalizing c with
  | nil => simp
  | cons r routes ih =>
    rw [foldl_cons, ih, routesForProtocol_addRoute, append_assoc, ← filter_append]
    rfl

def socketIds (ω : IterOrder) (ir : RouteTable) : HashMap String String :=
  listenerIdMap (ω.order (mergeGroups ω (groupListeners (ir.listeners.map copyListener))).pairs)

section Served

variable {ω : IterOrder} {ir : RouteTable} {c : CompiledL4Config} {socket : CompiledListener}

theorem routesForProtocol_compile (hc : CompiledL4Config.compile ω ir = .ok c) (p : Protocol) : routesForProtocol c p
      = (ir.l4Routes.map (CompiledL4Config.compileRoute (socketIds ω ir))).filter (·.action.protocol = p) := by
  rw [CompiledL4Config.compile_eq_ok hc, routesForProtocol_foldl]
  cases p <;> rfl

def reaches (ω : IterOrder) (ir : RouteTable) (socket : CompiledListener) (sni : String) (r : L4Route) : Bool :=
  r.action.protocol = socket.protocol && ((socketIds ω ir).get r.listenerId).getD r.listenerId = socket.id
    && irHostnameMatches sni r.listenerHostname

/-- the first matching route of the table among those of the most specific listener hostname that reach the socket -/
def FirstServed (ω : IterOrder) (ir : RouteTable) (socket : CompiledListener) (sni : String) (r : L4Route) : Prop :=
  ∃ s t, ir.l4Routes = s ++ r :: t ∧ reaches ω ir socket sni r = true ∧ matchRoute r.match_ (some sni) = true
    ∧ (∀ q ∈ ir.l4Routes, reaches ω ir socket sni q = true →
        irListenerSpecificityScore q.listenerHostname ≤ irListenerSpecificityScore r.listenerHostname)
    ∧ ∀ q ∈ s, reaches ω ir socket sni q = true →
        irListenerSpecificityScore q.listenerHostname = irListenerSpecificityScore r.listenerHostname →
        matchRoute q.match_ (some sni) = false

theorem candidates_compile (hc : CompiledL4Config.compile ω ir = .ok c) (sni : String) :
    (routesForProtocol c socket.protocol).filter (fun r => r.listenerId = socket.id && irHostnameMatches sni r.listenerHostname)
      = (ir.l4Routes.filter (reaches ω ir socket sni)).map (CompiledL4Config.compileRoute (socketIds ω ir)) := by
  rw [routesForProtocol_compile hc, filter_filter, filter_map]
  refine congrArg _ (filter_congr fun r _ => ?_)
  rw [Function.comp_apply, Bool.and_comm, reaches, Bool.and_assoc]
  rfl

theorem route_eq_some_iff (hc : CompiledL4Config.compile ω ir = .ok c) (htls : socket.protocol.isTls = true)
    {sni : String} {r : CompiledL4Route} :
    socket.route c (some sni) = some r ↔
      ∃ r₀, FirstServed ω ir socket sni r₀ ∧ CompiledL4Config.compileRoute (socketIds ω ir) r₀ = r := by
  simp only [CompiledListener.route, handleTcp, htls, if_true, Option.none_or, findTlsRoute, Option.bind_some,
    candidates_compile hc, filter_map, find?_map, map_map, Option.map_eq_some_iff]
  exact exists_congr fun r₀ => and_congr_left fun _ => find?_maximum_iff

/-! ## Addresses shared by HTTPS and TLS listeners -/

/-- one address has an HTTPS listener and a TLS listener -/
structure SharedSocket (ω : IterOrder) (ir : RouteTable) (c : CompiledL4Config) (socket : CompiledListener) : Prop where
  compiled : CompiledL4Config.compile ω ir = .ok c
  listener : socket ∈ c.listeners
  speaksTls : socket.protocol.isTls = true
  https : ∃ l ∈ ir.listeners, l.bindAddr = socket.bindAddr ∧ l.protocol = .https
  tls : ∃ l ∈ ir.listeners, l.bindAddr = socket.bindAddr ∧ l.protocol = .tls

theorem SharedSocket.protocol_eq (h : SharedSocket ω ir c socket) : socket.protocol = .tls := by
  obtain ⟨l, hl, haddr, htls⟩ := h.tls
  have hin := CompiledL4Config.mem_socketListeners_of_tls h.compiled h.listener h.speaksTls hl haddr
    (by simp [htls, Protocol.isTls])
  obtain ⟨first, rest, hgroup, hmerged⟩ := CompiledL4Config.exists_group h.compiled h.listener
  have hany : (first :: rest).any (·.protocol = .tls) = true := any_eq_true.2 ⟨_, hgroup ▸ hin, by simp [copyListener, htls]⟩
  rw [mergedListener, Option.some.injEq] at hmerged
  rw [← hmerged]
  exact if_pos hany

structure RouteOf (ir : RouteTable) (l : ListenerConfig) (p : Protocol) (r : L4Route) : Prop where
  route : r ∈ ir.l4Routes
  attached : r.listenerId = l.id
  protocol : r.action.protocol = p

/-- two routes with the same effect on a connection that reaches them -/
structure SameRoute (a b : L4Route) : Prop where
  hostname : a.listenerHostname = b.listenerHostname
  match_ : a.match_ = b.match_
  action : a.action = b.action

/-- the router takes the compiled form of this route -/
def HandledBy (c : CompiledL4Config) (socket : CompiledListener) (sni : String) (r : L4Route) : Prop :=
  ∃ cr, socket.route c (some sni) = some cr ∧ cr.listenerHostname = r.listenerHostname ∧ cr.match_ = r.match_
    ∧ cr.action = r.action

theorem handledBy_iff (hc : CompiledL4Config.compile ω ir = .ok c) (htls : socket.protocol.isTls = true) {sni : String}
    {r : L4Route} : HandledBy c socket sni r ↔ ∃ r₀, FirstServed ω ir socket sni r₀ ∧ SameRoute r₀ r := by
  constructor
  · rintro ⟨cr, hroute, hhost, hmatch, haction⟩
    obtain ⟨r₀, hserved, rfl⟩ := (route_eq_some_iff hc htls).1 hroute
    exact ⟨r₀, hserved, hhost, hmatch, haction⟩
  · rintro ⟨r₀, hserved, hhost, hmatch, haction⟩
    exact ⟨_, (route_eq_some_iff hc htls).2 ⟨r₀, hserved, rfl⟩, hhost, hmatch, haction⟩

theorem HandledBy.protocol_and_match (hc : CompiledL4Config.compile ω ir = .ok c) (htls : socket.protocol.isTls = true)
    {sni : String} {r : L4Route} (h : HandledBy c socket sni r) :
    r.action.protocol = socket.protocol ∧ matchRoute r.match_ (some sni) = true := by
  obtain ⟨r₀, ⟨s, t, -, hreaches, hmatches, -⟩, hsame⟩ := (handledBy_iff hc htls).1 h
  simp only [reaches, Bool.and_eq_true, decide_eq_true_eq] at hreaches
  exact ⟨hsame.action ▸ hreaches.1.1, hsame.match_ ▸ hmatches⟩

/-- **HTTPS and TLS listeners on one address.** Connections are handled by their SNI's owner exactly when no HTTPS listener
with an HTTPS route owns the SNI, and every TLS listener that owns it has the TLS route the router comes to first. -/
theorem shared_address_iff (h : SharedSocket ω ir c socket) (sni : String) :
    ((∀ l, Owns ir socket.bindAddr sni l → l.protocol = .https → (∃ r, RouteOf ir l .https r) →
        ∃ r, RouteOf ir l .https r ∧ HandledBy c socket sni r) ∧
      ∀ l, Owns ir socket.bindAddr sni l → l.protocol = .tls →
        ∃ r, RouteOf ir l .tls r ∧ matchRoute r.match_ (some sni) = true ∧ HandledBy c socket sni r) ↔
    (∀ l, Owns ir socket.bindAddr sni l → l.protocol = .https → ¬ ∃ r, RouteOf ir l .https r) ∧
      ∀ l, Owns ir socket.bindAddr sni l → l.protocol = .tls →
        ∃ r r₀, RouteOf ir l .tls r ∧ FirstServed ω ir socket sni r₀ ∧ SameRoute r₀ r := by
  have hhandled : ∀ {r : L4Route}, HandledBy c socket sni r →
      r.action.protocol = .tls ∧ matchRoute r.match_ (some sni) = true := fun {r} hr =>
    h.protocol_eq ▸ hr.protocol_and_match h.compiled h.speaksTls
  refine and_congr ?_ ?_
  · refine forall₃_congr fun l _ _ => ⟨fun hserve hex => ?_, fun hno hex => absurd hex hno⟩
    obtain ⟨r, hr, hr'⟩ := hserve hex
    have := hr.protocol.symm.trans (hhandled hr').1
    cases this
  · refine forall₃_congr fun l _ _ => ⟨?_, ?_⟩
    · rintro ⟨r, hr, -, hr'⟩
      obtain ⟨r₀, hserved, hsame⟩ := (handledBy_iff h.compiled h.speaksTls).1 hr'
      exact ⟨r, r₀, hr, hserved, hsame⟩
    · rintro ⟨r, r₀, hr, hserved, hsame⟩
      have hr' := (handledBy_iff h.compiled h.speaksTls).2 ⟨r₀, hserved, hsame⟩
      exact ⟨r, hr, (hhandled hr').2, hr'⟩

end Served

def mixedTable : RouteTable :=
  { listeners :=
      [{ id := "web", bindAddr := "0.0.0.0:443", protocol := .https, tls := some (.registry "") },
       { id := "db", bindAddr := "0.0.0.0:443", protocol := .tls, tls := some (.registry "") }]
    l4Routes :=
      [{ listenerId := "web", listenerHostname := .exact "www.example", match_ := .any
         action := .terminateAndHttp "127.0.0.1:8080" },
       { listenerId := "db", listenerHostname := .exact "db.example", match_ := .sni (.exact "db.example")
         action := .tlsPassthrough [] }] }

def mixedSocket : CompiledListener :=
  { id := "0.0.0.0:443#tls", bindAddr := "0.0.0.0:443", protocol := .tls, tls := some (.registry "")
    redirectHttpToHttps := false, frontendValidation := none }

def mixedConfig : CompiledL4Config :=
  { listeners := [mixedSocket]
    tlsRoutes :=
      [{ listenerId := "0.0.0.0:443#tls", listenerHostname := .exact "db.example", match_ := .sni (.exact "db.example")
         action := .tlsPassthrough [] }]
    httpsRoutes :=
      [{ listenerId := "0.0.0.0:443#tls", listenerHostname := .exact "www.example", match_ := .any
         action := .terminateAndHttp "127.0.0.1:8080" }] }

theorem mixedTable_shared : SharedSocket .stored mixedTable mixedConfig mixedSocket where
  compiled := rfl
  listener := mem_singleton_self _
  speaksTls := rfl
  https := ⟨mixedTable.listeners[0], by decide, rfl, rfl⟩
  tls := ⟨mixedTable.listeners[1], by decide, rfl, rfl⟩

theorem db_owner_served : ∃ r, RouteOf mixedTable mixedTable.listeners[1] .tls r ∧ matchRoute r.match_ (some "db.example") = true
      ∧ HandledBy mixedConfig mixedSocket "db.example" r := by
  have hclaim : ∀ l r, Claims mixedTable "0.0.0.0:443" "db.example" l r →
      r = mixedTable.l4Routes[1] ∧ l = mixedTable.listeners[1] := by
    rintro l r ⟨hlistener, -, -, hroute, hattached, hhost⟩
    rcases mem_pair.1 hroute with rfl | rfl
    · cases hhost
    · rcases mem_pair.1 hlistener with rfl | rfl
      · exact absurd hattached (by decide)
      · exact ⟨rfl, rfl⟩
  refine ((shared_address_iff mixedTable_shared "db.example").2 ⟨?_, ?_⟩).2 _ ?_ rfl
  · rintro l ⟨r, hr, -⟩ hprotocol
    rw [(hclaim l r hr).2] at hprotocol
    cases hprotocol
  · rintro l ⟨r, hr, -⟩ -
    rw [(hclaim l r hr).2]
    refine ⟨mixedTable.l4Routes[1], mixedTable.l4Routes[1], ⟨by decide, rfl, rfl⟩, ?_, ⟨rfl, rfl, rfl⟩⟩
    refine ⟨[mixedTable.l4Routes[0]], [], rfl, rfl, rfl, ?_, by simp [mixedTable, reaches, L4Action.protocol, mixedSocket]⟩
    intro q hq hreaches
    rcases mem_pair.1 hq with rfl | rfl
    · cases hreaches
    · exact le_rfl
  · refine ⟨mixedTable.l4Routes[1], ⟨by decide, rfl, rfl, by decide, rfl, rfl⟩, fun l r hr => ?_⟩
    rw [(hclaim l r hr).1]

theorem https_owner_unserved :
    SharedSocket .stored mixedTable mixedConfig mixedSocket ∧ mixedSocket.route mixedConfig (some "www.example") = none
      ∧ ∃ l, Owns mixedTable mixedSocket.bindAddr "www.example" l ∧ l.protocol = .https ∧ ∃ r, RouteOf mixedTable l .https r := by
  refine ⟨mixedTable_shared, rfl, mixedTable.listeners[0], ?_, rfl, mixedTable.l4Routes[0], by decide, rfl, rfl⟩
  refine ⟨mixedTable.l4Routes[0], ⟨by decide, rfl, rfl, by decide, rfl, rfl⟩, ?_⟩
  rintro l' r' ⟨-, -, -, hroute, -, hhost⟩
  rcases mem_pair.1 hroute with rfl | rfl
  · rfl
  · cases hhost

end SunbeamProxy
