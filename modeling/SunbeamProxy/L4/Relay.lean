/-
The L4 router's HTTP relays (`l4/router.rs`) and the request filter, over the two maps they share.

`terminateAndHttp` and `httpRelay` connect to Pingora, file what they know of the connection under the socket address
Pingora will see as its peer, copy bytes, and remove what they filed when the copying ends. Between the two Pingora runs
the request filter on each request of the connection, with whatever configuration is then current; the filter takes the
SNI out of the map when it reads it.
-/
import SunbeamProxy.Proxy.Stages

namespace SunbeamProxy

open HashMap

/-! ## Connections and steps -/

structure L4Context where
  listenerId : String
  localAddr : SocketAddr
  remoteAddr : SocketAddr
deriving DecidableEq, Repr

/-- a connection relayed to Pingora: what the router accepted, Pingora's own address, how many requests the filter has
seen on it, and whether the router still relays -/
structure RelayConn where
  ctx : L4Context
  tls : Bool
  sni : Option String
  target : SocketAddr
  served : ℕ := 0
  relaying : Bool := true
deriving DecidableEq, Repr

def RelayConn.relayContext (c : RelayConn) : HttpRelayContext :=
  ⟨c.ctx.listenerId, c.ctx.localAddr.port, c.tls, c.ctx.remoteAddr⟩

def RelayConn.session (c : RelayConn) (addr : SocketAddr) (req : RequestHeader) : Session :=
  ⟨req, some ⟨false, some c.target⟩, some addr⟩

structure ServedRequest where
  addr : SocketAddr
  conn : RelayConn
  proxy : Proxy
  world : World
  req : RequestHeader
  outcome : Outcome

structure RelaySt where
  sniContext : HashMap SocketAddr String := ∅
  httpContext : HashMap SocketAddr HttpRelayContext := ∅
  conns : HashMap SocketAddr RelayConn := ∅
  log : List ServedRequest := []

inductive RelayOp where
  | terminateAndHttp (addr target : SocketAddr) (ctx : L4Context) (sni : Option String)
  | httpRelay (addr target : SocketAddr) (ctx : L4Context)
  | request (addr : SocketAddr) (proxy : Proxy) (world : World) (req : RequestHeader)
  | endRelay (addr : SocketAddr)
  | close (addr : SocketAddr)

variable (σ : RelaySt)

def RelaySt.openConn (addr : SocketAddr) (c : RelayConn) : RelaySt :=
  { σ with
    sniContext := match c.sni with
      | some sni => σ.sniContext.insert addr sni
      | none => σ.sniContext
    httpContext := σ.httpContext.insert addr c.relayContext
    conns := σ.conns.insert addr c }

def Proxy.sharing (px : Proxy) (httpContext : HashMap SocketAddr HttpRelayContext) : Proxy := { px with httpContext }

def serve (addr : SocketAddr) (c : RelayConn) (proxy : Proxy) (world : World) (req : RequestHeader) :
    ServedRequest :=
  ⟨addr, c, proxy.sharing σ.httpContext, world, req,
    requestFilterInner (proxy.sharing σ.httpContext) world (c.session addr req) (newRequest σ.sniContext)⟩

def RelaySt.step : RelayOp → RelaySt
  | .terminateAndHttp addr target ctx sni =>
    match σ.conns.get addr with
    | none => σ.openConn addr { ctx, tls := true, sni, target }
    | some _ => σ
  | .httpRelay addr target ctx =>
    match σ.conns.get addr with
    | none => σ.openConn addr { ctx, tls := false, sni := none, target }
    | some _ => σ
  | .request addr proxy world req =>
    match σ.conns.get addr with
    | some c =>
      let e := serve σ addr c proxy world req
      { σ with
        sniContext := e.outcome.st.sniContext
        conns := σ.conns.insert addr { c with served := c.served + 1 }
        log := σ.log ++ [e] }
    | none => σ
  | .endRelay addr =>
    match σ.conns.get addr with
    | some c =>
      { σ with
        sniContext := if c.tls then σ.sniContext.erase addr else σ.sniContext
        httpContext := σ.httpContext.erase addr
        conns := σ.conns.insert addr { c with relaying := false } }
    | none => σ
  | .close addr =>
    -- Pingora's side closes only after the router's
    match σ.conns.get addr with
    | some c => if c.relaying then σ else { σ with conns := σ.conns.erase addr }
    | none => σ

def RelaySt.run (ops : List RelayOp) : RelaySt := ops.foldl RelaySt.step σ

theorem plainHttp_sniContext (px : Proxy) (w : World) (s : Session) (st : FilterSt) :
    (plainHttp px w s st).st.sniContext = st.sniContext := by
  have hend := plainHttp_end px w s st
  generalize plainHttp px w s st = o at hend ⊢
  cases hend <;> rfl

theorem plainHttp_no_421 (px : Proxy) (w : World) (s : Session) {st : FilterSt} (htrace : st.trace = []) :
    Event.respond (.bare 421) ∉ (plainHttp px w s st).st.trace := by
  have hend := plainHttp_end px w s st
  generalize plainHttp px w s st = o at hend ⊢
  cases hend <;> simp [htrace, respond, takePlan, executeTerminalStage, stageAnswer, FilterSt.log, Response.bare, secureRedirect]

theorem enterFilter_sniContext (px : Proxy) (s : Session) (st : FilterSt) (addr : SocketAddr) (hpeer : s.clientAddr = some addr) :
    (enterFilter px s st).2.sniContext = if (downstream px s).1 = .https then st.sniContext.erase addr else st.sniContext := by
  simp only [enterFilter, sniForSession, hpeer]
  split_ifs <;> rfl

theorem session_isPlainHttp (c : RelayConn) (addr : SocketAddr) (req : RequestHeader) :
    isPlainHttp (c.session addr req) = true := rfl

theorem serve_sniContext (addr : SocketAddr) (c : RelayConn) (proxy : Proxy) (w : World) (req : RequestHeader) :
    (serve σ addr c proxy w req).outcome.st.sniContext
      = if (downstream (proxy.sharing σ.httpContext) (c.session addr req)).1 = .https
        then σ.sniContext.erase addr else σ.sniContext := by
  have hentered := enterFilter_sniContext (proxy.sharing σ.httpContext) (c.session addr req) (newRequest σ.sniContext) addr rfl
  unfold serve
  cases href : refused (proxy.sharing σ.httpContext) (c.session addr req) σ.sniContext with
  | true =>
    rw [requestFilterInner_refused href]
    exact hentered
  | false =>
    rw [requestFilterInner_plain href (session_isPlainHttp c addr req)]
    exact (plainHttp_sniContext _ _ _ _).trans hentered

variable {addr : SocketAddr} {σ : RelaySt} {c : RelayConn}

theorem serve_refused {proxy : Proxy} {w : World} {req : RequestHeader}
    (h : refused (proxy.sharing σ.httpContext) (c.session addr req) σ.sniContext = true) :
    (serve σ addr c proxy w req).outcome.st.trace = [.respond (.bare 421)]
      ∧ (serve σ addr c proxy w req).outcome.verdict ≠ .forward := by
  unfold serve
  rw [requestFilterInner_refused h]
  refine ⟨?_, written_ne_forward w _⟩
  simp only [respond, FilterSt.log, enterFilter_trace]
  rfl

theorem serve_answered_iff {proxy : Proxy} {w : World} {req : RequestHeader} :
    Event.respond (.bare 421) ∈ (serve σ addr c proxy w req).outcome.st.trace
      ↔ refused (proxy.sharing σ.httpContext) (c.session addr req) σ.sniContext = true := by
  constructor
  · intro hmem
    by_contra href
    unfold serve at hmem
    rw [requestFilterInner_plain (eq_false_of_ne_true href) (session_isPlainHttp c addr req)] at hmem
    exact plainHttp_no_421 _ w _ (enterFilter_trace _ _ _) hmem
  · intro href
    rw [(serve_refused href).1]
    exact List.mem_singleton.2 rfl

/-! ## What the maps hold -/

/-- the two maps against the connections: a relayed connection has its context filed until the relay ends and its SNI
until its first request, and no other address has an entry -/
structure RelayInv (σ : RelaySt) : Prop where
  context : ∀ addr c, σ.conns.get addr = some c →
    σ.httpContext.get addr = if c.relaying then some c.relayContext else none
  sni : ∀ addr c, σ.conns.get addr = some c →
    σ.sniContext.get addr = if c.relaying = true ∧ c.served = 0 then c.sni else none
  plain : ∀ addr c, σ.conns.get addr = some c → c.tls = false → c.sni = none
  idle : ∀ addr, σ.conns.get addr = none → σ.sniContext.get addr = none ∧ σ.httpContext.get addr = none

theorem relayInv_init : RelayInv {} := by constructor <;> intros <;> simp_all

theorem RelayInv.update {σ' : RelaySt} (h : RelayInv σ)
    (hconns : ∀ a, σ'.conns.get a = if a = addr then some c else σ.conns.get a)
    (hframe : ∀ a, a ≠ addr → σ'.sniContext.get a = σ.sniContext.get a ∧ σ'.httpContext.get a = σ.httpContext.get a)
    (hctx : σ'.httpContext.get addr = if c.relaying then some c.relayContext else none)
    (hsni : σ'.sniContext.get addr = if c.relaying = true ∧ c.served = 0 then c.sni else none)
    (hplain : c.tls = false → c.sni = none) : RelayInv σ' := by
  have hold : ∀ a, a ≠ addr → ∀ d, σ'.conns.get a = d → σ.conns.get a = d := by
    intro a ha d hd
    rwa [hconns, if_neg ha] at hd
  have hat : ∀ d, σ'.conns.get addr = some d → d = c := by
    intro d hd
    rw [hconns, if_pos rfl] at hd
    exact (Option.some.inj hd).symm
  constructor
  · intro a d hd
    by_cases ha : a = addr
    · subst ha
      rwa [hat d hd]
    · rw [(hframe a ha).2]
      exact h.context a d (hold a ha _ hd)
  · intro a d hd
    by_cases ha : a = addr
    · subst ha
      rwa [hat d hd]
    · rw [(hframe a ha).1]
      exact h.sni a d (hold a ha _ hd)
  · intro a d hd
    by_cases ha : a = addr
    · subst ha
      rwa [hat d hd]
    · exact h.plain a d (hold a ha _ hd)
  · intro a hd
    by_cases ha : a = addr
    · rw [hconns, if_pos ha] at hd
      cases hd
    · rw [(hframe a ha).1, (hframe a ha).2]
      exact h.idle a (hold a ha _ hd)

theorem openConn_inv (h : RelayInv σ) (hfree : σ.conns.get addr = none) (hnew : c.served = 0 ∧ c.relaying = true)
    (hplain : c.tls = false → c.sni = none) :
    RelayInv (σ.openConn addr c) := by
  apply h.update (fun a => get_insert _ _ _ _) _ _ _ hplain
  · intro a ha
    refine ⟨?_, (get_insert _ _ _ _).trans (if_neg ha)⟩
    cases hs : c.sni <;> simp [RelaySt.openConn, hs, get_insert, ha]
  · rw [if_pos hnew.2]
    exact (get_insert _ _ _ _).trans (if_pos rfl)
  · rw [if_pos ⟨hnew.2, hnew.1⟩]
    cases hs : c.sni <;> simp [RelaySt.openConn, hs, get_insert, (h.idle addr hfree).1]

theorem downstream_relayed (h : RelayInv σ) (hc : σ.conns.get addr = some c) (hr : c.relaying = true) (proxy : Proxy)
    (req : RequestHeader) :
    downstream (proxy.sharing σ.httpContext) (c.session addr req) = (if c.tls then .https else .http, c.ctx.localAddr.port) := by
  have hctx : (proxy.sharing σ.httpContext).httpRelayContext (c.session addr req) = some c.relayContext := by
    have := h.context addr c hc
    rwa [if_pos hr] at this
  have hlocal : downstreamLocalAddr (c.session addr req) = some c.target := rfl
  unfold downstream
  rw [hctx]
  rfl

theorem request_inv (h : RelayInv σ) (hc : σ.conns.get addr = some c) (proxy : Proxy) (w : World) (req : RequestHeader) :
    RelayInv (σ.step (.request addr proxy w req)) := by
  simp only [RelaySt.step, hc, serve_sniContext]
  refine h.update (c := { c with served := c.served + 1 }) (fun a => get_insert _ _ _ _) ?_
    (by exact h.context addr c hc) ?_ (h.plain addr c hc)
  · intro a ha
    refine ⟨?_, rfl⟩
    split_ifs
    · rw [get_erase, if_neg ha]
    · rfl
  · simp only [Nat.add_eq_zero_iff, one_ne_zero, and_false, if_false]
    by_cases hs : (downstream (proxy.sharing σ.httpContext) (c.session addr req)).1 = .https
    · rw [if_pos hs, get_erase, if_pos rfl]
    · rw [if_neg hs, h.sni addr c hc]
      by_cases hr : c.relaying = true
      · rw [downstream_relayed h hc hr] at hs
        have htls : c.tls = false := by
          cases ht : c.tls with
          | true => simp [ht] at hs
          | false => rfl
        rw [h.plain addr c hc htls, ite_self]
      · rw [if_neg (fun hh => hr hh.1)]

theorem endRelay_inv (h : RelayInv σ) (hc : σ.conns.get addr = some c) : RelayInv (σ.step (.endRelay addr)) := by
  simp only [RelaySt.step, hc]
  apply h.update (c := { c with relaying := false }) (fun a => get_insert _ _ _ _) _ _ _ (h.plain addr c hc)
  · intro a ha
    refine ⟨?_, (get_erase _ _ _).trans (if_neg ha)⟩
    cases c.tls with
    | true => exact (get_erase _ _ _).trans (if_neg ha)
    | false => rfl
  · exact (get_erase _ _ _).trans (if_pos rfl)
  · cases ht : c.tls with
    | true => exact (get_erase _ _ _).trans (if_pos rfl)
    | false => simpa [h.plain addr c hc ht] using h.sni addr c hc

theorem close_inv (h : RelayInv σ) (hc : σ.conns.get addr = some c) : RelayInv (σ.step (.close addr)) := by
  simp only [RelaySt.step, hc]
  split_ifs with hr
  · exact h
  have hkept : ∀ a d, get (σ.conns.erase addr) a = some d → σ.conns.get a = some d := by
    intro a d hd
    rw [get_erase] at hd
    split_ifs at hd
    exact hd
  constructor
  · intro a d hd
    exact h.context a d (hkept a d hd)
  · intro a d hd
    exact h.sni a d (hkept a d hd)
  · intro a d hd
    exact h.plain a d (hkept a d hd)
  · intro a hd
    rw [get_erase] at hd
    split_ifs at hd with ha
    · subst ha
      have hs := h.sni a c hc
      have hx := h.context a c hc
      simp only [hr] at hs hx
      exact ⟨hs, hx⟩
    · exact h.idle a hd

theorem step_inv (h : RelayInv σ) (op : RelayOp) : RelayInv (σ.step op) := by
  cases op with
  | terminateAndHttp addr target ctx sni =>
    cases hc : σ.conns.get addr with
    | none =>
      simp only [RelaySt.step, hc]
      exact openConn_inv h hc ⟨rfl, rfl⟩ (by simp)
    | some c => simpa [RelaySt.step, hc]
  | httpRelay addr target ctx =>
    cases hc : σ.conns.get addr with
    | none =>
      simp only [RelaySt.step, hc]
      exact openConn_inv h hc ⟨rfl, rfl⟩ (fun _ => rfl)
    | some c => simpa [RelaySt.step, hc]
  | request addr proxy w req =>
    cases hc : σ.conns.get addr with
    | none => simpa [RelaySt.step, hc]
    | some c => exact request_inv h hc proxy w req
  | endRelay addr =>
    cases hc : σ.conns.get addr with
    | none => simpa [RelaySt.step, hc]
    | some c => exact endRelay_inv h hc
  | close addr =>
    cases hc : σ.conns.get addr with
    | none => simpa [RelaySt.step, hc]
    | some c => exact close_inv h hc

/-! ## Runs of the filter in a run of the system -/

theorem step_log {op : RelayOp} {e : ServedRequest} (he : e ∈ (σ.step op).log) :
    e ∈ σ.log ∨ ∃ addr c proxy w req, σ.conns.get addr = some c ∧ e = serve σ addr c proxy w req := by
  cases op with
  | request addr proxy w req =>
    cases hc : σ.conns.get addr with
    | none =>
      simp only [RelaySt.step, hc] at he
      exact .inl he
    | some c =>
      simp only [RelaySt.step, hc, List.mem_append, List.mem_singleton] at he
      exact he.imp_right fun h => ⟨addr, c, proxy, w, req, hc, h⟩
  | _ =>
    left
    simp only [RelaySt.step] at he
    repeat' split at he
    all_goals exact he

theorem run_log {P : ServedRequest → Prop}
    (hP : ∀ σ, RelayInv σ → ∀ addr c proxy w req, σ.conns.get addr = some c → P (serve σ addr c proxy w req))
    (h : RelayInv σ) (hlog : ∀ e ∈ σ.log, P e) (ops : List RelayOp) : ∀ e ∈ (σ.run ops).log, P e := by
  induction ops generalizing σ with
  | nil => exact hlog
  | cons op ops ih =>
    apply ih (step_inv h op)
    intro e he
    rcases step_log he with hmem | ⟨addr, c, proxy, w, req, hc, rfl⟩
    · exact hlog e hmem
    · exact hP σ h addr c proxy w req hc

namespace ServedRequest

variable (e : ServedRequest)

def session : Session := e.conn.session e.addr e.req

/-- on the port of its connection, the request's host and the connection's SNI select different listener hostnames -/
def Misdirected : Prop := e.conn.tls = true ∧ ∃ sni a b, e.conn.sni = some sni
    ∧ e.proxy.l4Config.listenerHostnameFor sni e.conn.ctx.localAddr.port = some a
    ∧ e.proxy.l4Config.listenerHostnameFor (extractHost e.session) e.conn.ctx.localAddr.port = some b ∧ a ≠ b

/-- answered 421, neither forwarded nor given a plan -/
def Refused : Prop := Event.respond (.bare 421) ∈ e.outcome.st.trace ∧ e.outcome.verdict ≠ .forward
    ∧ ∀ plan, Event.takePlan plan ∉ e.outcome.st.trace

/-- the first request of its connection, filtered while the router still relays -/
def First : Prop := e.conn.served = 0 ∧ e.conn.relaying = true

end ServedRequest

theorem misdirected_of_ne {c : CompiledL4Config} {port : UInt16} {sni host : String} {a b : HostnameMatch}
    (ha : c.listenerHostnameFor sni port = some a) (hb : c.listenerHostnameFor host port = some b) (hne : a ≠ b) :
    misdirected c port sni host = true := by
  simp [misdirected, ha, hb, hne]

theorem serve_refused_iff_first (h : RelayInv σ) (hc : σ.conns.get addr = some c) (proxy : Proxy) (w : World)
    (req : RequestHeader) (hm : (serve σ addr c proxy w req).Misdirected) :
    (serve σ addr c proxy w req).Refused ↔ (serve σ addr c proxy w req).First := by
  obtain ⟨htls, sni, a, b, hsni, ha, hb, hne⟩ := hm
  constructor
  · rintro ⟨hmem, -, -⟩
    -- a refusal has read an SNI, and the invariant says when there is one to read
    have href := serve_answered_iff.1 hmem
    by_contra hfirst
    have hnone := (h.sni addr c hc).trans (if_neg fun hh => hfirst ⟨hh.2, hh.1⟩)
    have hread : connectionSni (proxy.sharing σ.httpContext) (c.session addr req) σ.sniContext = none := by
      unfold connectionSni
      split_ifs
      · exact hnone
      · rfl
    rw [refused, hread] at href
    cases href
  · rintro ⟨hserved, hrelaying⟩
    have hdown := downstream_relayed h hc hrelaying proxy req
    have hget : σ.sniContext.get addr = some sni := by
      rw [h.sni addr c hc, if_pos ⟨hrelaying, hserved⟩]
      exact hsni
    have hread : connectionSni (proxy.sharing σ.httpContext) (c.session addr req) σ.sniContext = some sni := by
      unfold connectionSni
      rw [hdown, if_pos (by simp [show c.tls = true from htls])]
      exact hget
    have href : refused (proxy.sharing σ.httpContext) (c.session addr req) σ.sniContext = true := by
      rw [refused, hread, hdown]
      exact misdirected_of_ne ha hb hne
    obtain ⟨htrace, hv⟩ := serve_refused (w := w) href
    refine ⟨serve_answered_iff.2 href, hv, fun plan => ?_⟩
    rw [htrace]
    simp

/-- **Misdirected requests.** In every run, the requests that select another listener than the SNI of their connection
are all refused exactly when each of them is the first of its connection. -/
theorem misdirected_refused_iff (ops : List RelayOp) : (∀ e ∈ (RelaySt.run {} ops).log, e.Misdirected → e.Refused)
      ↔ ∀ e ∈ (RelaySt.run {} ops).log, e.Misdirected → e.First := by
  have hreq : ∀ e ∈ (RelaySt.run {} ops).log, e.Misdirected → (e.Refused ↔ e.First) :=
    run_log (fun σ h addr c proxy w req hc hm => serve_refused_iff_first h hc proxy w req hm) relayInv_init (by simp) ops
  constructor
  · intro h e he hm
    exact (hreq e he hm).1 (h e he hm)
  · intro h e he hm
    exact (hreq e he hm).2 (h e he hm)

def tenantTable : RouteTable :=
  { listeners := ["a.example.com", "b.example.com"].map fun h =>
      { id := h, bindAddr := "0.0.0.0:443", protocol := .https, tls := some (.registry h) }
    l4Routes := ["a.example.com", "b.example.com"].map fun h =>
      ⟨h, .exact h, .any, .terminateAndHttp "127.0.0.1:8080"⟩
    hosts := ["a.example.com", "b.example.com"].map fun h =>
      { hostname := .exact h, gatewayApi := true, rules := [{ matches_ := [{}], action := .route {} }] } }

def tenantProxy : Proxy := { proxyServing tenantTable with
    l4Config := (CompiledL4Config.compile IterOrder.stored tenantTable).toOption.getD {} }

def keepAlive : List RelayOp := [.terminateAndHttp relayAddr ⟨.v4 0x7F000001, 8080⟩
      ⟨"0.0.0.0:443#Https", ⟨.v4 0xC6336401, 443⟩, ⟨.v4 0xC0000201, 50000⟩⟩ (some "a.example.com"),
    .request relayAddr tenantProxy authDown (getRequest "a.example.com" "/"),
    .request relayAddr tenantProxy authDown (getRequest "b.example.com" "/")]

theorem kept_alive_request_forwarded :
    ∃ e ∈ (RelaySt.run {} keepAlive).log, e.Misdirected ∧ e.outcome.verdict = .forward ∧ ¬ e.Refused := by
  refine ⟨(RelaySt.run {} keepAlive).log.get ⟨1, by decide⟩, List.get_mem _ _, ?_⟩
  have hv : ((RelaySt.run {} keepAlive).log.get ⟨1, by decide⟩).outcome.verdict = .forward := by decide
  refine ⟨⟨rfl, "a.example.com", .exact "a.example.com", .exact "b.example.com", rfl, ?_, ?_, by decide⟩, hv, fun h => h.2.1 hv⟩
  · decide
  · decide

end SunbeamProxy
