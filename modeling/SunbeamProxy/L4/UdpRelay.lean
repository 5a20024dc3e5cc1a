/-
The UDP relay of the L4 router (`l4/router.rs`), in a network where anyone may send anything.
-/
import SunbeamProxy.Core.Codec
import SunbeamProxy.L4.Router
import SunbeamProxy.Proxy.Upstream

namespace SunbeamProxy

def udpRelayTimeout : ℕ := 30000

structure UdpArrival where
  /-- milliseconds since the relay sent -/
  time : ℕ
  datagram : Option (SocketAddr × Bytes)

structure UdpNet where
  /-- `resolve_backend_addr` -/
  resolve : String → Option SocketAddr
  binds : Bool
  sends : Bool
  /-- what arrives at the new socket, from any host, in order -/
  arrivals : List UdpArrival

inductive UdpEvent where
  | relayed (addr : SocketAddr) (packet : Bytes)
  | received (source : SocketAddr) (payload : Bytes)
  | answered (peer : SocketAddr) (payload : Bytes)
deriving DecidableEq

variable (net : UdpNet)

def UdpNet.awaitResponse (peer : SocketAddr) : List UdpEvent :=
  match net.arrivals with
  | ⟨time, some (source, payload)⟩ :: _ =>
    if time ≤ udpRelayTimeout then [.received source (payload.take 65535), .answered peer (payload.take 65535)] else []
  | _ => []

def relayUdp (packet : Bytes) (peer : SocketAddr) (backends : List WeightedBackend)
    (sample : List ℕ → Option ℕ) : List UdpEvent :=
  match pickBackend sample backends with
  | none => []
  | some backend =>
    match net.resolve backend.backend with
    | none => []
    | some addr => if net.binds && net.sends then .relayed addr packet :: net.awaitResponse peer else []

def handleUdp (c : CompiledL4Config) (listenerId : String) (protocol : Protocol) (net : UdpNet) (packet : Bytes)
    (peer : SocketAddr) (sample : List ℕ → Option ℕ) : List UdpEvent :=
  match findRoute (routesForProtocol c protocol) listenerId none with
  | none => []
  | some route => match route.action with
    | .udpRelay backends => relayUdp net packet peer backends sample
    | _ => []

/-- an answer is what was received just before it, from the address the client's datagram went to -/
def AnswersFromBackend (events : List UdpEvent) : Prop := ∀ pre peer payload post,
  events = pre ++ .answered peer payload :: post → ∃ addr packet, pre = [.relayed addr packet, .received addr payload]

/-- the datagram that arrives first and in time, if one does, is from `addr` -/
def UdpNet.FirstFrom (addr : SocketAddr) : Prop := ∀ time source payload rest,
  net.arrivals = ⟨time, some (source, payload)⟩ :: rest → time ≤ udpRelayTimeout → source = addr

theorem answersFromBackend_nil : AnswersFromBackend [] := by
  intro pre peer payload post h
  simp at h

theorem answersFromBackend_relayed_iff (addr : SocketAddr) (packet : Bytes) (peer : SocketAddr) :
    AnswersFromBackend (.relayed addr packet :: net.awaitResponse peer) ↔ net.FirstFrom addr := by
  unfold UdpNet.awaitResponse UdpNet.FirstFrom AnswersFromBackend
  split
  next time source payload rest harr =>
    by_cases htime : time ≤ udpRelayTimeout
    · rw [if_pos htime, harr]
      apply Iff.intro
      · intro h _ _ _ _ heq _
        obtain ⟨addr', packet', hpre⟩ := h [_, _] peer _ [] rfl
        cases heq
        cases hpre
        rfl
      · intro h pre peer' payload' post heq
        obtain rfl := h time source payload rest rfl htime
        match pre, heq with
        | [a, b], heq =>
          simp only [List.cons_append, List.nil_append, List.cons.injEq, UdpEvent.answered.injEq] at heq
          obtain ⟨rfl, rfl, ⟨-, rfl⟩, -⟩ := heq
          exact ⟨_, _, rfl⟩
        | [], heq => simp at heq
        | [a], heq => simp at heq
        | a :: b :: c :: pre, heq => simp at heq
    · rw [if_neg htime, harr]
      refine iff_of_true ?_ ?_
      · intro pre _ _ _ heq
        cases pre <;> simp at heq
      · intro time' _ _ _ heq htime'
        cases heq
        exact absurd htime' htime
  next hnone =>
    refine iff_of_true ?_ ?_
    · intro pre _ _ _ heq
      cases pre <;> simp at heq
    · intro time source payload rest heq
      exact absurd heq (hnone time source payload rest)

/-- **Where an answer comes from.** What the relay sends back was received from the address the client's datagram went to exactly
when the datagram that arrives first in time, if one does, is from the address of the backend picked. -/
theorem udp_answer_from_backend_iff (net : UdpNet) (packet : Bytes) (peer : SocketAddr) (backends : List WeightedBackend)
    (sample : List ℕ → Option ℕ) : AnswersFromBackend (relayUdp net packet peer backends sample)
      ↔ ∀ backend, pickBackend sample backends = some backend → ∀ addr, net.resolve backend.backend = some addr →
        net.binds = true → net.sends = true → net.FirstFrom addr := by
  unfold relayUdp
  split
  next hpick => simp [answersFromBackend_nil, hpick]
  next backend hpick =>
    split
    next hresolve => simp [answersFromBackend_nil, hpick, hresolve]
    next addr hresolve =>
      split_ifs with hsent
      · have hboth : net.binds = true ∧ net.sends = true := by simpa using hsent
        simp [answersFromBackend_relayed_iff, hpick, hresolve, hboth]
      · have hneither : net.binds = true → ¬net.sends = true := by simpa using hsent
        simpa [answersFromBackend_nil, hpick, hresolve] using fun hbinds hsends => absurd hsends (hneither hbinds)

/-- another host's datagram reaches the relay's port before the backend's response, and the client gets it -/
theorem stranger_answers_client :
    let backend : SocketAddr := ⟨.v4 0x0A000005, 53⟩
    let stranger : SocketAddr := ⟨.v4 0xC0000207, 4444⟩
    let client : SocketAddr := ⟨.v4 0xC0000201, 5353⟩
    let net : UdpNet := ⟨fun _ => some backend, true, true, [⟨1, some (stranger, [6, 6, 6])⟩, ⟨2, some (backend, [1])⟩]⟩
    let config : CompiledL4Config := { udpRoutes := [⟨"dns", .any, .any, .udpRelay [{ backend := "10.0.0.5:53", weight := 1 }], 0⟩] }
    let sample : List ℕ → Option ℕ := fun _ => some 0
    handleUdp config "dns" .udp net [0] client sample = [.relayed backend [0], .received stranger [6, 6, 6], .answered client [6, 6, 6]]
      ∧ ¬AnswersFromBackend (handleUdp config "dns" .udp net [0] client sample) := by
  intro backend stranger client net config sample
  have hrun : handleUdp config "dns" .udp net [0] client sample
      = [.relayed backend [0], .received stranger [6, 6, 6], .answered client [6, 6, 6]] := by decide
  refine ⟨hrun, ?_⟩
  rw [hrun]
  intro h
  obtain ⟨addr, packet, hpre⟩ := h [_, _] client _ [] rfl
  simp only [List.cons.injEq, UdpEvent.relayed.injEq, UdpEvent.received.injEq] at hpre
  exact absurd (hpre.1.1.trans hpre.2.1.1.symm) (by decide)

end SunbeamProxy
