/-
The peek at the start of a TLS connection (`peek_client_hello_sni` in `l4/router.rs`).
-/
import SunbeamProxy.Sni.ClientHello

namespace SunbeamProxy.Sni

open Codec Checked List

def peekBufSize : ℕ := 16389

def sniPeekTimeout : ℕ := 5000

/-- a round of the loop: milliseconds since it began, the bytes that have arrived (none when the peek fails), and whether
waiting for more ends without an error -/
structure Poll where
  time : ℕ
  received : Option Bytes
  readable : Bool := true
deriving DecidableEq, Repr

def recordArrived (data : Bytes) : Bool :=
  match recordTotalLen data {} with
  | .ok (some total, _) => decide (min total peekBufSize ≤ data.length)
  | _ => false

def peekClientHelloSni : List Poll → Option String
  | [] => none
  | poll :: polls =>
    if sniPeekTimeout ≤ poll.time then none else
    match poll.received with
    | none => none
    | some received =>
      let data := received.take peekBufSize
      if data.head? ≠ some 0x16 then none
      else if recordArrived data then parsedSni data
      else if poll.readable then peekClientHelloSni polls
      else none

/-! ## Arrival -/

/-- the rounds see more and more of a stream, and none of them goes wrong -/
structure Arrives (stream : Bytes) (polls : List Poll) : Prop where
  received : ∀ poll ∈ polls, ∃ n, 0 < n ∧ poll.received = some (stream.take n)
  readable : ∀ poll ∈ polls, poll.readable = true
  ordered : polls.Pairwise fun a b => a.time ≤ b.time

/-- a round before the timeout sees the whole record -/
def InTime (record : Bytes) (polls : List Poll) : Prop :=
  ∃ poll ∈ polls, poll.time < sniPeekTimeout ∧ ∃ received, poll.received = some received ∧ record.length ≤ received.length

theorem Arrives.tail {stream : Bytes} {poll : Poll} {polls : List Poll} (h : Arrives stream (poll :: polls)) :
    Arrives stream polls :=
  ⟨fun p hp => h.received p (mem_cons_of_mem _ hp), fun p hp => h.readable p (mem_cons_of_mem _ hp),
    (pairwise_cons.1 h.ordered).2⟩

theorem recordArrived_iff {data : Bytes} :
    recordArrived data = true ↔ ∃ total, DeclaredLen data total ∧ min total peekBufSize ≤ data.length := by
  obtain ⟨r, s, hrun, rfl, hr⟩ := wp_iff.1 (recordTotalLen_wp data {})
  rw [recordArrived, hrun]
  cases r with
  | none => simp [← hr]
  | some total =>
    apply Iff.intro
    · intro h
      exact ⟨total, (hr total).1 rfl, of_decide_eq_true h⟩
    · intro h
      obtain ⟨total', hdeclared, hle⟩ := h
      rw [Option.some.inj ((hr total').2 hdeclared)]
      exact decide_eq_true hle

section Hello

variable {h : ClientHello} {tail : Bytes}

theorem length_record (h : ClientHello) : h.record.length = 5 + h.payload.length := by
  simp only [HelloFields.record, length_append, length_beBytes]
  simp only [length_cons, length_nil]
  omega

theorem declaredLen_take {n total : ℕ} : DeclaredLen ((h.record ++ tail).take n) total ↔ 4 < n ∧ total = h.record.length := by
  have h₃ : (h.record ++ tail)[3]? = some (UInt8.ofNat (h.payload.length / 256)) := rfl
  have h₄ : (h.record ++ tail)[4]? = some (UInt8.ofNat h.payload.length) := rfl
  rw [length_record]
  apply Iff.intro
  · intro hdeclared
    obtain ⟨hi, lo, hhi, hlo, rfl⟩ := hdeclared
    rw [getElem?_take] at hhi hlo
    split_ifs at hlo with hn
    rw [if_pos (by omega), h₃, Option.some.injEq] at hhi
    rw [h₄, Option.some.injEq] at hlo
    exact ⟨hn, by rw [← hhi, ← hlo, fromBeBytes_ofNat h.fits]⟩
  · intro hn
    obtain ⟨hn, rfl⟩ := hn
    refine ⟨_, _, ?_, ?_, by rw [fromBeBytes_ofNat h.fits]⟩
    · rw [getElem?_take_of_lt (by omega), h₃]
    · rw [getElem?_take_of_lt hn, h₄]

theorem recordArrived_take {n : ℕ} (hfits : h.record.length ≤ peekBufSize) :
    recordArrived (((h.record ++ tail).take n).take peekBufSize) = true ↔ h.record.length ≤ n := by
  have hlen := length_record h
  rw [take_take, recordArrived_iff]
  apply Iff.intro
  · intro harrived
    obtain ⟨total, hdeclared, hle⟩ := harrived
    obtain ⟨_, rfl⟩ := declaredLen_take.1 hdeclared
    rw [length_take] at hle
    omega
  · intro hn
    refine ⟨_, declaredLen_take.2 ⟨by omega, rfl⟩, ?_⟩
    rw [length_take, length_append]
    omega

theorem take_record {n : ℕ} (hfits : h.record.length ≤ peekBufSize) (hn : h.record.length ≤ n) :
    ∃ rest, ((h.record ++ tail).take n).take peekBufSize = h.record ++ rest := by
  rw [take_take, take_append, take_of_length_le (by omega)]
  exact ⟨_, rfl⟩

theorem head?_take_record {n : ℕ} (hn : 0 < n) : (((h.record ++ tail).take n).take peekBufSize).head? = some 0x16 := by
  have hsize : 0 < peekBufSize := by decide
  rw [take_take, head?_take, if_neg (by omega)]
  rfl

theorem peek_eq_sni {polls : List Poll} (hfits : h.record.length ≤ peekBufSize) (harrives : Arrives (h.record ++ tail) polls)
    (htime : InTime h.record polls) : peekClientHelloSni polls = h.sni := by
  induction polls with
  | nil =>
    obtain ⟨poll, hpoll, _⟩ := htime
    cases hpoll
  | cons poll polls ih =>
    obtain ⟨n, hn, hreceived⟩ := harrives.received poll mem_cons_self
    have hearly : poll.time < sniPeekTimeout := by
      obtain ⟨last, hlast, hbefore, _⟩ := htime
      rcases mem_cons.1 hlast with rfl | hlast
      · exact hbefore
      · exact lt_of_le_of_lt ((pairwise_cons.1 harrives.ordered).1 last hlast) hbefore
    rw [peekClientHelloSni, if_neg (not_le.2 hearly), hreceived]
    dsimp only
    rw [if_neg (not_not.2 (head?_take_record hn))]
    by_cases hdone : h.record.length ≤ n
    · have hcut : ∃ rest, ((h.record ++ tail).take n).take peekBufSize = h.record ++ rest := take_record hfits hdone
      obtain ⟨rest, hrest⟩ := hcut
      rw [if_pos ((recordArrived_take hfits).2 hdone), hrest, parsedSni_record]
    · rw [if_neg fun harrived => hdone ((recordArrived_take hfits).1 harrived), if_pos (harrives.readable poll mem_cons_self)]
      apply ih harrives.tail
      -- a round that has not seen the record is not the one that has
      obtain ⟨last, hlast, hbefore, received, hlastreceived, hlength⟩ := htime
      rcases mem_cons.1 hlast with rfl | hlast
      · rw [hreceived, Option.some.injEq] at hlastreceived
        rw [← hlastreceived, length_take] at hlength
        omega
      · exact ⟨last, hlast, hbefore, received, hlastreceived, hlength⟩

end Hello

/-- the host name of a message is found, and found again whatever follows the record and however it arrives, as long as it
arrives before the timeout -/
theorem sni_extracted (h : ClientHello) (tail : Bytes) :
    (∀ list ∈ h.serverNames, ∀ name ∈ list.names.filterMap ServerName.host?, parsedSni (h.record ++ tail) = some name)
    ∧ (h.serverNames = [] → parsedSni (h.record ++ tail) = none)
    ∧ parsedSni (h.record ++ tail) = parsedSni h.record
    ∧ (h.record.length ≤ peekBufSize → ∀ polls, Arrives (h.record ++ tail) polls → InTime h.record polls →
        peekClientHelloSni polls = parsedSni h.record) := by
  have halone : parsedSni h.record = h.sni := by
    have hnil := parsedSni_record h []
    rwa [append_nil] at hnil
  refine ⟨?_, ?_, ?_, ?_⟩
  · intro list hlist name hname
    rw [parsedSni_record, sni_of_mem h hlist hname]
  · intro hnone
    rw [parsedSni_record, sni_of_serverNames_nil h hnone]
  · rw [parsedSni_record, halone]
  · intro hfits polls harrives htime
    rw [peek_eq_sni hfits harrives htime, halone]

def shopNames : ServerNameList := ⟨[.hostName "shop.example.com" (by decide)], by decide, by decide⟩

def shopHello : ClientHello where
  recordVersion := (3, 1)
  version := (3, 3)
  random := List.replicate 32 7
  sessionId := [1, 2, 3]
  cipherSuites := [0x13, 0x01]
  compressionMethods := [0]
  extensions := some [.other 43 [2, 3, 4] (by decide) (by decide) (by decide), .serverName shopNames]
  random_length := rfl
  sessionId_short := by decide
  cipherSuites_short := by decide
  compressionMethods_short := by decide
  oneServerName := by decide
  fits := by decide

theorem late_hello_dropped : Arrives shopHello.record [⟨5001, some shopHello.record, true⟩]
      ∧ parsedSni shopHello.record = some "shop.example.com"
      ∧ peekClientHelloSni [⟨5001, some shopHello.record, true⟩] = none := by
  refine ⟨⟨?_, by simp, by simp⟩, ?_, rfl⟩
  · intro poll hpoll
    rw [mem_singleton] at hpoll
    rw [hpoll]
    exact ⟨shopHello.record.length, by decide, by rw [take_length]⟩
  · have hparsed := parsedSni_record shopHello []
    exact hparsed.trans rfl

end SunbeamProxy.Sni
