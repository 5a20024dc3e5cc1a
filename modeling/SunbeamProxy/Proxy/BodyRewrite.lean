/-
What a client gets of a response body that goes through the body filter (`response_body_filter_inner`).
-/
import SunbeamProxy.Proxy.Filters

namespace SunbeamProxy

open Text Codec List

def BodyCall.data (call : BodyCall) : Bytes := call.body.getD []

def received (plan : Option CompiledPlan) (written : Option HeaderMap) : Option Bytes → List BodyCall → Bytes
  | _, [] => []
  | buffer, call :: calls =>
    let out := responseBodyFilterInner plan written call buffer
    out.1.getD [] ++ received plan written out.2 calls

/-- the calls bring the body, and the last one says so -/
structure Cuts (calls : List BodyCall) (body : Bytes) : Prop where
  data : calls.flatMap BodyCall.data = body
  ends : calls.map BodyCall.endOfStream = List.replicate (calls.length - 1) false ++ [true]

def heldBack (req : RequestHeader) (requestId : String) (plan : Option CompiledPlan) (headers : HeaderMap) : Option Bytes :=
  (upstreamResponseFilterInner req requestId plan headers).2

def rewritten (plan : Option CompiledPlan) (written : Option HeaderMap) (body : Bytes) : Bytes :=
  utf8 (rewriteBody ((plan.map (·.bodyRewrites)).getD []) ((written.map contentType).getD "") (fromUtf8Lossy body))

def expected (plan : Option CompiledPlan) (written : Option HeaderMap) (buffer : Option Bytes) (body : Bytes) : Bytes :=
  if buffer.isSome ∧ body.length ≤ maxBodyRewriteBytes then rewritten plan written body else body

def lost : Bytes → List BodyCall → Bytes
  | buf, [] => buf
  | buf, call :: calls => if maxBodyRewriteBytes < buf.length + call.data.length then buf else lost (buf ++ call.data) calls

section Stream

variable {plan : Option CompiledPlan} {written : Option HeaderMap}

theorem responseBodyFilterInner_some (call : BodyCall) {buf : Bytes} (hbuf : buf.length ≤ maxBodyRewriteBytes) :
    responseBodyFilterInner plan written call (some buf)
      = if maxBodyRewriteBytes < buf.length + call.data.length then (some call.data, none)
        else if call.endOfStream then (some (rewritten plan written (buf ++ call.data)), none)
        else (none, some (buf ++ call.data)) := by
  cases hbody : call.body with
  | none =>
    have hdata : call.data = [] := by rw [BodyCall.data, hbody, Option.getD_none]
    have hfits : ¬maxBodyRewriteBytes < buf.length + call.data.length := by
      rw [hdata, length_nil]
      exact not_lt.2 hbuf
    rw [if_neg hfits, hdata, append_nil]
    simp [responseBodyFilterInner, hbody, responseBodyFilterInner.atEnd, rewritten]
  | some data =>
    have hdata : call.data = data := by rw [BodyCall.data, hbody, Option.getD_some]
    simp [responseBodyFilterInner, hbody, hdata, responseBodyFilterInner.atEnd, rewritten]

theorem received_none (calls : List BodyCall) : received plan written none calls = calls.flatMap BodyCall.data := by
  induction calls with
  | nil => rfl
  | cons call calls ih => rw [received, responseBodyFilterInner, ih, flatMap_cons, BodyCall.data]

variable {calls : List BodyCall}

variable {body : Bytes}

theorem Cuts.ne_nil (h : Cuts calls body) : calls ≠ [] := by
  intro hnil
  have hends := h.ends
  rw [hnil] at hends
  simp at hends

theorem Cuts.cons_iff {call : BodyCall} :
    Cuts (call :: calls) body ↔ if calls = [] then call.endOfStream = true ∧ call.data = body
      else call.endOfStream = false ∧ ∃ rest, Cuts calls rest ∧ body = call.data ++ rest := by
  cases calls with
  | nil =>
    apply Iff.intro
    · intro h
      exact ⟨by simpa using h.ends, by simpa using h.data⟩
    · intro h
      exact ⟨by simpa using h.2, by simpa using h.1⟩
  | cons next calls =>
    apply Iff.intro
    · intro h
      have hends : call.endOfStream = false
          ∧ (next :: calls).map BodyCall.endOfStream = replicate calls.length false ++ [true] := by
        simpa [replicate_succ] using h.ends
      exact ⟨hends.1, _, ⟨rfl, hends.2⟩, by rw [← h.data, flatMap_cons]⟩
    · intro h
      obtain ⟨hmore, rest, hrest, rfl⟩ := h
      refine ⟨by rw [flatMap_cons, hrest.data], ?_⟩
      rw [map_cons, hrest.ends, hmore]
      simp [replicate_succ]

/-! ## Streams -/

theorem received_of_le (buf : Bytes) (hcuts : Cuts calls body) (hfits : (buf ++ body).length ≤ maxBodyRewriteBytes) :
    received plan written (some buf) calls = rewritten plan written (buf ++ body) := by
  induction calls generalizing buf body with
  | nil => exact absurd rfl hcuts.ne_nil
  | cons call calls ih =>
    rw [Cuts.cons_iff] at hcuts
    have hbuf : buf.length ≤ maxBodyRewriteBytes := by
      rw [length_append] at hfits
      omega
    split_ifs at hcuts with hlast
    · obtain ⟨hend, rfl⟩ := hcuts
      rw [length_append] at hfits
      rw [received, responseBodyFilterInner_some call hbuf, if_neg (not_lt.2 hfits), if_pos hend, hlast]
      exact append_nil _
    · obtain ⟨hmore, rest, hrest, rfl⟩ := hcuts
      rw [← append_assoc] at hfits ⊢
      have hcall : ¬maxBodyRewriteBytes < buf.length + call.data.length := by
        simp only [length_append] at hfits
        omega
      rw [received, responseBodyFilterInner_some call hbuf, if_neg hcall, if_neg (by rw [hmore]; exact Bool.false_ne_true)]
      exact ih _ hrest hfits

theorem received_of_lt (buf : Bytes) (hcuts : Cuts calls body)
    (hbuf : buf.length ≤ maxBodyRewriteBytes) (hover : maxBodyRewriteBytes < (buf ++ body).length) :
    buf ++ body = lost buf calls ++ received plan written (some buf) calls := by
  induction calls generalizing buf body with
  | nil => exact absurd rfl hcuts.ne_nil
  | cons call calls ih =>
    rw [received, responseBodyFilterInner_some call hbuf, lost]
    by_cases hcall : maxBodyRewriteBytes < buf.length + call.data.length
    · simp only [if_pos hcall, received_none, ← hcuts.data]
      rfl
    · simp only [if_neg hcall]
      rw [Cuts.cons_iff] at hcuts
      split_ifs at hcuts with hlast
      · obtain ⟨_, rfl⟩ := hcuts
        rw [length_append] at hover
        exact absurd hover hcall
      · obtain ⟨hmore, rest, hrest, rfl⟩ := hcuts
        rw [← append_assoc] at hover ⊢
        rw [if_neg (by rw [hmore]; exact Bool.false_ne_true)]
        exact ih _ hrest (by rw [length_append]; omega) hover

/-- nothing was held back: the first chunk that is not empty passes the limit by itself -/
def StartsAbove (calls : List BodyCall) : Prop :=
  ∃ before call after, calls = before ++ call :: after ∧ (∀ c ∈ before, c.data = [])
    ∧ maxBodyRewriteBytes < call.data.length

theorem lost_of_ne_nil {buf : Bytes} (h : buf ≠ []) : lost buf calls ≠ [] := by
  induction calls generalizing buf with
  | nil => exact h
  | cons call calls ih =>
    rw [lost]
    split_ifs
    · exact h
    · exact ih (append_ne_nil_of_left_ne_nil h _)

theorem lost_eq_nil_iff (hover : maxBodyRewriteBytes < (calls.flatMap BodyCall.data).length) :
    lost [] calls = [] ↔ StartsAbove calls := by
  induction calls with
  | nil => exact absurd hover (Nat.not_lt_zero _)
  | cons call calls ih =>
    rw [lost, length_nil, zero_add]
    by_cases hcall : maxBodyRewriteBytes < call.data.length
    · rw [if_pos hcall]
      exact iff_of_true rfl ⟨[], call, calls, rfl, by simp, hcall⟩
    rw [if_neg hcall, nil_append]
    by_cases hempty : call.data = []
    · rw [flatMap_cons, hempty] at hover
      rw [hempty, ih hover]
      apply Iff.intro
      · intro h
        obtain ⟨before, first, after, rfl, hbefore, hfirst⟩ := h
        exact ⟨call :: before, first, after, rfl, forall_mem_cons.2 ⟨hempty, hbefore⟩, hfirst⟩
      · intro h
        obtain ⟨before, first, after, hcalls, hbefore, hfirst⟩ := h
        cases before with
        | nil =>
          rw [← (cons.inj hcalls).1, hempty] at hfirst
          exact absurd hfirst (Nat.not_lt_zero _)
        | cons b before => exact ⟨before, first, after, (cons.inj hcalls).2, fun c hc => hbefore c (mem_cons_of_mem _ hc), hfirst⟩
    · apply iff_of_false (lost_of_ne_nil hempty)
      intro h
      obtain ⟨before, first, after, hcalls, hbefore, hfirst⟩ := h
      cases before with
      | nil => exact hcall ((cons.inj hcalls).1 ▸ hfirst)
      | cons b before =>
        have hb := hbefore b mem_cons_self
        rw [← (cons.inj hcalls).1] at hb
        exact hempty hb

theorem received_eq_body_iff (hcuts : Cuts calls body) (hover : maxBodyRewriteBytes < body.length) :
    received plan written (some []) calls = body ↔ StartsAbove calls := by
  have hall : body = lost [] calls ++ received plan written (some []) calls := received_of_lt [] hcuts (Nat.zero_le _) hover
  rw [← lost_eq_nil_iff (by rwa [hcuts.data])]
  apply Iff.intro
  · intro h
    rw [h] at hall
    exact self_eq_append_left.1 hall
  · intro h
    rw [h] at hall
    exact hall.symm

end Stream

theorem heldBack_eq (req : RequestHeader) (requestId : String) (plan : Option CompiledPlan) (headers : HeaderMap) :
    heldBack req requestId plan headers = none ∨ heldBack req requestId plan headers = some [] := by
  cases plan with
  | none => exact .inl rfl
  | some plan =>
    simp only [heldBack, upstreamResponseFilterInner]
    split_ifs
    · exact .inr rfl
    · exact .inl rfl

theorem cuts_whole (body : Bytes) : Cuts [⟨some body, true⟩] body := ⟨by simp [BodyCall.data], rfl⟩

theorem cuts_two (first rest : Bytes) : Cuts [⟨some first, false⟩, ⟨some rest, true⟩] (first ++ rest) :=
  ⟨by simp [BodyCall.data], rfl⟩

theorem received_two {plan : Option CompiledPlan} {written : Option HeaderMap} {first rest : Bytes}
    (hfirst : first.length ≤ maxBodyRewriteBytes) (hover : maxBodyRewriteBytes < (first ++ rest).length) :
    received plan written (some []) [⟨some first, false⟩, ⟨some rest, true⟩] = rest := by
  have hall : [] ++ (first ++ rest) = lost [] [⟨some first, false⟩, ⟨some rest, true⟩]
      ++ received plan written (some []) [⟨some first, false⟩, ⟨some rest, true⟩] :=
    received_of_lt [] (cuts_two first rest) (Nat.zero_le _) hover
  rw [length_append] at hover
  have hlost : lost [] [⟨some first, false⟩, ⟨some rest, true⟩] = first := by
    simp only [lost, BodyCall.data, Option.getD_some, length_nil, zero_add, if_neg (not_lt.2 hfirst)]
    exact if_pos hover
  rw [hlost, nil_append] at hall
  exact (append_cancel_left hall).symm

/-- the right thing comes out of a stream exactly when the body is not to be rewritten, or fits, or nothing of it was held
back; and only in the first two cases does it not matter how the body is cut -/
theorem body_survives_iff (req : RequestHeader) (requestId : String) (plan : Option CompiledPlan) (headers : HeaderMap)
    (written : Option HeaderMap) (body : Bytes) :
    (∀ calls, Cuts calls body → (received plan written (heldBack req requestId plan headers) calls
          = expected plan written (heldBack req requestId plan headers) body
        ↔ heldBack req requestId plan headers = none ∨ body.length ≤ maxBodyRewriteBytes ∨ StartsAbove calls))
    ∧ ((∀ calls calls', Cuts calls body → Cuts calls' body → received plan written (heldBack req requestId plan headers) calls
          = received plan written (heldBack req requestId plan headers) calls')
      ↔ heldBack req requestId plan headers = none ∨ body.length ≤ maxBodyRewriteBytes) := by
  rcases heldBack_eq req requestId plan headers with hheld | hheld
  · rw [hheld]
    refine ⟨fun calls hcuts => iff_of_true ?_ (.inl rfl), iff_of_true ?_ (.inl rfl)⟩
    · rw [received_none, hcuts.data]
      rfl
    · intro calls calls' hcuts hcuts'
      simp [received_none, hcuts.data, hcuts'.data]
  · rw [hheld]
    by_cases hfits : body.length ≤ maxBodyRewriteBytes
    · refine ⟨fun calls hcuts => iff_of_true ?_ (.inr (.inl hfits)), iff_of_true ?_ (.inr hfits)⟩
      · rw [received_of_le [] hcuts hfits, expected, if_pos ⟨rfl, hfits⟩]
        rfl
      · intro calls calls' hcuts hcuts'
        rw [received_of_le [] hcuts hfits, received_of_le [] hcuts' hfits]
    · have hover := not_le.1 hfits
      refine ⟨fun calls hcuts => ?_, iff_of_false ?_ (by simp [hfits])⟩
      · rw [expected, if_neg (fun h => hfits h.2), received_eq_body_iff hcuts hover]
        simp [hfits]
      · intro hsame
        cases body with
        | nil => exact absurd hover (Nat.not_lt_zero _)
        | cons b rest =>
          have hwhole : received plan written (some []) [⟨some (b :: rest), true⟩] = b :: rest :=
            (received_eq_body_iff (cuts_whole _) hover).2 ⟨[], _, [], rfl, by simp, hover⟩
          have htwo := hsame _ _ (cuts_whole _) (cuts_two [b] rest)
          rw [hwhole, received_two (by simp [maxBodyRewriteBytes]) hover] at htwo
          exact cons_ne_self b rest htwo

def pageHeaders : HeaderMap := [("content-type", HeaderValue.ofString "text/html")]

def renamingPlan : CompiledPlan :=
  compilePlan { matches_ := [{}], action := .route { bodyRewrites := [⟨"old.example", "new.example", []⟩] } } 0 {} false
    false none

theorem pageHeaders_heldBack : heldBack ⟨"GET", { path := "/" }, []⟩ "1" (some renamingPlan) pageHeaders = some [] := by decide

/-- one byte, then as many as the limit allows: the client gets the second chunk only -/
theorem first_chunk_lost : let calls : List BodyCall := [⟨some [65], false⟩, ⟨some (replicate maxBodyRewriteBytes 66), true⟩]
    let body : Bytes := 65 :: replicate maxBodyRewriteBytes 66
    let buffer := heldBack ⟨"GET", { path := "/" }, []⟩ "1" (some renamingPlan) pageHeaders
    Cuts calls body ∧ expected (some renamingPlan) (some pageHeaders) buffer body = body
      ∧ received (some renamingPlan) (some pageHeaders) buffer calls = replicate maxBodyRewriteBytes 66 := by
  intro calls body buffer
  have hbuffer : buffer = some [] := pageHeaders_heldBack
  have hover : maxBodyRewriteBytes < body.length := by
    rw [length_cons, length_replicate]
    exact Nat.lt_succ_self _
  refine ⟨cuts_two [65] _, if_neg fun h => absurd h.2 (not_le.2 hover), ?_⟩
  rw [hbuffer]
  exact received_two (by simp [maxBodyRewriteBytes]) hover

end SunbeamProxy
