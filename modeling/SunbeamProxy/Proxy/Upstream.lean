/-
Choosing a weighted backend: for an HTTP request (`upstream_peer_inner` in `proxy/routing.rs`,
`pick_weighted_backend_ir_index` in `proxy/match_.rs`) and for an L4 connection (`pick_backend` in `l4/router.rs`).

HTTP requests of all routes draw from one counter, reduced modulo the total weight of the route's own backends; a route
with one backend does not draw. An L4 connection makes a random draw. Weights are `u32`, so their sum in a `u64` is their
sum.
-/
import SunbeamProxy.Core.WeightedPick
import SunbeamProxy.Proxy.RequestFilter

namespace SunbeamProxy

open List

def weights (backends : List WeightedBackend) : List ℕ := backends.map (·.weight)

def totalWeight (backends : List WeightedBackend) : ℕ := (weights backends).sum

theorem totalWeight_eq_zero_iff (backends : List WeightedBackend) : totalWeight backends = 0 ↔ ∀ b ∈ backends, b.weight = 0 := by
  simp [totalWeight, weights, sum_eq_zero_iff]

theorem totalWeight_pos_iff (backends : List WeightedBackend) : 0 < totalWeight backends ↔ ∃ b ∈ backends, 0 < b.weight := by
  rw [Nat.pos_iff_ne_zero, ne_eq, totalWeight_eq_zero_iff]
  push Not
  simp [Nat.pos_iff_ne_zero]

def fetchAdd (counter : ℕ) : ℕ := (counter + 1) % 2 ^ 64

def pickLoop (pick : ℕ) : List WeightedBackend → ℕ → ℕ → Option ℕ
  | [], _, _ => none
  | b :: rest, i, cursor => if pick < cursor + b.weight then some i else pickLoop pick rest (i + 1) (cursor + b.weight)

def pickWeightedBackendIrIndex (backends : List WeightedBackend) (counter : ℕ) : Option ℕ × ℕ :=
  if backends = [] then (none, counter)
  else if totalWeight backends = 0 then (some 0, counter)
  else (some ((pickLoop (counter % totalWeight backends) backends 0 0).getD 0), fetchAdd counter)

def chooseBackend (backends : List WeightedBackend) (counter : ℕ) : Option ℕ × ℕ := if backends = [] then (none, counter)
  else if backends.length = 1 then (some 0, counter)
  else
    let picked := pickWeightedBackendIrIndex backends counter
    (some (picked.1.getD 0), picked.2)

structure PeerRequest (κ : Type) where
  backend : String
  timeout : Option ℕ := none
  protocol : BackendProtocol := .http
  tls : Option BackendTlsConfig := none
  clientCert : Option κ := none

structure PeerWorld (κ : Type) where
  makePeer : PeerRequest κ → Bool
  clientCerts : Option (HashMap String κ)
  roll : ℕ → ℕ

inductive UpstreamPeer (κ : Type) where
  | peer (request : PeerRequest κ)
  /-- the proxy answers itself, with an empty body -/
  | answered (status : UInt16)

structure PeerOutcome (κ : Type) where
  peer : UpstreamPeer κ
  backendIndex : Option ℕ := none
  counter : ℕ
  /-- backends the request is mirrored to -/
  mirrored : List String := []

def mirroredTo (upstream : UpstreamAction) (roll : ℕ → ℕ) : List String := (upstream.mirror.zipIdx.filter fun m =>
    match (upstream.mirrorFractions[m.2]?).bind id with
    | none => true
    | some f => f.denominator ≠ 0 && roll m.2 % f.denominator < f.numerator).map (·.1)

def upstreamPeerInner {κ : Type} (w : PeerWorld κ) (ctx : RequestCtx) (counter : ℕ) : PeerOutcome κ :=
  match ctx.acmeBackend with
  | some backend =>
    { peer := if w.makePeer { backend } then .peer { backend } else .answered 502, counter }
  | none =>
    match ctx.plan with
    | none => { peer := .answered 404, counter }
    | some plan =>
      match plan.upstream with
      | some upstream =>
        let chosen := chooseBackend upstream.backends counter
        let weighted := chosen.1.bind (upstream.backends[·]?)
        let tls := weighted.bind (·.tls)
        let clientCertId := (tls.bind (·.clientCertId)).or plan.clientCertId
        let request : PeerRequest κ :=
          { backend := (weighted.map (·.backend)).getD ""
            timeout := upstream.timeout
            protocol := (weighted.map (·.protocol)).getD .http
            tls
            clientCert := clientCertId.bind fun id => w.clientCerts.bind (·.get id) }
        { peer := if request.backend ≠ "" && w.makePeer request then .peer request else .answered 502
          backendIndex := chosen.1
          counter := chosen.2
          mirrored := mirroredTo upstream w.roll }
      | none => { peer := .answered (if plan.gatewayApi then 500 else 404), counter }

/-- the request goes to the upstream of its plan -/
structure ServedBy (ctx : RequestCtx) (plan : CompiledPlan) (upstream : UpstreamAction) : Prop where
  noAcme : ctx.acmeBackend = none
  hasPlan : ctx.plan = some plan
  hasUpstream : plan.upstream = some upstream

theorem upstreamPeerInner_choice {κ : Type} {ctx : RequestCtx} {plan : CompiledPlan} {upstream : UpstreamAction}
    (h : ServedBy ctx plan upstream) (w : PeerWorld κ) (counter : ℕ) :
    (upstreamPeerInner w ctx counter).backendIndex = (chooseBackend upstream.backends counter).1
      ∧ (upstreamPeerInner w ctx counter).counter = (chooseBackend upstream.backends counter).2 := by
  simp [upstreamPeerInner, h.noAcme, h.hasPlan, h.hasUpstream]

/-- `sample` is `WeightedIndex::new` with one draw -/
def pickBackend (sample : List ℕ → Option ℕ) (backends : List WeightedBackend) : Option WeightedBackend :=
  if backends = [] then none
  else if backends.length = 1 then backends.head?
  else if totalWeight backends = 0 then backends.head?
  else (sample (weights backends)).bind (backends[·]?)

/-- where a weight is positive, the index of a positive weight is drawn -/
def DrawsPositive (sample : List ℕ → Option ℕ) : Prop := ∀ ws, 0 < ws.sum → ∃ i w, sample ws = some i ∧ ws[i]? = some w ∧ 0 < w

/-! ## What is picked -/

theorem pickLoop_eq (pick : ℕ) (backends : List WeightedBackend) (i cursor : ℕ) (h : cursor ≤ pick) :
    pickLoop pick backends i cursor = (Weighted.pick (weights backends) (pick - cursor)).map (· + i) := by
  induction backends generalizing i cursor with
  | nil => rfl
  | cons b rest ih =>
    rw [pickLoop, weights, map_cons, Weighted.pick]
    by_cases hlt : pick < cursor + b.weight
    · rw [if_pos hlt, if_pos (by omega)]
      simp
    · rw [if_neg hlt, if_neg (by omega), ih (i + 1) (cursor + b.weight) (by omega), Nat.sub_sub, Option.map_map]
      congr 1
      funext n
      simp only [Function.comp_apply]
      omega

variable {backends : List WeightedBackend}

theorem exists_picked (hpos : 0 < totalWeight backends) (n : ℕ) :
    ∃ i b, Weighted.pick (weights backends) (n % totalWeight backends) = some i ∧ backends[i]? = some b ∧ 0 < b.weight := by
  have hsome := (Weighted.pick_isSome_iff (weights backends) (n % totalWeight backends)).2 (Nat.mod_lt n hpos)
  obtain ⟨i, hi⟩ := Option.isSome_iff_exists.1 hsome
  obtain ⟨w, hw, hwpos⟩ := Weighted.pos_of_pick hi
  rw [weights, getElem?_map, Option.map_eq_some_iff] at hw
  obtain ⟨b, hb, rfl⟩ := hw
  exact ⟨i, b, hi, hb, hwpos⟩

theorem count_window {k : ℕ} {b : WeightedBackend} (hb : backends[k]? = some b) (c : ℕ) :
    ((List.range' c (totalWeight backends)).map fun n => Weighted.pick (weights backends) (n % totalWeight backends)).count
      (some k) = b.weight := by
  rw [totalWeight, Weighted.count_pick_window, weights, getElem?_map, hb]
  rfl

theorem pickWeightedBackendIrIndex_draws (hpos : 0 < totalWeight backends) (counter : ℕ) :
    pickWeightedBackendIrIndex backends counter
      = (Weighted.pick (weights backends) (counter % totalWeight backends), fetchAdd counter) := by
  have hne : backends ≠ [] := by
    rintro rfl
    simp [totalWeight, weights] at hpos
  obtain ⟨i, b, hi, hb, hwpos⟩ := exists_picked hpos counter
  rw [pickWeightedBackendIrIndex, if_neg hne, if_neg hpos.ne', pickLoop_eq _ _ _ _ (Nat.zero_le _), Nat.sub_zero, hi]
  rfl

theorem chooseBackend_draws (hlen : 2 ≤ backends.length) (hpos : 0 < totalWeight backends) (counter : ℕ) :
    chooseBackend backends counter = (Weighted.pick (weights backends) (counter % totalWeight backends), fetchAdd counter) := by
  have hne : backends ≠ [] := by
    rintro rfl
    simp at hlen
  obtain ⟨i, b, hi, hb, hwpos⟩ := exists_picked hpos counter
  rw [chooseBackend, if_neg hne, if_neg (by omega), pickWeightedBackendIrIndex_draws hpos, hi]
  rfl

theorem pos_of_chooseBackend (hpos : 0 < totalWeight backends) (counter : ℕ) :
    ∃ i b, (chooseBackend backends counter).1 = some i ∧ backends[i]? = some b ∧ 0 < b.weight := by
  match backends with
  | [] => simp [totalWeight, weights] at hpos
  | [b] => exact ⟨0, b, rfl, rfl, by simpa [totalWeight, weights] using hpos⟩
  | b :: c :: rest =>
    rw [chooseBackend_draws (by simp) hpos]
    exact exists_picked hpos counter

theorem pos_of_pickBackend (hpos : 0 < totalWeight backends) (hsample : DrawsPositive sample) :
    ∃ b ∈ backends, pickBackend sample backends = some b ∧ 0 < b.weight := by
  match backends with
  | [] => simp [totalWeight, weights] at hpos
  | [b] => exact ⟨b, mem_singleton_self b, rfl, by simpa [totalWeight, weights] using hpos⟩
  | b :: c :: rest =>
    obtain ⟨i, w, hi, hw, hwpos⟩ := hsample _ hpos
    rw [weights, getElem?_map, Option.map_eq_some_iff] at hw
    obtain ⟨picked, hpicked, rfl⟩ := hw
    refine ⟨picked, mem_of_getElem? hpicked, ?_, hwpos⟩
    rw [pickBackend, if_neg hpos.ne', hi]
    exact hpicked

/-- **Weight zero.** As long as some backend of the list has a positive weight, a request and a connection are given to a
backend of positive weight; where all weights are zero they are given to the first backend. -/
theorem zero_weight_idle {κ : Type} {ctx : RequestCtx} {plan : CompiledPlan} {upstream : UpstreamAction}
    (h : ServedBy ctx plan upstream) (w : PeerWorld κ) (counter : ℕ) {sample : List ℕ → Option ℕ}
    (hsample : DrawsPositive sample) : ((∃ b ∈ upstream.backends, 0 < b.weight) →
      (∃ i b, (upstreamPeerInner w ctx counter).backendIndex = some i ∧ upstream.backends[i]? = some b ∧ 0 < b.weight)
        ∧ ∃ b ∈ upstream.backends, pickBackend sample upstream.backends = some b ∧ 0 < b.weight)
    ∧ ((∀ b ∈ upstream.backends, b.weight = 0) →
      (upstreamPeerInner w ctx counter).backendIndex = (if upstream.backends = [] then none else some 0)
        ∧ pickBackend sample upstream.backends = upstream.backends.head?) := by
  rw [← totalWeight_pos_iff, ← totalWeight_eq_zero_iff, (upstreamPeerInner_choice h w counter).1]
  refine ⟨fun hpos => ⟨pos_of_chooseBackend hpos counter, pos_of_pickBackend hpos hsample⟩, fun hzero => ⟨?_, ?_⟩⟩
  · rw [chooseBackend, pickWeightedBackendIrIndex]
    split_ifs <;> rfl
  · rw [pickBackend]
    split_ifs with hempty
    · rw [hempty]
      rfl
    · rfl
    · rfl

def drainedUpstream : UpstreamAction := ⟨[{ backend := "10.0.0.1:80", weight := 0 }], none, [], [], []⟩

def drainedPlan : CompiledPlan :=
  { compilePlan ⟨[], .route {}, 0⟩ 0 {} true true none with upstream := some drainedUpstream }

theorem drained_backend_selected : (∀ b ∈ drainedUpstream.backends, b.weight = 0)
      ∧ (upstreamPeerInner (κ := Unit) ⟨fun _ => true, none, id⟩ { plan := some drainedPlan } 0).backendIndex = some 0
      ∧ ∀ sample, pickBackend sample drainedUpstream.backends = some { backend := "10.0.0.1:80", weight := 0 } := by
  refine ⟨by decide, rfl, fun _ => rfl⟩

def halfDrainedUpstream : UpstreamAction :=
  { drainedUpstream with
    backends := [{ backend := "10.0.0.1:80", weight := 0 }, { backend := "10.0.0.2:80", weight := 3 }] }

theorem half_drained_served : ∃ i b, (upstreamPeerInner (κ := Unit) ⟨fun _ => true, none, id⟩
        { plan := some { drainedPlan with upstream := some halfDrainedUpstream } } 7).backendIndex = some i
      ∧ halfDrainedUpstream.backends[i]? = some b ∧ 0 < b.weight := by
  have hserved : ServedBy { plan := some { drainedPlan with upstream := some halfDrainedUpstream } }
      { drainedPlan with upstream := some halfDrainedUpstream } halfDrainedUpstream := ⟨rfl, rfl, rfl⟩
  have hsample : DrawsPositive fun ws => Weighted.pick ws 0 := by
    intro ws hpos
    obtain ⟨i, hi⟩ := Option.isSome_iff_exists.1 ((Weighted.pick_isSome_iff ws 0).2 hpos)
    obtain ⟨w, hw, hwpos⟩ := Weighted.pos_of_pick hi
    exact ⟨i, w, hi, hw, hwpos⟩
  have hidle := zero_weight_idle hserved (⟨fun _ => true, none, id⟩ : PeerWorld Unit) 7 hsample
  exact (hidle.1 ⟨{ backend := "10.0.0.2:80", weight := 3 }, by decide, by decide⟩).1

/-! ## Interleaved requests -/

/-- two backends have a share -/
def Splits (backends : List WeightedBackend) : Prop :=
  ∃ (i j : ℕ) (b c : WeightedBackend), i ≠ j ∧ backends[i]? = some b ∧ backends[j]? = some c ∧ 0 < b.weight ∧ 0 < c.weight

/-- every stretch of choices as long as the total weight holds each backend as often as its weight says -/
def Fair (backends : List WeightedBackend) (choices : List (Option ℕ)) : Prop :=
  ∀ before window after, choices = before ++ window ++ after → window.length = totalWeight backends →
    ∀ i b, backends[i]? = some b → window.count (some i) = b.weight

section Interleaving

variable {ι : Type} (routes : ι → List WeightedBackend)

def serveRequests : ℕ → List ι → List (ι × Option ℕ)
  | _, [] => []
  | counter, i :: rest =>
    (i, (chooseBackend (routes i) counter).1) :: serveRequests (chooseBackend (routes i) counter).2 rest

def counterAfter (counter : ℕ) (requests : List ι) : ℕ :=
  requests.foldl (fun counter i => (chooseBackend (routes i) counter).2) counter

def choicesOf [DecidableEq ι] (i : ι) (trace : List (ι × Option ℕ)) : List (Option ℕ) := (trace.filter (·.1 = i)).map (·.2)

variable {routes}

theorem serveRequests_append (counter : ℕ) (before after : List ι) : serveRequests routes counter (before ++ after)
      = serveRequests routes counter before ++ serveRequests routes (counterAfter routes counter before) after := by
  induction before generalizing counter with
  | nil => rfl
  | cons i before ih =>
    rw [cons_append, serveRequests, ih]
    rfl

theorem choicesOf_append [DecidableEq ι] (i : ι) (before after : List (ι × Option ℕ)) :
    choicesOf i (before ++ after) = choicesOf i before ++ choicesOf i after := by
  simp [choicesOf]

theorem length_choicesOf [DecidableEq ι] (i : ι) (counter : ℕ) (requests : List ι) :
    (choicesOf i (serveRequests routes counter requests)).length = requests.count i := by
  induction requests generalizing counter with
  | nil => rfl
  | cons j rest ih =>
    rw [choicesOf, serveRequests, count_cons, ← ih (chooseBackend (routes j) counter).2]
    by_cases hj : j = i <;> simp [hj, choicesOf]

variable {backends : List WeightedBackend}

theorem chooseBackend_snd_of_length (hlen : backends.length ≤ 1) (counter : ℕ) :
    (chooseBackend backends counter).2 = counter := by
  match backends, hlen with
  | [], _ => rfl
  | [b], _ => rfl

theorem fetchAdd_of_lt {counter : ℕ} (h : counter + 1 < 2 ^ 64) : fetchAdd counter = counter + 1 := Nat.mod_eq_of_lt h

variable {requests : List ι}

theorem counterAfter_draws (hpos : ∀ i, 0 < totalWeight (routes i)) (hdraw : ∀ i ∈ requests, 2 ≤ (routes i).length)
    {counter : ℕ} (h : counter + requests.length < 2 ^ 64) :
    counterAfter routes counter requests = counter + requests.length := by
  induction requests generalizing counter with
  | nil => rfl
  | cons i rest ih =>
    rw [length_cons] at h ⊢
    have hstep : (chooseBackend (routes i) counter).2 = counter + 1 := by
      rw [chooseBackend_draws (hdraw i (mem_cons_self ..)) (hpos i)]
      exact fetchAdd_of_lt (by omega)
    calc counterAfter routes counter (i :: rest)
        = counterAfter routes (counter + 1) rest := by simp [counterAfter, hstep]
      _ = counter + 1 + rest.length := ih (fun j hj => hdraw j (mem_cons_of_mem _ hj)) (by omega)
      _ = counter + (rest.length + 1) := by omega

theorem choicesOf_serveRequests [DecidableEq ι] {i : ι} (hdraw : 2 ≤ (routes i).length)
    (hpos : 0 < totalWeight (routes i)) (hothers : ∀ j ∈ requests, j ≠ i → (routes j).length ≤ 1) {counter : ℕ}
    (hwrap : counter + requests.count i ≤ 2 ^ 64) :
    choicesOf i (serveRequests routes counter requests) = (List.range' counter (requests.count i)).map
          fun n => Weighted.pick (weights (routes i)) (n % totalWeight (routes i)) := by
  induction requests generalizing counter with
  | nil => rfl
  | cons j rest ih =>
    have hrest := fun k hk => hothers k (mem_cons_of_mem _ hk)
    by_cases hj : j = i
    · subst hj
      rw [count_cons_self] at hwrap ⊢
      have hnext : choicesOf j (serveRequests routes (fetchAdd counter) rest) = (List.range' (counter + 1) (rest.count j)).map
              fun n => Weighted.pick (weights (routes j)) (n % totalWeight (routes j)) := by
        rcases Nat.eq_zero_or_pos (rest.count j) with hzero | hmore
        · have hsame := @ih hrest (fetchAdd counter) (by rw [fetchAdd]; omega)
          rw [hsame, hzero]
          rfl
        · rw [fetchAdd_of_lt (by omega)]
          exact ih hrest (by omega)
      calc choicesOf j (serveRequests routes counter (j :: rest))
          = Weighted.pick (weights (routes j)) (counter % totalWeight (routes j))
              :: choicesOf j (serveRequests routes (fetchAdd counter) rest) := by
            rw [serveRequests, chooseBackend_draws hdraw hpos]
            simp [choicesOf]
        _ = (List.range' counter (rest.count j + 1)).map
              fun n => Weighted.pick (weights (routes j)) (n % totalWeight (routes j)) := by
            rw [hnext, range'_succ, map_cons]
    · have hkeep := chooseBackend_snd_of_length (hothers j (mem_cons_self ..) hj) counter
      rw [count_cons_of_ne hj] at hwrap ⊢
      rw [serveRequests, hkeep, ← ih hrest hwrap]
      simp [choicesOf, hj]

theorem fair_of_alone [DecidableEq ι] {i : ι} (hdraw : 2 ≤ (routes i).length) (hpos : 0 < totalWeight (routes i))
    (hothers : ∀ j ∈ requests, j ≠ i → (routes j).length ≤ 1) (hwrap : requests.length ≤ 2 ^ 64) :
    Fair (routes i) (choicesOf i (serveRequests routes 0 requests)) := by
  intro before window after hsplit hlen k b hb
  have hcount : requests.count i ≤ requests.length := count_le_length
  rw [choicesOf_serveRequests hdraw hpos hothers (by omega), append_assoc, map_eq_append_iff] at hsplit
  obtain ⟨l₁, l₂, hrange, hbefore, hrest⟩ := hsplit
  obtain ⟨m, _, rfl, rfl⟩ := range'_eq_append_iff.1 hrange
  obtain ⟨l₃, l₄, hrange', rfl, hafter⟩ := map_eq_append_iff.1 hrest
  obtain ⟨m', _, rfl, rfl⟩ := range'_eq_append_iff.1 hrange'
  rw [length_map, length_range'] at hlen
  rw [hlen]
  exact count_window hb (0 + m * 1)

theorem weight_of_only {k : ℕ} {b : WeightedBackend} (hpos : 0 < totalWeight backends)
    (hb : backends[k]? = some b) (honly : ∀ j c, backends[j]? = some c → 0 < c.weight → j = k) :
    b.weight = totalWeight backends := by
  have hcount := count_window hb 0
  rw [map_congr_left (g := fun _ => some k)] at hcount
  · simpa using hcount.symm
  · intro n _
    obtain ⟨j, c, hj, hc, hcpos⟩ := exists_picked hpos n
    rw [hj, honly j c hc hcpos]

theorem choicesOf_of_only [DecidableEq ι] {i : ι} {k : ℕ} (hpos : 0 < totalWeight (routes i))
    (honly : ∀ j c, (routes i)[j]? = some c → 0 < c.weight → j = k) (counter : ℕ) (requests : List ι) :
    ∀ choice ∈ choicesOf i (serveRequests routes counter requests), choice = some k := by
  induction requests generalizing counter with
  | nil => simp [serveRequests, choicesOf]
  | cons j rest ih =>
    intro choice hchoice
    rw [choicesOf, serveRequests, filter_cons] at hchoice
    by_cases hj : j = i
    · subst hj
      obtain ⟨m, c, hm, hc, hcpos⟩ := pos_of_chooseBackend hpos counter
      simp only [decide_true, if_true, map_cons, mem_cons] at hchoice
      rcases hchoice with rfl | hchoice
      · rw [hm, honly m c hc hcpos]
      · exact ih _ choice hchoice
    · simp only [hj] at hchoice
      exact ih _ choice hchoice

theorem fair_of_not_splits [DecidableEq ι] {i : ι} (hpos : 0 < totalWeight (routes i)) (hsplits : ¬ Splits (routes i))
    (counter : ℕ) (requests : List ι) : Fair (routes i) (choicesOf i (serveRequests routes counter requests)) := by
  obtain ⟨k, b, _, hb, hbpos⟩ := exists_picked hpos 0
  have honly : ∀ j c, (routes i)[j]? = some c → 0 < c.weight → j = k := by
    intro j c hc hcpos
    by_contra hne
    exact hsplits ⟨j, k, c, b, hne, hc, hb, hcpos, hbpos⟩
  intro before window after hsplit hlen j c hc
  have hwindow : window = replicate window.length (some k) := by
    refine eq_replicate_of_mem fun choice hmem => choicesOf_of_only hpos honly counter requests choice ?_
    rw [hsplit]
    exact mem_append_left _ (mem_append_right _ hmem)
  rw [hwindow, hlen, ← weight_of_only hpos hb honly, count_replicate]
  by_cases hj : j = k
  · subst hj
    rw [hb] at hc
    cases hc
    simp
  · have hzero : ¬ 0 < c.weight := fun hcpos => hj (honly j c hc hcpos)
    rw [if_neg (by simpa using Ne.symm hj)]
    omega

theorem Splits.two_le_length (h : Splits backends) : 2 ≤ backends.length := by
  obtain ⟨i, j, b, c, hne, hb, hc, _, _⟩ := h
  have hi := (List.getElem?_eq_some_iff.1 hb).1
  have hj := (List.getElem?_eq_some_iff.1 hc).1
  omega

theorem Splits.exists_other (h : Splits backends) (k : ℕ) :
    ∃ (j : ℕ) (b : WeightedBackend), j ≠ k ∧ backends[j]? = some b ∧ 0 < b.weight := by
  obtain ⟨i, j, b, c, hne, hb, hc, hbpos, hcpos⟩ := h
  by_cases hk : i = k
  · exact ⟨j, c, fun he => hne (hk.trans he.symm), hc, hcpos⟩
  · exact ⟨i, b, hk, hb, hbpos⟩

theorem choicesOf_interrupted [DecidableEq ι] (hpos : ∀ i, 0 < totalWeight (routes i)) {i i' : ι} (hne : i' ≠ i)
    (hlen : 2 ≤ (routes i).length) (hdraw : 2 ≤ (routes i').length) {n m : ℕ} (hn : n + 1 < 2 ^ 64)
    (hwrap : n + 1 + m ≤ 2 ^ 64) :
    choicesOf i (serveRequests routes 0 (replicate n i ++ i' :: replicate m i)) = (List.range' 0 n ++ List.range' (n + 1) m).map
          fun c => Weighted.pick (weights (routes i)) (c % totalWeight (routes i)) := by
  have hreplicate : ∀ length counter, counter + length ≤ 2 ^ 64 →
      choicesOf i (serveRequests routes counter (replicate length i)) = (List.range' counter length).map
        fun c => Weighted.pick (weights (routes i)) (c % totalWeight (routes i)) := by
    intro length counter h
    rw [choicesOf_serveRequests hlen (hpos i) (fun j hj hji => absurd (eq_of_mem_replicate hj) hji)
      (by rwa [count_replicate_self]), count_replicate_self]
  have hcounter : counterAfter routes 0 (replicate n i) = n := by
    rw [counterAfter_draws hpos (fun j hj => eq_of_mem_replicate hj ▸ hlen)
      (by rw [length_replicate]; omega), length_replicate, Nat.zero_add]
  have hother : choicesOf i [(i', Weighted.pick (weights (routes i')) (n % totalWeight (routes i')))] = [] := by
    simp [choicesOf, hne]
  have hskip : choicesOf i (serveRequests routes n (i' :: replicate m i))
      = choicesOf i (serveRequests routes (n + 1) (replicate m i)) := by
    rw [serveRequests, chooseBackend_draws hdraw (hpos i'), fetchAdd_of_lt hn, ← singleton_append, choicesOf_append,
      hother, nil_append]
  calc choicesOf i (serveRequests routes 0 (replicate n i ++ i' :: replicate m i))
      = choicesOf i (serveRequests routes 0 (replicate n i)) ++ choicesOf i (serveRequests routes n (i' :: replicate m i)) := by
        rw [serveRequests_append, choicesOf_append, hcounter]
    _ = choicesOf i (serveRequests routes 0 (replicate n i))
          ++ choicesOf i (serveRequests routes (n + 1) (replicate m i)) := by rw [hskip]
    _ = (List.range' 0 n ++ List.range' (n + 1) m).map
          fun c => Weighted.pick (weights (routes i)) (c % totalWeight (routes i)) := by
        rw [hreplicate n 0 (by omega), hreplicate m (n + 1) (by omega), map_append]

theorem not_fair_of_draw [DecidableEq ι] (hpos : ∀ i, 0 < totalWeight (routes i)) {i i' : ι} (hne : i' ≠ i)
    (hsplits : Splits (routes i)) (hdraw : 2 ≤ (routes i').length) (hwrap : totalWeight (routes i) < 2 ^ 64) :
    ∃ requests : List ι, requests.length ≤ 2 ^ 64 ∧ ¬ Fair (routes i) (choicesOf i (serveRequests routes 0 requests)) := by
  obtain ⟨k₀, _, hk₀, _, _⟩ := exists_picked (hpos i) 0
  obtain ⟨k, b, hk, hb, hbpos⟩ := hsplits.exists_other k₀
  have hweight : (weights (routes i))[k]? = some b.weight := by
    rw [weights, getElem?_map, hb]
    rfl
  -- the request comes when the counter would pick the other backend
  obtain ⟨n, hn⟩ := Weighted.exists_pick hweight hbpos
  have hlt : n < totalWeight (routes i) := (Weighted.pick_isSome_iff (weights (routes i)) n).1 (by rw [hn]; rfl)
  have hzero : Weighted.pick (weights (routes i)) 0 ≠ some k := by
    rw [Nat.zero_mod] at hk₀
    rw [hk₀]
    exact fun h => hk (Option.some.inj h).symm
  refine ⟨replicate n i ++ i' :: replicate (totalWeight (routes i) - n) i, ?_, ?_⟩
  · simp only [length_append, length_cons, length_replicate]
    omega
  · intro hfair
    rw [choicesOf_interrupted hpos hne hsplits.two_le_length hdraw (by omega) (by omega)] at hfair
    have hlength : ((List.range' 0 n ++ List.range' (n + 1) (totalWeight (routes i) - n)).map
        fun c => Weighted.pick (weights (routes i)) (c % totalWeight (routes i))).length = totalWeight (routes i) := by
      simp only [length_map, length_append, length_range']
      omega
    have hwindow := hfair [] _ [] (append_nil _).symm hlength k b hb
    have hskip := Weighted.count_pick_skip hn hzero
    rw [hweight, Option.getD_some, ← totalWeight] at hskip
    omega

variable (routes)

/-- **Fairness per route.** Before the counter wraps around, each backend gets its share of every stretch of requests of its route
exactly when no route that splits its traffic has another route with two backends beside it. -/
theorem fair_iff [DecidableEq ι] (hpos : ∀ i, 0 < totalWeight (routes i)) :
    (∀ requests : List ι, requests.length ≤ 2 ^ 64 → ∀ i, Fair (routes i) (choicesOf i (serveRequests routes 0 requests))) ↔
      ∀ i, Splits (routes i) → totalWeight (routes i) < 2 ^ 64 → ∀ i', i' ≠ i → (routes i').length ≤ 1 := by
  apply Iff.intro
  · intro hfair i hsplits hwrap i' hne
    by_contra hdraw
    obtain ⟨requests, hlen, hunfair⟩ := not_fair_of_draw hpos hne hsplits (by omega) hwrap
    exact hunfair (hfair requests hlen i)
  · intro halone requests hlen i
    by_cases hsplits : Splits (routes i)
    · by_cases hwrap : totalWeight (routes i) < 2 ^ 64
      · exact fair_of_alone hsplits.two_le_length (hpos i) (fun j _ hj => halone i hsplits hwrap j hj) hlen
      · intro before window after hsplit hwindow
        have hcount : (choicesOf i (serveRequests routes 0 requests)).length = requests.count i := length_choicesOf i 0 requests
        simp only [hsplit, length_append] at hcount
        have hall : ∀ j ∈ requests, i = j := count_eq_length.1 (le_antisymm count_le_length (by omega))
        exact fair_of_alone hsplits.two_le_length (hpos i) (fun j hj hji => absurd (hall j hj).symm hji) hlen before window
          after hsplit hwindow
    · exact fair_of_not_splits (hpos i) hsplits 0 requests

end Interleaving

def evenRoutes (_ : Bool) : List WeightedBackend :=
  [{ backend := "10.0.0.1:80", weight := 1 }, { backend := "10.0.0.2:80", weight := 1 }]

def oneDrawing : Bool → List WeightedBackend
  | true => evenRoutes true
  | false => [{ backend := "10.0.0.3:80", weight := 1 }]

theorem one_drawing_fair : (∀ i, 0 < totalWeight (oneDrawing i))
    ∧ Fair (oneDrawing true) (choicesOf true (serveRequests oneDrawing 0 [true, false, false, true])) := by
  have hpos : ∀ i, 0 < totalWeight (oneDrawing i) := by decide
  refine ⟨hpos, (fair_iff oneDrawing hpos).2 ?_ _ (by decide) true⟩
  intro i hsplits _ i' hne
  cases i with
  | true =>
    cases i' with
    | true => exact absurd rfl hne
    | false => decide
  | false =>
    have hlen := hsplits.two_le_length
    exact absurd hlen (by decide)

theorem alternating_unfair : (∀ i, 0 < totalWeight (evenRoutes i))
      ∧ choicesOf true (serveRequests evenRoutes 0 [true, false, true, false]) = [some 0, some 0]
      ∧ ¬ Fair (evenRoutes true) (choicesOf true (serveRequests evenRoutes 0 [true, false, true, false])) := by
  have hchoices : choicesOf true (serveRequests evenRoutes 0 [true, false, true, false]) = [some 0, some 0] := by decide
  refine ⟨by decide, hchoices, ?_⟩
  intro hfair
  have hshare := hfair [] [some 0, some 0] [] rfl (by decide) 0 _ rfl
  exact absurd hshare (by decide)

end SunbeamProxy
