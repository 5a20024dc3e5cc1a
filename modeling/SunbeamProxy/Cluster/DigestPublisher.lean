/-
The publisher of a node's digests and the peers that hear it (`gateway/gossip/digest_publisher.rs`).

A reconciled view replaces the digest that is pending. A tick takes the pending digest and broadcasts it with the next term, unless
the last broadcast was less than a second ago.
-/
import SunbeamProxy.Cluster.Delivery

namespace SunbeamProxy.Cluster

open List

variable {σ : Type}

/-- the hash of a view, and what else is broadcast with it -/
abbrev Publication (σ : Type) := σ × GatewayStateDigest

structure DigestPublisherHandle (σ : Type) where
  nodeId : NodeId
  term : ℕ := 0
  lastPublish : ℚ
  pending : Option (Publication σ) := none

def minPublishInterval : ℚ := 1

inductive PublisherInput (σ : Type) where
  | view (stateHash : σ) (timestamp : ℕ)
  /-- the clock is read before a broadcast is handed on and again after it -/
  | tick (now sent : ℚ)

/-- the publisher, and its broadcasts so far with the times around each -/
abbrev PublisherState (σ : Type) := DigestPublisherHandle σ × List ((ℚ × ℚ) × Publication σ)

namespace DigestPublisherHandle

def new (nodeId : NodeId) (now : ℚ) : DigestPublisherHandle σ := { nodeId, lastPublish := now - minPublishInterval }

def buildDigest (p : DigestPublisherHandle σ) (stateHash : σ) (timestamp : ℕ) : Publication σ := (stateHash, ⟨0, p.nodeId, timestamp⟩)

def maybePublish (p : DigestPublisherHandle σ) (now sent : ℚ) : DigestPublisherHandle σ × Option (Publication σ) :=
  match p.pending with
  | none => (p, none)
  | some (stateHash, digest) =>
    if now - p.lastPublish < minPublishInterval then (p, none)
    -- a clock that never goes back
    else ({ p with pending := none, term := p.term + 1, lastPublish := max now sent }, some (stateHash, { digest with term := p.term + 1 }))

def step (s : PublisherState σ) : PublisherInput σ → PublisherState σ
  | .view stateHash timestamp => ({ s.1 with pending := some (s.1.buildDigest stateHash timestamp) }, s.2)
  | .tick now sent => ((s.1.maybePublish now sent).1, s.2 ++ ((s.1.maybePublish now sent).2.map ((now, max now sent), ·)).toList)

def run (nodeId : NodeId) (start : ℚ) (inputs : List (PublisherInput σ)) : PublisherState σ :=
  inputs.foldl step (new nodeId start, [])

end DigestPublisherHandle

open DigestPublisherHandle

def viewOf : PublisherInput σ → Option (σ × ℕ)
  | .view stateHash timestamp => some (stateHash, timestamp)
  | .tick _ _ => none

def Publication.view (p : Publication σ) : σ × ℕ := (p.1, p.2.timestamp)

/-- what holds of the publisher and of its broadcasts after the inputs -/
structure Published (nodeId : NodeId) (inputs : List (PublisherInput σ)) (s : PublisherState σ) : Prop where
  node : s.1.nodeId = nodeId ∧ (∀ d ∈ s.1.pending, d.2.nodeId = nodeId) ∧ ∀ e ∈ s.2, e.2.2.nodeId = nodeId
  terms : s.2.map (·.2.2.term) = range' 1 s.2.length
  next : s.1.term = s.2.length
  spaced : s.2.Pairwise fun a b => a.1.2 + minPublishInterval ≤ b.1.1
  last : ∀ e ∈ s.2, e.1.2 ≤ s.1.lastPublish
  latest : (s.1.pending.or (s.2.getLast?.map (·.2))).map Publication.view = (inputs.filterMap viewOf).getLast?

theorem published_step {nodeId : NodeId} {inputs : List (PublisherInput σ)} {s : PublisherState σ}
    (h : Published nodeId inputs s) (input : PublisherInput σ) : Published nodeId (inputs ++ [input]) (step s input) := by
  obtain ⟨⟨hnode, hpending, hlog⟩, hterms, hnext, hspaced, hlast, hlatest⟩ := h
  obtain ⟨p, log⟩ := s
  cases input with
  | view stateHash timestamp =>
    refine ⟨⟨hnode, ?_, hlog⟩, hterms, hnext, hspaced, hlast, ?_⟩
    · simpa [step, buildDigest] using hnode
    · simp [step, buildDigest, viewOf, Publication.view]
  | tick now sent =>
    have hviews : (inputs ++ [PublisherInput.tick now sent]).filterMap viewOf = inputs.filterMap viewOf := by simp [viewOf]
    have hkeep : Published nodeId (inputs ++ [.tick now sent]) (p, log) :=
      ⟨⟨hnode, hpending, hlog⟩, hterms, hnext, hspaced, hlast, by rw [hviews]; exact hlatest⟩
    cases hp : p.pending with
    | none => simpa [step, maybePublish, hp] using hkeep
    | some d =>
      by_cases hsoon : now - p.lastPublish < minPublishInterval
      · simpa [step, maybePublish, hp, hsoon] using hkeep
      · have hstep : step (p, log) (.tick now sent) = ({ p with pending := none, term := p.term + 1, lastPublish := max now sent },
            log ++ [((now, max now sent), d.1, { d.2 with term := p.term + 1 })]) := by
          simp [step, maybePublish, hp, hsoon]
        rw [hstep]
        dsimp only at hterms hnext hspaced hlast hlatest
        have hlater : ∀ e ∈ log, e.1.2 + minPublishInterval ≤ now := by
          intro e he
          have hle := hlast e he
          linarith
        refine ⟨⟨hnode, nofun, ?_⟩, ?_, by simp [hnext], ?_, ?_, ?_⟩
        · intro e he
          rcases mem_append.1 he with hold | hnew
          · exact hlog e hold
          · rw [mem_singleton.1 hnew]
            exact hpending d hp
        · rw [map_append, hterms, length_append, length_singleton, range'_concat]
          simp [hnext, Nat.add_comm]
        · rw [pairwise_append]
          refine ⟨hspaced, pairwise_singleton _ _, ?_⟩
          intro e he e' he'
          rw [mem_singleton.1 he']
          exact hlater e he
        · intro e he
          rcases mem_append.1 he with hold | hnew
          · have hle := hlater e hold
            have hnow := le_max_left now sent
            simp only [minPublishInterval] at hle
            linarith
          · rw [mem_singleton.1 hnew]
        · rw [hviews, ← hlatest, hp]
          simp [Publication.view]

theorem published_run (nodeId : NodeId) (start : ℚ) (inputs : List (PublisherInput σ)) :
    Published nodeId inputs (run nodeId start inputs) := by
  induction inputs using reverseRecOn with
  | nil => exact ⟨⟨rfl, nofun, by simp [run]⟩, rfl, rfl, .nil, by simp [run], rfl⟩
  | append_singleton inputs input ih =>
    rw [run, foldl_append]
    exact published_step ih input

/-- **Debounced digests.** After every run the broadcasts have the terms 1, 2, 3 and so on, each begins a second or more after
every earlier one was sent, and the view that came in last is the pending one or, if none is pending, the one of the last
broadcast. -/
theorem broadcasts_debounced (nodeId : NodeId) (start : ℚ) (inputs : List (PublisherInput σ)) :
    let s := run nodeId start inputs
    s.2.map (·.2.2.term) = range' 1 s.2.length ∧ s.2.Pairwise (fun a b => a.1.2 + minPublishInterval ≤ b.1.1)
      ∧ (s.1.pending.or (s.2.getLast?.map (·.2))).map Publication.view = (inputs.filterMap viewOf).getLast? := by
  have h := published_run nodeId start inputs
  exact ⟨h.terms, h.spaced, h.latest⟩

theorem peersAfter_eq (delivered : List GatewayStateDigest) :
    peersAfter delivered = HashMap.ofPairs (delivered.map fun d => (d.nodeId, d)) := by
  rw [HashMap.ofPairs, foldl_map]
  rfl

theorem lastNewest_of_pairwise {κ ν : Type} {rank : ν → ℕ} {delivered : List (κ × ν)} {k : κ}
    (h : delivered.Pairwise fun a b => a.1 = k → b.1 = k → rank a.2 ≤ rank b.2) : LastNewest rank delivered k := by
  intro pre v post hsplit hpost w hw
  rw [hsplit, pairwise_append, pairwise_cons] at h
  rw [hsplit, mem_append, mem_cons] at hw
  rcases hw with hpre | heq | hlater
  · exact h.2.2 _ hpre _ mem_cons_self rfl rfl
  · rw [(Prod.mk.inj heq).2]
  · exact absurd rfl (hpost _ hlater)

/-- **Gossip that keeps the order of each sender.** However the digests of the nodes are mixed and whichever are lost, a node then
holds the newest one delivered of every peer; and where the last broadcast of a peer was delivered, it holds that one. -/
theorem ordered_gossip_newest (start : NodeId → ℚ) (inputs : NodeId → List (PublisherInput σ)) {delivered : List GatewayStateDigest}
    (hordered : ∀ node, (delivered.filter (·.nodeId = node)).Sublist
      ((run node (start node) (inputs node)).2.map (·.2.2))) (node : NodeId) :
    HoldsNewest GatewayStateDigest.term (delivered.map fun d => (d.nodeId, d)) node (peersAfter delivered)
      ∧ ∀ d ∈ delivered, ((run node (start node) (inputs node)).2.map (·.2.2)).getLast? = some d →
        (peersAfter delivered).get node = some d := by
  have hpublished := published_run node (start node) (inputs node)
  have hsub := hordered node
  generalize (run node (start node) (inputs node)) = s at hpublished hsub ⊢
  have hterms : (s.2.map (·.2.2)).Pairwise fun a b => a.term < b.term := by
    have hrange : (s.2.map (·.2.2.term)).Pairwise (· < ·) := hpublished.terms ▸ pairwise_lt_range'
    rw [pairwise_map] at hrange ⊢
    exact hrange
  have hnewest : HoldsNewest GatewayStateDigest.term (delivered.map fun d => (d.nodeId, d)) node (peersAfter delivered) := by
    rw [peersAfter_eq, holdsNewest_ofPairs_iff]
    apply lastNewest_of_pairwise
    rw [pairwise_map]
    refine (pairwise_filter.1 (hterms.sublist hsub)).imp ?_
    intro a b hlt ha hb
    exact (hlt (decide_eq_true ha) (decide_eq_true hb)).le
  refine ⟨hnewest, ?_⟩
  intro d hd hlast
  obtain ⟨front, hfront⟩ := getLast?_eq_some_iff.1 hlast
  have hnode : d.nodeId = node := by
    obtain ⟨e, he, rfl⟩ := mem_map.1 (mem_of_getLast? hlast)
    exact hpublished.node.2.2 e he
  obtain ⟨v, hv, hmem, hle⟩ := hnewest d (mem_map.2 ⟨d, hd, by rw [hnode]⟩)
  obtain ⟨v', hv', heq⟩ := mem_map.1 hmem
  obtain ⟨hvnode, rfl⟩ := Prod.mk.inj heq
  have hsent := hsub.subset (mem_filter.2 ⟨hv', decide_eq_true hvnode⟩)
  rw [hfront] at hsent hterms
  rcases mem_append.1 hsent with hold | hnew
  · have hlt := (pairwise_append.1 hterms).2.2 _ hold _ (mem_singleton_self d)
    omega
  · rw [hv, mem_singleton.1 hnew]

/-- the second of three digests is lost -/
theorem newest_after_loss : (peersAfter [⟨1, 7, 100⟩, ⟨3, 7, 300⟩]).get 7 = some ⟨3, 7, 300⟩ := by
  let views : List (PublisherInput Unit) := [.view () 100, .tick 0 0, .view () 200, .tick 1 1, .view () 300, .tick 2 2]
  have hrun : (run 7 0 views).2.map (·.2.2) = [⟨1, 7, 100⟩, ⟨2, 7, 200⟩, ⟨3, 7, 300⟩] := by decide +kernel
  refine (ordered_gossip_newest (fun _ => 0) (fun node => if node = 7 then views else []) ?_ 7).2 _ (by decide) ?_
  · intro node
    by_cases hnode : node = 7
    · rw [hnode, if_pos rfl, hrun]
      decide
    · have hnone : ([⟨1, 7, 100⟩, ⟨3, 7, 300⟩] : List GatewayStateDigest).filter (·.nodeId = node) = [] := by
        simpa using Ne.symm hnode
      rw [hnone]
      exact nil_sublist _
  · rw [if_pos rfl, hrun]
    rfl

end SunbeamProxy.Cluster
