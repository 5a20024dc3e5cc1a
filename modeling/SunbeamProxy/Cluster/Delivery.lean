/-
What a node keeps of the messages its peers gossip (`gateway/gossip/digest_publisher.rs`, `cluster/bandwidth.rs`).
-/
import SunbeamProxy.Core.Collections

namespace SunbeamProxy.Cluster

open HashMap List

section Last

variable {κ ν : Type} (rank : ν → ℕ) (delivered : List (κ × ν)) (k : κ)

/-- the last value delivered under the key ranks highest among those delivered under it -/
def LastNewest : Prop := ∀ pre v post, delivered = pre ++ (k, v) :: post → (∀ e ∈ post, e.1 ≠ k) →
  ∀ w, (k, w) ∈ delivered → rank w ≤ rank v

variable [DecidableEq κ]

/-- the map holds a delivered value of the highest rank for the key -/
def HoldsNewest (m : HashMap κ ν) : Prop := ∀ w, (k, w) ∈ delivered → ∃ v, m.get k = some v ∧ (k, v) ∈ delivered ∧ rank w ≤ rank v

theorem holdsNewest_ofPairs_iff : HoldsNewest rank delivered k (ofPairs delivered) ↔ LastNewest rank delivered k := by
  apply Iff.intro
  · intro h pre v post hsplit hpost w hw
    obtain ⟨v', hv', -, hle⟩ := h w hw
    have hv := (get_ofPairs_eq_some_iff delivered k v).2 ⟨pre, post, hsplit, hpost⟩
    rw [hv, Option.some.injEq] at hv'
    rwa [hv']
  · intro h w hw
    obtain ⟨v, hv⟩ := Option.isSome_iff_exists.1 ((isSome_get_ofPairs delivered k).2 ⟨w, hw⟩)
    obtain ⟨pre, post, hsplit, hpost⟩ := (get_ofPairs_eq_some_iff delivered k v).1 hv
    exact ⟨v, hv, mem_of_get_ofPairs hv, h pre v post hsplit hpost w hw⟩

end Last

abbrev NodeId := BitVec 256

structure GatewayStateDigest where
  term : ℕ
  nodeId : NodeId
  timestamp : ℕ
deriving DecidableEq, Repr

def receiveDigest (peers : HashMap NodeId GatewayStateDigest) (peer : GatewayStateDigest) : HashMap NodeId GatewayStateDigest :=
  peers.insert peer.nodeId peer

def peersAfter (delivered : List GatewayStateDigest) : HashMap NodeId GatewayStateDigest := delivered.foldl receiveDigest ∅

def driftThresholdSecs : ℕ := 30

def driftStep (self : NodeId) (now : ℕ) (acc : ℕ × ℕ) (e : NodeId × GatewayStateDigest) : ℕ × ℕ :=
  if e.1 = self then acc
  else (max acc.1 (now - e.2.timestamp), if driftThresholdSecs < now - e.2.timestamp then acc.2 + 1 else acc.2)

def checkDrift (self : NodeId) (now : ℕ) (peers : HashMap NodeId GatewayStateDigest) : ℕ × ℕ :=
  peers.pairs.foldl (driftStep self now) (0, 0)

theorem foldl_driftStep (self : NodeId) (now : ℕ) (l : List (NodeId × GatewayStateDigest)) (acc : ℕ × ℕ) :
    (l.foldl (driftStep self now) acc).2
      = acc.2 + l.countP fun e => decide (e.1 ≠ self ∧ driftThresholdSecs < now - e.2.timestamp) := by
  induction l generalizing acc with
  | nil => simp
  | cons e l ih =>
    rw [foldl_cons, ih, countP_cons, driftStep]
    by_cases hself : e.1 = self
    · simp [hself]
    · by_cases hdrift : driftThresholdSecs < now - e.2.timestamp
      · simp [hself, hdrift, Nat.add_assoc, Nat.add_comm]
      · simp [hself, hdrift]

/-- **Late digests.** However gossip delivers them, a node holds the digest with the highest term of each of its peers exactly
when the last one delivered of each is that digest. -/
theorem peer_digests_newest_iff (delivered : List GatewayStateDigest) :
    ((∀ node, HoldsNewest GatewayStateDigest.term (delivered.map fun d => (d.nodeId, d)) node (peersAfter delivered))
        ↔ ∀ node, LastNewest GatewayStateDigest.term (delivered.map fun d => (d.nodeId, d)) node)
      ∧ ∀ self now, 0 < (checkDrift self now (peersAfter delivered)).2
        ↔ ∃ node d, (peersAfter delivered).get node = some d ∧ node ≠ self ∧ driftThresholdSecs < now - d.timestamp := by
  have hpeers : peersAfter delivered = ofPairs (delivered.map fun d => (d.nodeId, d)) := by
    rw [ofPairs, foldl_map]
    rfl
  apply And.intro
  · rw [hpeers]
    exact forall_congr' fun node => holdsNewest_ofPairs_iff _ _ node
  · intro self now
    rw [checkDrift, foldl_driftStep, Nat.zero_add, countP_pos_iff]
    simp [Prod.exists, mem_pairs_iff]

theorem late_digest_replaces_newer :
    let old : GatewayStateDigest := ⟨1, 7, 100⟩
    let new : GatewayStateDigest := ⟨2, 7, 200⟩
    (peersAfter [old, new]).get 7 = some new ∧ (checkDrift 0 201 (peersAfter [old, new])).2 = 0
      ∧ (peersAfter [new, old]).get 7 = some old ∧ checkDrift 0 201 (peersAfter [new, old]) = (101, 1)
      ∧ ¬HoldsNewest GatewayStateDigest.term [(7, new), (7, old)] 7 (peersAfter [new, old]) := by
  intro old new
  have hheld : (peersAfter [new, old]).get 7 = some old := by decide
  refine ⟨by decide, by decide, hheld, by decide, ?_⟩
  intro h
  obtain ⟨v, hv, -, hle⟩ := h new (by simp)
  rw [hheld, Option.some.injEq] at hv
  rw [← hv] at hle
  exact absurd hle (by decide)

/-! ## Bandwidth -/

structure BandwidthReport where
  timestamp : ℕ
  cumulativeIn : ℕ
  cumulativeOut : ℕ
deriving DecidableEq, Repr

structure PeerEntry where
  cumulativeIn : ℕ
  cumulativeOut : ℕ
  lastSeen : ℕ

structure ClusterBandwidthState where
  peers : HashMap NodeId PeerEntry := ∅
  totalBytesIn : ℕ := 0
  totalBytesOut : ℕ := 0
  peerCount : ℕ := 0

def saturatingAdd (a b : ℕ) : ℕ := min (a + b) (2 ^ 64 - 1)

def recalculate (peers : HashMap NodeId PeerEntry) : ClusterBandwidthState where
  peers
  totalBytesIn := peers.pairs.foldl (fun total e => saturatingAdd total e.2.cumulativeIn) 0
  totalBytesOut := peers.pairs.foldl (fun total e => saturatingAdd total e.2.cumulativeOut) 0
  peerCount := peers.pairs.length

def updatePeer (s : ClusterBandwidthState) (now : ℕ) (peerId : NodeId) (cumulativeIn cumulativeOut : ℕ) : ClusterBandwidthState :=
  recalculate (s.peers.insert peerId ⟨cumulativeIn, cumulativeOut, now⟩)

variable (staleTimeout : ℕ)

def evictStale (s : ClusterBandwidthState) (now : ℕ) : ClusterBandwidthState :=
  recalculate (s.peers.retain fun _ entry => decide (now < entry.lastSeen + staleTimeout))

inductive BandwidthOp where
  | report (now : ℕ) (sender : NodeId) (report : BandwidthReport)
  | evictStale (now : ℕ)

def BandwidthOp.apply (s : ClusterBandwidthState) : BandwidthOp → ClusterBandwidthState
  -- `apply_bandwidth_message` passes neither the timestamp nor anything else that orders reports
  | report now sender r => updatePeer s now sender r.cumulativeIn r.cumulativeOut
  | evictStale now => Cluster.evictStale staleTimeout s now

def bandwidthAfter (ops : List BandwidthOp) : ClusterBandwidthState := ops.foldl (BandwidthOp.apply staleTimeout) {}

variable (ops : List BandwidthOp)

def arrivals : List (NodeId × BandwidthReport × ℕ) := ops.filterMap fun
  | .report now sender r => some (sender, r, now)
  | .evictStale _ => none

def heard : HashMap NodeId PeerEntry :=
  ofPairs ((arrivals ops).map fun a => (a.1, ⟨a.2.1.cumulativeIn, a.2.1.cumulativeOut, a.2.2⟩))

/-- at every eviction each peer was last heard of within the timeout -/
def WithinTimeout (ops : List BandwidthOp) : Prop := ∀ pre now post, ops = pre ++ .evictStale now :: post →
  ∀ node entry, (heard pre).get node = some entry → now < entry.lastSeen + staleTimeout

theorem bandwidthAfter_eq {staleTimeout : ℕ} {ops : List BandwidthOp} (h : WithinTimeout staleTimeout ops) :
    bandwidthAfter staleTimeout ops = recalculate (heard ops) := by
  induction ops using reverseRecOn with
  | nil => rfl
  | append_singleton ops op ih =>
    have hbefore : WithinTimeout staleTimeout ops := by
      intro pre now post hops
      exact h pre now (post ++ [op]) (by rw [hops, append_assoc, cons_append])
    rw [bandwidthAfter, foldl_append, ← bandwidthAfter, ih hbefore, foldl_cons, foldl_nil]
    cases op with
    | report now sender r => simp [BandwidthOp.apply, updatePeer, recalculate, heard, ofPairs, arrivals]
    | evictStale now =>
      have hall : ∀ e ∈ (heard ops).entries, decide (now < e.2.lastSeen + staleTimeout) = true := by
        intro e he
        exact decide_eq_true (h ops now [] rfl e.1 e.2 (AList.mem_lookup_iff.2 he))
      have hkept : (heard ops).retain (fun _ entry => decide (now < entry.lastSeen + staleTimeout)) = heard ops :=
        AList.ext (filter_eq_self.2 hall)
      have hheard : heard (ops ++ [.evictStale now]) = heard ops := by simp [heard, arrivals]
      rw [hheard]
      exact congrArg recalculate hkept

theorem foldl_saturatingAdd {α : Type} (f : α → ℕ) (l : List α) :
    l.foldl (fun total a => saturatingAdd total (f a)) 0 = min (l.map f).sum (2 ^ 64 - 1) := by
  induction l using reverseRecOn with
  | nil => rfl
  | append_singleton l a ih =>
    rw [foldl_append, ih, map_append, sum_append, foldl_cons, foldl_nil, saturatingAdd, map_singleton,
      sum_singleton]
    omega

theorem sum_pairs {m : HashMap NodeId PeerEntry} {senders : Finset NodeId} (hkeys : ∀ k, k ∈ senders ↔ (m.get k).isSome = true)
    (field : PeerEntry → ℕ) (g : NodeId → ℕ) (hval : ∀ k e, m.get k = some e → field e = g k) :
    (m.pairs.map fun e => field e.2).sum = ∑ k ∈ senders, g k := by
  have hsenders : senders = (m.pairs.map (·.1)).toFinset := by
    ext k
    simp [hkeys, Option.isSome_iff_exists, ← mem_pairs_iff]
  rw [hsenders, sum_toFinset g m.nodup_keys_pairs, map_map]
  refine congrArg sum (map_congr_left ?_)
  intro e he
  exact hval e.1 e.2 (mem_pairs_iff.1 he)

variable (field : PeerEntry → ℕ)

/-- the counter of a peer, nought before its first report -/
def held (m : HashMap NodeId PeerEntry) (node : NodeId) : ℕ := (m.get node).elim 0 field

def senders : Finset NodeId := ((arrivals ops).map (·.1)).toFinset

theorem heard_report (now : ℕ) (sender : NodeId) (r : BandwidthReport) :
    heard (ops ++ [.report now sender r]) = (heard ops).insert sender ⟨r.cumulativeIn, r.cumulativeOut, now⟩ := by
  simp [heard, ofPairs, arrivals]

theorem isSome_heard (node : NodeId) : ((heard ops).get node).isSome = true ↔ node ∈ senders ops := by
  rw [heard, isSome_get_ofPairs, senders]
  simp

theorem held_report (ops : List BandwidthOp) (now : ℕ) (sender : NodeId) (r : BandwidthReport) :
    held field (heard (ops ++ [.report now sender r]))
      = Function.update (held field (heard ops)) sender (field ⟨r.cumulativeIn, r.cumulativeOut, now⟩) := by
  funext node
  rw [held, heard_report, get_insert]
  by_cases hnode : node = sender
  · subst hnode
    simp
  · simp [hnode, held]

theorem total_eq {ops : List BandwidthOp} {nodes : Finset NodeId} (hnodes : senders ops ⊆ nodes) :
    (heard ops).pairs.foldl (fun total e => saturatingAdd total (field e.2)) 0
      = min (∑ node ∈ nodes, held field (heard ops) node) (2 ^ 64 - 1) := by
  rw [foldl_saturatingAdd, sum_pairs (fun k => (isSome_heard ops k).symm) field (held field (heard ops)) fun k e he => by simp [held, he]]
  congr 1
  refine Finset.sum_subset hnodes fun node _ hnot => ?_
  rw [← isSome_heard, Option.not_isSome_iff_eq_none] at hnot
  simp [held, hnot]

/-- of each peer, neither counter falls from one delivered report to a later one -/
def CountersRise : Prop := (arrivals ops).Pairwise fun a b => a.1 = b.1 →
  a.2.1.cumulativeIn ≤ b.2.1.cumulativeIn ∧ a.2.1.cumulativeOut ≤ b.2.1.cumulativeOut

/-- of each peer, a report with a timestamp as late as another's has counters as great -/
def Cumulative : Prop := ∀ node a b, (node, a) ∈ arrivals ops → (node, b) ∈ arrivals ops →
  a.1.timestamp ≤ b.1.timestamp → a.1.cumulativeIn ≤ b.1.cumulativeIn ∧ a.1.cumulativeOut ≤ b.1.cumulativeOut

/-- a report of each peer with the greatest timestamp of those delivered -/
def Newest (newest : NodeId → BandwidthReport) : Prop := ∀ node a, (node, a) ∈ arrivals ops →
  (∃ t, (node, newest node, t) ∈ arrivals ops) ∧ a.1.timestamp ≤ (newest node).timestamp

/-- the totals are those of the newest reports, and no report delivered on the way has lowered one -/
structure TotalsConverge (staleTimeout : ℕ) (ops : List BandwidthOp) (newest : NodeId → BandwidthReport) : Prop where
  bytesIn : (bandwidthAfter staleTimeout ops).totalBytesIn = min (∑ node ∈ senders ops, (newest node).cumulativeIn) (2 ^ 64 - 1)
  bytesOut : (bandwidthAfter staleTimeout ops).totalBytesOut = min (∑ node ∈ senders ops, (newest node).cumulativeOut) (2 ^ 64 - 1)
  peerCount : (bandwidthAfter staleTimeout ops).peerCount = (senders ops).card
  kept : ∀ pre now sender r post, ops = pre ++ .report now sender r :: post →
    (bandwidthAfter staleTimeout pre).totalBytesIn ≤ (bandwidthAfter staleTimeout (pre ++ [.report now sender r])).totalBytesIn
      ∧ (bandwidthAfter staleTimeout pre).totalBytesOut ≤ (bandwidthAfter staleTimeout (pre ++ [.report now sender r])).totalBytesOut

section Field

variable {field : PeerEntry → ℕ} {ops : List BandwidthOp}

def entryOf (a : BandwidthReport × ℕ) : PeerEntry := ⟨a.1.cumulativeIn, a.1.cumulativeOut, a.2⟩

/-- a peer's values of the field do not fall from one arrival to the next -/
def Rises (field : PeerEntry → ℕ) (ops : List BandwidthOp) : Prop :=
  (arrivals ops).Pairwise fun a b => a.1 = b.1 → field (entryOf a.2) ≤ field (entryOf b.2)

theorem arrivals_append (pre post : List BandwidthOp) : arrivals (pre ++ post) = arrivals pre ++ arrivals post := filterMap_append

theorem senders_append_subset (pre post : List BandwidthOp) : senders pre ⊆ senders (pre ++ post) := by
  intro node h
  simp only [senders, arrivals_append, map_append, mem_toFinset, mem_append] at h ⊢
  exact .inl h

theorem held_of_mem (field : PeerEntry → ℕ) {node : NodeId} (h : node ∈ senders ops) :
    ∃ a, (node, a) ∈ arrivals ops ∧ held field (heard ops) node = field (entryOf a) := by
  obtain ⟨e, he⟩ := Option.isSome_iff_exists.1 ((isSome_heard ops node).2 h)
  obtain ⟨⟨node', a⟩, ha, hpair⟩ := mem_map.1 (mem_of_get_ofPairs he)
  cases hpair
  exact ⟨a, ha, by rw [held, he]; rfl⟩

theorem held_le {bound : ℕ} {node : NodeId} (h : ∀ a, (node, a) ∈ arrivals ops → field (entryOf a) ≤ bound) :
    held field (heard ops) node ≤ bound := by
  by_cases hnode : node ∈ senders ops
  · obtain ⟨a, ha, hheld⟩ := held_of_mem field hnode
    rw [hheld]
    exact h a ha
  · rw [← isSome_heard, Option.not_isSome_iff_eq_none] at hnode
    simp [held, hnode]

/-- the last report of a peer has its greatest counter, as long as it rises -/
theorem le_held (h : Rises field ops) {node : NodeId} {a : BandwidthReport × ℕ} (ha : (node, a) ∈ arrivals ops) :
    field (entryOf a) ≤ held field (heard ops) node := by
  induction ops using reverseRecOn with
  | nil => cases ha
  | append_singleton ops op ih =>
    rw [Rises, arrivals_append, pairwise_append] at h
    rw [arrivals_append, mem_append] at ha
    cases op with
    | evictStale now =>
      have hheard : heard (ops ++ [.evictStale now]) = heard ops := by simp [heard, arrivals]
      rw [hheard]
      exact ih h.1 (ha.resolve_right fun hnone => by cases hnone)
    | report now sender r =>
      rw [held_report]
      by_cases hnode : node = sender
      · subst hnode
        rw [Function.update_self]
        rcases ha with ha | ha
        · exact h.2.2 _ ha _ (mem_singleton.2 rfl) rfl
        · cases mem_singleton.1 ha
          exact le_rfl
      · rw [Function.update_of_ne hnode]
        exact ih h.1 (ha.resolve_right fun hlast => hnode (congrArg Prod.fst (mem_singleton.1 hlast)))

def totalOf (field : PeerEntry → ℕ) (ops : List BandwidthOp) : ℕ :=
  (heard ops).pairs.foldl (fun total e => saturatingAdd total (field e.2)) 0

theorem sum_held_report (field : PeerEntry → ℕ) (ops : List BandwidthOp) {nodes : Finset NodeId} {sender : NodeId}
    (hsender : sender ∈ nodes) (now : ℕ) (r : BandwidthReport) :
    ∑ node ∈ nodes, held field (heard (ops ++ [.report now sender r])) node + held field (heard ops) sender
      = ∑ node ∈ nodes, held field (heard ops) node + field (entryOf (r, now)) := by
  rw [held_report, Finset.sum_update_of_mem hsender, Finset.sdiff_singleton_eq_erase, ← Finset.add_sum_erase nodes _ hsender]
  simp only [entryOf]
  omega

theorem totalOf_mono {now : ℕ} {sender : NodeId} {r : BandwidthReport} (h : Rises field (ops ++ [.report now sender r])) :
    totalOf field ops ≤ totalOf field (ops ++ [.report now sender r]) := by
  rw [Rises, arrivals_append, pairwise_append] at h
  have hsender : sender ∈ senders (ops ++ [.report now sender r]) := by simp [senders, arrivals]
  have hheld : held field (heard ops) sender ≤ field (entryOf (r, now)) :=
    held_le fun a ha => h.2.2 _ ha _ (mem_singleton.2 rfl) rfl
  have hsum := sum_held_report field ops hsender now r
  rw [totalOf, totalOf, total_eq field (senders_append_subset ops [.report now sender r]), total_eq field (Finset.Subset.refl _)]
  omega

end Field

section Run

variable {staleTimeout : ℕ} {ops : List BandwidthOp}

theorem WithinTimeout.before {post : List BandwidthOp} (h : WithinTimeout staleTimeout (ops ++ post)) : WithinTimeout staleTimeout ops := by
  intro pre now rest hops
  exact h pre now (rest ++ post) (by rw [hops, append_assoc, cons_append])

theorem totalsAfter (h : WithinTimeout staleTimeout ops) : (bandwidthAfter staleTimeout ops).totalBytesIn = totalOf (·.cumulativeIn) ops
    ∧ (bandwidthAfter staleTimeout ops).totalBytesOut = totalOf (·.cumulativeOut) ops
    ∧ (bandwidthAfter staleTimeout ops).peerCount = (senders ops).card := by
  rw [bandwidthAfter_eq h]
  have hone := sum_pairs (fun k => (isSome_heard ops k).symm) (fun _ => 1) (fun _ => 1) fun _ _ _ => rfl
  exact ⟨rfl, rfl, by simpa [recalculate] using hone⟩

theorem totalOf_newest {field : PeerEntry → ℕ} {newest : NodeId → BandwidthReport} (hrise : Rises field ops)
    (hnewest : ∀ node a, (node, a) ∈ arrivals ops →
      ∃ t, (node, newest node, t) ∈ arrivals ops ∧ field (entryOf a) ≤ field (entryOf (newest node, t)))
    (hseen : ∀ r t t', field (entryOf (r, t)) = field (entryOf (r, t'))) :
    totalOf field ops = min (∑ node ∈ senders ops, field (entryOf (newest node, 0))) (2 ^ 64 - 1) := by
  rw [totalOf, total_eq field (Finset.Subset.refl _)]
  congr 1
  refine Finset.sum_congr rfl fun node hnode => ?_
  obtain ⟨a, ha, hheld⟩ := held_of_mem field hnode
  obtain ⟨t, hmem, hle⟩ := hnewest node a ha
  have hge := le_held hrise hmem
  rw [hseen _ 0 t]
  omega

/-- **Cluster bandwidth.** While peers are not evicted in between and no peer's counters fall in the order of delivery, the totals
converge to those of the newest reports, and no report lowers one. -/
theorem bandwidth_totals_converge {newest : NodeId → BandwidthReport} (htime : WithinTimeout staleTimeout ops)
    (hcumulative : Cumulative ops) (hnewest : Newest ops newest) (hrise : CountersRise ops) :
    TotalsConverge staleTimeout ops newest := by
  have hbelow (node : NodeId) (a : BandwidthReport × ℕ) (ha : (node, a) ∈ arrivals ops) :
      ∃ t, (node, newest node, t) ∈ arrivals ops
        ∧ a.1.cumulativeIn ≤ (newest node).cumulativeIn ∧ a.1.cumulativeOut ≤ (newest node).cumulativeOut := by
    obtain ⟨⟨t, hmem⟩, hle⟩ := hnewest node a ha
    exact ⟨t, hmem, hcumulative node a (newest node, t) ha hmem hle⟩
  obtain ⟨hin, hout, hcount⟩ := totalsAfter htime
  have hfields : Rises (·.cumulativeIn) ops ∧ Rises (·.cumulativeOut) ops :=
    ⟨hrise.imp fun h hsame => (h hsame).1, hrise.imp fun h hsame => (h hsame).2⟩
  refine ⟨?_, ?_, hcount, ?_⟩
  · rw [hin, totalOf_newest hfields.1 (fun node a ha => (hbelow node a ha).imp fun t h => ⟨h.1, h.2.1⟩) fun _ _ _ => rfl]
    rfl
  · rw [hout, totalOf_newest hfields.2 (fun node a ha => (hbelow node a ha).imp fun t h => ⟨h.1, h.2.2⟩) fun _ _ _ => rfl]
    rfl
  · intro pre now sender r post hops
    have hsplit : ops = (pre ++ [.report now sender r]) ++ post := by simpa using hops
    rw [hsplit] at htime
    obtain ⟨hin, hout, -⟩ := totalsAfter htime.before.before
    obtain ⟨hin', hout', -⟩ := totalsAfter htime.before
    rw [hin, hout, hin', hout']
    unfold Rises at hfields
    rw [hsplit, arrivals_append, pairwise_append, pairwise_append] at hfields
    exact ⟨totalOf_mono hfields.1.1, totalOf_mono hfields.2.1⟩

end Run

/-- three reports of two peers, one of them delivered twice, and an eviction -/
def gossipedReports : List BandwidthOp :=
  [.report 0 7 ⟨1, 10, 20⟩, .report 1 8 ⟨5, 1, 2⟩, .report 2 7 ⟨1, 10, 20⟩, .evictStale 3, .report 4 7 ⟨2, 30, 40⟩]

def gossipedNewest (node : NodeId) : BandwidthReport := if node = 7 then ⟨2, 30, 40⟩ else ⟨5, 1, 2⟩

theorem bandwidth_totals_gossiped : TotalsConverge 60 gossipedReports gossipedNewest
    ∧ ∑ node ∈ senders gossipedReports, (gossipedNewest node).cumulativeIn = 31 := by
  have htime : WithinTimeout 60 gossipedReports := by
    intro pre now post h node entry _
    have hevict : .evictStale now ∈ gossipedReports := by simp [h]
    obtain rfl : now = 3 := by simpa [gossipedReports] using hevict
    omega
  have hcumulative : ∀ x ∈ arrivals gossipedReports, ∀ y ∈ arrivals gossipedReports, x.1 = y.1 → x.2.1.timestamp ≤ y.2.1.timestamp →
      x.2.1.cumulativeIn ≤ y.2.1.cumulativeIn ∧ x.2.1.cumulativeOut ≤ y.2.1.cumulativeOut := by decide
  have hnewest : ∀ x ∈ arrivals gossipedReports, (∃ y ∈ arrivals gossipedReports, y.1 = x.1 ∧ y.2.1 = gossipedNewest x.1)
      ∧ x.2.1.timestamp ≤ (gossipedNewest x.1).timestamp := by decide
  refine ⟨bandwidth_totals_converge htime (fun node a b ha hb => hcumulative _ ha _ hb rfl) (fun node a ha => ?_)
    (by unfold CountersRise; decide), by decide⟩
  obtain ⟨⟨⟨node', r, t⟩, hmem, hnode, hr⟩, hle⟩ := hnewest _ ha
  cases hnode
  cases hr
  exact ⟨⟨t, hmem⟩, hle⟩

theorem late_report_lowers_total :
    let old : BandwidthOp := .report 1 7 ⟨1, 10, 20⟩
    let new : BandwidthOp := .report 0 7 ⟨2, 30, 40⟩
    (bandwidthAfter 60 [new]).totalBytesIn = 30 ∧ (bandwidthAfter 60 [new, old]).totalBytesIn = 10
      ∧ (bandwidthAfter 60 [new, old]).totalBytesOut = 20 := by
  decide

end SunbeamProxy.Cluster
