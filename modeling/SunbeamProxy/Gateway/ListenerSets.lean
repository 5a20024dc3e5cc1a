/-
Conflicts between the listeners of a Gateway and of the ListenerSets attached to it (`gateway/reconcile/listenerset/state.rs`).
-/
import SunbeamProxy.Core.CanonicalOrder
import SunbeamProxy.Core.Placement
import SunbeamProxy.Gateway.Hostnames

namespace SunbeamProxy.Gateway

open Text List

structure ListenerSetRecord extends ListenerSetState where
  parentRef : ParentRef
  createdAt : ℤ := 0

namespace ListenerSetRecord

def parentGateway (ls : ListenerSetRecord) : String × String :=
  (ls.parentRef.namespace_.getD ls.namespace_, ls.parentRef.name)

def precedence (ls : ListenerSetRecord) : ℤ ×ₗ String ×ₗ String := toLex (ls.createdAt, toLex (ls.namespace_, ls.name))

end ListenerSetRecord

inductive Owner where
  | gateway (namespace_ name : String)
  | listenerSet (idx : ℕ)

structure ActiveListener where
  port : UInt16
  protocol : String
  hostname : Option String
  owner : Owner

def sameParentGateway (active : ActiveListener) (sets : List ListenerSetRecord) (parent : String × String) : Bool :=
  match active.owner with
  | .gateway ns name => (ns, name) = parent
  | .listenerSet idx => sets[idx]?.any fun other => other.parentGateway = parent

def hostnameMatches (a b : Option String) : Bool :=
  hostnameIntersects ((a.map parseListenerHostname).getD .any) ((b.map parseListenerHostname).getD .any)

def conflictReason (sets : List ListenerSetRecord) (parent : String × String) (accepted : List ActiveListener)
    (l : ListenerState) : Option String :=
  (accepted.find? fun active =>
    sameParentGateway active sets parent && active.port == l.port && hostnameMatches active.hostname l.hostname).map
    fun active => if eqIgnoreAsciiCase active.protocol l.protocol then "HostnameConflict" else "ProtocolConflict"

variable (gateways : List GatewayState)

def gatewayListeners : List ActiveListener :=
  gateways.flatMap fun gw => gw.listeners.map fun l => ⟨l.port, l.protocol, l.hostname, .gateway gw.namespace_ gw.name⟩

abbrev Placing := List ActiveListener × List (ℕ × String × String)

def placeListener (reserved : UInt16 → Bool) (sets : List ListenerSetRecord) (idx : ℕ) (ls : ListenerSetRecord)
    (acc : Placing) (l : ListenerState) : Placing :=
  if reserved l.port then (acc.1, acc.2 ++ [(idx, l.name, "PortUnavailable")])
  else match conflictReason sets ls.parentGateway acc.1 l with
    | some reason => (acc.1, acc.2 ++ [(idx, l.name, reason)])
    | none => (acc.1 ++ [⟨l.port, l.protocol, l.hostname, .listenerSet idx⟩], acc.2)

def placeSet (reserved : UInt16 → Bool) (sets : List ListenerSetRecord) (acc : Placing) (idx : ℕ) : Placing :=
  match sets[idx]? with
  | some ls => ls.listeners.foldl (placeListener reserved sets idx ls) acc
  | none => acc

namespace ListenerSetRecord

def addConflict (ls : ListenerSetRecord) (c : String × String) : ListenerSetRecord :=
  { ls with conflicts := ls.conflicts.insert c.1 c.2 }

def refuseUnlessValid (ls : ListenerSetRecord) : ListenerSetRecord :=
  if ls.accepted && !ls.listeners.any fun l => (ls.conflicts.get l.name).isNone then
    { ls with accepted := false, programmed := false, reason := "ListenersNotValid" }
  else ls

end ListenerSetRecord

def resolveListenerSetConflicts (reserved : UInt16 → Bool) (sets : List ListenerSetRecord) (gateways : List GatewayState) :
    List ListenerSetRecord :=
  let placing := (sortOrder (·.precedence) sets).foldl (placeSet reserved sets) (gatewayListeners gateways, [])
  let marked := placing.2.foldl (fun sets c => sets.modify c.1 (·.addConflict c.2)) sets
  marked.map (·.refuseUnlessValid)

/-! ## The pass over bids -/

structure Bid where
  owner : Option (ℕ × ListenerSetRecord)
  parent : String × String
  listener : ListenerState

def gatewayBids : List Bid :=
  gateways.flatMap fun gw => gw.listeners.map fun l => ⟨none, (gw.namespace_, gw.name), l⟩

def setBids (e : ListenerSetRecord × ℕ) : List Bid := e.1.listeners.map fun l => ⟨some (e.2, e.1), e.1.parentGateway, l⟩

def bids (sets : List ListenerSetRecord) : List Bid := (sortByKey (·.1.precedence) sets.zipIdx).flatMap setBids

namespace Bid

def blocks (a b : Bid) : Bool :=
  a.parent = b.parent && a.listener.port == b.listener.port && hostnameMatches a.listener.hostname b.listener.hostname

def reason (a b : Bid) : String :=
  if eqIgnoreAsciiCase a.listener.protocol b.listener.protocol then "HostnameConflict" else "ProtocolConflict"

variable (reserved : UInt16 → Bool)

def portRefused (b : Bid) : Option String :=
  if reserved b.listener.port then some "PortUnavailable" else none

def verdict : List Bid → Bid → Option String := judge (portRefused reserved) blocks reason

def active (b : Bid) : ActiveListener := ⟨b.listener.port, b.listener.protocol, b.listener.hostname, match b.owner with
    | none => .gateway b.parent.1 b.parent.2
    | some e => .listenerSet e.1⟩

/-- a bid made for a set is one of a set in the list -/
def Of (sets : List ListenerSetRecord) (b : Bid) : Prop :=
  ∀ e, b.owner = some e → sets[e.1]? = some e.2 ∧ b.parent = e.2.parentGateway

variable {sets : List ListenerSetRecord}

theorem sameParentGateway_active {a : Bid} (h : a.Of sets) (parent : String × String) :
    sameParentGateway a.active sets parent = decide (a.parent = parent) := by
  unfold sameParentGateway active
  cases ho : a.owner with
  | none => rfl
  | some e =>
    obtain ⟨hset, hparent⟩ := h e ho
    simp [hset, hparent]

theorem conflictReason_eq {kept : List Bid} (h : ∀ a ∈ kept, a.Of sets) (b : Bid) :
    conflictReason sets b.parent (kept.map active) b.listener = (kept.find? (blocks · b)).map (reason · b) := by
  rw [conflictReason, find?_map, Option.map_map]
  have hsame : kept.find? ((fun a : ActiveListener => sameParentGateway a sets b.parent && a.port == b.listener.port
      && hostnameMatches a.hostname b.listener.hostname) ∘ active) = kept.find? (blocks · b) := by
    refine find?_congr fun a ha => ?_
    simp only [Function.comp_apply, sameParentGateway_active (h a ha)]
    rfl
  rw [hsame]
  rfl

def mark (e : Bid × String) : Option (ℕ × String × String) := e.1.owner.map fun o => (o.1, e.1.listener.name, e.2)

def place (sets : List ListenerSetRecord) (acc : Placing) (b : Bid) : Placing :=
  match b.owner with
  | some e => placeListener reserved sets e.1 e.2 acc b.listener
  | none => acc

/-- **The loops are a pass.** What the source holds as active is what the pass places, and its conflicts are what the pass
refuses. -/
theorem foldl_place {xs : List Bid}
    (hxs : ∀ b ∈ xs, b.Of sets ∧ b.owner.isSome) {kept : List Bid} (hkept : ∀ a ∈ kept, a.Of sets)
    (marks : List (ℕ × String × String)) :
    xs.foldl (place reserved sets) (kept.map active, marks) = ((kept ++ placed (verdict reserved) kept xs).map active,
          marks ++ (refusals (verdict reserved) kept xs).filterMap mark) := by
  induction xs generalizing kept marks with
  | nil => simp [placed, refusals]
  | cons b xs ih =>
    rw [forall_mem_cons] at hxs
    obtain ⟨e, he⟩ := Option.isSome_iff_exists.1 hxs.1.2
    have hparent := (hxs.1.1 e he).2.symm
    have hverdict : verdict reserved kept b = if reserved b.listener.port then some "PortUnavailable"
        else conflictReason sets b.parent (kept.map active) b.listener := by
      rw [conflictReason_eq hkept, verdict, judge, portRefused]
      split <;> rfl
    have hplace : place reserved sets (kept.map active, marks) b = match verdict reserved kept b with
        | some r => (kept.map active, marks ++ [(e.1, b.listener.name, r)])
        | none => ((kept ++ [b]).map active, marks) := by
      rw [hverdict, place, he]
      dsimp only
      rw [placeListener, hparent]
      split
      · rfl
      · cases conflictReason sets b.parent (kept.map active) b.listener with
        | some r => rfl
        | none => simp [active, he]
    rw [foldl_cons, hplace, placed, refusals]
    cases verdict reserved kept b with
    | some r =>
      rw [ih hxs.2 hkept]
      simp [mark, he]
    | none =>
      have hmore : ∀ a ∈ kept ++ [b], a.Of sets := by
        intro a ha
        rcases mem_append.1 ha with ha | ha
        · exact hkept a ha
        · exact mem_singleton.1 ha ▸ hxs.1.1
      rw [ih hxs.2 hmore, append_assoc, singleton_append]

end Bid

theorem mem_setBids {e : ListenerSetRecord × ℕ} {b : Bid} :
    b ∈ setBids e ↔ b.owner = some (e.2, e.1) ∧ b.parent = e.1.parentGateway ∧ b.listener ∈ e.1.listeners := by
  rw [setBids, mem_map]
  apply Iff.intro
  · intro h
    obtain ⟨l, hl, rfl⟩ := h
    exact ⟨rfl, rfl, hl⟩
  · intro h
    refine ⟨b.listener, h.2.2, ?_⟩
    rw [← h.1, ← h.2.1]

variable {sets : List ListenerSetRecord}

theorem mem_bids {b : Bid} : b ∈ bids sets ↔ ∃ i ls, sets[i]? = some ls ∧ b.owner = some (i, ls) ∧ b.parent = ls.parentGateway
      ∧ b.listener ∈ ls.listeners := by
  rw [bids, mem_flatMap]
  apply Iff.intro
  · intro h
    obtain ⟨e, he, hb⟩ := h
    have hmem := mem_zipIdx_iff_getElem?.1 ((sortByKey_perm _ _).subset he)
    exact ⟨e.2, e.1, hmem, mem_setBids.1 hb⟩
  · intro h
    obtain ⟨i, ls, hls, hb⟩ := h
    exact ⟨(ls, i), (sortByKey_perm _ _).symm.subset (mem_zipIdx_iff_getElem?.2 hls), mem_setBids.2 hb⟩

theorem of_mem_bids {b : Bid} (h : b ∈ bids sets) : b.Of sets ∧ b.owner.isSome := by
  obtain ⟨i, ls, hls, howner, hparent, -⟩ := mem_bids.1 h
  refine ⟨?_, by rw [howner]; rfl⟩
  intro e he
  rw [howner, Option.some.injEq] at he
  subst he
  exact ⟨hls, hparent⟩

def refusedBids (reserved : UInt16 → Bool) (sets : List ListenerSetRecord) (gateways : List GatewayState) :
    List (Bid × String) :=
  refusals (Bid.verdict reserved) (gatewayBids gateways) (bids sets)

theorem placing_eq (reserved : UInt16 → Bool) (sets : List ListenerSetRecord) (gateways : List GatewayState) :
    ((sortOrder (·.precedence) sets).foldl (placeSet reserved sets) (gatewayListeners gateways, [])).2
      = (refusedBids reserved sets gateways).filterMap Bid.mark := by
  have hstart : gatewayListeners gateways = (gatewayBids gateways).map Bid.active := by
    simp only [gatewayBids, map_flatMap, map_map]
    rfl
  have hgateways : ∀ a ∈ gatewayBids gateways, a.Of sets := by
    intro a ha e he
    simp only [gatewayBids, mem_flatMap, mem_map] at ha
    obtain ⟨gw, -, l, -, rfl⟩ := ha
    cases he
  -- the loop over positions, then over listeners, is the loop over bids
  have hloops : ∀ acc, (sortOrder (·.precedence) sets).foldl (placeSet reserved sets) acc
      = (bids sets).foldl (Bid.place reserved sets) acc := by
    intro acc
    rw [sortOrder, foldl_map, bids, foldl_flatMap]
    refine foldl_ext _ _ _ fun acc e he => ?_
    have hmem := mem_zipIdx_iff_getElem?.1 ((sortByKey_perm _ _).subset he)
    rw [placeSet, hmem, setBids, foldl_map]
    rfl
  rw [hloops, hstart, Bid.foldl_place reserved (fun b hb => of_mem_bids hb) hgateways]
  rfl

namespace ListenerSetRecord

variable (ls : ListenerSetRecord)

def marked (name : String) : Bool := (ls.conflicts.get name).isSome

def keptListeners : List ListenerState := ls.listeners.filter fun l => !ls.marked l.name

def resolved (conflicts : List (String × String)) : ListenerSetRecord :=
  (conflicts.foldl addConflict ls).refuseUnlessValid

theorem foldl_addConflict (cs : List (String × String)) :
    cs.foldl addConflict ls = { ls with conflicts := cs.foldl (fun m c => m.insert c.1 c.2) ls.conflicts } := by
  induction cs generalizing ls with
  | nil => rfl
  | cons c cs ih => rw [foldl_cons, ih]; rfl

theorem resolved_fields (cs : List (String × String)) :
    (ls.resolved cs).listeners = ls.listeners ∧ (ls.resolved cs).parentGateway = ls.parentGateway
      ∧ (ls.resolved cs).precedence = ls.precedence
      ∧ (ls.resolved cs).conflicts = cs.foldl (fun m c => m.insert c.1 c.2) ls.conflicts := by
  rw [resolved, foldl_addConflict, refuseUnlessValid]
  split <;> exact ⟨rfl, rfl, rfl, rfl⟩

theorem marked_resolved {ls : ListenerSetRecord} {cs : List (String × String)} {name : String} :
    (ls.resolved cs).marked name = true ↔ ls.marked name = true ∨ ∃ r, (name, r) ∈ cs := by
  simp only [marked, (resolved_fields ls cs).2.2.2]
  generalize ls.conflicts = m
  induction cs generalizing m with
  | nil => simp
  | cons c cs ih =>
    rw [foldl_cons, ih, HashMap.get_insert]
    by_cases h : name = c.1
    · subst h
      simp only [if_true, Option.isSome_some, true_or, mem_cons, true_iff]
      exact .inr ⟨c.2, .inl rfl⟩
    · have hne : ∀ r, (name, r) ≠ c := fun r heq => h (heq ▸ rfl)
      simp [h, hne]

end ListenerSetRecord

def conflictsAt (refused : List (Bid × String)) (i : ℕ) : List (String × String) :=
  ((refused.filterMap Bid.mark).filter (·.1 = i)).map (·.2)

theorem exists_mem_conflictsAt {refused : List (Bid × String)} {i : ℕ} {name : String} : (∃ r, (name, r) ∈ conflictsAt refused i)
      ↔ ∃ b ls r, (b, r) ∈ refused ∧ b.owner = some (i, ls) ∧ b.listener.name = name := by
  simp only [conflictsAt, mem_map, mem_filter, mem_filterMap, decide_eq_true_eq, Bid.mark, Option.map_eq_some_iff]
  apply Iff.intro
  · rintro ⟨_, _, ⟨⟨⟨b, r⟩, hb, ⟨_, ls⟩, howner, rfl⟩, rfl⟩, hname⟩
    exact ⟨b, ls, r, hb, howner, congrArg Prod.fst hname⟩
  · rintro ⟨b, ls, r, hb, howner, rfl⟩
    exact ⟨r, (i, b.listener.name, r), ⟨⟨(b, r), hb, (i, ls), howner, rfl⟩, rfl⟩, rfl⟩

theorem getElem?_foldl_modify (cs : List (ℕ × String × String)) (sets : List ListenerSetRecord) (i : ℕ) :
    (cs.foldl (fun sets c => sets.modify c.1 (·.addConflict c.2)) sets)[i]?
      = sets[i]?.map fun ls => ((cs.filter (·.1 = i)).map (·.2)).foldl ListenerSetRecord.addConflict ls := by
  induction cs generalizing sets with
  | nil => simp
  | cons c cs ih =>
    rw [foldl_cons, ih]
    by_cases h : c.1 = i <;> simp [h, Function.comp_def]

/-- **The result, by position.** Each set gets the conflicts of its own refused bids. -/
theorem getElem?_resolve (reserved : UInt16 → Bool) (sets : List ListenerSetRecord) (gateways : List GatewayState) (i : ℕ) :
    (resolveListenerSetConflicts reserved sets gateways)[i]?
      = sets[i]?.map (·.resolved (conflictsAt (refusedBids reserved sets gateways) i)) := by
  simp only [resolveListenerSetConflicts, placing_eq]
  rw [getElem?_map, getElem?_foldl_modify, Option.map_map]
  rfl

variable {reserved : UInt16 → Bool}

theorem mem_resolve {gateways : List GatewayState} {ls : ListenerSetRecord} :
    ls ∈ resolveListenerSetConflicts reserved sets gateways ↔ ∃ (i : ℕ) (s : ListenerSetRecord), sets[i]? = some s
        ∧ s.resolved (conflictsAt (refusedBids reserved sets gateways) i) = ls := by
  simp [mem_iff_getElem?, getElem?_resolve]

theorem marked_iff {gateways : List GatewayState} {i : ℕ} {s : ListenerSetRecord} {name : String} :
    (s.resolved (conflictsAt (refusedBids reserved sets gateways) i)).marked name = true ↔ s.marked name = true
        ∨ ∃ b ls r, (b, r) ∈ refusedBids reserved sets gateways ∧ b.owner = some (i, ls) ∧ b.listener.name = name := by
  rw [ListenerSetRecord.marked_resolved, exists_mem_conflictsAt]

theorem hostnameMatches_comm (a b : Option String) : hostnameMatches a b = hostnameMatches b a := by
  simp [hostnameMatches, hostnameIntersects, Bool.or_comm]

abbrev Occupant := (String × String) × ListenerState

def overlaps (a b : Occupant) : Bool := a.1 = b.1 && a.2.port == b.2.port && hostnameMatches a.2.hostname b.2.hostname

theorem overlaps_comm (a b : Occupant) : overlaps a b = overlaps b a := by
  rw [overlaps, overlaps, hostnameMatches_comm, Bool.eq_iff_iff]
  simp only [Bool.and_eq_true, decide_eq_true_eq, beq_iff_eq]
  rw [eq_comm (a := a.1), eq_comm (a := a.2.port)]

def gatewayOccupants : List Occupant :=
  gateways.flatMap fun gw => gw.listeners.map fun l => ((gw.namespace_, gw.name), l)

def keptOccupants (sets : List ListenerSetRecord) : List Occupant :=
  sets.flatMap fun ls => ls.keptListeners.map fun l => (ls.parentGateway, l)

def Bid.occupant (b : Bid) : Occupant := (b.parent, b.listener)

theorem map_occupant_gatewayBids :
    (gatewayBids gateways).map Bid.occupant = gatewayOccupants gateways := by
  simp only [gatewayBids, map_flatMap, map_map]
  rfl

section Sound

variable (reserved : UInt16 → Bool) (sets : List ListenerSetRecord) (gateways : List GatewayState)

theorem resolve_eq_map : resolveListenerSetConflicts reserved sets gateways
    = sets.zipIdx.map fun e => e.1.resolved (conflictsAt (refusedBids reserved sets gateways) e.2) := by
  apply ext_getElem?
  intro i
  rw [getElem?_resolve, getElem?_map, getElem?_zipIdx, Option.map_map, Nat.zero_add]
  rfl

def unmarkedBid (b : Bid) : Bool :=
  b.owner.any fun o => !(o.2.resolved (conflictsAt (refusedBids reserved sets gateways) o.1)).marked b.listener.name

theorem keptOccupants_eq : keptOccupants (resolveListenerSetConflicts reserved sets gateways)
    = ((sets.zipIdx.flatMap setBids).filter (unmarkedBid reserved sets gateways)).map Bid.occupant := by
  rw [keptOccupants, resolve_eq_map, flatMap_map, filter_flatMap, map_flatMap]
  refine flatMap_congr fun e _ => ?_
  have hfields := e.1.resolved_fields (conflictsAt (refusedBids reserved sets gateways) e.2)
  rw [ListenerSetRecord.keptListeners, hfields.1, hfields.2.1, setBids, filter_map, map_map]
  rfl

theorem keptOccupants_perm : (keptOccupants (resolveListenerSetConflicts reserved sets gateways)).Perm
    (((bids sets).filter (unmarkedBid reserved sets gateways)).map Bid.occupant) := by
  rw [keptOccupants_eq]
  exact (((sortByKey_perm _ _).symm.flatMap_right setBids).filter _).map _

theorem filter_unmarked_sublist : ((bids sets).filter (unmarkedBid reserved sets gateways)).Sublist
    (placed (Bid.verdict reserved) (gatewayBids gateways) (bids sets)) := by
  have hrefused : ∀ e ∈ refusedBids reserved sets gateways, unmarkedBid reserved sets gateways e.1 = false := by
    intro e he
    rw [unmarkedBid]
    cases ho : e.1.owner with
    | none => rfl
    | some o =>
      have hmarked : (o.2.resolved (conflictsAt (refusedBids reserved sets gateways) o.1)).marked e.1.listener.name = true :=
        marked_iff.2 (.inr ⟨e.1, o.2, e.2, he, ho, rfl⟩)
      simp [hmarked]
  have hfilter := filter_placed hrefused
  rw [← hfilter]
  exact filter_sublist

theorem kept_disjoint :
    (keptOccupants (resolveListenerSetConflicts reserved sets gateways)).Pairwise (fun a b => overlaps a b = false)
      ∧ ∀ a ∈ gatewayOccupants gateways, ∀ b ∈ keptOccupants (resolveListenerSetConflicts reserved sets gateways),
        overlaps a b = false := by
  have hplaced := @pairwise_placed _ _ (Bid.portRefused reserved) Bid.blocks Bid.reason (gatewayBids gateways) (bids sets)
  have hsub := filter_unmarked_sublist reserved sets gateways
  have hperm := keptOccupants_perm reserved sets gateways
  apply And.intro
  · rw [hperm.pairwise_iff fun h => (overlaps_comm _ _).trans h, pairwise_map]
    exact hplaced.1.sublist hsub
  · intro a ha b hb
    rw [← map_occupant_gatewayBids] at ha
    obtain ⟨a', ha', rfl⟩ := mem_map.1 ha
    obtain ⟨b', hb', rfl⟩ := mem_map.1 (hperm.subset hb)
    exact hplaced.2 a' ha' b' (hsub.subset hb')

/-! ## Every mark has its reason -/

/-- `a` is taken before `b`: earlier in the same set, or of a set that does not come later -/
def Bid.Before (a b : Bid) : Prop := ∀ o o', a.owner = some o → b.owner = some o' →
    o.1 = o'.1 ∧ [a.listener, b.listener].Sublist o'.2.listeners ∨ o.1 ≠ o'.1 ∧ o.2.precedence ≤ o'.2.precedence

omit reserved gateways in
theorem pairwise_bids : (bids sets).Pairwise Bid.Before := by
  rw [bids, pairwise_flatMap]
  apply And.intro
  · intro e _
    rw [setBids, pairwise_map, pairwise_iff_forall_sublist]
    intro l l' hsub o o' ho ho'
    cases ho
    cases ho'
    exact .inl ⟨rfl, hsub⟩
  · have hsorted : (sortByKey (fun e : ListenerSetRecord × ℕ => e.1.precedence) sets.zipIdx).Pairwise
        fun e e' => e.1.precedence ≤ e'.1.precedence := sortByKey_pairwise _
    have hpositions : (sortByKey (fun e : ListenerSetRecord × ℕ => e.1.precedence) sets.zipIdx).Pairwise
        fun e e' => e.2 ≠ e'.2 := by
      rw [(sortByKey_perm _ _).pairwise_iff fun h => h.symm, ← pairwise_map, zipIdx_map_snd]
      exact nodup_range'
    refine (hsorted.and hpositions).imp ?_
    intro e e' hle a ha b hb o o' ho ho'
    rw [(mem_setBids.1 ha).1, Option.some.injEq] at ho
    rw [(mem_setBids.1 hb).1, Option.some.injEq] at ho'
    subst ho
    subst ho'
    exact .inr ⟨hle.2, hle.1⟩

/-- sets as the API server holds them before resolution: no two of one creation time, namespace and name, the names of the
listeners of a set different, and no conflict noted -/
structure Distinct (sets : List ListenerSetRecord) : Prop where
  keys : (sets.map (·.precedence)).Nodup
  names : ∀ ls ∈ sets, (ls.listeners.map (·.name)).Nodup
  unmarked : ∀ ls ∈ sets, ∀ name, ls.marked name = false

variable {reserved sets gateways}

variable {s : ListenerSetRecord}

theorem position_eq (hkeys : (sets.map (·.precedence)).Nodup) {i j : ℕ} {s' : ListenerSetRecord}
    (hs : sets[i]? = some s) (hs' : sets[j]? = some s') (heq : s.precedence = s'.precedence) : i = j := by
  have hi : i < (sets.map (·.precedence)).length := by
    rw [length_map]
    exact (List.getElem?_eq_some_iff.1 hs).1
  refine (getElem?_inj hi hkeys).1 ?_
  simp [getElem?_map, hs, hs', heq]

theorem eq_of_name_eq (h : Distinct sets) {a b : Bid} (ha : a ∈ bids sets) (hb : b ∈ bids sets) {i : ℕ}
    {s' : ListenerSetRecord} (hoa : a.owner = some (i, s)) (hob : b.owner = some (i, s'))
    (hname : a.listener.name = b.listener.name) : a = b := by
  obtain ⟨j, ls, hls, howner, hparent, hl⟩ := mem_bids.1 ha
  obtain ⟨k, ls', hls', howner', hparent', hl'⟩ := mem_bids.1 hb
  rw [hoa, Option.some.injEq, Prod.mk.injEq] at howner
  rw [hob, Option.some.injEq, Prod.mk.injEq] at howner'
  rw [← howner.1] at hls
  rw [← howner'.1, hls, Option.some.injEq] at hls'
  subst hls'
  have hlistener := inj_on_of_nodup_map (h.names ls (mem_of_getElem? hls)) hl hl' hname
  cases a
  cases b
  simp_all

theorem nodup_bids (h : Distinct sets) : (bids sets).Nodup := by
  have hpairs := pairwise_bids sets
  refine (Pairwise.imp_of_mem ?_ hpairs)
  intro a b ha _ hbefore heq
  subst heq
  obtain ⟨i, ls, hls, howner, -, -⟩ := mem_bids.1 ha
  rcases hbefore _ _ howner howner with ⟨-, hsub⟩ | ⟨hne, -⟩
  · have hnames := (hsub.map (·.name)).nodup (h.names ls (mem_of_getElem? hls))
    simp at hnames
  · exact hne rfl

/-- a listener in conflict has a reserved port, or overlaps one that is kept and comes before it -/
def MarksJustified (reserved : UInt16 → Bool) (gateways : List GatewayState) (sets : List ListenerSetRecord) : Prop :=
  ∀ ls ∈ sets, ∀ l ∈ ls.listeners, ls.marked l.name = true → reserved l.port = true
      ∨ (∃ a ∈ gatewayOccupants gateways, overlaps a (ls.parentGateway, l) = true)
      ∨ (∃ ls' ∈ sets, ls'.precedence < ls.precedence
          ∧ ∃ l' ∈ ls'.keptListeners, overlaps (ls'.parentGateway, l') (ls.parentGateway, l) = true)
      ∨ ∃ l' ∈ ls.keptListeners, [l', l].Sublist ls.listeners ∧ overlaps (ls.parentGateway, l') (ls.parentGateway, l) = true

theorem mem_keptListeners_of_placed (h : Distinct sets) {b : Bid}
    (hb : b ∈ placed (Bid.verdict reserved) (gatewayBids gateways) (bids sets)) {i : ℕ}
    (howner : b.owner = some (i, s)) :
    b.listener ∈ (s.resolved (conflictsAt (refusedBids reserved sets gateways) i)).keptListeners := by
  have hmem := (placed_sublist _ _).subset hb
  obtain ⟨j, ls, hls, ho, -, hl⟩ := mem_bids.1 hmem
  rw [howner] at ho
  obtain ⟨rfl, rfl⟩ := ho
  rw [ListenerSetRecord.keptListeners, mem_filter, (s.resolved_fields _).1]
  refine ⟨hl, ?_⟩
  rw [Bool.not_eq_true', ← Bool.not_eq_true, marked_iff, not_or]
  refine ⟨by rw [h.unmarked s (mem_of_getElem? hls)]; exact Bool.false_ne_true, ?_⟩
  intro hrefused
  obtain ⟨b', ls, r, hb', ho', hname⟩ := hrefused
  rw [eq_of_name_eq h (mem_of_mem_refusals hb') hmem ho' howner hname] at hb'
  exact not_mem_refusals (nodup_bids h) hb r hb'

theorem marks_justified (h : Distinct sets) :
    MarksJustified reserved gateways (resolveListenerSetConflicts reserved sets gateways) := by
  intro ls hls l hl hmarked
  obtain ⟨i, s, hs, rfl⟩ := mem_resolve.1 hls
  obtain ⟨hlisteners, hparent, hprecedence, -⟩ := s.resolved_fields (conflictsAt (refusedBids reserved sets gateways) i)
  rw [hlisteners] at hl
  rw [hlisteners, hparent, hprecedence]
  -- the mark comes from a refused bid, and that is the bid of this listener
  rcases marked_iff.1 hmarked with hbefore | ⟨b, ls, r, hb, howner, hname⟩
  · rw [h.unmarked s (mem_of_getElem? hs)] at hbefore
    cases hbefore
  have hown : (⟨some (i, s), s.parentGateway, l⟩ : Bid) ∈ bids sets := mem_bids.2 ⟨i, s, hs, rfl, rfl, hl⟩
  have hbid := eq_of_name_eq h (mem_of_mem_refusals hb) hown howner rfl hname
  subst hbid
  rcases exists_blocker hb with hport | ⟨y, hy, hblocks⟩ | ⟨pre, post, hxs, y, hy, hblocks⟩
  · left
    rw [Bid.portRefused] at hport
    split at hport
    · assumption
    · cases hport
  · right; left
    refine ⟨y.occupant, ?_, hblocks⟩
    rw [← map_occupant_gatewayBids]
    exact mem_map_of_mem hy
  · right; right
    have hplaced : y ∈ placed (Bid.verdict reserved) (gatewayBids gateways) (bids sets) := by
      rw [hxs, placed_append]
      exact mem_append_left _ hy
    have hpre := (placed_sublist _ _).subset hy
    obtain ⟨j, s', hs', hyowner, hyparent, -⟩ := mem_bids.1 ((placed_sublist _ _).subset hplaced)
    have hkept := mem_keptListeners_of_placed h hplaced hyowner
    have hoverlap : overlaps (s'.parentGateway, y.listener) (s.parentGateway, l) = true := by
      rw [← hyparent]
      exact hblocks
    have hpairs := pairwise_bids sets
    rw [hxs, pairwise_append] at hpairs
    rcases hpairs.2.2 y hpre _ mem_cons_self _ _ hyowner rfl with ⟨hsame, hsub⟩ | ⟨hne, hle⟩
    · right
      subst hsame
      rw [hs, Option.some.injEq] at hs'
      subst hs'
      exact ⟨y.listener, hkept, hsub, hoverlap⟩
    · left
      obtain ⟨-, hparent', hprecedence', -⟩ := s'.resolved_fields (conflictsAt (refusedBids reserved sets gateways) j)
      refine ⟨_, mem_resolve.2 ⟨j, s', hs', rfl⟩, ?_, y.listener, hkept, ?_⟩
      · rw [hprecedence']
        exact lt_of_le_of_ne hle fun heq => hne (position_eq h.keys hs' hs heq)
      · rw [hparent']
        exact hoverlap

/-! ## The order of the lists -/

theorem Bid.verdict_map (reserved : UInt16 → Bool) {f : Bid → Bid} (h : ∀ b, (f b).parent = b.parent ∧ (f b).listener = b.listener)
    (kept : List Bid) (b : Bid) : Bid.verdict reserved (kept.map f) (f b) = Bid.verdict reserved kept b := by
  have hblocks : (fun a => Bid.blocks a (f b)) ∘ f = fun a => Bid.blocks a b := by
    funext a
    simp [Bid.blocks, h]
  have hreason : (fun a => Bid.reason a (f b)) ∘ f = fun a => Bid.reason a b := by
    funext a
    simp [Bid.reason, h]
  rw [Bid.verdict, judge, judge, find?_map, hblocks, Option.map_map, hreason]
  simp [Bid.portRefused, h]

def Bid.placeless (b : Bid) : Bid := { b with owner := b.owner.map fun o => (0, o.2) }

omit reserved gateways in
theorem map_placeless_bids (sets : List ListenerSetRecord) :
    (bids sets).map Bid.placeless = (sortByKey (·.precedence) sets).flatMap fun ls => setBids (ls, 0) := by
  rw [bids, map_flatMap, ← map_fst_sortByKey_zipIdx (·.precedence) sets, flatMap_map]
  refine flatMap_congr fun e _ => ?_
  rw [setBids, map_map]
  rfl

theorem map_placeless_gatewayBids (gateways : List GatewayState) :
    (gatewayBids gateways).map Bid.placeless = gatewayBids gateways := by
  simp only [gatewayBids, map_flatMap, map_map]
  rfl

theorem map_placeless_refused (reserved : UInt16 → Bool) (sets : List ListenerSetRecord) (gateways : List GatewayState) :
    (refusedBids reserved sets gateways).map (·.1.placeless) = (refusals (Bid.verdict reserved) (gatewayBids gateways)
          ((sortByKey (·.precedence) sets).flatMap fun ls => setBids (ls, 0))).map (·.1) := by
  have hpass := refusals_map (Bid.verdict_map reserved (f := Bid.placeless) fun b => ⟨rfl, rfl⟩)
    (gatewayBids gateways) (bids sets)
  rw [map_placeless_gatewayBids, map_placeless_bids] at hpass
  rw [hpass, map_map]
  rfl

theorem marked_iff_of_keys (hkeys : (sets.map (·.precedence)).Nodup) {i : ℕ} (hs : sets[i]? = some s) {name : String} :
    (s.resolved (conflictsAt (refusedBids reserved sets gateways) i)).marked name = true
      ↔ s.marked name = true ∨ ∃ b ∈ (refusedBids reserved sets gateways).map (·.1.placeless),
          b.owner = some (0, s) ∧ b.listener.name = name := by
  have hset : ∀ {b r j ls}, (b, r) ∈ refusedBids reserved sets gateways → b.owner = some (j, ls) → sets[j]? = some ls := by
    intro b r j ls hb howner
    exact ((of_mem_bids (mem_of_mem_refusals hb)).1 _ howner).1
  rw [marked_iff]
  refine or_congr_right ?_
  apply Iff.intro
  · intro h
    obtain ⟨b, ls, r, hb, howner, hname⟩ := h
    have hls := Option.some.inj (hs.symm.trans (hset hb howner))
    refine ⟨b.placeless, mem_map.2 ⟨(b, r), hb, rfl⟩, ?_, hname⟩
    rw [Bid.placeless, howner, hls]
    rfl
  · intro h
    obtain ⟨b', hb', howner, hname⟩ := h
    obtain ⟨⟨b, r⟩, hb, rfl⟩ := mem_map.1 hb'
    obtain ⟨⟨j, ls⟩, ho, heq⟩ := Option.map_eq_some_iff.1 howner
    have hls := congrArg Prod.snd heq
    subst hls
    have hj := position_eq hkeys (hset hb ho) hs rfl
    subst hj
    exact ⟨b, ls, r, hb, ho, hname⟩

/-- the sets have the same listeners and the same conflicts -/
def SameMarks (sets sets' : List ListenerSetRecord) : Prop :=
  ∀ ls ∈ sets, ∃ ls' ∈ sets', ls'.precedence = ls.precedence ∧ ls'.parentGateway = ls.parentGateway
    ∧ ls'.listeners = ls.listeners ∧ ∀ name, ls'.marked name = ls.marked name

theorem marks_perm (hkeys : (sets.map (·.precedence)).Nodup) {sets' : List ListenerSetRecord}
    {gateways' : List GatewayState} (hsets : sets.Perm sets') (hgateways : gateways.Perm gateways') :
    SameMarks (resolveListenerSetConflicts reserved sets gateways) (resolveListenerSetConflicts reserved sets' gateways') := by
  have hkeys' := (hsets.map _).nodup_iff.1 hkeys
  have hsame : (refusedBids reserved sets gateways).map (·.1.placeless)
      = (refusedBids reserved sets' gateways').map (·.1.placeless) := by
    simp only [map_placeless_refused, sortByKey_eq_of_perm hkeys hsets]
    exact refusals_perm (hgateways.flatMap_right _) (fun _ _ hperm x => judge_isSome_perm hperm x) _
  intro ls hls
  obtain ⟨i, s, hs, rfl⟩ := mem_resolve.1 hls
  obtain ⟨j, hj⟩ := mem_iff_getElem?.1 (hsets.subset (mem_of_getElem? hs))
  refine ⟨_, mem_resolve.2 ⟨j, s, hj, rfl⟩, ?_⟩
  obtain ⟨hl, hp, hk, -⟩ := s.resolved_fields (conflictsAt (refusedBids reserved sets gateways) i)
  obtain ⟨hl', hp', hk', -⟩ := s.resolved_fields (conflictsAt (refusedBids reserved sets' gateways') j)
  refine ⟨hk'.trans hk.symm, hp'.trans hp.symm, hl'.trans hl.symm, fun name => ?_⟩
  rw [Bool.eq_iff_iff, marked_iff_of_keys hkeys hs, marked_iff_of_keys hkeys' hj, hsame]

end Sound

/-- **ListenerSet conflicts.** After resolution nothing that is left overlaps; over distinct sets, every marked listener is on a
reserved port or overlaps one that is left and comes before it, in whatever order the lists come. -/
theorem listener_set_conflicts_sound (reserved : UInt16 → Bool) (sets : List ListenerSetRecord) (gateways : List GatewayState) :
    let result := resolveListenerSetConflicts reserved sets gateways
    ((keptOccupants result).Pairwise (fun a b => overlaps a b = false)
        ∧ ∀ a ∈ gatewayOccupants gateways, ∀ b ∈ keptOccupants result, overlaps a b = false)
      ∧ (Distinct sets → MarksJustified reserved gateways result)
      ∧ ((sets.map (·.precedence)).Nodup → ∀ sets' gateways', sets.Perm sets' → gateways.Perm gateways' →
          SameMarks result (resolveListenerSetConflicts reserved sets' gateways')) := by
  refine ⟨kept_disjoint reserved sets gateways, marks_justified, ?_⟩
  intro hkeys sets' gateways' hsets hgateways
  exact marks_perm hkeys hsets hgateways

def oneListenerSet (name protocol hostname : String) : ListenerSetRecord :=
  { namespace_ := "shop", name, parentRef := { namespace_ := some "infra", name := "edge" },
    listeners := [{ name := "main", protocol, port := 8080, hostname := some hostname }] }

theorem distinct_two_sets : Distinct [oneListenerSet "a" "HTTP" "shop.example", oneListenerSet "b" "TLS" "shop.example"] where
  keys := by decide
  names := by decide
  unmarked ls hls name := by
    simp only [mem_cons, not_mem_nil, or_false] at hls
    rcases hls with rfl | rfl <;> rfl

theorem listener_set_conflicts_sound_two_sets : (resolveListenerSetConflicts (fun _ => false)
        [oneListenerSet "a" "HTTP" "shop.example", oneListenerSet "b" "TLS" "shop.example"] []).map (·.marked "main")
        = [false, true]
      ∧ MarksJustified (fun _ => false) [] (resolveListenerSetConflicts (fun _ => false)
          [oneListenerSet "a" "HTTP" "shop.example", oneListenerSet "b" "TLS" "shop.example"] []) :=
  ⟨by decide, (listener_set_conflicts_sound (fun _ => false) _ []).2.1 distinct_two_sets⟩

/-- listeners of different protocols on one port of one Gateway are both left when their hostnames differ, and which of two sets
alike in creation time, namespace and name is marked depends on their order -/
theorem listener_set_protocols_and_ties : (keptOccupants (resolveListenerSetConflicts (fun _ => false)
        [oneListenerSet "a" "HTTP" "shop.example", oneListenerSet "b" "TLS" "pay.example"] [])).map
        (fun o => (o.1, o.2.port, o.2.protocol))
        = [(("infra", "edge"), 8080, "HTTP"), (("infra", "edge"), 8080, "TLS")]
      ∧ (keptOccupants (resolveListenerSetConflicts (fun _ => false)
          [oneListenerSet "a" "HTTP" "shop.example", oneListenerSet "a" "TLS" "shop.example"] [])).map (·.2.protocol) = ["HTTP"]
      ∧ (keptOccupants (resolveListenerSetConflicts (fun _ => false)
          [oneListenerSet "a" "TLS" "shop.example", oneListenerSet "a" "HTTP" "shop.example"] [])).map (·.2.protocol)
          = ["TLS"] := by
  decide

/-! ## A set that is refused -/

/-- removing the set leaves the conflicts and the listeners of the others as they are -/
def BlocksNobody (reserved : UInt16 → Bool) (r : ListenerSetRecord) : Prop := ∀ pre post gateways,
    ((resolveListenerSetConflicts reserved (pre ++ r :: post) gateways).eraseIdx pre.length).map
        (fun ls => (ls.conflicts, ls.keptListeners))
      = (resolveListenerSetConflicts reserved (pre ++ post) gateways).map fun ls => (ls.conflicts, ls.keptListeners)

def shiftPast (k i : ℕ) : ℕ := if i < k then i else i - 1

def Bid.shift (k : ℕ) (b : Bid) : Bid := { b with owner := b.owner.map fun o => (shiftPast k o.1, o.2) }

/-- the bid is not of the set at `k` -/
def Bid.notAt (k : ℕ) (b : Bid) : Bool := b.owner.all fun o => o.1 ≠ k

theorem zipIdx_without (pre : List ListenerSetRecord) (r : ListenerSetRecord) (post : List ListenerSetRecord) :
    (pre ++ post).zipIdx
      = ((pre ++ r :: post).zipIdx.filter (·.2 ≠ pre.length)).map fun e => (e.1, shiftPast pre.length e.2) := by
  have hpre : ∀ e ∈ pre.zipIdx, e.2 < pre.length := fun e he => by simpa using (mem_zipIdx he).2.1
  have hpost : ∀ e ∈ post.zipIdx (pre.length + 1), pre.length < e.2 := fun e he => (mem_zipIdx he).1
  rw [zipIdx_append, zipIdx_append, zipIdx_cons, Nat.zero_add, filter_append, map_append, filter_cons_of_neg (by simp)]
  congr 1
  · rw [filter_eq_self.2 fun e he => by simpa using (hpre e he).ne]
    refine (map_id' _).symm.trans (map_congr_left fun e he => ?_)
    rw [shiftPast, if_pos (hpre e he)]
  · rw [filter_eq_self.2 fun e he => by simpa using (hpost e he).ne', zipIdx_succ, map_map]
    refine (map_id' _).symm.trans (map_congr_left fun e he => ?_)
    have hle := (mem_zipIdx he).1
    rw [Function.comp_apply, shiftPast, if_neg (by simpa using Nat.le_succ_of_le hle)]
    rfl

theorem bids_without (pre : List ListenerSetRecord) (r : ListenerSetRecord) (post : List ListenerSetRecord) :
    bids (pre ++ post) = ((bids (pre ++ r :: post)).filter (Bid.notAt pre.length)).map (Bid.shift pre.length) := by
  have hsorted : sortByKey (fun e : ListenerSetRecord × ℕ => e.1.precedence) (pre ++ post).zipIdx
      = ((sortByKey (fun e : ListenerSetRecord × ℕ => e.1.precedence) (pre ++ r :: post).zipIdx).filter
          (·.2 ≠ pre.length)).map fun e => (e.1, shiftPast pre.length e.2) := by
    rw [zipIdx_without, ← sortByKey_filter]
    exact sortByKey_map (fun _ => rfl) _
  rw [bids, hsorted, flatMap_map, bids, filter_flatMap, map_flatMap]
  induction sortByKey (fun e : ListenerSetRecord × ℕ => e.1.precedence) (pre ++ r :: post).zipIdx with
  | nil => rfl
  | cons e es ih =>
    rw [flatMap_cons, ← ih, filter_cons]
    by_cases he : e.2 = pre.length
    · have hnone : (setBids e).filter (Bid.notAt pre.length) = [] := by simp [setBids, Bid.notAt, he]
      simp [hnone, he]
    · have hall : (setBids e).filter (Bid.notAt pre.length) = setBids e := by simp [setBids, Bid.notAt, he]
      have hshift : (setBids e).map (Bid.shift pre.length) = setBids (e.1, shiftPast pre.length e.2) := by
        simp [setBids, Bid.shift]
      rw [if_pos (by simpa using he), flatMap_cons, hall, hshift]

theorem map_shift_gatewayBids (k : ℕ) (gateways : List GatewayState) :
    (gatewayBids gateways).map (Bid.shift k) = gatewayBids gateways := by
  simp only [gatewayBids, map_flatMap, map_map]
  rfl

variable {r : ListenerSetRecord}

theorem refusedBids_without (h : ∀ l ∈ r.listeners, reserved l.port = true) (pre post : List ListenerSetRecord)
    (gateways : List GatewayState) :
    refusedBids reserved (pre ++ post) gateways
      = ((refusedBids reserved (pre ++ r :: post) gateways).filter fun e => e.1.notAt pre.length).map
          fun e => (e.1.shift pre.length, e.2) := by
  have hreserved : ∀ b ∈ bids (pre ++ r :: post), b.notAt pre.length = false → ∀ kept, (Bid.verdict reserved kept b).isSome := by
    intro b hb hat kept
    obtain ⟨i, ls, hls, howner, -, hl⟩ := mem_bids.1 hb
    have hi : i = pre.length := by simpa [Bid.notAt, howner] using hat
    rw [hi, getElem?_append_right (le_refl _), Nat.sub_self, getElem?_cons_zero, Option.some.injEq] at hls
    subst hls
    refine judge_isSome_iff.2 (.inl ?_)
    rw [Bid.portRefused, if_pos (h _ hl), Option.isSome_some]
  have hpass := refusals_map (Bid.verdict_map reserved (f := Bid.shift pre.length) fun b => ⟨rfl, rfl⟩)
    (gatewayBids gateways) ((bids (pre ++ r :: post)).filter (Bid.notAt pre.length))
  rw [map_shift_gatewayBids, ← bids_without, refusals_filter hreserved] at hpass
  exact hpass

theorem conflictsAt_cons (e : Bid × String) (es : List (Bid × String)) (i : ℕ) : conflictsAt (e :: es) i
      = (if e.1.owner.any (·.1 = i) then [(e.1.listener.name, e.2)] else []) ++ conflictsAt es i := by
  simp only [conflictsAt]
  cases ho : e.1.owner with
  | none => simp [Bid.mark, ho]
  | some o => by_cases hi : o.1 = i <;> simp [Bid.mark, ho, hi]

theorem conflictsAt_without (k : ℕ) (es : List (Bid × String)) (i : ℕ) :
    conflictsAt ((es.filter fun e => e.1.notAt k).map fun e => (e.1.shift k, e.2)) i
      = conflictsAt es (if i < k then i else i + 1) := by
  induction es with
  | nil => rfl
  | cons e es ih =>
    rw [conflictsAt_cons, ← ih]
    cases ho : e.1.owner with
    | none => simp [Bid.notAt, ho, conflictsAt_cons, Bid.shift]
    | some o =>
      by_cases hk : o.1 = k
      · have hne : o.1 ≠ if i < k then i else i + 1 := by split <;> omega
        have hat : Bid.notAt k e.1 = false := by simp [Bid.notAt, ho, hk]
        simp [hat, hne]
      · have hshift : shiftPast k o.1 = i ↔ o.1 = if i < k then i else i + 1 := by
          unfold shiftPast
          split <;> split <;> omega
        simp [Bid.notAt, ho, hk, conflictsAt_cons, Bid.shift, hshift]

theorem resolve_without (h : ∀ l ∈ r.listeners, reserved l.port = true) (pre post : List ListenerSetRecord)
    (gateways : List GatewayState) :
    (resolveListenerSetConflicts reserved (pre ++ r :: post) gateways).eraseIdx pre.length
      = resolveListenerSetConflicts reserved (pre ++ post) gateways := by
  apply ext_getElem?
  intro i
  simp only [getElem?_eraseIdx, getElem?_resolve, refusedBids_without h pre post gateways, conflictsAt_without]
  split
  · rename_i hi
    simp [getElem?_append_left hi]
  · rename_i hi
    have hle := not_lt.1 hi
    rw [getElem?_append_right hle, getElem?_append_right (Nat.le_succ_of_le hle), Nat.succ_sub hle, getElem?_cons_succ]

def ListenerSetRecord.rival (r : ListenerSetRecord) (l : ListenerState) : ListenerSetRecord :=
  { namespace_ := r.namespace_, name := r.name, parentRef := r.parentRef, createdAt := r.createdAt + 1, listeners := [l] }

theorem rival_refused {l : ListenerState} (hl : l ∈ r.listeners) (hport : reserved l.port = false) :
    ∃ reason, (⟨some (1, r.rival l), r.parentGateway, l⟩, reason) ∈ refusedBids reserved [r, r.rival l] [] := by
  have hbids : bids [r, r.rival l] = setBids (r, 0) ++ [⟨some (1, r.rival l), r.parentGateway, l⟩] := by
    have hlt : r.precedence ≤ (r.rival l).precedence := le_of_lt (Prod.Lex.toLex_lt_toLex.2 (.inl (Int.lt_succ r.createdAt)))
    have hsorted : insertByKey (fun e : ListenerSetRecord × ℕ => e.1.precedence) (r, 0) [(r.rival l, 1)]
        = [(r, 0), (r.rival l, 1)] := by
      rw [insertByKey_cons_of_le]
      exact hlt
    calc bids [r, r.rival l]
        = (insertByKey (fun e : ListenerSetRecord × ℕ => e.1.precedence) (r, 0) [(r.rival l, 1)]).flatMap setBids := rfl
      _ = setBids (r, 0) ++ setBids (r.rival l, 1) := by rw [hsorted]; rfl
  have hown : (⟨some (0, r), r.parentGateway, l⟩ : Bid) ∈ setBids (r, 0) := mem_setBids.2 ⟨rfl, rfl, hl⟩
  have hself : hostnameMatches l.hostname l.hostname = true := by
    rw [hostnameMatches, hostnameIntersects]
    cases (l.hostname.map parseListenerHostname).getD .any <;> simp [isHostnameSubset]
  have hblocked : ∃ y ∈ placed (Bid.verdict reserved) [] (setBids (r, 0)),
      y.blocks ⟨some (1, r.rival l), r.parentGateway, l⟩ = true := by
    rcases @mem_placed_or_refusals _ _ (Bid.verdict reserved) [] _ _ hown with hplaced | ⟨reason, hrefused⟩
    · exact ⟨_, hplaced, by simp [Bid.blocks, hself]⟩
    · rcases exists_blocker hrefused with hreserved | ⟨y, hy, -⟩ | ⟨pre, post, hxs, y, hy, hblocks⟩
      · simp [Bid.portRefused, hport] at hreserved
      · cases hy
      · refine ⟨y, ?_, hblocks⟩
        rw [hxs, placed_append]
        exact mem_append_left _ hy
  have hverdict : (Bid.verdict reserved ([] ++ placed (Bid.verdict reserved) [] (setBids (r, 0)))
      ⟨some (1, r.rival l), r.parentGateway, l⟩).isSome := judge_isSome_iff.2 (.inr hblocked)
  obtain ⟨reason, hreason⟩ := Option.isSome_iff_exists.1 hverdict
  exact ⟨reason, mem_refusals_iff.2 ⟨_, [], hbids, hreason⟩⟩

theorem rival_alone {l : ListenerState} (hport : reserved l.port = false) : refusedBids reserved [r.rival l] [] = [] := by
  have hbids : bids [r.rival l] = [⟨some (0, r.rival l), r.parentGateway, l⟩] := rfl
  rw [refusedBids, hbids]
  simp [Bid.verdict, judge, Bid.portRefused, hport, gatewayBids, refusals]

/-- **A refused set in the way of the others.** A ListenerSet that is not accepted blocks nobody, whatever the other sets and
the Gateways are, exactly when each of its listeners is on a reserved port. -/
theorem refused_set_blocks_nobody_iff (reserved : UInt16 → Bool) (r : ListenerSetRecord) :
    (r.accepted = false → BlocksNobody reserved r) ↔ (r.accepted = false → ∀ l ∈ r.listeners, reserved l.port = true) := by
  refine imp_congr_right fun _ => ?_
  apply Iff.intro
  · intro h l hl
    by_contra hport
    have hport := Bool.eq_false_iff.2 hport
    have hsame := congrArg (fun out => out[0]?.map fun e => (e.1.get l.name).isSome) (h [] [r.rival l] [])
    simp only [getElem?_map, getElem?_eraseIdx, getElem?_resolve] at hsame
    have hmarked : ((r.rival l).resolved (conflictsAt (refusedBids reserved [r, r.rival l] []) 1)).marked l.name = true := by
      obtain ⟨reason, hmem⟩ := rival_refused hl hport
      exact marked_iff.2 (.inr ⟨_, _, reason, hmem, rfl, rfl⟩)
    have hfree : ((r.rival l).resolved (conflictsAt (refusedBids reserved [r.rival l] []) 0)).marked l.name = false := by
      rw [rival_alone hport]
      rfl
    rw [ListenerSetRecord.marked] at hmarked hfree
    simp [hmarked, hfree] at hsame
  · intro h pre post gateways
    rw [resolve_without h]

def refusedSet : ListenerSetRecord :=
  { oneListenerSet "a" "HTTPS" "shop.example" with accepted := false, programmed := false, reason := "ListenersNotValid" }

theorem refused_set_marks_another : refusedSet.accepted = false
      ∧ (resolveListenerSetConflicts (fun _ => false) [refusedSet, oneListenerSet "b" "HTTPS" "shop.example"] []).map
          (fun ls => (ls.name, ls.marked "main", ls.accepted)) = [("a", false, false), ("b", true, false)]
      ∧ (resolveListenerSetConflicts (fun _ => false) [oneListenerSet "b" "HTTPS" "shop.example"] []).map
          (fun ls => (ls.name, ls.marked "main", ls.accepted)) = [("b", false, true)] := by
  decide

end SunbeamProxy.Gateway
