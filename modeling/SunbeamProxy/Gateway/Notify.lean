/-
Notifications of changed resources (`diff_view` in `gateway/reconcile/leader.rs`, `gateway/gossip/resource_notify.rs`).
-/
import SunbeamProxy.Gateway.BackendTlsPolicy
import SunbeamProxy.Gateway.Digest

namespace SunbeamProxy.Gateway

open List

structure GatewayResourceNotify where
  topicVersion : ℕ := 1
  kind : String
  namespace_ : String
  name : String
  generation : ℤ
  timestamp : ℕ := 0
deriving DecidableEq, Repr

structure WatchedView extends ReconciledView where
  backendTlsPolicies : List BackendTLSPolicyState := []

inductive ResourceKind where
  | gateway | listenerSet | httpRoute | grpcRoute | tcpRoute | udpRoute | tlsRoute | referenceGrant | backendTlsPolicy
deriving DecidableEq, Repr

namespace ResourceKind

def text : ResourceKind → String
  | gateway => "Gateway"
  | listenerSet => "ListenerSet"
  | httpRoute => "HTTPRoute"
  | grpcRoute => "GRPCRoute"
  | tcpRoute => "TCPRoute"
  | udpRoute => "UDPRoute"
  | tlsRoute => "TLSRoute"
  | referenceGrant => "ReferenceGrant"
  | backendTlsPolicy => "BackendTLSPolicy"

def compared : List ResourceKind :=
  [gateway, httpRoute, grpcRoute, tcpRoute, udpRoute, tlsRoute, referenceGrant, backendTlsPolicy]

def all : List ResourceKind := listenerSet :: compared

end ResourceKind

def WatchedView.held (v : WatchedView) : ResourceKind → List (String × String × ℤ)
  | .gateway => v.gateways.map fun g => (g.namespace_, g.name, g.generation)
  | .listenerSet => v.listenerSets.map fun s => (s.namespace_, s.name, s.generation)
  | .httpRoute => v.httpRoutes.map fun r => (r.namespace_, r.name, r.generation)
  | .grpcRoute => v.grpcRoutes.map fun r => (r.namespace_, r.name, r.generation)
  | .tcpRoute => v.tcpRoutes.map fun r => (r.namespace_, r.name, r.generation)
  | .udpRoute => v.udpRoutes.map fun r => (r.namespace_, r.name, r.generation)
  | .tlsRoute => v.tlsRoutes.map fun r => (r.namespace_, r.name, r.generation)
  | .referenceGrant => v.referenceGrants.map fun g => (g.namespace_, g.name, g.generation)
  | .backendTlsPolicy => v.backendTlsPolicies.map fun p => (p.namespace_, p.name, p.generation)

variable (old : Option WatchedView)

def isChanged (kind : ResourceKind) (r : String × String × ℤ) : Bool :=
  old.elim true fun o => !(o.held kind).any fun q => q.1 == r.1 && q.2.1 == r.2.1 && q.2.2 == r.2.2

def changedOf (new : WatchedView) (now : ℕ) (kind : ResourceKind) : List GatewayResourceNotify :=
  ((new.held kind).filter (isChanged old kind)).map fun r =>
    { kind := kind.text, namespace_ := r.1, name := r.2.1, generation := r.2.2, timestamp := now }

def diffView (new : WatchedView) (now : ℕ) : List GatewayResourceNotify :=
  ResourceKind.compared.flatMap (changedOf old new now)

/-- one notification for each resource of each kind that is new or has another generation, and no other -/
def AnnouncesAll (new : WatchedView) (now : ℕ) : Prop :=
  (diffView old new now).Perm (ResourceKind.all.flatMap (changedOf old new now))

/-- **What is announced** is complete exactly when no ListenerSet is new or has another generation. -/
theorem diff_view_complete_iff (old : Option WatchedView) (new : WatchedView) (now : ℕ) :
    AnnouncesAll old new now ↔ ∀ s ∈ new.held .listenerSet, ∃ o, old = some o ∧ s ∈ o.held .listenerSet := by
  have hsets : AnnouncesAll old new now ↔ changedOf old new now .listenerSet = [] := by
    apply Iff.intro
    · intro h
      have hlength := h.length_eq
      rw [ResourceKind.all, flatMap_cons, length_append] at hlength
      exact length_eq_zero_iff.1 (by rw [diffView] at hlength; omega)
    · intro h
      rw [AnnouncesAll, ResourceKind.all, flatMap_cons, h]
      exact .refl _
  rw [hsets, changedOf, map_eq_nil_iff, filter_eq_nil_iff]
  refine forall₂_congr fun s _ => ?_
  cases old with
  | none => simp [isChanged]
  | some o =>
    have hsame : isChanged (some o) .listenerSet s = false ↔ s ∈ o.held .listenerSet := by
      simp [isChanged, and_assoc]
    simp [hsame]

def infraSet (generation : ℤ) : WatchedView := { listenerSets := [{ namespace_ := "infra", name := "shared", generation }] }

theorem listenerSet_change_unannounced : diffView (some (infraSet 1)) (infraSet 2) 0 = []
    ∧ isChanged (some (infraSet 1)) .listenerSet ("infra", "shared", 2) = true
    ∧ ¬AnnouncesAll (some (infraSet 1)) (infraSet 2) 0 := by
  refine ⟨rfl, rfl, fun h => ?_⟩
  have hlength := h.length_eq
  revert hlength
  decide

/-! ## The notifier -/

structure ResourceKey where
  kind : String
  namespace_ : String
  name : String
deriving DecidableEq, Repr

variable (n : GatewayResourceNotify)

def GatewayResourceNotify.key : ResourceKey := ⟨n.kind, n.namespace_, n.name⟩

inductive NotifyEvent where
  | broadcast (notify : GatewayResourceNotify)
  | triggerReconcile
deriving DecidableEq, Repr

inductive NotifierInput where
  | localEvent (notify : GatewayResourceNotify)
  | peerEvent (notify : GatewayResourceNotify)
  | tick
deriving DecidableEq, Repr

def debounceWindow : ℕ := 1000000000

abbrev PeerDebounce := HashMap ResourceKey ℕ

def PeerDebounce.step (map : PeerDebounce) (now : ℕ) : NotifierInput → List NotifyEvent × PeerDebounce
  | .localEvent n =>
    let debounced := (map.get n.key).any fun t => decide (now - t < debounceWindow)
    (.broadcast n :: if debounced then [] else [.triggerReconcile], map)
  | .peerEvent n => ([.triggerReconcile], map.insert n.key now)
  | .tick => ([], map.retain fun _ t => decide (now - t < debounceWindow))

structure NotifierStep where
  now : ℕ
  input : NotifierInput
  emitted : List NotifyEvent

def PeerDebounce.run (map : PeerDebounce) : List (ℕ × NotifierInput) → List NotifierStep
  | [] => []
  | (now, input) :: rest => ⟨now, input, (map.step now input).1⟩ :: PeerDebounce.run (map.step now input).2 rest

def NotifierInput.Announces : NotifierInput → Prop
  | .localEvent m => m.key = n.key ∧ n.generation ≤ m.generation
  | .peerEvent m => m.key = n.key ∧ n.generation ≤ m.generation
  | .tick => False

/-- within the window a peer has spoken of the resource, at a generation the condition takes -/
def HeardOf (now : ℕ) (before : List NotifierStep) (takes : ℤ → Prop) : Prop :=
  ∃ s ∈ before, ∃ m, s.input = .peerEvent m ∧ m.key = n.key ∧ now - s.now < debounceWindow ∧ takes m.generation

/-- a local notification after a peer's of the same resource comes after one that is as new -/
def PeersAsNew (steps : List NotifierStep) : Prop :=
  ∀ before s after n, steps = before ++ s :: after → s.input = .localEvent n → HeardOf n s.now before (fun _ => True) →
    HeardOf n s.now before (n.generation ≤ ·)

/-- every local notification is broadcast, one as new as it is followed by a trigger, and suppression is right -/
structure SwallowsNothing (steps : List NotifierStep) : Prop where
  broadcast : ∀ s ∈ steps, ∀ n, s.input = .localEvent n → .broadcast n ∈ s.emitted
  triggered : ∀ s ∈ steps, ∀ n, s.input = .localEvent n → ∃ before t after, steps = before ++ t :: after
    ∧ t.input.Announces n ∧ ∃ u ∈ t :: after, .triggerReconcile ∈ u.emitted
  suppressed : ∀ before s after n, steps = before ++ s :: after → s.input = .localEvent n → .triggerReconcile ∉ s.emitted →
    HeardOf n s.now before (n.generation ≤ ·)

variable {map : PeerDebounce} {inputs : List (ℕ × NotifierInput)} {s : NotifierStep}

theorem emitted_of_mem_run (h : s ∈ map.run inputs) : ∃ m : PeerDebounce, s.emitted = (m.step s.now s.input).1 := by
  induction inputs generalizing map with
  | nil => cases h
  | cons e rest ih =>
    rcases mem_cons.1 h with rfl | h
    · exact ⟨map, rfl⟩
    · exact ih h

theorem mem_emitted_peer
    {m : GatewayResourceNotify} (h : s ∈ map.run inputs) (hs : s.input = .peerEvent m) : .triggerReconcile ∈ s.emitted := by
  obtain ⟨d, hd⟩ := emitted_of_mem_run h
  rw [hd, hs]
  exact mem_cons_self ..

theorem heard_of_suppressed {before after : List NotifierStep}
    {n : GatewayResourceNotify} (h : map.run inputs = before ++ s :: after) (hn : s.input = .localEvent n)
    (hs : .triggerReconcile ∉ s.emitted) :
    HeardOf n s.now before (fun _ => True) ∨ ∃ t, map.get n.key = some t ∧ s.now - t < debounceWindow := by
  induction before generalizing map inputs with
  | nil =>
    cases inputs with
    | nil => cases h
    | cons e rest =>
      cases h
      have hlocal : e.2 = .localEvent n := hn
      simp only [hlocal, PeerDebounce.step] at hs
      cases hget : map.get n.key with
      | none => simp [hget] at hs
      | some t => exact .inr ⟨t, rfl, by simpa [hget] using hs⟩
  | cons b bs ih =>
    cases inputs with
    | nil => cases h
    | cons e rest =>
      obtain ⟨rfl, hrest⟩ := cons.inj h
      rcases ih hrest with ⟨u, hu, heard⟩ | ⟨t, ht, hwindow⟩
      · exact .inl ⟨u, mem_cons_of_mem _ hu, heard⟩
      -- what the map remembers it knew before, or has just heard
      · obtain ⟨now, input⟩ := e
        cases input with
        | localEvent m => exact .inr ⟨t, ht, hwindow⟩
        | peerEvent m =>
          have hinsert : HashMap.get (map.insert m.key now) n.key = some t := ht
          rw [HashMap.get_insert] at hinsert
          split_ifs at hinsert with hkey
          · cases hinsert
            exact .inl ⟨_, mem_cons_self .., m, rfl, hkey.symm, hwindow, trivial⟩
          · exact .inr ⟨t, hinsert, hwindow⟩
        | tick =>
          have hretain : HashMap.get (map.retain fun _ t => decide (now - t < debounceWindow)) n.key = some t := ht
          rw [HashMap.get_retain, Option.filter_eq_some_iff] at hretain
          exact .inr ⟨t, hretain.1, hwindow⟩

/-- **Notifications.** Over any history of local and peer notifications and ticks, at any times, the notifier swallows
nothing, if peers that speak of a resource before a local notification of it are as new. -/
theorem notifier_swallows_nothing (inputs : List (ℕ × NotifierInput)) (h : PeersAsNew (PeerDebounce.run ∅ inputs)) :
    SwallowsNothing (PeerDebounce.run ∅ inputs) := by
  have hsuppressed : ∀ before s after n, PeerDebounce.run ∅ inputs = before ++ s :: after → s.input = .localEvent n →
      .triggerReconcile ∉ s.emitted → HeardOf n s.now before (n.generation ≤ ·) := by
    intro before s after n hsplit hn hs
    rcases heard_of_suppressed hsplit hn hs with heard | ⟨t, ht, -⟩
    · exact h before s after n hsplit hn heard
    · cases ht
  refine ⟨?_, ?_, hsuppressed⟩
  · intro s hs n hn
    obtain ⟨d, hd⟩ := emitted_of_mem_run hs
    rw [hd, hn]
    exact mem_cons_self ..
  · intro s hs n hn
    obtain ⟨before, after, hsplit⟩ := append_of_mem hs
    by_cases htrigger : .triggerReconcile ∈ s.emitted
    · refine ⟨before, s, after, hsplit, ?_, s, mem_cons_self .., htrigger⟩
      rw [hn]
      exact ⟨rfl, le_refl _⟩
    · obtain ⟨t, ht, m, hm, hkey, -, hgeneration⟩ := hsuppressed before s after n hsplit hn htrigger
      have hmem : t ∈ PeerDebounce.run ∅ inputs := by
        rw [hsplit]
        exact mem_append_left _ ht
      obtain ⟨b, a, hat⟩ := append_of_mem hmem
      refine ⟨b, t, a, hat, ?_, t, mem_cons_self .., mem_emitted_peer hmem hm⟩
      rw [hm]
      exact ⟨hkey, hgeneration⟩

def shopNotify (generation : ℤ) : GatewayResourceNotify := { kind := "HTTPRoute", namespace_ := "shop", name := "web", generation }

def peerFirst (peer own : ℤ) : List (ℕ × NotifierInput) := [(0, .peerEvent (shopNotify peer)), (1, .localEvent (shopNotify own))]

theorem notifier_swallows_nothing_same : SwallowsNothing (PeerDebounce.run ∅ (peerFirst 2 2)) := by
  apply notifier_swallows_nothing
  rintro before s after n hsteps hn ⟨u, hu, m, hm, hkey, hwindow, -⟩
  have hmem := hsteps ▸ mem_append_left _ hu
  have hs := hsteps ▸ mem_append_right _ (mem_cons_self ..)
  refine ⟨u, hu, m, hm, hkey, hwindow, ?_⟩
  simp only [peerFirst, PeerDebounce.run, mem_cons, not_mem_nil, or_false] at hmem hs
  rcases hmem with rfl | rfl <;> rcases hs with rfl | rfl <;> cases hm <;> cases hn
  exact le_refl _

theorem newer_change_swallowed : ¬SwallowsNothing (PeerDebounce.run ∅ (peerFirst 1 2)) := by
  intro h
  obtain ⟨before, t, after, hsplit, hannounces, u, hu, htrigger⟩ := h.triggered
    ⟨1, .localEvent (shopNotify 2), [.broadcast (shopNotify 2)]⟩ (mem_cons_of_mem _ (mem_cons_self ..)) (shopNotify 2) rfl
  cases before with
  | nil =>
    cases hsplit
    exact absurd hannounces.2 (by decide)
  | cons b bs =>
    cases bs with
    | nil =>
      cases hsplit
      cases mem_singleton.1 hu
      exact absurd htrigger (by decide)
    | cons c cs => exact absurd (congrArg length hsplit) (by simp [peerFirst, PeerDebounce.run])

end SunbeamProxy.Gateway
