/-
Resolution of a route's parent references (`gateway/reconcile/parent.rs`).
-/
import SunbeamProxy.Gateway.Hostnames

namespace SunbeamProxy.Gateway

open Text

inductive ConditionType where
  | accepted | programmed | resolvedRefs
deriving DecidableEq, Repr

inductive ConditionStatus where
  | true | false
deriving DecidableEq, Repr

structure StatusCondition where
  conditionType : ConditionType
  status : ConditionStatus
  reason : String
  message : String
  observedGeneration : ℤ
deriving DecidableEq, Repr

def acceptedCondition (status : ConditionStatus) (reason message : String) (generation : ℤ) : StatusCondition :=
  ⟨.accepted, status, reason, message, generation⟩

def programmedCondition (status : ConditionStatus) (reason message : String) (generation : ℤ) : StatusCondition :=
  ⟨.programmed, status, reason, message, generation⟩

/-! ## Resolution -/

structure ParsedParentRef where
  group : String := "gateway.networking.k8s.io"
  kind : String := "Gateway"
  namespace_ : Option String := none
  name : String
  sectionName : Option String := none
  port : Option ℤ := none
deriving DecidableEq, Repr

structure ParentQuery where
  parsed : ParsedParentRef
  routeNs : String
  observedGeneration : ℤ := 0
  routeHostnames : List HostnameMatch := []
  listeners : List ListenerState
  namespaceLabels : NamespaceLabels := ∅
  allowedMap : ListenerAllowedMap := ∅
  targetNs : String
  ownerName : String
  ownerKind : String := "Gateway"
  conflicts : HashMap String String := ∅
  routeKind : String
  expectedProtocols : Option (List String)

structure ParentFlags where
  kindAllowed : Bool
  protocolAllowed : Bool
  namespaceAllowed : Bool
  hostnameIntersects : Bool
deriving DecidableEq, Repr

namespace ParentQuery

variable (q : ParentQuery)

def isMatching (l : ListenerState) : Bool := l.programmed && (q.conflicts.get l.name).isNone
    && (match q.parsed.sectionName with
      | some s => s == l.name
      | none => true)
    && match q.parsed.port with
      | some p => p == (l.port.toNat : ℤ)
      | none => true

def matchingListeners : List ListenerState := q.listeners.filter q.isMatching

def allowedOf (l : ListenerState) : AllowedRoutes := allowedRoutesOf q.allowedMap q.targetNs q.ownerName l

def kindOk (l : ListenerState) : Bool := listenerAllowsKind (q.allowedOf l) gatewayGroup q.routeKind

def protocolOk (l : ListenerState) : Bool :=
  match q.expectedProtocols with
  | some protocols => protocols.any (eqIgnoreAsciiCase · l.protocol)
  | none => true

def nsOk (l : ListenerState) : Bool :=
  namespaceAllowed (q.allowedOf l).namespaces q.routeNs q.targetNs q.namespaceLabels

def hostnameOk (l : ListenerState) : Bool := listenerHostnameIntersects l.hostname q.routeHostnames

def raise (f : ParentFlags) (l : ListenerState) : ParentFlags :=
  ⟨f.kindAllowed || q.kindOk l, f.protocolAllowed || q.protocolOk l, f.namespaceAllowed || q.nsOk l,
    f.hostnameIntersects || q.hostnameOk l⟩

def flags : ParentFlags :=
  q.matchingListeners.foldl q.raise ⟨false, q.expectedProtocols.isNone, false, false⟩

/-- `{kind} {namespace}/{name}` of the owner -/
def owner : String := q.ownerKind ++ " " ++ q.targetNs ++ "/" ++ q.ownerName

def refuse (reason message : String) : Option ParentRef × List StatusCondition :=
  (none, [acceptedCondition .false reason message q.observedGeneration])

def resolvedRef : ParentRef :=
  ⟨q.parsed.group, q.parsed.kind, some q.targetNs, q.parsed.name, q.parsed.sectionName,
    q.parsed.port.map fun p => UInt16.ofNat (p % 65536).toNat⟩

end ParentQuery

variable (q : ParentQuery)

def resolveListenerParent : Option ParentRef × List StatusCondition :=
  match q.parsed.sectionName.filter fun s => !q.listeners.any (·.name == s) with
  | some s => q.refuse "NoMatchingParent" ("listener " ++ s ++ " not found on " ++ q.owner)
  | none =>
    match q.parsed.port.filter fun _ => q.matchingListeners.isEmpty with
    | some p => q.refuse "NoMatchingParent" ("no listener matching port " ++ toString p ++ " on " ++ q.owner)
    | none =>
      let f := q.flags
      if !f.kindAllowed || !f.protocolAllowed || !f.namespaceAllowed then
        q.refuse "NotAllowedByListeners" ("Route is not allowed by any listener of " ++ q.owner)
      else if !f.hostnameIntersects then
        q.refuse "NoMatchingListenerHostname" ("Route hostnames do not intersect with any listener of " ++ q.owner)
      else (some q.resolvedRef, [acceptedCondition .true "Accepted" "Route accepted by parent" q.observedGeneration])

namespace ParentQuery

variable (q : ParentQuery)

/-- one healthy listener the reference means passes all checks -/
def TakenByOne : Prop :=
  ∃ l ∈ q.listeners, q.isMatching l = true ∧ q.kindOk l = true ∧ q.protocolOk l = true ∧ q.nsOk l = true
    ∧ q.hostnameOk l = true

/-- each check is passed by some healthy listener the reference means -/
def Covered : Prop :=
  (∃ l ∈ q.matchingListeners, q.kindOk l = true) ∧ (∃ l ∈ q.matchingListeners, q.protocolOk l = true)
    ∧ (∃ l ∈ q.matchingListeners, q.nsOk l = true) ∧ ∃ l ∈ q.matchingListeners, q.hostnameOk l = true

theorem foldl_raise (ls : List ListenerState) (f : ParentFlags) :
    ls.foldl q.raise f = ⟨f.kindAllowed || ls.any q.kindOk, f.protocolAllowed || ls.any q.protocolOk,
      f.namespaceAllowed || ls.any q.nsOk, f.hostnameIntersects || ls.any q.hostnameOk⟩ := by
  induction ls generalizing f with
  | nil => simp
  | cons l ls ih =>
    rw [List.foldl_cons, ih]
    simp [raise, Bool.or_assoc]

variable {q : ParentQuery}

theorem protocolOk_of_none (h : q.expectedProtocols = none) (l : ListenerState) : q.protocolOk l = true := by
  unfold protocolOk
  rw [h]

theorem flags_up_iff :
    q.flags.kindAllowed = true ∧ q.flags.protocolAllowed = true ∧ q.flags.namespaceAllowed = true
      ∧ q.flags.hostnameIntersects = true ↔ q.Covered := by
  unfold flags Covered
  rw [foldl_raise]
  simp only [Bool.false_or, Bool.or_eq_true, List.any_eq_true, Option.isNone_iff_eq_none]
  constructor
  · rintro ⟨⟨l, hl, hkind⟩, hprotocol, hns, hhost⟩
    refine ⟨⟨l, hl, hkind⟩, ?_, hns, hhost⟩
    rcases hprotocol with hnone | hsome
    · exact ⟨l, hl, protocolOk_of_none hnone l⟩
    · exact hsome
  · rintro ⟨hkind, hprotocol, hns, hhost⟩
    exact ⟨hkind, .inr hprotocol, hns, hhost⟩

theorem mem_matchingListeners {l : ListenerState} :
    l ∈ q.matchingListeners ↔ l ∈ q.listeners ∧ q.isMatching l = true := List.mem_filter

theorem name_of_isMatching {l : ListenerState} (h : q.isMatching l = true) {s : String}
    (hs : q.parsed.sectionName = some s) : l.name = s := by
  simp only [isMatching, hs, Bool.and_eq_true, beq_iff_eq] at h
  exact h.1.2.symm

end ParentQuery

theorem ParentQuery.refuse_fst (reason message : String) : (q.refuse reason message).1 = none := rfl

/-- **Acceptance.** A reference is resolved exactly when each check is passed by some matching listener. -/
theorem resolveListenerParent_isSome_iff : (resolveListenerParent q).1.isSome = true ↔ q.Covered := by
  rw [← ParentQuery.flags_up_iff]
  unfold resolveListenerParent
  constructor
  · intro h
    cases hs : q.parsed.sectionName.filter fun s => !q.listeners.any (·.name == s) with
    | some s => simp [hs, ParentQuery.refuse_fst] at h
    | none =>
      cases hp : q.parsed.port.filter fun _ => q.matchingListeners.isEmpty with
      | some p => simp [hs, hp, ParentQuery.refuse_fst] at h
      | none =>
        simp only [hs, hp] at h
        split_ifs at h with hflags hhost
        · cases h
        · cases h
        · simp only [Bool.or_eq_true, Bool.not_eq_true', not_or, Bool.not_eq_false] at hflags hhost
          exact ⟨hflags.1.1, hflags.1.2, hflags.2, hhost⟩
  · intro hup
    obtain ⟨l, hl, -⟩ := (q.flags_up_iff.1 hup).1
    obtain ⟨hmem, hmatch⟩ := ParentQuery.mem_matchingListeners.1 hl
    -- a matching listener exists, so neither early return is taken
    have hs : (q.parsed.sectionName.filter fun s => !q.listeners.any (·.name == s)) = none := by
      rw [Option.filter_eq_none_iff]
      intro s hs
      simpa using ⟨l, hmem, ParentQuery.name_of_isMatching hmatch hs⟩
    have hp : (q.parsed.port.filter fun _ => q.matchingListeners.isEmpty) = none := by
      rw [Option.filter_eq_none_iff]
      intro p _
      simpa using List.ne_nil_of_mem hl
    obtain ⟨h₁, h₂, h₃, h₄⟩ := hup
    simp [hs, hp, h₁, h₂, h₃, h₄]

/-- **One listener or several.** Acceptance means that one listener passes all checks exactly when listeners cannot cover
the checks between them without one of them passing all. -/
theorem single_listener_iff (q : ParentQuery) :
    ((resolveListenerParent q).1.isSome = true ↔ q.TakenByOne) ↔ (q.Covered → q.TakenByOne) := by
  rw [resolveListenerParent_isSome_iff]
  have hone : q.TakenByOne → q.Covered := by
    rintro ⟨l, hmem, hmatch, hkind, hprotocol, hns, hhost⟩
    have hl := ParentQuery.mem_matchingListeners.2 ⟨hmem, hmatch⟩
    exact ⟨⟨l, hl, hkind⟩, ⟨l, hl, hprotocol⟩, ⟨l, hl, hns⟩, l, hl, hhost⟩
  exact ⟨fun h => h.1, fun h => ⟨h, hone⟩⟩

def splitListeners : List ListenerState := [{ name := "web" }, { name := "raw", port := 8080 }]

def splitAllowed : ListenerAllowedMap :=
  HashMap.ofPairs [(("infra", "edge", "web"), { kinds := [⟨gatewayGroup, "HTTPRoute"⟩] }),
    (("infra", "edge", "raw"), { kinds := [⟨gatewayGroup, "TCPRoute"⟩], namespaces := { source := .all } })]

def strangerQuery : ParentQuery :=
  { parsed := { name := "edge", namespace_ := some "infra" }, routeNs := "tenant", listeners := splitListeners,
    allowedMap := splitAllowed, targetNs := "infra", ownerName := "edge", routeKind := "HTTPRoute",
    expectedProtocols := some ["HTTP", "HTTPS"] }

theorem stranger_accepted : (resolveListenerParent strangerQuery).1.isSome = true ∧ ¬ strangerQuery.TakenByOne := by
  unfold ParentQuery.TakenByOne
  decide

end SunbeamProxy.Gateway
