/-
Reconciliation of BackendTLSPolicies (`gateway/reconcile/backendtlspolicy.rs`).
-/
import Mathlib.Data.Prod.Lex
import SunbeamProxy.Core.Selection
import SunbeamProxy.Gateway.GatewayObject

namespace SunbeamProxy.Gateway

open List Option HashMap

structure PolicyTargetRef where
  group : String := ""
  kind : String := "Service"
  name : String
  sectionName : Option String := none
deriving DecidableEq, Repr

structure CaCertificateRef where
  group : String := ""
  kind : String := "ConfigMap"
  name : String
deriving DecidableEq, Repr

inductive SubjectAltNameType where
  | hostname | uri
deriving DecidableEq, Repr

structure PolicySubjectAltName where
  type_ : SubjectAltNameType
  hostname : Option String := none
  uri : Option String := none
deriving DecidableEq, Repr

structure BackendTLSPolicyObject where
  namespace_ : Option String := none
  name : Option String := none
  generation : Option ℤ := none
  creationTimestamp : Option ℤ := none
  targetRefs : List PolicyTargetRef := []
  hostname : String := ""
  caCertificateRefs : Option (List CaCertificateRef) := none
  subjectAltNames : Option (List PolicySubjectAltName) := none
deriving DecidableEq, Repr

structure ServiceTargetRef where
  group : String := ""
  kind : String := ""
  namespace_ : String
  name : String := ""
  sectionName : Option String := none
deriving DecidableEq, Repr

structure SubjectAltName where
  type_ : String
  value : String
deriving DecidableEq, Repr

structure BackendTLSPolicyState where
  namespace_ : String
  name : String
  generation : ℤ
  createdAt : ℤ
  target : ServiceTargetRef
  hostname : String
  caCertificateRefs : List CaCertificateRef
  caBundlePem : String
  subjectAltNames : List SubjectAltName
  accepted : Bool
  acceptedReason : String
  acceptedMessage : String
  resolvedRefs : Bool
  resolvedRefsReason : String
  resolvedRefsMessage : String
  programmed : Bool
deriving DecidableEq, Repr

structure PrePolicy where
  namespace_ : String
  name : String
  generation : ℤ
  createdAt : ℤ
  target : ServiceTargetRef
  hostname : String
  caCertificateRefs : List CaCertificateRef
  caBundlePem : String
  subjectAltNames : List SubjectAltName
  targetInvalid : Bool
  caInvalidCount : ℕ
  caInvalidKindCount : ℕ
  caInvalidRefCount : ℕ
  caTotalCount : ℕ
deriving DecidableEq, Repr

inductive CaOutcome where
  | invalidKind
  | invalidRef
  | loaded (ca : String)
deriving DecidableEq, Repr

variable (api : ApiServer)

def caOutcome (ns : String) (r : CaCertificateRef) : CaOutcome :=
  if r.kind ≠ "ConfigMap" ∨ r.group ≠ "" then .invalidKind
  else
    match (api.configMap ns r.name).bind fun data => data.bind (·.get "ca.crt") with
    | some ca => if ca ≠ "" then .loaded ca else .invalidRef
    | none => .invalidRef

def appendCa (bundle : String) : CaOutcome → String
  | .loaded ca => endLine (bundle ++ ca)
  | _ => bundle

def subjectAltName (s : PolicySubjectAltName) : SubjectAltName :=
  match s.type_ with
  | .hostname => ⟨"Hostname", s.hostname.getD ""⟩
  | .uri => ⟨"URI", s.uri.getD ""⟩

def policyTarget (ns : String) : List PolicyTargetRef → ServiceTargetRef
  | [t] => { group := t.group, kind := t.kind, namespace_ := ns, name := t.name, sectionName := t.sectionName }
  | _ => { namespace_ := ns }

def policyTargetInvalid : List PolicyTargetRef → Bool
  | [t] => t.group != "" || t.kind != "Service"
  | _ => true

def prevalidate (policy : BackendTLSPolicyObject) : PrePolicy :=
  let ns := policy.namespace_.getD "default"
  let refs := policy.caCertificateRefs.getD []
  let outcomes := refs.map (caOutcome api ns)
  { namespace_ := ns
    name := policy.name.getD ""
    generation := policy.generation.getD 0
    createdAt := policy.creationTimestamp.getD 0
    target := policyTarget ns policy.targetRefs
    hostname := policy.hostname
    caCertificateRefs := refs
    caBundlePem := outcomes.foldl appendCa ""
    subjectAltNames := (policy.subjectAltNames.getD []).map subjectAltName
    targetInvalid := policyTargetInvalid policy.targetRefs
    caInvalidCount := outcomes.countP fun o => o = .invalidKind ∨ o = .invalidRef
    caInvalidKindCount := outcomes.count .invalidKind
    caInvalidRefCount := outcomes.count .invalidRef
    caTotalCount := refs.length }

abbrev ServiceTargetKey := String × String × Option String

variable (p : PrePolicy)

def PrePolicy.key : ServiceTargetKey := (p.target.namespace_, p.target.name, p.target.sectionName)

def PrePolicy.rank : ℤ ×ₗ String := toLex (p.createdAt, p.namespace_ ++ "/" ++ p.name)

def lead (group : List PrePolicy) : Option PrePolicy := minByKey PrePolicy.rank group

variable (pre : List PrePolicy)

def winners : HashMap ServiceTargetKey (Option String) :=
  mapValues (fun group => (lead group).map (·.name)) (pushAll (fun p => some p.key) pre ∅)

def isWinner (winners : HashMap ServiceTargetKey (Option String)) (p : PrePolicy) : Bool :=
  (winners.get p.key).join = some p.name

def PrePolicy.allCaInvalid : Bool := decide (0 < p.caTotalCount) && p.caInvalidCount == p.caTotalCount

def buildState (isWinner : Bool) : BackendTLSPolicyState :=
  let (accepted, acceptedReason, acceptedMessage) := if !isWinner then
      (false, "Conflicted", "BackendTLSPolicy conflicted by an older or alphabetically earlier policy")
    else if p.targetInvalid then
      (false, "InvalidKind", "targetRefs must contain exactly one reference to a Service in the core API group")
    else if p.allCaInvalid then (false, "NoValidCACertificate", "all CA certificate references are invalid")
    else (true, "Accepted", "BackendTLSPolicy accepted")
  let (resolvedRefs, resolvedRefsReason, resolvedRefsMessage) := if p.caInvalidKindCount > 0 then
      (false, "InvalidKind", toString p.caInvalidKindCount ++ " CA certificate reference(s) have an unsupported kind")
    else if p.caInvalidRefCount > 0 then
      (false, "InvalidCACertificateRef", toString p.caInvalidRefCount ++ " CA certificate reference(s) are invalid")
    else (true, "ResolvedRefs", "all references resolved")
  { namespace_ := p.namespace_, name := p.name, generation := p.generation, createdAt := p.createdAt, target := p.target
    hostname := p.hostname, caCertificateRefs := p.caCertificateRefs, caBundlePem := p.caBundlePem
    subjectAltNames := p.subjectAltNames, accepted, acceptedReason, acceptedMessage, resolvedRefs, resolvedRefsReason
    resolvedRefsMessage, programmed := accepted && resolvedRefs }

def prevalidated (policies : List BackendTLSPolicyObject) : List PrePolicy :=
  policies.map (prevalidate api)

def reconcileBackendTlsPolicies (policies : List BackendTLSPolicyObject) : List BackendTLSPolicyState :=
  let pre := prevalidated api policies
  pre.map fun p => buildState p (isWinner (winners pre) p)

def leadName (key : ServiceTargetKey) : Option String :=
  (lead (pre.filter (·.key = key))).map (·.name)

theorem isWinner_winners_iff (p : PrePolicy) :
    isWinner (winners pre) p = true ↔ leadName pre p.key = some p.name := by
  have hgroup := get_pushAll (fun p => some p.key) pre ∅ p.key
  simp only [get_empty, getD_none, nil_append, some.injEq] at hgroup
  have hname : ((winners pre).get p.key).join = leadName pre p.key := by
    rw [winners, get_mapValues, leadName, ← hgroup]
    cases get (pushAll (fun p => some p.key) pre ∅) p.key <;> rfl
  rw [isWinner, decide_eq_true_iff, hname]

inductive CaNeed where
  | some | all
deriving DecidableEq, Repr

/-- a policy for one Service whose CA references resolve -/
def PrePolicy.Valid (need : CaNeed) : Prop := p.targetInvalid = false ∧ match need with
    | .some => p.allCaInvalid = false
    | .all => p.caInvalidCount = 0

theorem PrePolicy.Valid.some {p : PrePolicy} {need : CaNeed} (h : p.Valid need) : p.Valid .some := by
  cases need with
  | some => exact h
  | all =>
    refine ⟨h.1, ?_⟩
    have hcount := h.2
    simp only [PrePolicy.allCaInvalid, Bool.and_eq_false_iff, decide_eq_false_iff_not, beq_eq_false_iff_ne]
    omega

theorem accepted_buildState_iff (w : Bool) : (buildState p w).accepted = true ↔ w = true ∧ p.Valid .some := by
  cases w <;> cases ht : p.targetInvalid <;> cases hc : p.allCaInvalid <;> simp [buildState, PrePolicy.Valid, ht, hc]

theorem caInvalidCount_prevalidate (policy : BackendTLSPolicyObject) : (prevalidate api policy).caInvalidCount
      = (prevalidate api policy).caInvalidKindCount + (prevalidate api policy).caInvalidRefCount := by
  simp only [prevalidate]
  induction (policy.caCertificateRefs.getD []).map (caOutcome api (policy.namespace_.getD "default")) with
  | nil => rfl
  | cons o outcomes ih =>
    rw [countP_cons, ih]
    cases o <;> simp <;> omega

theorem target_namespace_prevalidate (policy : BackendTLSPolicyObject) :
    (prevalidate api policy).target.namespace_ = (prevalidate api policy).namespace_ := by
  simp only [prevalidate]
  unfold policyTarget
  split <;> rfl

theorem mem_prevalidated {api : ApiServer} {policies : List BackendTLSPolicyObject} {p : PrePolicy}
    (h : p ∈ prevalidated api policies) :
    p.target.namespace_ = p.namespace_ ∧ p.caInvalidCount = p.caInvalidKindCount + p.caInvalidRefCount := by
  obtain ⟨policy, _, rfl⟩ := mem_map.1 h
  exact ⟨target_namespace_prevalidate api policy, caInvalidCount_prevalidate api policy⟩

theorem programmed_buildState_iff {api : ApiServer} {policies : List BackendTLSPolicyObject} {p : PrePolicy}
    (hp : p ∈ prevalidated api policies) (w : Bool) :
    (buildState p w).programmed = true ↔ w = true ∧ p.Valid .all := by
  have hcounts := (mem_prevalidated hp).2
  have hresolved : (buildState p w).programmed = ((buildState p w).accepted && decide (p.caInvalidCount = 0)) := by
    simp only [buildState, hcounts]
    by_cases hkind : p.caInvalidKindCount > 0
    · simp [hkind, hkind.ne']
    · by_cases href : p.caInvalidRefCount > 0
      · simp [hkind, href, href.ne']
      · simp [show p.caInvalidKindCount = 0 by omega, show p.caInvalidRefCount = 0 by omega]
  rw [hresolved, Bool.and_eq_true, accepted_buildState_iff, decide_eq_true_iff]
  apply Iff.intro
  · intro h
    exact ⟨h.1.1, h.1.2.1, h.2⟩
  · intro h
    exact ⟨⟨h.1, h.2.some⟩, h.2.2⟩

/-! ## One winner -/

def PrePolicy.order : ℤ ×ₗ String ×ₗ String := toLex (p.createdAt, toLex (p.namespace_, p.name))

/-- the policy at this position is valid and targets the key -/
structure Contends (need : CaNeed) (pre : List PrePolicy) (key : ServiceTargetKey) (i : ℕ) (p : PrePolicy) : Prop where
  position : pre[i]? = some p
  key : p.key = key
  valid : p.Valid need

def AcceptedAt (states : List BackendTLSPolicyState) (i : ℕ) : Prop := ∃ state, states[i]? = some state ∧ state.accepted = true

/-- if policies validly target the Service then exactly one of them is accepted, the first of them -/
def OneWinner (need : CaNeed) (api : ApiServer) (policies : List BackendTLSPolicyObject) (key : ServiceTargetKey) : Prop :=
  (∃ i p, Contends need (prevalidated api policies) key i p) → ∃ i p, Contends need (prevalidated api policies) key i p
      ∧ AcceptedAt (reconcileBackendTlsPolicies api policies) i
      ∧ ∀ j q, Contends need (prevalidated api policies) key j q →
        p.order ≤ q.order ∧ (AcceptedAt (reconcileBackendTlsPolicies api policies) j → j = i)

/-- no two policies have one namespace and name -/
def DistinctPolicies : Prop := (pre.map fun p => (p.namespace_, p.name)).Nodup

section Conflict

variable {need : CaNeed} {api : ApiServer} {policies : List BackendTLSPolicyObject} {key : ServiceTargetKey}

theorem Contends.accepted_iff {i : ℕ} {p : PrePolicy} (h : Contends need (prevalidated api policies) key i p) :
    AcceptedAt (reconcileBackendTlsPolicies api policies) i ↔ leadName (prevalidated api policies) key = some p.name := by
  have hstate : (reconcileBackendTlsPolicies api policies)[i]?
      = some (buildState p (isWinner (winners (prevalidated api policies)) p)) := by
    rw [reconcileBackendTlsPolicies, getElem?_map, h.position, map_some]
  rw [AcceptedAt, hstate]
  simp [exists_eq_left', accepted_buildState_iff, isWinner_winners_iff, h.key, h.valid.some]

variable {p q : PrePolicy}

theorem order_le_of_rank_le (hns : p.namespace_ = q.namespace_) (h : p.rank ≤ q.rank) : p.order ≤ q.order := by
  simp only [PrePolicy.rank, Prod.Lex.toLex_le_toLex] at h
  simp only [PrePolicy.order, Prod.Lex.toLex_le_toLex]
  rcases h with hlt | ⟨heq, hle⟩
  · exact .inl hlt
  · refine .inr ⟨heq, .inr ⟨hns, ?_⟩⟩
    simp only [hns] at hle
    exact Text.le_of_append_le hle

theorem namespace_of_key {p : PrePolicy} (hp : p ∈ prevalidated api policies) (hkey : p.key = key) : p.namespace_ = key.1 := by
  rw [← (mem_prevalidated hp).1, ← hkey]
  rfl

theorem lead_spec {w : PrePolicy} (h : lead ((prevalidated api policies).filter (·.key = key)) = some w) :
    w ∈ prevalidated api policies ∧ w.key = key ∧ ∀ q ∈ prevalidated api policies, q.key = key → w.order ≤ q.order := by
  have hmem := mem_filter.1 (minByKey_mem h)
  have hkey : w.key = key := by simpa using hmem.2
  refine ⟨hmem.1, hkey, fun q hq hqkey => ?_⟩
  apply order_le_of_rank_le
  · rw [namespace_of_key hmem.1 hkey, namespace_of_key hq hqkey]
  · exact minByKey_le h (mem_filter.2 ⟨hq, by simpa using hqkey⟩)

theorem position_unique {pre : List PrePolicy} (hdistinct : DistinctPolicies pre) {i j : ℕ}
    (hi : pre[i]? = some p) (hj : pre[j]? = some q) (hns : p.namespace_ = q.namespace_) (hname : p.name = q.name) : i = j := by
  have hlt : i < (pre.map fun p => (p.namespace_, p.name)).length := by
    rw [length_map]
    exact (List.getElem?_eq_some_iff.1 hi).1
  apply (getElem?_inj hlt hdistinct).1
  simp [getElem?_map, hi, hj, hns, hname]

theorem oneWinner_iff_leadName : OneWinner need api policies key ↔ ((∃ i p, Contends need (prevalidated api policies) key i p) →
      ∃ i p, Contends need (prevalidated api policies) key i p ∧ leadName (prevalidated api policies) key = some p.name
        ∧ ∀ j q, Contends need (prevalidated api policies) key j q →
          p.order ≤ q.order ∧ (leadName (prevalidated api policies) key = some q.name → j = i)) := by
  apply imp_congr_right
  intro _
  apply exists_congr
  intro i
  apply exists_congr
  intro p
  apply and_congr_right
  intro hp
  rw [hp.accepted_iff]
  apply and_congr_right
  intro _
  apply forall₃_congr
  intro j q hq
  rw [hq.accepted_iff]

theorem Contends.namespace_eq {i j : ℕ} (hp : Contends need (prevalidated api policies) key i p)
    (hj : (prevalidated api policies)[j]? = some q) (hkey : q.key = key) : q.namespace_ = p.namespace_ := by
  rw [namespace_of_key (mem_of_getElem? hj) hkey, namespace_of_key (mem_of_getElem? hp.position) hp.key]

theorem valid_of_leadName (hdistinct : DistinctPolicies (prevalidated api policies)) {i : ℕ} {p : PrePolicy}
    (hp : Contends need (prevalidated api policies) key i p)
    (hname : leadName (prevalidated api policies) key = some p.name) :
    ∃ w, lead ((prevalidated api policies).filter (·.key = key)) = some w ∧ w.Valid need := by
  rw [leadName, map_eq_some_iff] at hname
  obtain ⟨w, hlead, hname⟩ := hname
  obtain ⟨hw, hwkey, _⟩ := lead_spec hlead
  obtain ⟨j, hj⟩ := getElem?_of_mem hw
  have hij := position_unique hdistinct hj hp.position (hp.namespace_eq hj hwkey) hname
  have hwp : w = p := by
    rw [hij, hp.position] at hj
    exact (Option.some.inj hj).symm
  exact ⟨w, hlead, hwp ▸ hp.valid⟩

theorem oneWinner_iff_lead_valid (hdistinct : DistinctPolicies (prevalidated api policies)) : OneWinner need api policies key ↔
      ((∃ i p, Contends need (prevalidated api policies) key i p) →
        ∃ w, lead ((prevalidated api policies).filter (·.key = key)) = some w ∧ w.Valid need) := by
  rw [oneWinner_iff_leadName]
  apply imp_congr_right
  intro _
  apply Iff.intro
  · intro hone
    obtain ⟨i, p, hp, hname, _⟩ := hone
    exact valid_of_leadName hdistinct hp hname
  · intro hlead
    obtain ⟨w, hlead, hvalid⟩ := hlead
    obtain ⟨hw, hwkey, hfirst⟩ := lead_spec hlead
    obtain ⟨i, hi⟩ := getElem?_of_mem hw
    have hname : leadName (prevalidated api policies) key = some w.name := by rw [leadName, hlead, map_some]
    have hw' : Contends need (prevalidated api policies) key i w := ⟨hi, hwkey, hvalid⟩
    refine ⟨i, w, hw', hname, fun j q hq => ⟨hfirst q (mem_of_getElem? hq.position) hq.key, ?_⟩⟩
    intro hq'
    rw [hname] at hq'
    exact position_unique hdistinct hq.position hi (hw'.namespace_eq hq.position hq.key) (Option.some.inj hq').symm

end Conflict

/-- **Conflicts have one winner** exactly when the name of the first of the whole group is the name of the first valid policy and
of no other valid one. -/
theorem conflict_winner_iff (need : CaNeed) (api : ApiServer) (policies : List BackendTLSPolicyObject) (key : ServiceTargetKey) :
    (OneWinner need api policies key ↔ ((∃ i p, Contends need (prevalidated api policies) key i p) →
        ∃ i p, Contends need (prevalidated api policies) key i p ∧ leadName (prevalidated api policies) key = some p.name
          ∧ ∀ j q, Contends need (prevalidated api policies) key j q →
            p.order ≤ q.order ∧ (leadName (prevalidated api policies) key = some q.name → j = i)))
      ∧ (DistinctPolicies (prevalidated api policies) → (OneWinner need api policies key ↔
          ((∃ i p, Contends need (prevalidated api policies) key i p) →
            ∃ w, lead ((prevalidated api policies).filter (·.key = key)) = some w ∧ w.Valid need))) :=
  ⟨oneWinner_iff_leadName, fun hdistinct => oneWinner_iff_lead_valid hdistinct⟩

def misdirectedPolicy : BackendTLSPolicyObject :=
  { namespace_ := some "shop", name := some "old", creationTimestamp := some 100, hostname := "cart.shop"
    targetRefs := [{ group := "apps", kind := "Deployment", name := "cart" }] }

def cartPolicy : BackendTLSPolicyObject :=
  { namespace_ := some "shop", name := some "cart-tls", creationTimestamp := some 200, hostname := "cart.shop"
    targetRefs := [{ name := "cart" }] }

theorem invalid_policy_wins :
    (reconcileBackendTlsPolicies {} [misdirectedPolicy, cartPolicy]).map (fun s => (s.name, s.accepted, s.acceptedReason))
        = [("old", false, "InvalidKind"), ("cart-tls", false, "Conflicted")]
      ∧ ¬ OneWinner .all {} [misdirectedPolicy, cartPolicy] ("shop", "cart", none)
      ∧ ¬ OneWinner .some {} [misdirectedPolicy, cartPolicy] ("shop", "cart", none) := by
  have hstates : (reconcileBackendTlsPolicies {} [misdirectedPolicy, cartPolicy]).map
      (fun s => (s.name, s.accepted, s.acceptedReason))
        = [("old", false, "InvalidKind"), ("cart-tls", false, "Conflicted")] := by decide
  have hrefused : ∀ need, ¬ OneWinner need {} [misdirectedPolicy, cartPolicy] ("shop", "cart", none) := by
    intro need hone
    have hcart : Contends need (prevalidated {} [misdirectedPolicy, cartPolicy]) ("shop", "cart", none) 1
        (prevalidate {} cartPolicy) := ⟨rfl, rfl, rfl, by cases need <;> rfl⟩
    obtain ⟨i, p, _, ⟨state, hstate, haccepted⟩, _⟩ := hone ⟨1, _, hcart⟩
    have hmem : (state.name, state.accepted, state.acceptedReason)
        ∈ [("old", false, "InvalidKind"), ("cart-tls", false, "Conflicted")] := by
      rw [← hstates]
      exact mem_map_of_mem (mem_of_getElem? hstate)
    simp [haccepted] at hmem
  exact ⟨hstates, hrefused .all, hrefused .some⟩

end SunbeamProxy.Gateway
