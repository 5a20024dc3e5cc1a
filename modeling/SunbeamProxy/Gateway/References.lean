/-
References from routes to Services (`gateway/reconcile/refgrant.rs`, `gateway/reconcile/backend.rs`).

Whether a Service exists is a function the resolution is given.
-/
import SunbeamProxy.Gateway.Parent

namespace SunbeamProxy.Gateway

open Text List

structure GrantSubject where
  group : String
  kind : String
  namespace_ : Option String := none
  name : Option String := none
deriving DecidableEq, Repr

structure ReferenceGrantState where
  namespace_ : String
  name : String
  source : List GrantSubject
  target : List GrantSubject
  generation : ℤ := 0
deriving DecidableEq, Repr

structure GrantIndex where
  grants : List ReferenceGrantState
deriving DecidableEq, Repr

def ReferenceGrantState.grants (g : ReferenceGrantState) (fromNs fromGroup fromKind toNs toGroup toKind toName : String) :
    Bool :=
  g.namespace_ == toNs && (g.source.any fun f => f.group == fromGroup && f.kind == fromKind && f.namespace_ == some fromNs)
    && g.target.any fun t => t.group == toGroup && t.kind == toKind && (t.name.isNone || t.name == some toName)

def GrantIndex.isPermitted (index : GrantIndex) (fromNs fromGroup fromKind toNs toGroup toKind toName : String) : Bool :=
  fromNs == toNs || index.grants.any (·.grants fromNs fromGroup fromKind toNs toGroup toKind toName)

/-! ## Backend references -/

structure BackendRef where
  group : Option String := none
  kind : Option String := none
  namespace_ : Option String := none
  name : String
  port : Option ℤ := none
  weight : Option ℤ := none
deriving DecidableEq, Repr

inductive BackendResolutionStatus where
  | ok
  | refNotPermitted (message : String)
  | unsupported (message : String)
  | backendNotFound (message : String)
deriving DecidableEq, Repr

def BackendResolutionStatus.message : BackendResolutionStatus → String
  | .ok => ""
  | .refNotPermitted msg => msg
  | .unsupported msg => msg
  | .backendNotFound msg => msg

def BackendRef.targetNs (b : BackendRef) (routeNs : String) : String := b.namespace_.getD routeNs

def serviceAddress (name ns : String) (port : ℤ) : String := name ++ "." ++ ns ++ ".svc.cluster.local.:" ++ toString port

theorem splitChar_serviceAddress (name ns : String) (port : ℤ) :
    splitChar '.' (serviceAddress name ns port) = splitChar '.' name ++ splitChar '.' ns
      ++ ["svc", "cluster", "local", ":" ++ toString port] := by
  have hport : '.' ∉ (":" ++ toString port).toList := by
    rw [String.toList_append, mem_append, not_or]
    exact ⟨by decide, notMem_toString_int (by decide) (by decide) port⟩
  have hdots : serviceAddress name ns port = name ++ (String.ofList ['.'] ++ (ns ++ (String.ofList ['.'] ++ ("svc"
      ++ (String.ofList ['.'] ++ ("cluster" ++ (String.ofList ['.'] ++ ("local"
      ++ (String.ofList ['.'] ++ (":" ++ toString port)))))))))) := by
    apply String.toList_inj.1
    simp [serviceAddress]
  rw [hdots]
  simp only [splitChar_append_sep, splitChar_of_notMem hport, append_assoc]
  rfl

/-- a DNS label: Service and namespace names are labels -/
def IsLabel (s : String) : Prop := '.' ∉ s.toList

instance (s : String) : Decidable (IsLabel s) := inferInstanceAs (Decidable ('.' ∉ s.toList))

theorem serviceAddress_inj {name name' ns ns' : String} {port port' : ℤ} (hname : IsLabel name) (hns : IsLabel ns)
    (h : serviceAddress name' ns' port' = serviceAddress name ns port) : name' = name ∧ ns' = ns := by
  have hpieces := congrArg (splitChar '.') h
  simp only [splitChar_serviceAddress] at hpieces
  have hlabels := (append_inj' hpieces rfl).1
  rw [splitChar_of_notMem hname, splitChar_of_notMem hns] at hlabels
  -- two pieces in all and at least one on each side
  have hlen := congrArg length hlabels
  have hpos := length_pos_iff.2 (splitChar_ne_nil '.' name')
  have hpos' := length_pos_iff.2 (splitChar_ne_nil '.' ns')
  simp only [length_append, length_singleton] at hlen
  obtain ⟨h₁, h₂⟩ := append_inj hlabels (by simp only [length_singleton]; omega)
  exact ⟨splitChar_inj (h₁.trans (splitChar_of_notMem hname).symm),
    splitChar_inj (h₂.trans (splitChar_of_notMem hns).symm)⟩

def checkBackendPermitted (b : BackendRef) (routeNs routeKind : String) (index : GrantIndex) :
    Option BackendResolutionStatus :=
  let group := b.group.getD ""
  let kind := b.kind.getD "Service"
  if group ≠ "" ∨ kind ≠ "Service" then
    some (.unsupported ("backendRef group " ++ group ++ " kind " ++ kind ++ " is not supported"))
  else if index.isPermitted routeNs gatewayGroup routeKind (b.targetNs routeNs) group kind b.name then none
  else some (.refNotPermitted ("cross-namespace backend reference from " ++ routeNs ++ " to " ++ b.targetNs routeNs ++ "/"
    ++ b.name ++ " is not permitted"))

def checkBackend (serviceExists : String → String → Bool) (index : GrantIndex) (routeNs routeKind : String)
    (b : BackendRef) : Option BackendResolutionStatus :=
  match checkBackendPermitted b routeNs routeKind index with
  | some failure => some failure
  | none =>
    if serviceExists (b.targetNs routeNs) b.name then none
    else some (.backendNotFound ("backend Service " ++ b.targetNs routeNs ++ "/" ++ b.name ++ " not found"))

theorem isPermitted_of_checkBackend {serviceExists : String → String → Bool} {index : GrantIndex}
    {routeNs routeKind : String} {b : BackendRef} (h : checkBackend serviceExists index routeNs routeKind b = none) :
    index.isPermitted routeNs gatewayGroup routeKind (b.targetNs routeNs) "" "Service" b.name = true := by
  unfold checkBackend checkBackendPermitted at h
  by_cases hkind : b.group.getD "" ≠ "" ∨ b.kind.getD "Service" ≠ "Service"
  · simp [if_pos hkind] at h
  · simp only [not_or, not_not] at hkind
    by_contra hdenied
    simp [hkind.1, hkind.2, hdenied] at h

structure RuleBackendResolution where
  ok : Bool
  message : String
deriving DecidableEq, Repr

structure BackendResolution where
  overall : BackendResolutionStatus
  rules : List RuleBackendResolution
deriving DecidableEq, Repr

structure RuleCheck where
  overall : BackendResolutionStatus
  ok : Bool := true
  message : String := ""

def RuleCheck.note (c : RuleCheck) : Option BackendResolutionStatus → RuleCheck
  | none => c
  | some failure =>
    { overall := if c.overall = .ok then failure else c.overall
      ok := false
      message := if c.message = "" then failure.message else c.message }

variable (check : BackendRef → Option BackendResolutionStatus)

def checkRule (overall : BackendResolutionStatus)
    (backends : List BackendRef) : RuleCheck :=
  backends.foldl (fun c b => c.note (check b)) { overall }

def BackendResolution.addRule (r : BackendResolution)
    (backends : List BackendRef) : BackendResolution :=
  let c := checkRule check r.overall backends
  ⟨c.overall, r.rules ++ [⟨c.ok, c.message⟩]⟩

def resolveBackendRefs (rules : List (List BackendRef)) :
    BackendResolution :=
  rules.foldl (BackendResolution.addRule check) ⟨.ok, []⟩

variable (check : BackendRef → Option BackendResolutionStatus)

theorem foldl_note_ok (bs : List BackendRef) (c : RuleCheck) :
    (bs.foldl (fun c b => c.note (check b)) c).ok = (c.ok && bs.all fun b => (check b).isNone) := by
  induction bs generalizing c with
  | nil => simp
  | cons b bs ih =>
    rw [foldl_cons, ih]
    cases hb : check b <;> simp [RuleCheck.note, hb]

theorem checkRule_ok (overall : BackendResolutionStatus) (backends : List BackendRef) :
    (checkRule check overall backends).ok = backends.all fun b => (check b).isNone := foldl_note_ok check backends _

theorem foldl_addRule_ok (rs : List (List BackendRef)) (r : BackendResolution) :
    (rs.foldl (BackendResolution.addRule check) r).rules.map (·.ok)
      = r.rules.map (·.ok) ++ rs.map fun bs => bs.all fun b => (check b).isNone := by
  induction rs generalizing r with
  | nil => simp
  | cons bs rs ih =>
    rw [foldl_cons, ih]
    simp [BackendResolution.addRule, checkRule_ok]

theorem resolveBackendRefs_ok (rules : List (List BackendRef)) :
    (resolveBackendRefs check rules).rules.map (·.ok) = rules.map fun bs => bs.all fun b => (check b).isNone :=
  foldl_addRule_ok check rules _

end SunbeamProxy.Gateway
