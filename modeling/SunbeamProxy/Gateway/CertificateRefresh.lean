/-
The certificates of the TLS registry over the ticks of the leader loop (`gateway/reconcile/leader.rs`, `tls/source.rs`).
-/
import SunbeamProxy.Core.Derived
import SunbeamProxy.Gateway.Tick

namespace SunbeamProxy.Gateway

abbrev Certificates (κ : Type) := CertStore κ × HashMap String κ

def diskCertStore {κ : Type} (disk : Option κ) : Certificates κ := ({ default := disk }, ∅)

def mergeWildcards {κ : Type} (lower higher : List (WildcardPattern × κ)) : List (WildcardPattern × κ) :=
  higher.foldl (fun acc e => acc.filter (·.1 ≠ e.1) ++ [e]) lower

def mergeCertStore {κ : Type} (lower higher : Certificates κ) : Certificates κ :=
  ({ default := higher.1.default.or lower.1.default
     exact := lower.1.exact.extend higher.1.exact
     wildcard := mergeWildcards lower.1.wildcard higher.1.wildcard }, lower.2.extend higher.2)

/-- the same certificate for every name, in the same order of wildcards, and for every id -/
structure SameCertificates {κ : Type} (a b : Certificates κ) : Prop where
  default : a.1.default = b.1.default
  exact : ∀ host, a.1.exact.get host = b.1.exact.get host
  wildcard : a.1.wildcard = b.1.wildcard
  client : ∀ id, a.2.get id = b.2.get id

theorem sameCertificates_equivalence (κ : Type) : Equivalence (@SameCertificates κ) where
  refl _ := ⟨rfl, fun _ => rfl, rfl, fun _ => rfl⟩
  symm h := ⟨h.default.symm, fun host => (h.exact host).symm, h.wildcard.symm, fun id => (h.client id).symm⟩
  trans h h' := ⟨h.default.trans h'.default, fun host => (h.exact host).trans (h'.exact host),
    h.wildcard.trans h'.wildcard, fun id => (h.client id).trans (h'.client id)⟩

/-! ## The loop -/

structure ViewReader (V : Type) where
  gateways : V → List GatewayState
  referenceGrants : V → GrantIndex

structure ClusterState (V κ : Type) where
  /-- the reconciled view, of a tick that succeeds -/
  view : Option V
  gateway : String → String → Option GatewayObject
  secret : String → String → Option (Option (HashMap String String))
  /-- the certificate in the files, if they load -/
  disk : Option κ := none

structure Leader (V κ : Type) where
  prevView : Option V := none
  registry : Certificates κ := ({}, ∅)

section Loop

variable {V κ : Type} [DecidableEq V] (reader : ViewReader V) (certifiedKey : Option (HashMap String String) → Option κ)

def currentCertificates (c : ClusterState V κ) (view : V) : Certificates κ := mergeCertStore (diskCertStore c.disk)
    (CertLoader.buildGatewayCertStore ⟨c.gateway, c.secret, certifiedKey, reader.referenceGrants view⟩
      { gateways := reader.gateways view })

variable (s : Leader V κ)

def Leader.tick (c : ClusterState V κ) : Leader V κ :=
  match c.view with
  | none => s
  | some view =>
    { prevView := some view
      registry := if s.prevView = some view then s.registry else currentCertificates reader certifiedKey c view }

variable (cs : List (ClusterState V κ))

def Leader.run : Leader V κ := cs.foldl (Leader.tick reader certifiedKey) {}

/-- after every successful tick the registry holds the certificates of then -/
def RegistryCurrent : Prop :=
  ∀ pre c post, cs = pre ++ c :: post → ∀ view, c.view = some view →
    SameCertificates (Leader.run reader certifiedKey (pre ++ [c])).registry (currentCertificates reader certifiedKey c view)

def successes : List (V × Certificates κ) :=
  cs.filterMap fun c => c.view.map fun view => (view, currentCertificates reader certifiedKey c view)

def Leader.kept : Option V × Certificates κ := (s.prevView, s.registry)

theorem kept_foldl (cs : List (ClusterState V κ)) :
    (cs.foldl (Leader.tick reader certifiedKey) s).kept = (successes reader certifiedKey cs).foldl keep s.kept := by
  induction cs generalizing s with
  | nil => rfl
  | cons c cs ih =>
    rw [List.foldl_cons, ih]
    cases hview : c.view <;> simp [Leader.tick, hview, successes, keep, Leader.kept]

theorem run_registry :
    (Leader.run reader certifiedKey cs).registry = ((successes reader certifiedKey cs).foldl keep (none, ({}, ∅))).2 :=
  congrArg Prod.snd (kept_foldl reader certifiedKey {} cs)

omit [DecidableEq V] in
theorem exists_tick_of_success {cs : List (ClusterState V κ)} {pre post : List (V × Certificates κ)} {x : V × Certificates κ}
    (h : successes reader certifiedKey cs = pre ++ x :: post) :
    ∃ cs₁ c cs₂, cs = cs₁ ++ c :: cs₂ ∧ successes reader certifiedKey cs₁ = pre
      ∧ c.view = some x.1 ∧ currentCertificates reader certifiedKey c x.1 = x.2 := by
  obtain ⟨cs₁, rest, rfl, hpre, hrest⟩ := List.filterMap_eq_append_iff.1 h
  obtain ⟨skipped, c, cs₂, rfl, hskipped, hc, -⟩ := List.filterMap_eq_cons_iff.1 hrest
  obtain ⟨view, hview, hx⟩ := Option.map_eq_some_iff.1 hc
  refine ⟨cs₁ ++ skipped, c, cs₂, by rw [List.append_assoc], ?_, ?_⟩
  · rw [successes, List.filterMap_append, hpre, List.filterMap_eq_nil_iff.2 hskipped, List.append_nil]
  · rw [← hx]
    exact ⟨hview, rfl⟩

/-- **Certificates follow the view.** After every successful tick the registry holds the certificates of then, exactly when they
are the same at any two successive successful ticks with the same view. -/
theorem registry_current_iff (cs : List (ClusterState V κ)) : RegistryCurrent reader certifiedKey cs
      ↔ (successes reader certifiedKey cs).IsChain fun a b => a.1 = b.1 → SameCertificates a.2 b.2 := by
  rw [← kept_current_iff (sameCertificates_equivalence κ) ({}, ∅)]
  have hsnoc : ∀ cs₁ c view, c.view = some view → successes reader certifiedKey (cs₁ ++ [c])
      = successes reader certifiedKey cs₁ ++ [(view, currentCertificates reader certifiedKey c view)] := by
    intro cs₁ c view hview
    simp [successes, hview]
  apply Iff.intro
  · intro h pre x post hxs
    obtain ⟨cs₁, c, cs₂, hcs, hpre, hview, hcerts⟩ := exists_tick_of_success reader certifiedKey hxs
    have hcurrent := h cs₁ c cs₂ hcs x.1 hview
    rw [run_registry, hsnoc cs₁ c x.1 hview, hpre, hcerts] at hcurrent
    exact hcurrent
  · intro h pre c post hcs view hview
    rw [run_registry, hsnoc pre c view hview]
    refine h _ (view, currentCertificates reader certifiedKey c view) (successes reader certifiedKey post) ?_
    rw [hcs, successes, List.filterMap_append, List.filterMap_cons, hview]
    rfl

end Loop

/-- a Gateway with a certificate for `shop.example` -/
def shopGateway : GatewayObject :=
  { namespace_ := some "shop", name := some "edge", gatewayClassName := "sunbeam"
    listeners := [.object [("name", .string "web"), ("protocol", .string "HTTPS"), ("port", .number (.posInt 443)),
      ("hostname", .string "shop.example"),
      ("tls", .object [("certificateRefs", .array [.object [("kind", .string "Secret"), ("name", .string "tls")]])])]] }

def shopTick (certificate : String) : ClusterState (List GatewayState) String where
  view := some [buildGatewayState shopGateway]
  gateway _ _ := some shopGateway
  secret _ _ := some (some (HashMap.ofPairs [("tls.crt", certificate)]))

def shopReader : ViewReader (List GatewayState) := ⟨id, fun _ => ⟨[]⟩⟩

def secretCertificate (data : Option (HashMap String String)) : Option String := data.bind (·.get "tls.crt")

theorem rotated_certificate_not_served :
    (Leader.run shopReader secretCertificate [shopTick "old", shopTick "new"]).registry.1.exact.get "shop.example" = some "old"
      ∧ (currentCertificates shopReader secretCertificate (shopTick "new")
          [buildGatewayState shopGateway]).1.exact.get "shop.example" = some "new"
      ∧ ¬RegistryCurrent shopReader secretCertificate [shopTick "old", shopTick "new"] := by
  have hserved : (Leader.run shopReader secretCertificate [shopTick "old", shopTick "new"]).registry.1.exact.get "shop.example"
      = some "old" := by decide
  have hcurrent : (currentCertificates shopReader secretCertificate (shopTick "new")
      [buildGatewayState shopGateway]).1.exact.get "shop.example" = some "new" := by decide
  refine ⟨hserved, hcurrent, ?_⟩
  intro h
  have hsame := (h [shopTick "old"] (shopTick "new") [] rfl _ rfl).exact "shop.example"
  exact absurd hsame (by decide)

end SunbeamProxy.Gateway
