/-
The certificate files on disk over a run of refreshes (`tls/source.rs`).
-/
import SunbeamProxy.Gateway.CertificateRefresh

namespace SunbeamProxy.Gateway

open List Option

structure DiskFiles where
  cert : Option String
  key : Option String

structure DiskCertSource (κ : Type) where
  store : CertStore κ

section Disk

-- `pem` is `certified_key_from_pem`
variable {κ : Type} (pem : String → String → Option κ)

def DiskFiles.tryLoad (files : DiskFiles) : Option (CertStore κ) := do
  let certPem ← files.cert
  let keyPem ← files.key
  let certifiedKey ← pem certPem keyPem
  some { default := some certifiedKey }

def DiskFiles.load (files : DiskFiles) : CertStore κ := (files.tryLoad pem).getD {}

def DiskCertSource.new (files : DiskFiles) : DiskCertSource κ := ⟨files.load pem⟩

def DiskCertSource.refresh (_source : DiskCertSource κ) (files : DiskFiles) : DiskCertSource κ := ⟨files.load pem⟩

variable (first : DiskFiles)

def DiskCertSource.run (later : List DiskFiles) : DiskCertSource κ :=
  later.foldl (refresh pem) (new pem first)

variable (files : List DiskFiles)

def lastGood : Option (CertStore κ) := (files.filterMap (·.tryLoad pem)).getLast?

/-- the store is the one of the last files that could be read -/
def HoldsLastGood (later : List DiskFiles) : Prop := ∀ store,
  lastGood pem (first :: later) = some store → (DiskCertSource.run pem first later).store = store

/-- a successful load is followed by successful loads only -/
def NeverFailsAgain : Prop := files.IsChain fun a b =>
  (a.tryLoad pem).isSome = true → (b.tryLoad pem).isSome = true

theorem default_isSome_of_tryLoad {files : DiskFiles} {store : CertStore κ}
    (h : files.tryLoad pem = some store) : store.default.isSome = true := by
  simp only [DiskFiles.tryLoad, bind_eq_bind, bind_eq_some_iff] at h
  obtain ⟨_, -, _, -, key, -, hstore⟩ := h
  cases hstore
  rfl

theorem lastGood_concat (f : DiskFiles) :
    lastGood pem (files ++ [f]) = (f.tryLoad pem).or (lastGood pem files) := by
  rw [lastGood, filterMap_append, getLast?_append]
  cases hf : f.tryLoad pem <;> simp [hf, lastGood]

theorem run_eq_load_getLast (later : List DiskFiles) :
    (DiskCertSource.run pem first later).store
      = ((first :: later).getLast (cons_ne_nil _ _)).load pem := by
  induction later using reverseRecOn with
  | nil => rfl
  | append_singleton later f _ => simp [DiskCertSource.run, DiskCertSource.refresh]

theorem holdsLastGood_concat_iff {first : DiskFiles} {later : List DiskFiles} (f : DiskFiles)
    (h : HoldsLastGood pem first later) :
    HoldsLastGood pem first (later ++ [f])
      ↔ ((((first :: later).getLast (cons_ne_nil _ _)).tryLoad pem).isSome = true →
          (f.tryLoad pem).isSome = true) := by
  have hrun : (DiskCertSource.run pem first (later ++ [f])).store = f.load pem := by
    simp [DiskCertSource.run, DiskCertSource.refresh]
  rw [HoldsLastGood, hrun, ← cons_append, lastGood_concat, DiskFiles.load]
  cases hf : f.tryLoad pem with
  | some store => simp
  | none =>
    -- the source is empty now, which is right only when no load has succeeded
    simp only [none_or, getD_none, isSome_none, Bool.false_eq_true, imp_false, Bool.not_eq_true]
    have hlast := run_eq_load_getLast pem first later
    have hmem : (first :: later).getLast (cons_ne_nil _ _) ∈ first :: later := getLast_mem _
    generalize (first :: later).getLast (cons_ne_nil _ _) = last at hlast hmem ⊢
    apply Iff.intro
    · intro hnone
      cases hload : last.tryLoad pem with
      | none => rfl
      | some store =>
        have hne : lastGood pem (first :: later) ≠ none := by
          rw [lastGood, Ne, getLast?_eq_none_iff]
          exact ne_nil_of_mem (mem_filterMap.2 ⟨last, hmem, hload⟩)
        obtain ⟨good, hgood⟩ := ne_none_iff_exists'.1 hne
        have hstore : store = good := by rw [← h good hgood, hlast, DiskFiles.load, hload, getD_some]
        have hdefault := default_isSome_of_tryLoad pem hload
        rw [hstore, ← hnone good hgood] at hdefault
        exact absurd hdefault (by simp)
    · intro hfail store hstore
      rw [← h store hstore, hlast, DiskFiles.load, isNone_iff_eq_none.1 (isSome_eq_false_iff.1 hfail), getD_none]

theorem holdsLastGood_iff_neverFailsAgain (later : List DiskFiles) :
    (∀ pre, pre <+: later → HoldsLastGood pem first pre)
      ↔ NeverFailsAgain pem (first :: later) := by
  induction later using reverseRecOn with
  | nil =>
    have hfirst : HoldsLastGood pem first [] := by
      intro store hstore
      cases hload : first.tryLoad pem <;>
        simp_all [lastGood, DiskCertSource.run, DiskCertSource.new, DiskFiles.load]
    simp [NeverFailsAgain, hfirst]
  | append_singleton later f ih =>
    have hsplit : (∀ pre, pre <+: later ++ [f] → HoldsLastGood pem first pre)
        ↔ (∀ pre, pre <+: later → HoldsLastGood pem first pre)
          ∧ HoldsLastGood pem first (later ++ [f]) := by
      simp only [prefix_concat_iff, or_imp, forall_and, forall_eq]
      exact and_comm
    rw [hsplit, ih, ← cons_append, NeverFailsAgain, NeverFailsAgain, isChain_append]
    apply and_congr_right
    intro hchain
    have hlater := ih.2 hchain later prefix_rfl
    rw [holdsLastGood_concat_iff pem f hlater, getLast?_eq_some_getLast (cons_ne_nil first later)]
    simp

/-- **Reloading the files.** The disk source holds the certificate of its most recent successful load, after every refresh of a
run, exactly when no load of the run fails after one that succeeded. -/
theorem disk_keeps_last_good_iff {V : Type} [DecidableEq V] (first : DiskFiles) (later : List DiskFiles) :
    ((∀ pre, pre <+: later → HoldsLastGood pem first pre) ↔ NeverFailsAgain pem (first :: later))
      ∧ (NeverFailsAgain pem (first :: later) → lastGood pem (first :: later) ≠ none →
        ∀ (reader : ViewReader V) (certifiedKey : Option (HashMap String String) → Option κ) (s : Leader V κ)
          (c : ClusterState V κ) (view : V), c.view = some view → s.prevView ≠ some view →
          c.disk = (DiskCertSource.run pem first later).store.default →
          (s.tick reader certifiedKey c).registry.1.default ≠ none) := by
  have hiff := holdsLastGood_iff_neverFailsAgain pem first later
  refine ⟨hiff, ?_⟩
  intro hnever hgood reader certifiedKey s c view hview hchanged hdisk
  obtain ⟨store, hstore⟩ := ne_none_iff_exists'.1 hgood
  obtain ⟨files, -, hload⟩ := mem_filterMap.1 (mem_of_getLast? hstore)
  have hdefault := default_isSome_of_tryLoad pem hload
  rw [← hiff.2 hnever later prefix_rfl store hstore, ← hdisk, isSome_iff_ne_none] at hdefault
  simp [Leader.tick, hview, hchanged, currentCertificates, mergeCertStore, diskCertStore, hdefault]

end Disk

theorem refresh_during_rotation_empties_default :
    let pair : String → String → Option String := fun cert key => if cert = key then some cert else none
    let tick : Option String → ClusterState (List GatewayState) String := fun disk =>
      ⟨some [], fun _ _ => none, fun _ _ => none, disk⟩
    lastGood pair [⟨some "old", some "old"⟩, ⟨some "new", none⟩] = some { default := some "old" }
      ∧ (DiskCertSource.run pair ⟨some "old", some "old"⟩ [⟨some "new", none⟩]).store = {}
      ∧ (Leader.tick shopReader secretCertificate ⟨some [buildGatewayState shopGateway], ({ default := some "old" }, ∅)⟩
          (tick (DiskCertSource.run pair ⟨some "old", some "old"⟩ [⟨some "new", none⟩]).store.default)).registry.1.default
        = none
      ∧ ¬HoldsLastGood pair ⟨some "old", some "old"⟩ [⟨some "new", none⟩] := by
  refine ⟨rfl, rfl, by decide, ?_⟩
  intro h
  have hstore := congrArg CertStore.default (h _ rfl)
  exact absurd hstore (by decide)

end SunbeamProxy.Gateway
