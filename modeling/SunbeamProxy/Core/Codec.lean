/-
Byte encodings, and what can be read back from them.

Integers are written at a fixed width and whatever has a length is preceded by it, as a 32-bit number. `ReadsBack enc U E`
says that the encoding can be read from the front of any text: of two values that `U` relates, written in front of two texts to
give the same bytes, `E` holds, and the texts are equal.
-/
import Mathlib.Tactic

namespace SunbeamProxy

open List

abbrev Bytes := List UInt8

namespace Codec

def beBytes : ℕ → ℕ → Bytes
  | 0, _ => []
  | k + 1, n => beBytes k (n / 256) ++ [UInt8.ofNat n]

def encodeU16 (v : UInt16) : Bytes := beBytes 2 v.toNat

def encodeU32 (n : ℕ) : Bytes := beBytes 4 n

def encodeI64 (z : ℤ) : Bytes := beBytes 8 (z % 2 ^ 64).toNat

def encodeI32Le (z : ℤ) : Bytes := (beBytes 4 (z % 2 ^ 32).toNat).reverse

def encodeBool (b : Bool) : Bytes := [if b then 1 else 0]

variable (s : String)

def utf8 : Bytes := s.toList.flatMap String.utf8EncodeChar

def encodeStr : Bytes := encodeU32 (utf8 s).length ++ utf8 s

def encodeOption {α : Type} (enc : α → Bytes) : Option α → Bytes
  | none => [0]
  | some a => 1 :: enc a

def encodeList {α : Type} (enc : α → Bytes) (l : List α) : Bytes := encodeU32 l.length ++ l.flatMap enc

/-! ## Reading back -/

/-- equal bytes, whatever follows, come from `E`-related values, for the pairs in `U` -/
def ReadsBack {α : Type} (enc : α → Bytes) (U E : α → α → Prop) : Prop :=
  ∀ ⦃a b r s⦄, U a b → enc a ++ r = enc b ++ s → E a b ∧ r = s

theorem length_beBytes (k n : ℕ) : (beBytes k n).length = k := by
  induction k generalizing n with
  | zero => rfl
  | succ k ih => rw [beBytes, length_append, ih, length_singleton]

theorem beBytes_inj {k n m : ℕ} (hn : n < 256 ^ k) (hm : m < 256 ^ k) (h : beBytes k n = beBytes k m) : n = m := by
  induction k generalizing n m with
  | zero => omega
  | succ k ih =>
    have hparts := append_inj h (by simp only [length_beBytes])
    have hlow : n % 256 = m % 256 := by simpa using congrArg UInt8.toNat (singleton_inj.1 hparts.2)
    have hhigh := ih (Nat.div_lt_of_lt_mul (by omega)) (Nat.div_lt_of_lt_mul (by omega)) hparts.1
    omega

theorem readsBack_beBytes (k : ℕ) : ReadsBack (beBytes k) (fun n m => n < 256 ^ k ∧ m < 256 ^ k) (· = ·) := by
  intro n m r s hfit h
  have hparts := append_inj h (by simp only [length_beBytes])
  exact ⟨beBytes_inj hfit.1 hfit.2 hparts.1, hparts.2⟩

theorem readsBack_u16 : ReadsBack encodeU16 (fun _ _ => True) (· = ·) := by
  intro v w r s _ h
  have hread := readsBack_beBytes 2 ⟨v.toNat_lt, w.toNat_lt⟩ h
  exact ⟨UInt16.toNat_inj.1 hread.1, hread.2⟩

theorem readsBack_u32 : ReadsBack encodeU32 (fun n m => n < 2 ^ 32 ∧ m < 2 ^ 32) (· = ·) := by
  intro n m r s hfit h
  exact readsBack_beBytes 4 hfit h

def InRange (bits : ℕ) (z : ℤ) : Prop := -2 ^ (bits - 1) ≤ z ∧ z < 2 ^ (bits - 1)

theorem readsBack_i64 : ReadsBack encodeI64 (fun z w => InRange 64 z ∧ InRange 64 w) (· = ·) := by
  intro z w r s hfit h
  have hlt : ∀ x : ℤ, (x % 2 ^ 64).toNat < 256 ^ 8 := fun x => by omega
  have hread := readsBack_beBytes 8 ⟨hlt z, hlt w⟩ h
  simp only [InRange] at hfit
  exact ⟨by omega, hread.2⟩

theorem readsBack_i32Le : ReadsBack encodeI32Le (fun z w => InRange 32 z ∧ InRange 32 w) (· = ·) := by
  intro z w r s hfit h
  have hlt : ∀ x : ℤ, (x % 2 ^ 32).toNat < 256 ^ 4 := fun x => by omega
  have hparts := append_inj h (by simp only [encodeI32Le, length_reverse, length_beBytes])
  have hread := beBytes_inj (hlt z) (hlt w) (reverse_injective hparts.1)
  simp only [InRange] at hfit
  exact ⟨by omega, hparts.2⟩

theorem readsBack_bool : ReadsBack encodeBool (fun _ _ => True) (· = ·) := by
  intro a b r s _ h
  cases a <;> cases b <;> simp_all [encodeBool]

/-! ### Texts -/

theorem toByteArray_eq_utf8 : s.toByteArray = (utf8 s).toByteArray := by
  calc s.toByteArray = (String.ofList s.toList).toByteArray := by rw [String.ofList_toList]
    _ = s.toList.utf8Encode := String.toByteArray_ofList
    _ = (utf8 s).toByteArray := rfl

theorem utf8_inj {s t : String} (h : utf8 s = utf8 t) : s = t := by
  apply String.toByteArray_inj.1
  simp [toByteArray_eq_utf8, h]

def Short : Prop := (utf8 s).length < 2 ^ 32

theorem readsBack_str : ReadsBack encodeStr (fun s t => Short s ∧ Short t) (· = ·) := by
  intro a b r s hfit h
  simp only [encodeStr, append_assoc] at h
  obtain ⟨hlen, h⟩ := readsBack_u32 hfit h
  have hparts := append_inj h hlen
  exact ⟨utf8_inj hparts.1, hparts.2⟩

/-! ### Options and lists -/

theorem readsBack_optionRel {α : Type} {enc : α → Bytes} {U E : α → α → Prop} (henc : ReadsBack enc U E) :
    ReadsBack (encodeOption enc) (fun a b => ∀ x ∈ a, ∀ y ∈ b, U x y) (Option.Rel E) := by
  intro a b r s hu h
  cases a with
  | none =>
    cases b with
    | none => exact ⟨.none, by simpa using h⟩
    | some y => simp [encodeOption] at h
  | some x =>
    cases b with
    | none => simp [encodeOption] at h
    | some y =>
      have hread := henc (hu x rfl y rfl) (cons.inj h).2
      exact ⟨.some hread.1, hread.2⟩

theorem readsBack_option {α : Type} {enc : α → Bytes} {U : α → α → Prop} (henc : ReadsBack enc U (· = ·)) :
    ReadsBack (encodeOption enc) (fun a b => ∀ x ∈ a, ∀ y ∈ b, U x y) (· = ·) := by
  intro a b r s hu h
  obtain ⟨hrel, hrest⟩ := readsBack_optionRel henc hu h
  cases hrel with
  | none => exact ⟨rfl, hrest⟩
  | some heq => exact ⟨congrArg some heq, hrest⟩

theorem readsBack_flatMap {α : Type} {enc : α → Bytes} {U E : α → α → Prop} (henc : ReadsBack enc U E) :
    ReadsBack (List.flatMap enc) (Forall₂ U) (Forall₂ E) := by
  intro l m r s hu h
  induction hu with
  | nil => exact ⟨.nil, h⟩
  | cons hab _ ih =>
    simp only [flatMap_cons, append_assoc] at h
    obtain ⟨hhead, h⟩ := henc hab h
    obtain ⟨htail, hrest⟩ := ih h
    exact ⟨.cons hhead htail, hrest⟩

/-- A way to write values of a type: which of them fit, what the bytes say of two values that fit, and what the two have to
share, without being told by the bytes, for these to be read. -/
structure Format (α : Type) where
  encode : α → Bytes
  Fits : α → Prop
  Agree : α → α → Prop
  Aligned : α → α → Prop
  readsBack : ReadsBack encode (fun a b => (Fits a ∧ Fits b) ∧ Aligned a b) Agree
  aligned_of_agree : ∀ {a b}, Agree a b → Aligned a b

namespace Format

variable {α β : Type}

def exact {enc : α → Bytes} {fits : α → Prop} (h : ReadsBack enc (fun a b => fits a ∧ fits b) (· = ·)) : Format α :=
  ⟨enc, fits, (· = ·), fun _ _ => True, fun _ _ _ _ hfit heq => h hfit.1 heq, fun _ => trivial⟩

def total {enc : α → Bytes} (h : ReadsBack enc (fun _ _ => True) (· = ·)) : Format α :=
  ⟨enc, fun _ => True, (· = ·), fun _ _ => True, fun _ _ _ _ _ heq => h trivial heq, fun _ => trivial⟩

def nothing : Format α :=
  ⟨fun _ => [], fun _ => True, fun _ _ => True, fun _ _ => True, fun _ _ _ _ _ heq => ⟨trivial, heq⟩, fun _ => trivial⟩

def field (get : α → β) (f : Format β) : Format α where
  encode a := f.encode (get a)
  Fits a := f.Fits (get a)
  Agree a b := f.Agree (get a) (get b)
  Aligned a b := f.Aligned (get a) (get b)
  readsBack _ _ _ _ hfit h := f.readsBack hfit h
  aligned_of_agree h := f.aligned_of_agree h

def andThen (f g : Format α) : Format α where
  encode a := f.encode a ++ g.encode a
  Fits a := f.Fits a ∧ g.Fits a
  Agree a b := f.Agree a b ∧ g.Agree a b
  Aligned a b := f.Aligned a b ∧ g.Aligned a b
  readsBack := by
    intro a b r s hfit h
    obtain ⟨⟨ha, hb⟩, halign⟩ := hfit
    rw [append_assoc, append_assoc] at h
    obtain ⟨hf, h⟩ := f.readsBack ⟨⟨ha.1, hb.1⟩, halign.1⟩ h
    obtain ⟨hg, hrest⟩ := g.readsBack ⟨⟨ha.2, hb.2⟩, halign.2⟩ h
    exact ⟨⟨hf, hg⟩, hrest⟩
  aligned_of_agree h := ⟨f.aligned_of_agree h.1, g.aligned_of_agree h.2⟩

def fields (f : Format α) (rest : List (Format α)) : Format α := rest.foldl andThen f

def option (f : Format α) : Format (Option α) where
  encode := encodeOption f.encode
  Fits o := ∀ a ∈ o, f.Fits a
  Agree := Option.Rel f.Agree
  Aligned o p := ∀ a ∈ o, ∀ b ∈ p, f.Aligned a b
  readsBack := by
    intro a b r s hfit h
    exact readsBack_optionRel f.readsBack (fun x hx y hy => ⟨⟨hfit.1.1 x hx, hfit.1.2 y hy⟩, hfit.2 x hx y hy⟩) h
  aligned_of_agree := by
    rintro o p h a rfl b rfl
    cases h with
    | some hab => exact f.aligned_of_agree hab

def list (f : Format α) : Format (List α) where
  encode := encodeList f.encode
  Fits l := l.length < 2 ^ 32 ∧ ∀ a ∈ l, f.Fits a
  Agree := List.Forall₂ f.Agree
  Aligned l m := ∀ p ∈ l.zip m, f.Aligned p.1 p.2
  readsBack := by
    intro l m r s hfit h
    obtain ⟨⟨hl, hm⟩, halign⟩ := hfit
    rw [encodeList, encodeList, append_assoc, append_assoc] at h
    obtain ⟨hlen, h⟩ := readsBack_u32 ⟨hl.1, hm.1⟩ h
    have helements : List.Forall₂ (fun a b => (f.Fits a ∧ f.Fits b) ∧ f.Aligned a b) l m := by
      refine forall₂_iff_zip.2 ⟨hlen, fun {a b} hab => ⟨?_, halign _ hab⟩⟩
      exact ⟨hl.2 a (of_mem_zip hab).1, hm.2 b (of_mem_zip hab).2⟩
    exact readsBack_flatMap f.readsBack helements h
  aligned_of_agree h := fun _ hp => f.aligned_of_agree ((forall₂_iff_zip.1 h).2 hp)

@[simp]
theorem aligned_exact {fits : α → Prop} {h : ReadsBack enc (fun a b => fits a ∧ fits b) (· = ·)} (a b : α) :
    (exact h).Aligned a b := trivial

@[simp]
theorem aligned_total {h : ReadsBack enc (fun _ _ => True) (· = ·)} (a b : α) : (total h).Aligned a b := trivial

@[simp]
theorem aligned_nothing (a b : α) : nothing.Aligned a b := trivial

@[simp]
theorem aligned_field (get : α → β) (f : Format β) (a b : α) : (field get f).Aligned a b ↔ f.Aligned (get a) (get b) := .rfl

@[simp]
theorem aligned_option (f : Format α) (o p : Option α) : f.option.Aligned o p ↔ ∀ a ∈ o, ∀ b ∈ p, f.Aligned a b := .rfl

@[simp]
theorem aligned_list (f : Format α) (l m : List α) : f.list.Aligned l m ↔ ∀ p ∈ l.zip m, f.Aligned p.1 p.2 := .rfl

@[simp]
theorem aligned_fields (f : Format α) (rest : List (Format α)) (a b : α) :
    (fields f rest).Aligned a b ↔ f.Aligned a b ∧ ∀ g ∈ rest, g.Aligned a b := by
  induction rest generalizing f with
  | nil => simp [fields]
  | cons g rest ih =>
    rw [forall_mem_cons, ← and_assoc]
    exact ih (f.andThen g)

theorem agree_iff_aligned (f : Format α) {a b : α} (ha : f.Fits a) (hb : f.Fits b) (h : f.encode a = f.encode b) :
    f.Agree a b ↔ f.Aligned a b := by
  refine ⟨f.aligned_of_agree, fun halign => ?_⟩
  have happend : f.encode a ++ [] = f.encode b ++ [] := by rw [h]
  exact (f.readsBack ⟨⟨ha, hb⟩, halign⟩ happend).1

end Format

end Codec

end SunbeamProxy
