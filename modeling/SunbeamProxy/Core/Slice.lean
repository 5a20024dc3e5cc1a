/-
Byte slices, and computations on them that may go wrong.
-/
import SunbeamProxy.Core.Codec

namespace SunbeamProxy

open List

/-! ## Computations -/

inductive Fault where
  | indexOutOfBounds
  | subtractUnderflow
  /-- a loop was given too few rounds -/
  | outOfFuel
deriving DecidableEq, Repr

def Checked (σ α : Type) : Type := σ → Except Fault (Option α × σ)

namespace Checked

variable {σ α β : Type}

instance instMonadChecked : Monad (Checked σ) where
  pure a := fun s => .ok (some a, s)
  bind x f := fun s =>
    match x s with
    | .ok (some a, s') => f a s'
    | .ok (none, s') => .ok (none, s')
    | .error e => .error e

def stop : Checked σ α := fun s => .ok (none, s)

def ask (a : Option α) : Checked σ α := fun s => .ok (a, s)

def check (a : Except Fault α) : Checked σ α := fun s =>
  match a with
  | .ok a => .ok (some a, s)
  | .error e => .error e

def fault (e : Fault) : Checked σ α := fun _ => .error e

def modify (f : σ → σ) : Checked σ Unit := fun s => .ok (some (), f s)

def sub (a b : ℕ) : Except Fault ℕ := if b ≤ a then .ok (a - b) else .error .subtractUnderflow

/-- the run does not fault, and ends as wanted -/
def wp (x : Checked σ α) (Q : Option α → σ → Prop) (s : σ) : Prop :=
  match x s with
  | .ok (r, s') => Q r s'
  | .error _ => False

theorem wp_iff {x : Checked σ α} {Q : Option α → σ → Prop} {s : σ} : wp x Q s ↔ ∃ r s', x s = .ok (r, s') ∧ Q r s' := by
  rw [wp]
  cases h : x s with
  | error e => simp
  | ok p =>
    obtain ⟨r, s'⟩ := p
    simp

theorem wp_mono {x : Checked σ α} {Q Q' : Option α → σ → Prop} {s : σ} (h : wp x Q s) (hQ : ∀ r s', Q r s' → Q' r s') :
    wp x Q' s := by
  obtain ⟨r, s', hx, hr⟩ := wp_iff.1 h
  exact wp_iff.2 ⟨r, s', hx, hQ r s' hr⟩

section Rules

variable {Q : Option α → σ → Prop} {R : Option β → σ → Prop} {s : σ}

@[simp]
theorem wp_pure {a : α} : wp (pure a) Q s ↔ Q (some a) s := .rfl

@[simp]
theorem wp_stop : wp stop Q s ↔ Q none s := .rfl

variable {a : Option α}

@[simp]
theorem wp_ask : wp (ask a) Q s ↔ Q a s := .rfl

@[simp]
theorem wp_check_ok {a : α} : wp (check (.ok a)) Q s ↔ Q (some a) s := .rfl

@[simp]
theorem wp_modify {f : σ → σ} {Q : Option Unit → σ → Prop} : wp (modify f) Q s ↔ Q (some ()) (f s) := .rfl

variable {f : α → Checked σ β}

theorem wp_bind {x : Checked σ α} : wp (x >>= f) R s ↔ wp x (fun r s' => match r with
      | some a => wp (f a) R s'
      | none => R none s') s := by
  simp only [wp, bind]
  cases x s with
  | error e => rfl
  | ok p =>
    obtain ⟨r, s'⟩ := p
    cases r <;> rfl

theorem wp_bind_assoc {γ : Type} {S : Option γ → σ → Prop} {x : Checked σ α} {g : β → Checked σ γ} :
    wp (x >>= f >>= g) S s ↔ wp (x >>= fun a => f a >>= g) S s := by
  simp only [wp, bind]
  cases x s with
  | error e => rfl
  | ok p =>
    obtain ⟨r, s'⟩ := p
    cases r <;> rfl

theorem wp_ask_bind (hnone : a = none → R none s) (hsome : ∀ v, a = some v → wp (f v) R s) : wp (ask a >>= f) R s := by
  cases a with
  | none => exact hnone rfl
  | some v => exact hsome v rfl

theorem wp_ask_bind_some {v : α} (ha : a = some v) : wp (ask a >>= f) R s ↔ wp (f v) R s := by rw [wp_bind, wp_ask, ha]

theorem wp_check_bind_ok {a : Except Fault α} {v : α} (ha : a = .ok v) : wp (check a >>= f) R s ↔ wp (f v) R s := by
  rw [ha, wp_bind, wp_check_ok]

theorem wp_modify_bind {g : σ → σ} {f : Unit → Checked σ β} : wp (modify g >>= f) R s ↔ wp (f ()) R (g s) := by
  rw [wp_bind, wp_modify]

end Rules

theorem sub_eq_ok {a b : ℕ} (h : b ≤ a) : sub a b = .ok (a - b) := if_pos h

end Checked

/-! ## Slices -/

structure Slice (buf : Bytes) where
  start : ℕ
  len : ℕ
  bounded : start + len ≤ buf.length

namespace Slice

variable {buf : Bytes}

variable (s : Slice buf)

def bytes : Bytes := (buf.drop s.start).take s.len

def whole (buf : Bytes) : Slice buf := ⟨0, buf.length, by rw [zero_add]⟩

def get (i : ℕ) : Option UInt8 := s.bytes[i]?

def getFrom (a : ℕ) : Option (Slice buf) :=
  if h : a ≤ s.len then some ⟨s.start + a, s.len - a, by have := s.bounded; omega⟩ else none

def getRange (a b : ℕ) : Option (Slice buf) :=
  if h : a ≤ b ∧ b ≤ s.len then some ⟨s.start + a, b - a, by have := s.bounded; omega⟩ else none

def index (i : ℕ) : Except Fault UInt8 :=
  match s.get i with
  | some b => .ok b
  | none => .error .indexOutOfBounds

def indexRange (a b : ℕ) : Except Fault (Slice buf) :=
  match s.getRange a b with
  | some t => .ok t
  | none => .error .indexOutOfBounds

@[simp]
theorem length_bytes : s.bytes.length = s.len := by
  have := s.bounded
  rw [bytes, length_take, length_drop]
  omega

@[simp]
theorem bytes_whole (buf : Bytes) : (whole buf).bytes = buf := by rw [whole, bytes, drop_zero, take_length]

theorem get_eq {i : ℕ} (h : i < s.len) : s.get i = buf[s.start + i]? := by
  rw [get, bytes, getElem?_take_of_lt h, getElem?_drop]

variable {s t : Slice buf}

theorem indexRange_eq_ok {a b : ℕ} (h : s.getRange a b = some t) : s.indexRange a b = .ok t := by rw [indexRange, h]

theorem index_eq_ok {i : ℕ} {b : UInt8} (h : s.get i = some b) : s.index i = .ok b := by rw [index, h]

theorem exists_get {i : ℕ} (h : i < s.len) : ∃ b, s.get i = some b := by
  rw [← length_bytes s] at h
  exact ⟨_, getElem?_eq_getElem h⟩

theorem lt_len_of_get {i : ℕ} {b : UInt8} (h : s.get i = some b) : i < s.len := by
  rw [← length_bytes s]
  exact (List.getElem?_eq_some_iff.1 h).1

theorem getFrom_eq_some {a : ℕ} (h : s.getFrom a = some t) : t.start = s.start + a ∧ t.len + a = s.len := by
  rw [getFrom] at h
  split_ifs at h with ha
  cases h
  exact ⟨rfl, Nat.sub_add_cancel ha⟩

theorem getRange_eq_some {a b : ℕ} (h : s.getRange a b = some t) : t.start = s.start + a ∧ t.len + a = b ∧ b ≤ s.len := by
  rw [getRange] at h
  split_ifs at h with hab
  cases h
  exact ⟨rfl, Nat.sub_add_cancel hab.1, hab.2⟩

/-- the slice `t` lies inside `s` -/
def Within (t s : Slice buf) : Prop := s.start ≤ t.start ∧ t.start + t.len ≤ s.start + s.len

theorem Within.trans {r : Slice buf} (h : Within t s) (h' : Within s r) : Within t r := ⟨h'.1.trans h.1, h.2.trans h'.2⟩

theorem within_getFrom {a : ℕ} (h : s.getFrom a = some t) : Within t s := by
  obtain ⟨hstart, hlen⟩ := getFrom_eq_some h
  unfold Within
  omega

theorem within_getRange {a b : ℕ} (h : s.getRange a b = some t) : Within t s := by
  obtain ⟨hstart, hlen, hb⟩ := getRange_eq_some h
  unfold Within
  omega

theorem exists_getRange {a b : ℕ} (hab : a ≤ b) (hb : b ≤ s.len) : ∃ t, s.getRange a b = some t := ⟨_, dif_pos ⟨hab, hb⟩⟩

theorem exists_getFrom_of_bytes (front : Bytes) {rest : Bytes} {a : ℕ} (h : s.bytes = front ++ rest)
    (ha : front.length = a) : ∃ t, s.getFrom a = some t ∧ t.bytes = rest := by
  have hlen : a ≤ s.len := by
    rw [← length_bytes s, h, length_append, ha]
    exact Nat.le_add_right _ _
  refine ⟨_, dif_pos hlen, ?_⟩
  calc ((buf.drop (s.start + a)).take (s.len - a)) = s.bytes.drop a := by rw [bytes, drop_take, drop_drop]
    _ = rest := by rw [h, ← ha, drop_left]

theorem exists_getRange_of_bytes (front mid : Bytes) {rest : Bytes} {a b : ℕ} (h : s.bytes = front ++ (mid ++ rest))
    (ha : front.length = a) (hb : a + mid.length = b) :
    ∃ t, s.getRange a b = some t ∧ t.bytes = mid := by
  have hlen : b ≤ s.len := by
    simp only [← length_bytes s, h, length_append]
    omega
  refine ⟨_, dif_pos ⟨by omega, hlen⟩, ?_⟩
  have hdrop : s.bytes.drop a = (buf.drop (s.start + a)).take (s.len - a) := by rw [bytes, drop_take, drop_drop]
  have hmid : b - a = mid.length := by omega
  calc ((buf.drop (s.start + a)).take (b - a)) = (s.bytes.drop a).take mid.length := by
        rw [hdrop, take_take, hmid, Nat.min_eq_left (by omega)]
    _ = mid := by rw [h, ← ha, drop_left, take_left]

theorem get_of_bytes (front : Bytes) {rest : Bytes} {b : UInt8} {i : ℕ} (h : s.bytes = front ++ b :: rest)
    (hi : front.length = i) : s.get i = some b := by
  rw [get, h, ← hi, getElem?_append_right le_rfl, Nat.sub_self, getElem?_cons_zero]

end Slice

end SunbeamProxy
