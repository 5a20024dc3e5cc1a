/-
HTTP messages as the filters read and write them: header values are byte strings with a partial text view, header names
are compared without regard to ASCII case, and a request carries the pieces of its URI that the proxy looks at.
-/
import SunbeamProxy.Core.Text

namespace SunbeamProxy

open Text

structure HeaderValue where
  bytes : List UInt8
deriving DecidableEq, Repr

def isVisibleAscii (b : UInt8) : Bool := (32 ≤ b && b < 127) || b == 9

def HeaderValue.toStr (v : HeaderValue) : Option String :=
  if v.bytes.all isVisibleAscii then some (String.ofList (v.bytes.map fun b => Char.ofNat b.toNat)) else none

def HeaderValue.ofString (s : String) : HeaderValue := ⟨s.toList.map fun c => UInt8.ofNat c.toNat⟩

/-- text a header value can carry so that `to_str` gives it back -/
def VisibleText (s : String) : Prop := ∀ c ∈ s.toList, (32 ≤ c.toNat ∧ c.toNat < 127) ∨ c.toNat = 9

instance (s : String) : Decidable (VisibleText s) := inferInstanceAs (Decidable (∀ c ∈ s.toList, _))

theorem HeaderValue.toStr_ofString {s : String} (h : VisibleText s) : (HeaderValue.ofString s).toStr = some s := by
  have hlt : ∀ c ∈ s.toList, c.toNat < 256 := fun c hc => by rcases h c hc with h | h <;> omega
  have hback : ∀ c ∈ s.toList, Char.ofNat (UInt8.ofNat c.toNat).toNat = c := by
    intro c hc
    simp [Nat.mod_eq_of_lt (hlt c hc)]
  have hvis : ∀ c ∈ s.toList, isVisibleAscii (UInt8.ofNat c.toNat) = true := by
    intro c hc
    have hm : (UInt8.ofNat c.toNat).toNat = c.toNat := by simp [Nat.mod_eq_of_lt (hlt c hc)]
    simp only [isVisibleAscii, Bool.or_eq_true, Bool.and_eq_true, decide_eq_true_eq, beq_iff_eq, UInt8.le_iff_toNat_le,
      UInt8.lt_iff_toNat_lt, ← UInt8.toNat_inj, hm]
    exact h c hc
  have hall : (HeaderValue.ofString s).bytes.all isVisibleAscii = true := by simpa [HeaderValue.ofString] using hvis
  have hmap : s.toList.map (fun c => Char.ofNat (UInt8.ofNat c.toNat).toNat) = s.toList := by
    conv_rhs => rw [← List.map_id s.toList]
    exact List.map_congr_left hback
  rw [HeaderValue.toStr, if_pos hall]
  simp only [HeaderValue.ofString, List.map_map, Function.comp_def, hmap, String.ofList_toList]

theorem HeaderValue.visible_of_toStr {v : HeaderValue} {s : String} (h : v.toStr = some s) : VisibleText s := by
  rw [HeaderValue.toStr] at h
  split_ifs at h with hv
  obtain rfl := Option.some.inj h
  intro c hc
  simp only [String.toList_ofList, List.mem_map] at hc
  obtain ⟨b, hb, rfl⟩ := hc
  have hb' := List.all_eq_true.1 hv b hb
  simp only [isVisibleAscii, Bool.or_eq_true, Bool.and_eq_true, decide_eq_true_eq, beq_iff_eq, ← UInt8.toNat_inj] at hb'
  have hlt := b.toNat_lt
  have : (Char.ofNat b.toNat).toNat = b.toNat := by
    rw [Char.ofNat, dif_pos (Or.inl (by omega))]
    rfl
  rw [this]
  exact hb'

abbrev HeaderMap := List (String × HeaderValue)

namespace HeaderMap

variable (h : HeaderMap)

def get (name : String) : Option HeaderValue := (h.find? fun e => eqIgnoreAsciiCase e.1 name).map (·.2)

def getAll (name : String) : List HeaderValue := (h.filter fun e => eqIgnoreAsciiCase e.1 name).map (·.2)

def getStr (name : String) : Option String := (get h name).bind HeaderValue.toStr

theorem get_cons (e : String × HeaderValue) (h : HeaderMap) (name : String) :
    get (e :: h) name = if eqIgnoreAsciiCase e.1 name then some e.2 else get h name := by
  simp only [get, List.find?_cons]
  cases eqIgnoreAsciiCase e.1 name <;> simp

end HeaderMap

structure Uri where
  path : String
  query : Option String := none
  host : Option String := none
deriving DecidableEq, Repr

structure RequestHeader where
  method : String
  uri : Uri
  headers : HeaderMap := []
deriving DecidableEq, Repr

structure Response where
  status : UInt16
  headers : List (String × String)
  body : Option String := none
deriving DecidableEq, Repr

def Response.bare (status : UInt16) : Response := ⟨status, [("Content-Length", "0")], none⟩

end SunbeamProxy
