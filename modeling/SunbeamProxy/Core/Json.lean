/-
JSON values as `serde_json` hands them out.

Readers are the library's: each returns nothing for a value of another shape, and `get` on anything but an object finds
nothing. Objects are lists of fields read by key, the first one counting.
-/
import Mathlib.Tactic

namespace SunbeamProxy

inductive JsonNumber where
  | posInt (n : UInt64)
  | negInt (n : ℤ)
  | float (text : String)
deriving DecidableEq, Repr

inductive Json where
  | null
  | bool (b : Bool)
  | number (n : JsonNumber)
  | string (s : String)
  | array (items : List Json)
  | object (fields : List (String × Json))

abbrev JsonMap := List (String × Json)

namespace Json

def asObject : Json → Option JsonMap
  | .object fields => some fields
  | _ => none

def asArray : Json → Option (List Json)
  | .array items => some items
  | _ => none

def asStr : Json → Option String
  | .string s => some s
  | _ => none

def asU64 : Json → Option UInt64
  | .number (.posInt n) => some n
  | _ => none

def get (v : Json) (key : String) : Option Json := v.asObject.bind (List.lookup key)

end Json

variable (m : JsonMap)

def JsonMap.getStr (key : String) : Option String := (m.lookup key).bind Json.asStr

def JsonMap.getArray (key : String) : Option (List Json) := (m.lookup key).bind Json.asArray

def JsonMap.getObject (key : String) : Option JsonMap := (m.lookup key).bind Json.asObject

def JsonMap.iter : List (String × Json) :=
  (m.map (·.1)).dedup.filterMap fun key => (m.lookup key).map (key, ·)

theorem JsonMap.mem_iter {m : JsonMap} {key : String} {v : Json} : (key, v) ∈ m.iter ↔ m.lookup key = some v := by
  have hkey : ∀ {l : List (String × Json)}, List.lookup key l = some v → key ∈ l.map (·.1) := by
    intro l
    induction l with
    | nil => intro h; cases h
    | cons e l ih =>
      intro h
      rw [List.lookup_cons] at h
      rw [List.map_cons, List.mem_cons]
      split at h
      · exact .inl (by simpa using ‹(key == e.1) = true›)
      · exact .inr (ih h)
  simp only [iter, List.mem_filterMap, List.mem_dedup, Option.map_eq_some_iff, Prod.mk.injEq]
  apply Iff.intro
  · intro h
    obtain ⟨k, -, w, hw, rfl, rfl⟩ := h
    exact hw
  · intro h
    exact ⟨key, hkey h, v, h, rfl, rfl⟩

theorem JsonMap.nodup_iter : (m.iter.map (·.1)).Nodup := by
  have hsub : ∀ keys : List String, ((keys.filterMap fun key => (m.lookup key).map (key, ·)).map (·.1)).Sublist keys := by
    intro keys
    induction keys with
    | nil => exact .refl _
    | cons key keys ih =>
      rw [List.filterMap_cons]
      cases List.lookup key m with
      | none => exact ih.cons key
      | some v => exact ih.cons_cons key
  exact (List.nodup_dedup _).sublist (hsub _)

end SunbeamProxy
