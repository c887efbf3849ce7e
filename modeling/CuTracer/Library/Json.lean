import CuTracer.Library.Dict
import Mathlib.Data.Int.Notation

/-! Decoded JSON documents. Integers and floats are different numbers, as
`type(x) is int` tells them apart, and a boolean is not an integer. A float is
kept by its bits; only whether it is zero is ever asked. -/

namespace CuTracer

inductive Json where
  | null
  | bool (b : Bool)
  | int (i : ℤ)
  | float (bits : BitVec 64)
  | str (s : String)
  | arr (items : List Json)
  | obj (fields : List (String × Json))

namespace Json

/-- The truth value of a decoded document. -/
def truthy : Json → Bool
  | .null => false
  | .bool b => b
  | .int i => i ≠ 0
  | .float bits => bits <<< 1 ≠ 0
  | .str s => s ≠ ""
  | .arr items => !items.isEmpty
  | .obj fields => !fields.isEmpty

/-- `fields.get(key)` of a decoded object. -/
def field (fields : List (String × Json)) (key : String) : Option Json := Dict.lookup key fields

/-- `object[key] = value` in a sorted map. -/
def setField (key : String) (value : Json) : List (String × Json) → List (String × Json)
  | [] => [(key, value)]
  | (k, v) :: fields =>
    if k = key then (key, value) :: fields
    else if key < k then (key, value) :: (k, v) :: fields
    else (k, v) :: setField key value fields

theorem field_setField (key key' : String) (value : Json) (fields : List (String × Json)) :
    field (setField key value fields) key' =
      if key' = key then some value else field fields key' := by
  induction fields with
  | nil =>
    by_cases h : key = key'
    · simp [setField, field, Dict.lookup, h]
    · simp [setField, field, Dict.lookup, h, Ne.symm h]
  | cons f fields ih =>
    obtain ⟨k, v⟩ := f
    simp only [field] at ih ⊢
    by_cases hk : k = key
    · subst hk
      by_cases h : k = key'
      · simp [setField, Dict.lookup, h]
      · simp [setField, Dict.lookup, h, Ne.symm h]
    · by_cases hlt : key < k
      · rw [setField, if_neg hk, if_pos hlt, Dict.lookup]
        simp only [eq_comm (a := key)]
      · rw [setField, if_neg hk, if_neg hlt, Dict.lookup, ih, Dict.lookup]
        by_cases h : key' = key
        · rw [if_pos h, if_neg (h ▸ hk), if_pos h]
        · rw [if_neg h, if_neg h]

/-- `x == s` for a possibly missing value and a string. -/
def isStr : Option Json → String → Bool
  | some (.str s), t => s = t
  | _, _ => false

/-- `x is True` for a possibly missing value. -/
def isTrue : Option Json → Bool
  | some (.bool b) => b
  | _ => false

def nonEmptyStr : Option Json → Option String
  | some (.str s) => if s = "" then none else some s
  | _ => none

end Json

end CuTracer
