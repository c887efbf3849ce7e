import CuTracer.Library.JsonTree
import Mathlib.Algebra.GroupWithZero.Nat

/-! Schemas of documents, as the tests a validator makes. An object schema looks at each field by
its key, so a map over the fields that keeps what each key asks for keeps the whole schema. -/

namespace CuTracer.Json

/-- The integer a floating-point number is equal to, if there is one. -/
def wholeFloat (bits : BitVec 64) : Option ℤ :=
  let exponent := (bits.toNat / 2 ^ 52) % 2 ^ 11
  let fraction := bits.toNat % 2 ^ 52
  let significand := if exponent = 0 then fraction else fraction + 2 ^ 52
  let scaled := significand * 2 ^ max exponent 1
  if exponent = 2047 ∨ scaled % 2 ^ 1075 ≠ 0 then none
  else if bits.msb then some (-(scaled / 2 ^ 1075 : ℕ)) else some (scaled / 2 ^ 1075 : ℕ)

/-- The integer a number is. A boolean is none. -/
def wholeNumber : Json → Option ℤ
  | .int i => some i
  | .float bits => wholeFloat bits
  | _ => none

namespace Schema

/-- `"type": "string"` with a test of the text. -/
def string (test : List Char → Bool) : Json → Bool
  | .str s => test s.toList
  | _ => false

def boolean : Json → Bool
  | .bool _ => true
  | _ => false

/-- `"type": "integer"` with its bounds. -/
def integer (minimum maximum : Option ℤ) (v : Json) : Bool :=
  match wholeNumber v with
  | some i => minimum.all (fun m => decide (m ≤ i)) && maximum.all fun m => decide (i ≤ m)
  | none => false

def property (properties : List (String × (Json → Bool))) (additional : Json → Bool) (key : String) : Json → Bool :=
  (Dict.lookup key properties).getD additional

/-- `"type": "object"`. With `additional` false for every value, no other key is allowed. -/
def object (required : List String) (properties : List (String × (Json → Bool))) (additional : Json → Bool) :
    Json → Bool
  | .obj fields =>
    required.all (fun key => (field fields key).isSome) &&
      fields.all fun f => property properties additional f.1 f.2
  | _ => false

def closed : Json → Bool := fun _ => false

end Schema

/-! ### Maps over fields -/

def fieldsOf : Json → List (String × Json)
  | .obj fields => fields
  | _ => []

/-- Rewrite the value of every field, given its key. -/
def mapFields (g : String → Json → Json) : Json → Json
  | .obj fields => .obj (fields.map fun f => (f.1, g f.1 f.2))
  | v => v

def mapField (key : String) (g : Json → Json) : Json → Json :=
  mapFields fun k v => if k = key then g v else v

theorem mapFields_comp (g h : String → Json → Json) (v : Json) :
    mapFields g (mapFields h v) = mapFields (fun k w => g k (h k w)) v := by
  cases v with
  | obj fields => simp [mapFields]
  | _ => rfl

theorem mapFields_congr {g h : String → Json → Json} {v : Json}
    (hgh : ∀ f ∈ fieldsOf v, g f.1 f.2 = h f.1 f.2) : mapFields g v = mapFields h v := by
  cases v with
  | obj fields =>
    rw [mapFields, mapFields, List.map_congr_left fun f hf => by rw [hgh f hf]]
  | _ => rfl

theorem mapFields_id {g : String → Json → Json} {v : Json} (hg : ∀ f ∈ fieldsOf v, g f.1 f.2 = f.2) :
    mapFields g v = v := by
  cases v with
  | obj fields =>
    have hmap : fields.map (fun f => (f.1, g f.1 f.2)) = fields.map id :=
      List.map_congr_left fun f hf => by rw [hg f hf, id]
    rw [mapFields, hmap, List.map_id]
  | _ => rfl

theorem mapField_comp (key : String) (g h : Json → Json) (v : Json) :
    mapField key g (mapField key h v) = mapField key (fun w => g (h w)) v := by
  rw [mapField, mapField, mapFields_comp, mapField]
  congr 1
  funext k w
  by_cases hk : k = key <;> simp [hk]

theorem fieldsOf_mapFields (g : String → Json → Json) (v : Json) :
    fieldsOf (mapFields g v) = (fieldsOf v).map fun f => (f.1, g f.1 f.2) := by
  cases v with
  | obj fields => rfl
  | _ => rfl

theorem field_map (g : String → Json → Json) (fields : List (String × Json)) (key : String) :
    field (fields.map fun f => (f.1, g f.1 f.2)) key = (field fields key).map (g key) := by
  induction fields with
  | nil => rfl
  | cons f fields ih =>
    simp only [field] at ih ⊢
    by_cases hk : f.1 = key
    · simp [Dict.lookup, hk]
    · simp [Dict.lookup, hk, ih]

theorem field_mapFields (g : String → Json → Json) (v : Json) (key : String) :
    field (fieldsOf (mapFields g v)) key = (field (fieldsOf v) key).map (g key) := by
  rw [fieldsOf_mapFields, field_map]

theorem field_mapField (g : Json → Json) (v : Json) (key key' : String) :
    field (fieldsOf (mapField key g v)) key' =
      if key' = key then (field (fieldsOf v) key').map g else field (fieldsOf v) key' := by
  rw [mapField, field_mapFields]
  by_cases h : key' = key
  · rw [h]
    simp
  · simp [h]

namespace Schema

variable {required : List String} {properties : List (String × (Json → Bool))} {additional : Json → Bool} {v : Json}

theorem object_iff : object required properties additional v ↔
    ∃ fields, v = .obj fields ∧ (∀ key ∈ required, (field fields key).isSome) ∧
      ∀ f ∈ fields, property properties additional f.1 f.2 := by
  cases v with
  | obj fields => simp [object]
  | _ => simp [object]

/-- A map that keeps the schema of every key keeps the schema of the object. -/
theorem object_mapFields {g : String → Json → Json} (hv : object required properties additional v)
    (hg : ∀ f ∈ fieldsOf v, property properties additional f.1 f.2 → property properties additional f.1 (g f.1 f.2)) :
    object required properties additional (mapFields g v) := by
  obtain ⟨fields, rfl, hrequired, hall⟩ := object_iff.mp hv
  rw [mapFields, object_iff]
  refine ⟨_, rfl, fun key hkey => ?_, fun f hf => ?_⟩
  · rw [field_map, Option.isSome_map]
    exact hrequired key hkey
  · obtain ⟨e, he, rfl⟩ := List.mem_map.mp hf
    exact hg e he (hall e he)

/-- A required field is there, and its value passes the schema of its key. -/
theorem object_field (hv : object required properties additional v) {key : String} (hkey : key ∈ required) :
    ∃ w, field (fieldsOf v) key = some w ∧ property properties additional key w := by
  obtain ⟨fields, rfl, hrequired, hall⟩ := object_iff.mp hv
  obtain ⟨w, hw⟩ := Option.isSome_iff_exists.mp (hrequired key hkey)
  exact ⟨w, hw, hall _ (Dict.mem_of_lookup hw)⟩

end Schema

end CuTracer.Json
