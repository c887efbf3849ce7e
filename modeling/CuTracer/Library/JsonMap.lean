import CuTracer.Library.JsonObject

/-! A document whose objects are sorted maps, made from one whose objects keep the order of
the text. Both have the same fields wherever no key is repeated. -/

namespace CuTracer.Json

mutual

/-- Every object as a sorted map. -/
def ordered : Json → Json
  | .arr items => .arr (orderedItems items)
  | .obj fields => .obj (assemble (orderedFields fields))
  | v => v

def orderedItems : List Json → List Json
  | [] => []
  | v :: vs => ordered v :: orderedItems vs

def orderedFields : List (String × Json) → List (String × Json)
  | [] => []
  | (k, v) :: fs => (k, ordered v) :: orderedFields fs

end

theorem orderedFields_eq (fields : List (String × Json)) :
    orderedFields fields = fields.map fun f => (f.1, ordered f.2) := by
  induction fields with
  | nil => rfl
  | cons f fs ih => rw [orderedFields, ih, List.map_cons]

def distinctNode : Json → Bool
  | .obj fields => decide (fields.map Prod.fst).Nodup
  | _ => true

/-- No object of the document repeats a key. -/
def Distinct (v : Json) : Prop := everywhere distinctNode v

instance (v : Json) : Decidable (Distinct v) := inferInstanceAs (Decidable (_ = true))

theorem distinct_obj {fields : List (String × Json)} :
    Distinct (.obj fields) ↔ (fields.map Prod.fst).Nodup ∧ ∀ f ∈ fields, Distinct f.2 := by
  rw [Distinct, everywhere_obj, distinctNode, decide_eq_true_eq]
  rfl

theorem keys_orderedFields (fields : List (String × Json)) :
    (orderedFields fields).map Prod.fst = fields.map Prod.fst := by
  rw [orderedFields_eq, List.map_map]
  rfl

theorem ordered_perm {fields : List (String × Json)} (h : (fields.map Prod.fst).Nodup) :
    (assemble (orderedFields fields)).Perm (fields.map fun f => (f.1, ordered f.2)) := by
  have hnodup : ((orderedFields fields).map Prod.fst).Nodup := by rwa [keys_orderedFields]
  rw [← orderedFields_eq]
  exact assemble_perm hnodup

theorem field_ordered {fields : List (String × Json)} (h : (fields.map Prod.fst).Nodup) (key : String) :
    field (assemble (orderedFields fields)) key = (field fields key).map ordered := by
  have hperm := ordered_perm h
  have hkeys : ((assemble (orderedFields fields)).map Prod.fst).Nodup := by
    rw [(hperm.map Prod.fst).nodup_iff, List.map_map]
    exact h
  apply Option.ext
  intro v
  rw [field, Dict.lookup_eq_some_iff hkeys, hperm.mem_iff, List.mem_map]
  constructor
  · rintro ⟨f, hf, heq⟩
    have hlookup : field fields f.1 = some f.2 := (Dict.lookup_eq_some_iff h f.1 f.2).mpr hf
    simp only [Prod.mk.injEq] at heq
    rw [← heq.1, hlookup, ← heq.2]
    rfl
  · intro hv
    obtain ⟨w, hw, rfl⟩ := Option.map_eq_some_iff.mp hv
    exact ⟨(key, w), (Dict.lookup_eq_some_iff h key w).mp hw, rfl⟩

/-- Objects that are the same maps have the same values under each key. -/
theorem field_eq_of_ordered_eq {fs gs : List (String × Json)} (hfs : (fs.map Prod.fst).Nodup)
    (hgs : (gs.map Prod.fst).Nodup) (h : ordered (.obj fs) = ordered (.obj gs)) (key : String) :
    (field fs key).map ordered = (field gs key).map ordered := by
  rw [ordered, ordered] at h
  rw [← field_ordered hfs, ← field_ordered hgs, Json.obj.inj h]

theorem orderedItems_eq (items : List Json) : orderedItems items = items.map ordered := by
  induction items with
  | nil => rfl
  | cons v vs ih => rw [orderedItems, ih, List.map_cons]

/-- A predicate of the leaves of a document is one of those of its map. -/
theorem everywhere_ordered {p : Json → Bool} (harr : ∀ items, p (.arr items)) (hobj : ∀ fields, p (.obj fields))
    {v : Json} (h : everywhere p v) : everywhere p (ordered v) := by
  induction v using induct with
  | null => exact h
  | bool b => exact h
  | int i => exact h
  | float bits => exact h
  | str s => exact h
  | arr items ih =>
    rw [everywhere_arr] at h
    rw [ordered, orderedItems_eq, everywhere_arr]
    refine ⟨harr _, ?_⟩
    intro w hw
    obtain ⟨v, hv, rfl⟩ := List.mem_map.mp hw
    exact ih v hv (h.2 v hv)
  | obj fields ih =>
    rw [everywhere_obj] at h
    rw [ordered, everywhere_obj]
    refine ⟨hobj _, ?_⟩
    intro g hg
    have hmem := mem_assemble hg
    rw [orderedFields_eq] at hmem
    obtain ⟨f, hf, rfl⟩ := List.mem_map.mp hmem
    exact ih f hf (h.2 f hf)

end CuTracer.Json
