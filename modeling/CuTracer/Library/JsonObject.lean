import CuTracer.Library.JsonTree
import CuTracer.Library.SortedMap

/-! Objects that are filled by assignments. An assignment keeps a sorted map sorted, and a
map that is filled under different keys holds what was assigned, in any order. -/

namespace CuTracer.Json

variable {fields fs gs : List (String × Json)}

/-- A field of a sorted map is found under its key. -/
theorem Sorted.field (h : Sorted (.obj fields)) {f : String × Json} (hf : f ∈ fields) :
    Json.field fields f.1 = some f.2 :=
  (Dict.lookup_eq_some_iff ((sorted_obj.mp h).1.imp ne_of_lt) f.1 f.2).mpr hf

/-! ### One assignment -/

theorem mem_keys_setField {key k : String} {value : Json} :
    k ∈ (setField key value fields).map Prod.fst ↔ k = key ∨ k ∈ fields.map Prod.fst := by
  induction fields with
  | nil => simp [setField]
  | cons f fields ih =>
    obtain ⟨l, v⟩ := f
    rw [setField]
    split_ifs with heq hlt
    · simp [heq]
    · simp
    · rw [List.map_cons, List.mem_cons, ih, List.map_cons, List.mem_cons]
      tauto

theorem mem_setField {key : String} {value : Json} {f : String × Json} (h : f ∈ setField key value fields) :
    f = (key, value) ∨ f ∈ fields := by
  induction fields with
  | nil => exact .inl (List.mem_singleton.mp h)
  | cons g fields ih =>
    obtain ⟨l, v⟩ := g
    rw [setField] at h
    split_ifs at h with heq hlt
    · exact (List.mem_cons.mp h).imp_right (List.mem_cons_of_mem _)
    · exact List.mem_cons.mp h
    · rcases List.mem_cons.mp h with rfl | h
      · exact .inr List.mem_cons_self
      · exact (ih h).imp_right (List.mem_cons_of_mem _)

/-- A key that is new joins the entries of a map. -/
theorem setField_perm {key : String} {value : Json} (h : key ∉ fields.map Prod.fst) :
    (setField key value fields).Perm ((key, value) :: fields) := by
  induction fields with
  | nil => exact .refl _
  | cons f fields ih =>
    obtain ⟨k, v⟩ := f
    rw [List.map_cons, List.mem_cons, not_or] at h
    rw [setField, if_neg (Ne.symm h.1)]
    split_ifs with hlt
    · exact .refl _
    · exact ((ih h.2).cons _).trans (.swap _ _ _)

theorem setField_increasing {key : String} {value : Json} (h : IncreasingBy Prod.fst fields) :
    IncreasingBy Prod.fst (setField key value fields) := by
  induction fields with
  | nil => exact List.pairwise_singleton _ _
  | cons f fields ih =>
    obtain ⟨k, v⟩ := f
    obtain ⟨hhead, htail⟩ := List.pairwise_cons.mp h
    rw [setField]
    split_ifs with heq hlt
    · subst heq
      exact List.pairwise_cons.mpr ⟨hhead, htail⟩
    · refine List.pairwise_cons.mpr ⟨?_, h⟩
      intro g hg
      rcases List.mem_cons.mp hg with rfl | hg
      · exact hlt
      · exact lt_trans hlt (hhead g hg)
    · refine List.pairwise_cons.mpr ⟨?_, ih htail⟩
      intro g hg
      have hkey := mem_keys_setField.mp (List.mem_map_of_mem (f := Prod.fst) hg)
      rcases hkey with hkey | hkey
      · rw [hkey]
        exact lt_of_le_of_ne (not_lt.mp hlt) heq
      · obtain ⟨g', hg', hfst⟩ := List.mem_map.mp hkey
        rw [← hfst]
        exact hhead g' hg'

/-- Assigning the value that a key has changes nothing. -/
theorem setField_self {key : String} {value : Json} (hfields : IncreasingBy Prod.fst fields)
    (h : field fields key = some value) : setField key value fields = fields := by
  induction fields with
  | nil => cases h
  | cons f fields ih =>
    obtain ⟨k, v⟩ := f
    obtain ⟨hhead, htail⟩ := List.pairwise_cons.mp hfields
    rw [field, Dict.lookup] at h
    split_ifs at h with heq
    · cases h
      rw [setField, if_pos heq, ← heq]
    · have hmem := List.mem_map_of_mem (f := Prod.fst) (Dict.mem_of_lookup h)
      obtain ⟨g, hg, hfst⟩ := List.mem_map.mp hmem
      have hlt : k < key := by
        have := hhead g hg
        rwa [hfst] at this
      rw [setField, if_neg heq, if_neg (lt_asymm hlt), ih htail h]

/-! ### Assignments in a row -/

/-- A map that is filled by one assignment after another. -/
def assemble (fields : List (String × Json)) : List (String × Json) :=
  fields.foldl (fun fields f => setField f.1 f.2 fields) []

theorem foldl_setField_increasing (hfs : IncreasingBy Prod.fst fs) :
    IncreasingBy Prod.fst (gs.foldl (fun fields f => setField f.1 f.2 fields) fs) := by
  induction gs generalizing fs with
  | nil => exact hfs
  | cons g gs ih => exact ih (setField_increasing hfs)

theorem assemble_increasing : IncreasingBy Prod.fst (assemble fields) :=
  foldl_setField_increasing .nil

theorem mem_foldl_setField {f : String × Json}
    (hf : f ∈ gs.foldl (fun fields f => setField f.1 f.2 fields) fs) : f ∈ gs ∨ f ∈ fs := by
  induction gs generalizing fs with
  | nil => exact .inr hf
  | cons g gs ih =>
    rcases ih hf with hmem | hmem
    · exact .inl (List.mem_cons_of_mem _ hmem)
    · rcases mem_setField hmem with rfl | hmem
      · exact .inl List.mem_cons_self
      · exact .inr hmem

/-- A map that is assembled holds nothing but what was assigned. -/
theorem mem_assemble {f : String × Json} (hf : f ∈ assemble fields) : f ∈ fields :=
  (mem_foldl_setField hf).resolve_right List.not_mem_nil

theorem foldl_setField_perm (h : ((gs ++ fs).map Prod.fst).Nodup) :
    (gs.foldl (fun fields f => setField f.1 f.2 fields) fs).Perm (gs ++ fs) := by
  induction gs generalizing fs with
  | nil => exact .refl _
  | cons g gs ih =>
    rw [List.cons_append, List.map_cons, List.nodup_cons, List.map_append, List.mem_append,
      not_or] at h
    have hperm : (setField g.1 g.2 fs).Perm (g :: fs) := setField_perm h.1.2
    have hmiddle : (gs ++ setField g.1 g.2 fs).Perm (g :: (gs ++ fs)) :=
      (hperm.append_left gs).trans List.perm_middle
    have hnodup : ((gs ++ setField g.1 g.2 fs).map Prod.fst).Nodup := by
      rw [(hmiddle.map Prod.fst).nodup_iff, List.map_cons, List.nodup_cons, List.map_append,
        List.mem_append, not_or]
      exact ⟨h.1, h.2⟩
    exact (ih hnodup).trans hmiddle

theorem assemble_perm (h : (fields.map Prod.fst).Nodup) : (assemble fields).Perm fields := by
  have hnodup : ((fields ++ []).map Prod.fst).Nodup := by rwa [List.append_nil]
  have hperm := foldl_setField_perm hnodup
  rwa [List.append_nil] at hperm

/-- A map that is assembled again is the same map. -/
theorem assemble_eq (h : IncreasingBy Prod.fst fields) : assemble fields = fields :=
  eq_of_perm_of_increasing (assemble_perm h.nodup) assemble_increasing h

end CuTracer.Json
