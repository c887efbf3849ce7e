import CuTracer.Library.Dict
import CuTracer.Library.Fallible
import CuTracer.Library.PyKey
import Mathlib.Data.List.Induction

/-! The streaming grouper: one pass over the records of a trace, with the first, the last or all records
of each group, or their number. Groups are told apart by the keys of their values. -/

namespace CuTracer.Query

/-- A decoded record. Its SASS is text if it has one. -/
structure TraceRecord where
  fields : Dict String Json
  sass_text : ∀ v, fields.get? "sass" = some v → ∃ s, v = .str s

/-- `record.get(field)`. -/
def TraceRecord.get (r : TraceRecord) (field : String) : Json := (r.fields.get? field).getD .null

/-- The value under a key, with the value of the field that made the key. -/
structure Group (α : Type) where
  shown : Json
  value : α

abbrev Groups := Dict Json (Group (List TraceRecord))

/-- `TypeError` for a value that cannot be hashed, `OverflowError` for an infinite one as a warp. -/
inductive GroupError where
  | unhashable | overflow
  deriving DecidableEq

/-- `_hashable` of the field, as a key. -/
def hashable (field : String) (r : TraceRecord) : Except GroupError Json :=
  match PyKey.ofJson (r.get field) with
  | some key => .ok key
  | none => .error .unhashable

/-! ### `StreamingGrouper` -/

section

variable {σ : Type} (field : String)

def eachRecord (step : σ → Json → TraceRecord → σ) (start : σ) (records : List TraceRecord) :
    Except GroupError σ :=
  records.foldlM (fun s r => do
    let key ← hashable field r
    .ok (step s key r)) start

/-- `groups[key]`, changed; a new group shows the field of its first record. -/
def Group.update {α : Type} (empty : α) (f : α → α) (r : TraceRecord) (old : Option (Group α)) : Group α :=
  match old with
  | none => ⟨r.get field, f empty⟩
  | some g => ⟨g.shown, f g.value⟩

/-- One record of `head_per_group`: the groups and the counts of their records. -/
def headStep (n : ℤ) (s : Groups × Dict Json ℕ) (key : Json) (r : TraceRecord) : Groups × Dict Json ℕ :=
  if ((s.2.get? key).getD 0 : ℤ) < n then
    (s.1.upsert key (Group.update field [] (· ++ [r]) r), s.2.upsert key fun c => c.getD 0 + 1)
  else s

def headPerGroup (n : ℤ) (records : List TraceRecord) : Except GroupError Groups :=
  if n ≤ 0 then .ok Dict.empty
  else (eachRecord field (headStep field n) (Dict.empty, Dict.empty) records).map Prod.fst

/-- What a `deque(maxlen=n)` keeps. -/
def lastN {α : Type} (n : ℕ) (xs : List α) : List α := xs.drop (xs.length - n)

def tailPerGroup (n : ℤ) (records : List TraceRecord) : Except GroupError Groups :=
  if n ≤ 0 then .ok Dict.empty
  else
    eachRecord field (fun (groups : Groups) key r =>
      groups.upsert key (Group.update field [] (fun rs => lastN n.toNat (rs ++ [r])) r)) Dict.empty records

def countPerGroup (records : List TraceRecord) : Except GroupError (Dict Json (Group ℕ)) :=
  eachRecord field (fun (counts : Dict Json (Group ℕ)) key r =>
    counts.upsert key (Group.update field 0 (· + 1) r)) Dict.empty records

def allPerGroup (records : List TraceRecord) : Except GroupError Groups :=
  eachRecord field (fun (groups : Groups) key r =>
    groups.upsert key (Group.update field [] (· ++ [r]) r)) Dict.empty records

end

/-- Which records of each group are kept. -/
inductive Selection where
  | head (n : ℤ)
  | tail (n : ℤ)
  | all

/-- The records of a group that are kept. -/
def Selection.cut {α : Type} : Selection → List α → List α
  | .head n, rs => rs.take n.toNat
  | .tail n, rs => lastN n.toNat rs
  | .all, rs => rs

/-- The selections that keep a record of every group. -/
def Selection.keeps : Selection → Prop
  | .head n => 0 < n
  | .tail n => 0 < n
  | .all => True

instance : DecidablePred Selection.keeps
  | .head n => inferInstanceAs (Decidable (0 < n))
  | .tail n => inferInstanceAs (Decidable (0 < n))
  | .all => inferInstanceAs (Decidable True)

def Selection.group (field : String) (records : List TraceRecord) : Selection → Except GroupError Groups
  | .head n => headPerGroup field n records
  | .tail n => tailPerGroup field n records
  | .all => allPerGroup field records

/-! ### What a pass computes -/

variable {field : String} {records : List TraceRecord}

def keyOf (field : String) (r : TraceRecord) : Json := (PyKey.ofJson (r.get field)).getD .null

def Hashable (field : String) (records : List TraceRecord) : Prop :=
  ∀ r ∈ records, (PyKey.ofJson (r.get field)).isSome

def recordsOf (field : String) (records : List TraceRecord) (key : Json) : List TraceRecord :=
  records.filter fun r => keyOf field r = key

def shownOf (field : String) (records : List TraceRecord) (key : Json) : Json :=
  ((recordsOf field records key).head?.map fun r => r.get field).getD .null

def groupOf {α : Type} (field : String) (records : List TraceRecord) (key : Json) (value : α) :
    Option (Group α) :=
  if recordsOf field records key = [] then none else some ⟨shownOf field records key, value⟩

theorem eachRecord_eq {σ : Type} {step : σ → Json → TraceRecord → σ} (start : σ)
    (h : Hashable field records) :
    eachRecord field step start records =
      .ok (records.foldl (fun s r => step s (keyOf field r) r) start) := by
  induction records generalizing start with
  | nil => rfl
  | cons r records ih =>
    obtain ⟨hr, hrest⟩ := List.forall_mem_cons.mp h
    obtain ⟨key, hkey⟩ := Option.isSome_iff_exists.mp hr
    rw [eachRecord, List.foldlM_cons, List.foldl_cons, ← ih _ hrest]
    simp only [hashable, hkey, keyOf, ok_bind, Option.getD_some]
    rfl

theorem hashable_of_eachRecord {σ : Type} {step : σ → Json → TraceRecord → σ} {start s : σ}
    (h : eachRecord field step start records = .ok s) : Hashable field records := by
  induction records generalizing start with
  | nil => intro r hr; cases hr
  | cons r records ih =>
    rw [eachRecord, List.foldlM_cons] at h
    obtain ⟨s', hstep, h⟩ := bind_ok h
    obtain ⟨key, hkey, -⟩ := bind_ok hstep
    refine List.forall_mem_cons.mpr ⟨?_, ih h⟩
    unfold hashable at hkey
    split at hkey
    · simp [*]
    · cases hkey

theorem recordsOf_concat (r : TraceRecord) (key : Json) :
    recordsOf field (records ++ [r]) key =
      if keyOf field r = key then recordsOf field records key ++ [r] else recordsOf field records key := by
  unfold recordsOf
  rw [List.filter_append]
  split_ifs with h <;> simp [h]

theorem shownOf_concat (r : TraceRecord) (key : Json) (h : recordsOf field records key ≠ []) :
    shownOf field (records ++ [r]) key = shownOf field records key := by
  obtain ⟨r', rs, hrs⟩ := List.exists_cons_of_ne_nil h
  rw [shownOf, shownOf, recordsOf_concat]
  split_ifs <;> simp [hrs]

variable {α : Type}

theorem get?_foldl_update (empty : α) (add : TraceRecord → α → α) (key : Json) :
    (records.foldl (fun d r => d.upsert (keyOf field r) (Group.update field empty (add r) r))
      Dict.empty).get? key =
      groupOf field records key ((recordsOf field records key).foldl (fun v r => add r v) empty) := by
  have hsome : ∀ (rs : List TraceRecord) (g : Group α),
      rs.foldl (fun old r => some (Group.update field empty (add r) r old)) (some g) =
        some ⟨g.shown, rs.foldl (fun v r => add r v) g.value⟩ := by
    intro rs
    induction rs with
    | nil => exact fun g => rfl
    | cons r rs ih => exact fun g => ih _
  rw [Dict.get?_foldl_upsert (keyOf field) fun r => Group.update field empty (add r) r]
  change (recordsOf field records key).foldl _ none = _
  unfold groupOf shownOf
  cases recordsOf field records key with
  | nil => rfl
  | cons r rs => exact hsome rs _

theorem foldl_concat (rs : List TraceRecord) : rs.foldl (fun v r => v ++ [r]) [] = rs := by
  induction rs using List.reverseRecOn with
  | nil => rfl
  | append_singleton rs r ih => rw [List.foldl_append, ih]; rfl

theorem lastN_concat (n : ℕ) (xs : List α) (x : α) :
    lastN n (lastN n xs ++ [x]) = lastN n (xs ++ [x]) := by
  unfold lastN
  rw [← List.drop_append_of_le_length (Nat.sub_le _ _), List.drop_drop]
  congr 1
  simp only [List.length_drop, List.length_append, List.length_singleton]
  omega

theorem foldl_lastN (n : ℕ) (rs : List TraceRecord) :
    rs.foldl (fun v r => lastN n (v ++ [r])) [] = lastN n rs := by
  induction rs using List.reverseRecOn with
  | nil => simp [lastN]
  | append_singleton rs r ih => rw [List.foldl_append, ih]; exact lastN_concat n rs r

theorem foldl_count (rs : List TraceRecord) : rs.foldl (fun c _ => c + 1) 0 = rs.length := by
  induction rs using List.reverseRecOn with
  | nil => rfl
  | append_singleton rs r ih => rw [List.foldl_append, ih, List.length_append]; rfl

theorem groupOf_concat_of_ne {r : TraceRecord} {key : Json} (h : keyOf field r ≠ key) (value : α) :
    groupOf field (records ++ [r]) key value = groupOf field records key value := by
  simp only [groupOf, shownOf, recordsOf_concat, if_neg h]

theorem groupOf_concat (r : TraceRecord) (empty value : α) (f : α → α)
    (hempty : recordsOf field records (keyOf field r) = [] → value = empty) :
    groupOf field (records ++ [r]) (keyOf field r) (f value) =
      some (Group.update field empty f r (groupOf field records (keyOf field r) value)) := by
  have hne : recordsOf field (records ++ [r]) (keyOf field r) ≠ [] := by simp [recordsOf_concat]
  rw [groupOf, if_neg hne, groupOf]
  split_ifs with hnil
  · rw [hempty hnil, shownOf, recordsOf_concat, if_pos rfl, hnil]
    rfl
  · rw [shownOf_concat r _ hnil]
    rfl

theorem foldl_headStep {n : ℤ} (hn : 0 < n) (records : List TraceRecord) (key : Json) :
    (records.foldl (fun s r => headStep field n s (keyOf field r) r) (Dict.empty, Dict.empty)).1.get? key =
        groupOf field records key ((recordsOf field records key).take n.toNat) ∧
      ((records.foldl (fun s r => headStep field n s (keyOf field r) r) (Dict.empty, Dict.empty)).2.get?
        key).getD 0 = ((recordsOf field records key).take n.toNat).length := by
  induction records using List.reverseRecOn generalizing key with
  | nil => exact ⟨rfl, by simp [recordsOf]⟩
  | append_singleton records r ih =>
    rw [List.foldl_append]
    set s := records.foldl (fun s r => headStep field n s (keyOf field r) r) (Dict.empty, Dict.empty)
    simp only [List.foldl_cons, List.foldl_nil, headStep]
    obtain ⟨hgroup, hcount⟩ := ih (keyOf field r)
    rw [hcount, List.length_take]
    by_cases hkey : keyOf field r = key
    · subst hkey
      rw [recordsOf_concat, if_pos rfl]
      split_ifs with hlt
      · have htake : (recordsOf field records (keyOf field r)).take n.toNat =
            recordsOf field records (keyOf field r) := List.take_of_length_le (by omega)
        have htake' : (recordsOf field records (keyOf field r) ++ [r]).take n.toNat =
            recordsOf field records (keyOf field r) ++ [r] := by
          refine List.take_of_length_le ?_
          rw [List.length_append, List.length_singleton]
          omega
        rw [Dict.get?_upsert_self, Dict.get?_upsert_self, hgroup, Option.getD_some, hcount, htake, htake']
        refine ⟨?_, by simp⟩
        exact (groupOf_concat r [] _ (· ++ [r]) id).symm
      · have htake : (recordsOf field records (keyOf field r) ++ [r]).take n.toNat =
            (recordsOf field records (keyOf field r)).take n.toNat :=
          List.take_append_of_le_length (by omega)
        have hne : recordsOf field records (keyOf field r) ≠ [] := by
          intro hnil
          rw [hnil] at hlt
          simp at hlt
          omega
        rw [htake, hgroup, hcount]
        refine ⟨?_, rfl⟩
        rw [groupOf, groupOf, shownOf_concat r _ hne, if_neg hne, recordsOf_concat, if_pos rfl,
          if_neg (by simp)]
    · rw [recordsOf_concat, if_neg hkey, groupOf_concat_of_ne hkey]
      split_ifs
      · rw [Dict.get?_upsert_of_ne _ _ (Ne.symm hkey), Dict.get?_upsert_of_ne _ _ (Ne.symm hkey)]
        exact ih key
      · exact ih key

/-! ### The grouping operations -/

theorem Selection.cut_nil (sel : Selection) : sel.cut ([] : List α) = [] := by
  cases sel <;> simp [Selection.cut, lastN]

variable {sel : Selection}

theorem Selection.cut_eq_nil_iff (h : sel.keeps) (rs : List α) : sel.cut rs = [] ↔ rs = [] := by
  cases sel with
  | head n =>
    have hn : 0 < n := h
    have hpos : n.toNat ≠ 0 := by omega
    simp [Selection.cut, hpos]
  | tail n =>
    have hn : 0 < n := h
    rw [Selection.cut, lastN, List.drop_eq_nil_iff, ← List.length_eq_zero_iff]
    omega
  | all => exact Iff.rfl

theorem Selection.cut_of_not_keeps (h : ¬sel.keeps) (rs : List α) : sel.cut rs = [] := by
  cases sel with
  | head n =>
    have hzero : n.toNat = 0 := Int.toNat_of_nonpos (not_lt.mp h)
    simp [Selection.cut, hzero]
  | tail n =>
    have hzero : n.toNat = 0 := Int.toNat_of_nonpos (not_lt.mp h)
    simp [Selection.cut, lastN, hzero]
  | all => exact absurd trivial h

theorem Selection.cut_sublist (sel : Selection) (rs : List α) : (sel.cut rs).Sublist rs := by
  cases sel with
  | head n => exact List.take_sublist _ _
  | tail n => exact List.drop_sublist _ _
  | all => exact List.Sublist.refl rs

/-- A selection that keeps nothing reads nothing. -/
theorem group_of_not_keeps (h : ¬sel.keeps) : sel.group field records = .ok Dict.empty := by
  cases sel with
  | head n => exact if_pos (not_lt.mp h)
  | tail n => exact if_pos (not_lt.mp h)
  | all => exact absurd trivial h

/-- The groups are those of the keys, with the records that are kept; where none are, there is no group. -/
def Selection.Yields (sel : Selection) (field : String) (records : List TraceRecord) (groups : Groups) : Prop :=
  ∀ key, groups.get? key =
    if sel.cut (recordsOf field records key) = [] then none
    else some ⟨shownOf field records key, sel.cut (recordsOf field records key)⟩

theorem Selection.yields_of_groupOf {groups : Groups} (hkeeps : sel.keeps)
    (h : ∀ key, groups.get? key = groupOf field records key (sel.cut (recordsOf field records key))) :
    sel.Yields field records groups := by
  intro key
  rw [h, groupOf]
  simp only [sel.cut_eq_nil_iff hkeeps]

theorem group_ok (h : Hashable field records) (sel : Selection) :
    ∃ groups, sel.group field records = .ok groups ∧ sel.Yields field records groups := by
  by_cases hkeeps : sel.keeps
  · cases sel with
    | head n =>
      have hn : 0 < n := hkeeps
      refine ⟨(records.foldl (fun s r => headStep field n s (keyOf field r) r) (Dict.empty, Dict.empty)).1,
        ?_, Selection.yields_of_groupOf hkeeps fun key => (foldl_headStep hn records key).1⟩
      rw [Selection.group, headPerGroup, if_neg (not_le.mpr hn), eachRecord_eq _ h]
      rfl
    | tail n =>
      refine ⟨_, (if_neg (not_le.mpr hkeeps)).trans (eachRecord_eq _ h),
        Selection.yields_of_groupOf hkeeps fun key => ?_⟩
      refine (get?_foldl_update [] (fun r rs => lastN n.toNat (rs ++ [r])) key).trans ?_
      rw [foldl_lastN]
      rfl
    | all =>
      refine ⟨_, eachRecord_eq _ h, Selection.yields_of_groupOf hkeeps fun key => ?_⟩
      refine (get?_foldl_update [] (fun r rs => rs ++ [r]) key).trans ?_
      rw [foldl_concat]
      rfl
  · refine ⟨Dict.empty, group_of_not_keeps hkeeps, fun key => ?_⟩
    rw [if_pos (sel.cut_of_not_keeps hkeeps _)]
    rfl

theorem hashable_of_group {groups : Groups} (hkeeps : sel.keeps)
    (h : sel.group field records = .ok groups) : Hashable field records := by
  cases sel with
  | head n =>
    rw [Selection.group, headPerGroup, if_neg (not_le.mpr hkeeps)] at h
    obtain ⟨s, hs, -⟩ := map_ok h
    exact hashable_of_eachRecord hs
  | tail n =>
    rw [Selection.group, tailPerGroup, if_neg (not_le.mpr hkeeps)] at h
    exact hashable_of_eachRecord h
  | all => exact hashable_of_eachRecord h

theorem Selection.Yields.mem_entries {groups : Groups} {key : Json} {g : Group (List TraceRecord)}
    (h : sel.Yields field records groups) :
    (key, g) ∈ groups.entries ↔ sel.cut (recordsOf field records key) ≠ [] ∧
      g = ⟨shownOf field records key, sel.cut (recordsOf field records key)⟩ := by
  rw [← Dict.get?_eq_some_iff, h key]
  split_ifs with hnil
  · simp [hnil]
  · rw [Option.some.injEq, eq_comm]
    exact (and_iff_right hnil).symm

/-- A key with records shows the field of one of them. -/
theorem shownOf_mem {key : Json} (h : recordsOf field records key ≠ []) :
    ∃ r ∈ records, keyOf field r = key ∧ shownOf field records key = r.get field := by
  obtain ⟨r, rs, hrs⟩ := List.exists_cons_of_ne_nil h
  have hr : r ∈ recordsOf field records key := hrs ▸ List.mem_cons_self
  refine ⟨r, List.mem_of_mem_filter hr, by simpa using (List.mem_filter.mp hr).2, ?_⟩
  rw [shownOf, hrs]
  rfl

theorem recordsOf_keyOf_ne {r : TraceRecord} (hr : r ∈ records) : recordsOf field records (keyOf field r) ≠ [] :=
  List.ne_nil_of_mem (List.mem_filter.mpr ⟨hr, by simp⟩)

/-- The integer of a key is that of the fields that make it. -/
theorem toInt_keyOf {parse : String → Option ℤ} (h : Hashable field records) {r : TraceRecord}
    (hr : r ∈ records) : PyKey.toInt parse (keyOf field r) = PyKey.toInt parse (r.get field) := by
  obtain ⟨key, hkey⟩ := Option.isSome_iff_exists.mp (h r hr)
  rw [keyOf, hkey, Option.getD_some, PyKey.toInt_ofJson hkey]

theorem toInt_shownOf {parse : String → Option ℤ} (h : Hashable field records) {key : Json}
    (hne : recordsOf field records key ≠ []) :
    PyKey.toInt parse (shownOf field records key) = PyKey.toInt parse key := by
  obtain ⟨r, hr, rfl, hshown⟩ := shownOf_mem hne
  rw [hshown, toInt_keyOf h hr]

theorem sum_countPerGroup {counts : Dict Json (Group ℕ)} (h : countPerGroup field records = .ok counts) :
    (counts.values.map Group.value).sum = records.length := by
  rw [countPerGroup, eachRecord_eq _ (hashable_of_eachRecord h)] at h
  obtain rfl := Except.ok.inj h
  clear h
  induction records using List.reverseRecOn with
  | nil => rfl
  | append_singleton records r ih =>
    rw [List.foldl_append, List.foldl_cons, List.foldl_nil, List.length_append, List.length_singleton]
    set counts := records.foldl (fun counts r => counts.upsert (keyOf field r)
      (Group.update field 0 (· + 1) r)) Dict.empty
    have hsum := Dict.sum_upsertEntries Group.value (keyOf field r) (Group.update field 0 (· + 1) r)
      counts.entries
    have hupdate : (Group.update field 0 (· + 1) r (counts.get? (keyOf field r))).value =
        ((counts.get? (keyOf field r)).map Group.value).getD 0 + 1 := by
      cases counts.get? (keyOf field r) <;> rfl
    have hcounts : (counts.values.map Group.value).sum = records.length := ih
    simp only [Dict.values, List.map_map, Function.comp_def, Dict.upsert] at hcounts ⊢
    rw [Dict.get?] at hupdate
    omega

theorem countPerGroup_ok (h : Hashable field records) :
    ∃ counts, countPerGroup field records = .ok counts ∧
      ∀ key, counts.get? key = groupOf field records key (recordsOf field records key).length := by
  refine ⟨_, eachRecord_eq _ h, fun key => ?_⟩
  refine (get?_foldl_update 0 (fun _ c => c + 1) key).trans ?_
  rw [foldl_count]

end CuTracer.Query
