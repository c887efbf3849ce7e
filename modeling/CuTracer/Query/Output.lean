import CuTracer.Query.WarpSummary
import Mathlib.Data.Prod.Lex

/-! The output of a grouped query, before it is written as text. In JSON the groups are under the texts
of their keys, so that it holds all the records if and only if different keys have different texts. -/

namespace CuTracer.Query

inductive Format where
  | table | json | csv | ndjson
  deriving DecidableEq

abbrev Row := Dict String Json

def defaultFields : List String := ["warp", "pc", "sass"]

def allFields (records : List TraceRecord) : List String :=
  records.foldl (fun seen r => r.fields.keys.foldl (fun seen f => if f ∈ seen then seen else seen ++ [f]) seen) []

/-- `fields.strip() in ("*", "all")`. -/
def isAllFields (requested : String) : Bool :=
  Amdgcn.strip requested.toList = ['*'] || Amdgcn.strip requested.toList = "all".toList

def getDisplayFields (records : List TraceRecord) (requested : Option String) : List String :=
  let every := if records = [] then defaultFields else allFields records
  match requested with
  | none => every
  | some s =>
    if s = "" || isAllFields s then every
    else (s.toList.splitOn ',').map fun f => String.ofList (Amdgcn.strip f)

/-- `{f: r.get(f) for f in display_fields if f in r}`. -/
def project (fields : List String) (r : TraceRecord) : Row :=
  fields.foldl (fun row f =>
    match r.fields.get? f with
    | some v => row.insert f v
    | none => row) Dict.empty

section

variable (repr : PyKey.Writer) (ops : TextOps)

/-- `str(_display_key(key))`. -/
def displayText (shown : Json) : String := PyKey.text repr false shown

/-- `str(key)`, which the groups are sorted by. -/
def sortText (shown : Json) : String := PyKey.text repr true shown

def sortedGroups (groups : Groups) : List (Group (List TraceRecord)) :=
  sortOn (fun g => sortText repr g.shown) groups.values

/-- The records of a group as JSON output shows them. -/
def groupRows (fields : Option String) (g : Group (List TraceRecord)) : List Row :=
  g.value.map (project (getDisplayFields g.value fields))

/-- `groups_data` of the JSON output. -/
def groupsData (fields : Option String) (groups : Groups) : Dict String (List Row) :=
  (sortedGroups repr groups).foldl (fun d g =>
    if g.value = [] then d else d.insert (displayText repr g.shown) (groupRows fields g)) Dict.empty

def outRecord (fields : Option String) (g : Group (List TraceRecord)) (r : TraceRecord) : Row :=
  let row :=
    if fields.any fun s => s ≠ "" && isAllFields s then r.fields
    else project (getDisplayFields g.value fields) r
  row.insert "_group" g.shown

def outLines (fields : Option String) (g : Group (List TraceRecord)) : List Row :=
  g.value.map (outRecord fields g)

/-- A group of the table or CSV output: its header and the fields and records under it. -/
structure Section where
  shown : Json
  fields : List String
  records : List TraceRecord

def sections (fields : Option String) (groups : Groups) : List Section :=
  ((sortedGroups repr groups).filter (·.value ≠ [])).map fun g =>
    { shown := g.shown, fields := getDisplayFields g.value fields, records := g.value }

inductive Output where
  | noRecords
  | json (groups : Dict String (List Row)) (warp_summary : Option WarpSummary)
  | ndjson (lines : List Row)
  | sections (parts : List Section) (warp_summary : Option WarpSummary)

/-- The output of some groups with their summary, which only table and JSON output show. -/
def render (groups : Groups) (fields : Option String) (warp_summary : Option WarpSummary) : Format → Output
  | .json => .json (groupsData repr fields groups) warp_summary
  | .ndjson => .ndjson ((sortedGroups repr groups).flatMap (outLines fields))
  | .csv => .sections (sections repr fields groups) none
  | .table => .sections (sections repr fields groups) warp_summary

def formatGroups (groups : Groups) (group_by : String) (format : Format) (fields : Option String) :
    Except GroupError Output :=
  if groups.entries = [] then .ok .noRecords
  else
    (if group_by = "warp" then computeWarpSummary ops groups else .ok none).map fun warp_summary =>
      render repr groups fields warp_summary format

/-- The counts that `_format_counts` shows. -/
def shownCounts (top : Option ℤ) (counts : Dict Json (Group ℕ)) : List (Group ℕ) :=
  let sorted := sortOn (fun g => toLex (-(g.value : ℤ), sortText repr g.shown)) counts.values
  match top with
  | none => sorted
  | some n => if 0 < n then sorted.take n.toNat else sorted

inductive CountOutput where
  | noRecords
  | json (counts : Dict String ℕ)
  | ndjson (lines : List Row)
  | rows (rows : List (Json × ℕ))

def formatCounts (counts : Dict Json (Group ℕ)) (group_field : String) (top : Option ℤ) (format : Format) :
    CountOutput :=
  if counts.entries = [] then .noRecords
  else
    match format with
    | .json => .json ((shownCounts repr top counts).foldl (fun d g =>
        d.insert (displayText repr g.shown) g.value) Dict.empty)
    | .ndjson => .ndjson ((shownCounts repr top counts).map fun g =>
        (Dict.empty.insert group_field g.shown).insert "count" (.int g.value))
    | .csv | .table => .rows ((shownCounts repr top counts).map fun g => (g.shown, g.value))

end

/-- The records in a JSON output, each with the text of its group. -/
def Output.records : Output → List (String × Row)
  | .json groups _ => groups.entries.flatMap fun e => e.2.map fun row => (e.1, row)
  | _ => []

def Output.lines : Output → List Row
  | .ndjson lines => lines
  | _ => []

def CountOutput.counts : CountOutput → List (String × ℕ)
  | .json counts => counts.entries
  | _ => []

def CountOutput.lines : CountOutput → List Row
  | .ndjson lines => lines
  | _ => []

/-! ### What the output holds -/

variable {repr : PyKey.Writer} {ops : TextOps} {field : String} {records : List TraceRecord}

/-- The grouping operations run, and the output holds every grouped record once. -/
structure Kept (repr : PyKey.Writer) (ops : TextOps) (field : String) (records : List TraceRecord) : Prop where
  counts : ∃ counts, countPerGroup field records = .ok counts ∧
    (counts.values.map Group.value).sum = records.length ∧
    ∀ top, (formatCounts repr counts field top .json).counts =
        (shownCounts repr top counts).map (fun g => (displayText repr g.shown, g.value)) ∧
      (formatCounts repr counts field top .ndjson).lines = (shownCounts repr top counts).map fun g =>
        (Dict.empty.insert field g.shown).insert "count" (.int g.value)
  groups : ∀ sel : Selection, ∃ groups, sel.group field records = .ok groups ∧
    (∀ key, ((groups.get? key).map Group.value).getD [] = sel.cut (recordsOf field records key)) ∧
    ∀ fields,
      (∃ output, formatGroups repr ops groups field .json fields = .ok output ∧
        output.records.Perm (groups.values.flatMap fun g =>
          (groupRows fields g).map fun row => (displayText repr g.shown, row))) ∧
      ∃ output, formatGroups repr ops groups field .ndjson fields = .ok output ∧
        output.lines.Perm (groups.values.flatMap (outLines fields))

def DistinctTexts (repr : PyKey.Writer) (field : String) (records : List TraceRecord) : Prop :=
  ∀ r ∈ records, ∀ r' ∈ records,
    displayText repr (shownOf field records (keyOf field r)) =
      displayText repr (shownOf field records (keyOf field r')) → keyOf field r = keyOf field r'

def FiniteWarps (ops : TextOps) (records : List TraceRecord) : Prop :=
  ∀ r ∈ records, PyKey.toInt ops.int (r.get "warp") ≠ .error .overflow

namespace Selection.Yields

variable {sel : Selection} {groups : Groups}

theorem of_mem_values (h : sel.Yields field records groups) {g : Group (List TraceRecord)}
    (hg : g ∈ groups.values) : ∃ key, (key, g) ∈ groups.entries ∧ recordsOf field records key ≠ [] ∧
      g.value ≠ [] ∧ g = ⟨shownOf field records key, sel.cut (recordsOf field records key)⟩ := by
  obtain ⟨⟨key, g⟩, he, rfl⟩ := List.mem_map.mp hg
  obtain ⟨hne, hval⟩ := h.mem_entries.mp he
  refine ⟨key, he, fun hnil => hne (by rw [hnil, sel.cut_nil]), ?_, hval⟩
  rw [hval]
  exact hne

theorem value_ne_nil (h : sel.Yields field records groups) : ∀ g ∈ groups.values, g.value ≠ [] := by
  intro g hg
  obtain ⟨-, -, -, hne, -⟩ := h.of_mem_values hg
  exact hne

/-- The keys of groups are those of records. -/
theorem finite (h : sel.Yields "warp" records groups) (hwarps : FiniteWarps ops records) :
    ∀ g ∈ groups.values, PyKey.toInt ops.int g.shown ≠ .error .overflow := by
  intro g hg
  obtain ⟨key, -, hkey, -, rfl⟩ := h.of_mem_values hg
  obtain ⟨r, hr, -, hshown⟩ := shownOf_mem hkey
  rw [hshown]
  exact hwarps r hr

end Selection.Yields

/-- Groups under the keys of records, which show the fields of their first records. -/
def ShowsKeys {α : Type} (field : String) (records : List TraceRecord) (groups : Dict Json (Group α)) : Prop :=
  ∀ e ∈ groups.entries, recordsOf field records e.1 ≠ [] ∧ e.2.shown = shownOf field records e.1

theorem Selection.Yields.showsKeys {sel : Selection} {groups : Groups}
    (h : sel.Yields field records groups) : ShowsKeys field records groups := by
  rintro ⟨key, g⟩ he
  obtain ⟨hne, rfl⟩ := h.mem_entries.mp he
  exact ⟨fun hnil => hne (by rw [hnil, sel.cut_nil]), rfl⟩

theorem ShowsKeys.of_groupOf {α : Type} {groups : Dict Json (Group α)} {value : Json → α}
    (h : ∀ key, groups.get? key = groupOf field records key (value key)) : ShowsKeys field records groups := by
  rintro ⟨key, g⟩ he
  have hget := (groups.get?_eq_some_iff key g).mpr he
  rw [h, groupOf] at hget
  split_ifs at hget with hnil
  cases hget
  exact ⟨hnil, rfl⟩

/-- With different texts for different keys, no text is that of two groups. -/
theorem ShowsKeys.nodup_texts {α : Type} {groups : Dict Json (Group α)}
    (h : ShowsKeys field records groups) (hdistinct : DistinctTexts repr field records) :
    (groups.values.map fun g => displayText repr g.shown).Nodup := by
  rw [Dict.values, List.map_map]
  refine List.Nodup.map_on ?_ (List.Nodup.of_map Prod.fst groups.nodup)
  rintro ⟨key, g⟩ he ⟨key', g'⟩ he' htext
  obtain ⟨hne, hshown⟩ := h _ he
  obtain ⟨hne', hshown'⟩ := h _ he'
  obtain ⟨r, hr, hkey, -⟩ := shownOf_mem hne
  obtain ⟨r', hr', hkey', -⟩ := shownOf_mem hne'
  simp only [Function.comp_apply] at htext hkey hkey' hshown hshown'
  have hsame := hdistinct r hr r' hr'
  rw [hkey, hkey', ← hshown, ← hshown'] at hsame
  obtain rfl := hsame htext
  have hget := (groups.get?_eq_some_iff key g).mpr he
  rw [(groups.get?_eq_some_iff key g').mpr he'] at hget
  rw [Option.some.inj hget]

/-! ### The grouped records in the output -/

section

variable {groups : Groups} {fields : Option String} {output : Output}

def textGroups (repr : PyKey.Writer) (fields : Option String) (groups : Groups) : List (String × List Row) :=
  (sortedGroups repr groups).map fun g => (displayText repr g.shown, groupRows fields g)

theorem groupsData_eq (hne : ∀ g ∈ groups.values, g.value ≠ []) :
    groupsData repr fields groups =
      (textGroups repr fields groups).foldl (fun d e => d.insert e.1 e.2) Dict.empty := by
  rw [groupsData, textGroups, List.foldl_map]
  refine List.foldl_ext _ _ _ fun d g hg => ?_
  exact if_neg (hne g (mem_sortOn.mp hg))

theorem nodup_textGroups_iff : ((textGroups repr fields groups).map Prod.fst).Nodup ↔
    (groups.values.map fun g => displayText repr g.shown).Nodup := by
  rw [textGroups, List.map_map]
  exact ((sortOn_perm _ groups.values).map _).nodup_iff

theorem records_formatGroups (h : formatGroups repr ops groups field .json fields = .ok output) :
    output.records = (groupsData repr fields groups).entries.flatMap fun e => e.2.map fun row => (e.1, row) := by
  unfold formatGroups at h
  split_ifs at h with hempty
  · cases h
    rw [groupsData, sortedGroups, Dict.values, hempty]
    rfl
  all_goals
    obtain ⟨warp_summary, -, rfl⟩ := map_ok h
    rfl

theorem lines_formatGroups (h : formatGroups repr ops groups field .ndjson fields = .ok output) :
    output.lines = (sortedGroups repr groups).flatMap (outLines fields) := by
  unfold formatGroups at h
  split_ifs at h with hempty
  · cases h
    rw [sortedGroups, Dict.values, hempty]
    rfl
  all_goals
    obtain ⟨warp_summary, -, rfl⟩ := map_ok h
    rfl

theorem formatGroups_ok {format : Format}
    (hsummary : field = "warp" → ∃ summary, computeWarpSummary ops groups = .ok summary) :
    ∃ output, formatGroups repr ops groups field format fields = .ok output := by
  unfold formatGroups
  split_ifs with hempty hwarp
  · exact ⟨_, rfl⟩
  · obtain ⟨summary, hsummary⟩ := hsummary hwarp
    rw [hsummary]
    exact ⟨_, rfl⟩
  · exact ⟨_, rfl⟩

theorem summary_of_formatGroups {format : Format}
    (h : formatGroups repr ops groups "warp" format fields = .ok output) :
    ∃ summary, computeWarpSummary ops groups = .ok summary := by
  rw [formatGroups, if_pos rfl] at h
  split_ifs at h with hempty
  · refine ⟨none, ?_⟩
    rw [computeWarpSummary, Dict.values, hempty]
    rfl
  · obtain ⟨summary, hsummary, -⟩ := map_ok h
    exact ⟨summary, hsummary⟩

/-- Different texts keep all the records. -/
theorem records_perm (hne : ∀ g ∈ groups.values, g.value ≠ [])
    (hnodup : (groups.values.map fun g => displayText repr g.shown).Nodup)
    (h : formatGroups repr ops groups field .json fields = .ok output) :
    output.records.Perm (groups.values.flatMap fun g =>
      (groupRows fields g).map fun row => (displayText repr g.shown, row)) := by
  have hkeys : ((textGroups repr fields groups).map Prod.fst).Nodup := nodup_textGroups_iff.mpr hnodup
  rw [records_formatGroups h, groupsData_eq hne, Dict.entries_ofEntries hkeys]
  rw [textGroups, List.flatMap_map]
  exact (sortOn_perm _ groups.values).flatMap_right _

/-- What keeps all the records has different texts. -/
theorem nodup_of_records_perm (hne : ∀ g ∈ groups.values, g.value ≠ [])
    (h : formatGroups repr ops groups field .json fields = .ok output)
    (hperm : output.records.Perm (groups.values.flatMap fun g =>
      (groupRows fields g).map fun row => (displayText repr g.shown, row))) :
    (groups.values.map fun g => displayText repr g.shown).Nodup := by
  have hlength := hperm.length_eq
  rw [records_formatGroups h, groupsData_eq hne] at hlength
  have hsorted : ((textGroups repr fields groups).map fun e => e.2.length).sum =
      (groups.values.map fun g => (groupRows fields g).length).sum := by
    rw [textGroups, List.map_map]
    exact ((sortOn_perm _ groups.values).map _).sum_eq
  simp only [List.length_flatMap, List.length_map] at hlength
  have hkeys : ((textGroups repr fields groups).map Prod.fst).Nodup := by
    refine Dict.nodup_of_sum_foldl_insert (g := List.length) (d := Dict.empty) (fun v hv => by cases hv) ?_ ?_
    · intro e he
      obtain ⟨g, hg, rfl⟩ := List.mem_map.mp he
      have hpos := List.length_pos_of_ne_nil (hne g (mem_sortOn.mp hg))
      rw [groupRows, List.length_map]
      exact hpos
    · rw [hsorted, ← hlength]
      simp only [Dict.values, List.map_map]
      exact (Nat.zero_add _).le
  exact nodup_textGroups_iff.mp hkeys

end

/-! ### The counts in the output -/

section

variable {counts : Dict Json (Group ℕ)}

theorem shownCounts_nil (top : Option ℤ) (h : counts.entries = []) : shownCounts repr top counts = [] := by
  have hsorted : sortOn (fun g : Group ℕ => toLex (-(g.value : ℤ), sortText repr g.shown)) counts.values = [] := by
    rw [Dict.values, h]
    rfl
  unfold shownCounts
  cases top with
  | none => exact hsorted
  | some n =>
    simp only [hsorted, List.take_nil, ite_self]

theorem nodup_shownCounts (top : Option ℤ) (h : (counts.values.map fun g => displayText repr g.shown).Nodup) :
    ((shownCounts repr top counts).map fun g => displayText repr g.shown).Nodup := by
  have hsorted := ((sortOn_perm (fun g : Group ℕ => toLex (-(g.value : ℤ), sortText repr g.shown))
    counts.values).map fun g => displayText repr g.shown).nodup_iff.mpr h
  unfold shownCounts
  cases top with
  | none => exact hsorted
  | some n =>
    dsimp only
    split_ifs
    · exact hsorted.sublist ((List.take_sublist _ _).map _)
    · exact hsorted

theorem counts_formatCounts (top : Option ℤ)
    (h : (counts.values.map fun g => displayText repr g.shown).Nodup) :
    (formatCounts repr counts field top .json).counts =
      (shownCounts repr top counts).map fun g => (displayText repr g.shown, g.value) := by
  unfold formatCounts
  split_ifs with hempty
  · rw [shownCounts_nil top hempty]
    rfl
  · have hkeys : (((shownCounts repr top counts).map fun g =>
        (displayText repr g.shown, g.value)).map Prod.fst).Nodup := by
      rw [List.map_map]
      exact nodup_shownCounts top h
    rw [← Dict.entries_ofEntries hkeys, List.foldl_map]
    rfl

theorem lines_formatCounts (top : Option ℤ) :
    (formatCounts repr counts field top .ndjson).lines = (shownCounts repr top counts).map fun g =>
      (Dict.empty.insert field g.shown).insert "count" (.int g.value) := by
  unfold formatCounts
  split_ifs with hempty
  · rw [shownCounts_nil top hempty]
    rfl
  · rfl

end

theorem outLines_perm {groups : Groups} {fields : Option String} {output : Output}
    (h : formatGroups repr ops groups field .ndjson fields = .ok output) :
    output.lines.Perm (groups.values.flatMap (outLines fields)) := by
  rw [lines_formatGroups h]
  exact (sortOn_perm _ groups.values).flatMap_right _

theorem distinctTexts_of_nodup {groups : Groups} (h : Selection.all.Yields field records groups)
    (hnodup : (groups.values.map fun g => displayText repr g.shown).Nodup) :
    DistinctTexts repr field records := by
  intro r hr r' hr' htext
  have hmem : ∀ r ∈ records, (keyOf field r, (⟨shownOf field records (keyOf field r),
      recordsOf field records (keyOf field r)⟩ : Group (List TraceRecord))) ∈ groups.entries :=
    fun r hr => h.mem_entries.mpr ⟨recordsOf_keyOf_ne hr, rfl⟩
  rw [Dict.values, List.map_map] at hnodup
  have hsame := List.inj_on_of_nodup_map hnodup (hmem r hr) (hmem r' hr') htext
  exact congrArg Prod.fst hsame

theorem finiteWarps_of_summary {sel : Selection} {groups : Groups} {summary : Option WarpSummary}
    (hkeeps : sel.keeps) (h : sel.Yields "warp" records groups)
    (hsummary : computeWarpSummary ops groups = .ok summary) (hhash : Hashable "warp" records) :
    FiniteWarps ops records := by
  intro r hr
  obtain ⟨ids, hids, -⟩ := bind_ok hsummary
  have hne : recordsOf "warp" records (keyOf "warp" r) ≠ [] := recordsOf_keyOf_ne hr
  have hgroup := h.mem_entries.mpr ⟨mt (sel.cut_eq_nil_iff hkeeps _).mp hne, rfl⟩
  have hfinite := foldlM_addGroup_overflow hids _ (List.mem_map.mpr ⟨_, hgroup, rfl⟩)
  rwa [toInt_shownOf hhash hne, toInt_keyOf hhash hr] at hfinite

/-! ### When all the records are kept -/

theorem Kept.hashable (h : Kept repr ops field records) : Hashable field records := by
  obtain ⟨counts, hcounts, -⟩ := h.counts
  exact hashable_of_eachRecord hcounts

theorem Kept.all (h : Kept repr ops field records) : ∃ groups output,
    Selection.all.Yields field records groups ∧
      formatGroups repr ops groups field .json none = .ok output ∧
      output.records.Perm (groups.values.flatMap fun g =>
        (groupRows none g).map fun row => (displayText repr g.shown, row)) := by
  obtain ⟨groups, hgroup, -, houtput⟩ := h.groups .all
  obtain ⟨groups', hgroup', hyields⟩ := group_ok h.hashable .all
  obtain rfl : groups = groups' := Except.ok.inj (hgroup.symm.trans hgroup')
  obtain ⟨⟨output, hformat, hperm⟩, -⟩ := houtput none
  exact ⟨groups, output, hyields, hformat, hperm⟩

theorem Kept.distinct (h : Kept repr ops field records) : DistinctTexts repr field records := by
  obtain ⟨groups, output, hyields, hformat, hperm⟩ := h.all
  exact distinctTexts_of_nodup hyields (nodup_of_records_perm hyields.value_ne_nil hformat hperm)

theorem Kept.finite (h : Kept repr ops "warp" records) : FiniteWarps ops records := by
  have hkeeps : Selection.all.keeps := trivial
  obtain ⟨groups, output, hyields, hformat, -⟩ := h.all
  obtain ⟨summary, hsummary⟩ := summary_of_formatGroups hformat
  exact finiteWarps_of_summary hkeeps hyields hsummary h.hashable

/-- The grouping operations run and the output holds every record exactly if every value can be a key,
different keys have different texts, and no warp is infinite. -/
theorem grouping_keeps_records (repr : PyKey.Writer) (ops : TextOps) (field : String)
    (records : List TraceRecord) :
    Kept repr ops field records ↔
      Hashable field records ∧ DistinctTexts repr field records ∧
        (field = "warp" → FiniteWarps ops records) := by
  constructor
  · intro h
    refine ⟨h.hashable, h.distinct, ?_⟩
    rintro rfl
    exact h.finite
  · rintro ⟨hhash, hdistinct, hfinite⟩
    constructor
    · obtain ⟨counts, hcounts, hget⟩ := countPerGroup_ok hhash
      have hnodup := (ShowsKeys.of_groupOf hget).nodup_texts hdistinct
      exact ⟨counts, hcounts, sum_countPerGroup hcounts, fun top =>
        ⟨counts_formatCounts top hnodup, lines_formatCounts top⟩⟩
    · intro sel
      obtain ⟨groups, hgroup, hyields⟩ := group_ok hhash sel
      have hsummary : field = "warp" → ∃ summary, computeWarpSummary ops groups = .ok summary := by
        rintro rfl
        obtain ⟨summary, h, -⟩ := computeWarpSummary_ok hyields.value_ne_nil (hyields.finite (hfinite rfl))
        exact ⟨summary, h⟩
      refine ⟨groups, hgroup, fun key => ?_, fun fields => ⟨?_, ?_⟩⟩
      · rw [hyields key]
        split_ifs with hnil
        · exact hnil.symm
        · rfl
      · obtain ⟨output, houtput⟩ := formatGroups_ok hsummary
        exact ⟨output, houtput, records_perm hyields.value_ne_nil
          (hyields.showsKeys.nodup_texts hdistinct) houtput⟩
      · obtain ⟨output, houtput⟩ := formatGroups_ok hsummary
        exact ⟨output, houtput, outLines_perm houtput⟩

def TraceRecord.only (field : String) (v : Json) (h : field ≠ "sass") : TraceRecord where
  fields := ⟨[(field, v)], List.nodup_singleton field⟩
  sass_text := by simp [Dict.get?, Dict.lookup, h]

/-- A number and the text that spells it are two groups with one text. -/
theorem number_and_text_collide :
    ¬Kept ⟨fun _ => "0.0", fun s => "'" ++ s ++ "'"⟩ asciiOps "pc"
      [.only "pc" (.int 1) (by decide), .only "pc" (.str "1") (by decide)] := by
  intro h
  have hdistinct := h.distinct _ List.mem_cons_self _ (List.mem_cons_of_mem _ List.mem_cons_self)
  exact absurd (hdistinct (by decide)) (by decide)

end CuTracer.Query
