import CuTracer.Query.Output

/-! The warp summary of a query against the trace. The groups are cut before the summary is computed,
and their keys are read as numbers, so that it is a fact of the whole trace only if no EXIT is cut off
and different keys are different warps. -/

namespace CuTracer.Query

open IntRanges

/-- `query --group-by warp` with a filter and a limit. -/
def queryWarps (repr : PyKey.Writer) (ops : TextOps) (predicate : TraceRecord → Bool) (sel : Selection)
    (format : Format) (fields : Option String) (records : List TraceRecord) : Except GroupError Output := do
  let groups ← sel.group "warp" (records.filter predicate)
  formatGroups repr ops groups "warp" format fields

def Output.summary : Output → Option WarpSummary
  | .json _ summary => summary
  | .sections _ summary => summary
  | _ => none

def Format.summarizes (format : Format) : Prop := format = .table ∨ format = .json

def warpOf (ops : TextOps) (r : TraceRecord) : Option ℤ := (PyKey.toInt ops.int (r.get "warp")).toOption

section

variable (ops : TextOps) (trace : List TraceRecord)

def Expected (w : ℤ) : Prop := 0 ≤ w ∧ ∃ r ∈ trace, ∃ v, warpOf ops r = some v ∧ w ≤ v

structure Faithful (s : WarpSummary) : Prop where
  completed : ∀ w, Covers s.completed w ↔ ∃ r ∈ trace, warpOf ops r = some w ∧ isExitInstruction ops r
  inProgress : ∀ w, Covers s.inProgress w ↔
    (∃ r ∈ trace, warpOf ops r = some w) ∧ ¬∃ r ∈ trace, warpOf ops r = some w ∧ isExitInstruction ops r
  missing : ∀ w, Covers s.missing w ↔ Expected ops trace w ∧ ¬∃ r ∈ trace, warpOf ops r = some w
  disjoint : Apart (s.completed ++ s.inProgress ++ s.missing)
  maximal : Separated s.completed ∧ Separated s.inProgress ∧ Separated s.missing
  expand : ∀ w, Covers (s.completed ++ s.inProgress ++ s.missing) w ↔ Expected ops trace w

/-- No two keys are read as one warp. -/
def OneKey : Prop :=
  ∀ r ∈ trace, ∀ r' ∈ trace, ∀ w, warpOf ops r = some w → warpOf ops r' = some w →
    keyOf "warp" r = keyOf "warp" r'

def NonNegative : Prop := ∀ r ∈ trace, ∀ w, warpOf ops r = some w → 0 ≤ w

def KeepsExits (sel : Selection) : Prop :=
  ∀ r ∈ trace, (warpOf ops r).isSome → isExitInstruction ops r →
    ∃ r' ∈ sel.cut (recordsOf "warp" trace (keyOf "warp" r)), isExitInstruction ops r'

end

variable {ops : TextOps} {trace : List TraceRecord} {sel : Selection} {groups : Groups} {s : WarpSummary}

/-! ### The groups and the trace -/

theorem warpOf_of_keyOf (hhash : Hashable "warp" trace) {r r' : TraceRecord} (hr : r ∈ trace) (hr' : r' ∈ trace)
    (h : keyOf "warp" r = keyOf "warp" r') : warpOf ops r = warpOf ops r' := by
  rw [warpOf, warpOf, ← toInt_keyOf hhash hr, ← toInt_keyOf hhash hr', h]

theorem mem_of_mem_cut {r r' : TraceRecord} (h : r' ∈ sel.cut (recordsOf "warp" trace (keyOf "warp" r))) :
    r' ∈ trace ∧ keyOf "warp" r' = keyOf "warp" r := by
  have hmem := List.mem_filter.mp ((sel.cut_sublist _).subset h)
  exact ⟨hmem.1, by simpa using hmem.2⟩

def groupFor (sel : Selection) (trace : List TraceRecord) (r : TraceRecord) : Json × Group (List TraceRecord) :=
  (keyOf "warp" r, ⟨shownOf "warp" trace (keyOf "warp" r),
    sel.cut (recordsOf "warp" trace (keyOf "warp" r))⟩)

theorem warp_groupFor (hhash : Hashable "warp" trace) {r : TraceRecord} (hr : r ∈ trace) :
    (groupFor sel trace r).2.warp ops = warpOf ops r := by
  rw [Group.warp, groupFor, toInt_shownOf hhash (recordsOf_keyOf_ne hr), toInt_keyOf hhash hr, warpOf]

theorem mem_entries_iff (hyields : sel.Yields "warp" trace groups) (hkeeps : sel.keeps)
    (e : Json × Group (List TraceRecord)) : e ∈ groups.entries ↔ ∃ r ∈ trace, e = groupFor sel trace r := by
  obtain ⟨key, g⟩ := e
  rw [hyields.mem_entries, Ne, sel.cut_eq_nil_iff hkeeps]
  constructor
  · rintro ⟨hne, rfl⟩
    obtain ⟨r, hr, rfl, -⟩ := shownOf_mem hne
    exact ⟨r, hr, rfl⟩
  · rintro ⟨r, hr, he⟩
    cases he
    exact ⟨recordsOf_keyOf_ne hr, rfl⟩

theorem mem_warpsOf_iff (hyields : sel.Yields "warp" trace groups) (hkeeps : sel.keeps)
    (hhash : Hashable "warp" trace) (p : List TraceRecord → Bool) (w : ℤ) :
    w ∈ warpsOf ops p groups.values ↔ ∃ r ∈ trace, warpOf ops r = some w ∧
      p (sel.cut (recordsOf "warp" trace (keyOf "warp" r))) := by
  rw [mem_warpsOf]
  constructor
  · rintro ⟨g, hg, hp, hw⟩
    obtain ⟨e, he, rfl⟩ := List.mem_map.mp hg
    obtain ⟨r, hr, rfl⟩ := (mem_entries_iff hyields hkeeps e).mp he
    exact ⟨r, hr, (warp_groupFor hhash hr).symm.trans hw, hp⟩
  · rintro ⟨r, hr, hw, hp⟩
    have he := (mem_entries_iff hyields hkeeps _).mpr ⟨r, hr, rfl⟩
    exact ⟨_, List.mem_map.mpr ⟨_, he, rfl⟩, hp, (warp_groupFor hhash hr).trans hw⟩

theorem nodup_of_oneKey (hyields : sel.Yields "warp" trace groups) (hkeeps : sel.keeps)
    (hhash : Hashable "warp" trace) (hone : OneKey ops trace) (p : List TraceRecord → Bool) :
    (warpsOf ops p groups.values).Nodup := by
  refine nodup_warpsOf_iff.mpr fun e he e' he' _ _ w hw hw' => ?_
  obtain ⟨r, hr, rfl⟩ := (mem_entries_iff hyields hkeeps e).mp he
  obtain ⟨r', hr', rfl⟩ := (mem_entries_iff hyields hkeeps e').mp he'
  rw [warp_groupFor hhash hr] at hw
  rw [warp_groupFor hhash hr'] at hw'
  rw [groupFor, groupFor, hone r hr r' hr' w hw hw']

theorem keyOf_eq_of_nodup (hyields : sel.Yields "warp" trace groups) (hkeeps : sel.keeps)
    (hhash : Hashable "warp" trace) {p : List TraceRecord → Bool} (hnodup : (warpsOf ops p groups.values).Nodup)
    {r r' : TraceRecord} {w : ℤ} (hr : r ∈ trace) (hr' : r' ∈ trace)
    (hp : p (sel.cut (recordsOf "warp" trace (keyOf "warp" r))))
    (hp' : p (sel.cut (recordsOf "warp" trace (keyOf "warp" r'))))
    (hw : warpOf ops r = some w) (hw' : warpOf ops r' = some w) : keyOf "warp" r = keyOf "warp" r' := by
  have he := (mem_entries_iff hyields hkeeps _).mpr ⟨r, hr, rfl⟩
  have he' := (mem_entries_iff hyields hkeeps _).mpr ⟨r', hr', rfl⟩
  rw [← warp_groupFor hhash hr] at hw
  rw [← warp_groupFor hhash hr'] at hw'
  exact congrArg Prod.fst (nodup_warpsOf_iff.mp hnodup _ he _ he' hp hp' w hw hw')

structure Grouped (ops : TextOps) (sel : Selection) (trace : List TraceRecord) (groups : Groups) : Prop where
  yields : sel.Yields "warp" trace groups
  keeps : sel.keeps
  hashable : Hashable "warp" trace

namespace Grouped

variable (h : Grouped ops sel trace groups) (hs : Summarizes ops groups.values s)

include h hs

theorem covers_completed (w : ℤ) : Covers s.completed w ↔ ∃ r ∈ trace, warpOf ops r = some w ∧
    warpCompleted ops (sel.cut (recordsOf "warp" trace (keyOf "warp" r))) :=
  hs.covers_completed.trans (mem_warpsOf_iff h.yields h.keeps h.hashable _ w)

theorem covers_inProgress (w : ℤ) : Covers s.inProgress w ↔ ∃ r ∈ trace, warpOf ops r = some w ∧
    ¬warpCompleted ops (sel.cut (recordsOf "warp" trace (keyOf "warp" r))) := by
  rw [hs.covers_inProgress, mem_warpsOf_iff h.yields h.keeps h.hashable]
  simp only [Bool.not_eq_true', Bool.not_eq_true]

theorem covers_missing (w : ℤ) :
    Covers s.missing w ↔ Expected ops trace w ∧ ¬∃ r ∈ trace, warpOf ops r = some w := by
  have hall : ∀ w, w ∈ warpsOf ops (fun _ => true) groups.values ↔ ∃ r ∈ trace, warpOf ops r = some w := by
    intro w
    rw [mem_warpsOf_iff h.yields h.keeps h.hashable]
    simp only [and_true]
  rw [hs.covers_missing, hall]
  refine and_congr_left fun _ => and_congr_right fun _ => ?_
  constructor
  · rintro ⟨v, hv, hle⟩
    obtain ⟨r, hr, hw⟩ := (hall v).mp hv
    exact ⟨r, hr, v, hw, hle⟩
  · rintro ⟨r, hr, v, hw, hle⟩
    exact ⟨v, (hall v).mpr ⟨r, hr, hw⟩, hle⟩

/-- A warp of the trace is either completed or in progress. -/
theorem covers_seen {r : TraceRecord} {w : ℤ} (hr : r ∈ trace) (hw : warpOf ops r = some w) :
    Covers s.completed w ∨ Covers s.inProgress w := by
  by_cases hc : warpCompleted ops (sel.cut (recordsOf "warp" trace (keyOf "warp" r)))
  · exact .inl ((h.covers_completed hs w).mpr ⟨r, hr, hw, hc⟩)
  · exact .inr ((h.covers_inProgress hs w).mpr ⟨r, hr, hw, hc⟩)

theorem oneKey (hf : Faithful ops trace s) : OneKey ops trace := by
  intro r hr r' hr' w hw hw'
  have hclash : Covers s.completed w → Covers s.inProgress w → False :=
    fun hc hp => ((hf.inProgress w).mp hp).2 ((hf.completed w).mp hc)
  by_cases hc : warpCompleted ops (sel.cut (recordsOf "warp" trace (keyOf "warp" r))) <;>
    by_cases hc' : warpCompleted ops (sel.cut (recordsOf "warp" trace (keyOf "warp" r')))
  · exact keyOf_eq_of_nodup h.yields h.keeps h.hashable (hs.separated_completed.mp hf.maximal.1) hr hr' hc hc'
      hw hw'
  · exact (hclash ((h.covers_completed hs w).mpr ⟨r, hr, hw, hc⟩)
      ((h.covers_inProgress hs w).mpr ⟨r', hr', hw', hc'⟩)).elim
  · exact (hclash ((h.covers_completed hs w).mpr ⟨r', hr', hw', hc'⟩)
      ((h.covers_inProgress hs w).mpr ⟨r, hr, hw, hc⟩)).elim
  · exact keyOf_eq_of_nodup h.yields h.keeps h.hashable (hs.separated_inProgress.mp hf.maximal.2.1) hr hr'
      (by simpa using hc) (by simpa using hc') hw hw'

theorem keepsExits (hf : Faithful ops trace s) : KeepsExits ops trace sel := by
  intro r hr hwarp hexit
  obtain ⟨w, hw⟩ := Option.isSome_iff_exists.mp hwarp
  have hcovers := (hf.completed w).mpr ⟨r, hr, hw, hexit⟩
  obtain ⟨r', hr', hw', hc⟩ := (h.covers_completed hs w).mp hcovers
  rw [h.oneKey hs hf r' hr' r hr w hw' hw] at hc
  exact List.any_eq_true.mp hc

theorem nonNegative (hf : Faithful ops trace s) : NonNegative ops trace := by
  intro r hr w hw
  exact ((hf.expand w).mp (covers_append.mpr (.inl (covers_append.mpr (h.covers_seen hs hr hw))))).1

theorem faithful (hnonneg : NonNegative ops trace) (hone : OneKey ops trace) (hexits : KeepsExits ops trace sel) :
    Faithful ops trace s := by
  have hcompleted : ∀ w, Covers s.completed w ↔
      ∃ r ∈ trace, warpOf ops r = some w ∧ isExitInstruction ops r := by
    intro w
    rw [h.covers_completed hs]
    constructor
    · rintro ⟨r, hr, hw, hc⟩
      obtain ⟨r', hr', hexit⟩ := List.any_eq_true.mp hc
      obtain ⟨hmem, hkey⟩ := mem_of_mem_cut hr'
      exact ⟨r', hmem, (warpOf_of_keyOf h.hashable hmem hr hkey).trans hw, hexit⟩
    · rintro ⟨r, hr, hw, hexit⟩
      exact ⟨r, hr, hw, List.any_eq_true.mpr (hexits r hr (by rw [hw]; rfl) hexit)⟩
  have hinProgress : ∀ w, Covers s.inProgress w ↔ (∃ r ∈ trace, warpOf ops r = some w) ∧
      ¬∃ r ∈ trace, warpOf ops r = some w ∧ isExitInstruction ops r := by
    intro w
    rw [← hcompleted]
    constructor
    · intro hp
      obtain ⟨r, hr, hw, hc⟩ := (h.covers_inProgress hs w).mp hp
      refine ⟨⟨r, hr, hw⟩, fun hcovers => hc ?_⟩
      obtain ⟨r', hr', hw', hc'⟩ := (h.covers_completed hs w).mp hcovers
      rwa [hone r hr r' hr' w hw hw']
    · rintro ⟨⟨r, hr, hw⟩, hc⟩
      exact (h.covers_seen hs hr hw).resolve_left hc
  have hmissing := h.covers_missing hs
  have hcompletedSep := hs.separated_completed.mpr (nodup_of_oneKey h.yields h.keeps h.hashable hone _)
  have hinProgressSep := hs.separated_inProgress.mpr (nodup_of_oneKey h.yields h.keeps h.hashable hone _)
  have hseen : ∀ w, Covers (s.completed ++ s.inProgress) w → ∃ r ∈ trace, warpOf ops r = some w := by
    intro w hw
    obtain hw | hw := covers_append.mp hw
    · obtain ⟨r, hr, hw, -⟩ := (hcompleted w).mp hw
      exact ⟨r, hr, hw⟩
    · exact ((hinProgress w).mp hw).1
  refine ⟨hcompleted, hinProgress, hmissing, ?_, ⟨hcompletedSep, hinProgressSep, hs.separated_missing⟩, ?_⟩
  · refine (hcompletedSep.apart.append hinProgressSep.apart fun w hc hp => ?_).append
      hs.separated_missing.apart fun w hw hm => ((hmissing w).mp hm).2 (hseen w hw)
    exact ((hinProgress w).mp hp).2 ((hcompleted w).mp hc)
  · intro w
    rw [covers_append]
    constructor
    · rintro (hw | hw)
      · obtain ⟨r, hr, hwarp⟩ := hseen w hw
        exact ⟨hnonneg r hr w hwarp, r, hr, w, hwarp, le_rfl⟩
      · exact ((hmissing w).mp hw).1
    · intro hw
      by_cases hseen : ∃ r ∈ trace, warpOf ops r = some w
      · obtain ⟨r, hr, hwarp⟩ := hseen
        exact .inl (covers_append.mpr (h.covers_seen hs hr hwarp))
      · exact .inr ((hmissing w).mpr ⟨hw, hseen⟩)

end Grouped

/-! ### Queries -/

section

variable {repr : PyKey.Writer} {fields : Option String} {format : Format} {output : Output}

theorem summary_formatGroups (h : formatGroups repr ops groups "warp" format fields = .ok output) :
    ∃ summary, computeWarpSummary ops groups = .ok summary ∧
      (format.summarizes → output.summary = summary) ∧ ∀ s ∈ output.summary, format.summarizes := by
  rw [formatGroups, if_pos rfl] at h
  split_ifs at h with hempty
  · cases h
    refine ⟨none, ?_, fun _ => rfl, fun s hs => by cases hs⟩
    rw [computeWarpSummary, Dict.values, hempty]
    rfl
  · obtain ⟨summary, hsummary, rfl⟩ := map_ok h
    refine ⟨summary, hsummary, ?_, ?_⟩ <;>
      cases format <;> simp [Format.summarizes, render, Output.summary]

/-- Without a summary no record has a warp. -/
theorem warpOf_of_summary_none (h : Grouped ops sel trace groups)
    (hnone : warpsOf ops (fun _ => true) groups.values = []) {r : TraceRecord} (hr : r ∈ trace) :
    warpOf ops r = none := by
  rw [Option.eq_none_iff_forall_not_mem]
  intro w hw
  have hmem := (mem_warpsOf_iff h.yields h.keeps h.hashable (fun _ => true) w).mpr ⟨r, hr, hw, rfl⟩
  rw [hnone] at hmem
  cases hmem

end

/-- Where the query is right about the warps of the trace it reads. -/
def SummaryFits (ops : TextOps) (format : Format) (sel : Selection) (trace : List TraceRecord) : Prop :=
  sel.keeps → Hashable "warp" trace ∧ FiniteWarps ops trace ∧
    (format.summarizes → NonNegative ops trace ∧ OneKey ops trace ∧ KeepsExits ops trace sel)

/-- The query runs, and a summary that it shows is a fact of the trace that it reads. -/
def Reports (ops : TextOps) (trace : List TraceRecord) (result : Except GroupError Output) : Prop :=
  ∃ output, result = .ok output ∧ ∀ s ∈ output.summary, Faithful ops trace s

variable {repr : PyKey.Writer} {predicate : TraceRecord → Bool} {format : Format} {fields : Option String}
  {records : List TraceRecord}

theorem reports_of_not_keeps (hkeeps : ¬sel.keeps) :
    Reports ops (records.filter predicate) (queryWarps repr ops predicate sel format fields records) := by
  refine ⟨.noRecords, ?_, fun s hs => by cases hs⟩
  rw [queryWarps, group_of_not_keeps hkeeps]
  rfl

theorem summaryFits_of_reports
    (h : Reports ops (records.filter predicate) (queryWarps repr ops predicate sel format fields records)) :
    SummaryFits ops format sel (records.filter predicate) := by
  intro hkeeps
  obtain ⟨output, hquery, hfaithful⟩ := h
  obtain ⟨groups, hgroup, hformat⟩ := bind_ok hquery
  have hhash := hashable_of_group hkeeps hgroup
  obtain ⟨groups', hgroup', hyields⟩ := group_ok hhash sel
  obtain rfl : groups = groups' := Except.ok.inj (hgroup.symm.trans hgroup')
  obtain ⟨summary, hsummary, hshown, -⟩ := summary_formatGroups hformat
  have hfinite := finiteWarps_of_summary hkeeps hyields hsummary hhash
  obtain ⟨summary', hsummary', hnone, hsummarizes⟩ :=
    computeWarpSummary_ok hyields.value_ne_nil (hyields.finite hfinite)
  obtain rfl : summary = summary' := Except.ok.inj (hsummary.symm.trans hsummary')
  have hgrouped : Grouped ops sel (records.filter predicate) groups := ⟨hyields, hkeeps, hhash⟩
  refine ⟨hhash, hfinite, fun hformat => ?_⟩
  cases summary with
  | none =>
    have hwarp : ∀ r ∈ records.filter predicate, warpOf ops r = none := fun r hr =>
      warpOf_of_summary_none hgrouped (hnone.mp rfl) hr
    refine ⟨fun r hr w hw => ?_, fun r hr r' _ w hw _ => ?_, fun r hr hw => ?_⟩ <;>
      rw [hwarp r hr] at hw <;> cases hw
  | some s =>
    have hs := hsummarizes s rfl
    have hf := hfaithful s (hshown hformat)
    exact ⟨hgrouped.nonNegative hs hf, hgrouped.oneKey hs hf, hgrouped.keepsExits hs hf⟩

/-- The summary of a query is a fact of the filtered trace exactly if the limit keeps nothing, or it raises on
no warp and, where a summary is shown, no warp is negative, no two keys are one warp and no EXIT of a warp is
cut off. -/
theorem warp_summary_faithful (repr : PyKey.Writer) (ops : TextOps) (predicate : TraceRecord → Bool)
    (sel : Selection) (format : Format) (fields : Option String) (records : List TraceRecord) :
    Reports ops (records.filter predicate) (queryWarps repr ops predicate sel format fields records) ↔
      SummaryFits ops format sel (records.filter predicate) := by
  refine ⟨summaryFits_of_reports, fun h => ?_⟩
  by_cases hkeeps : sel.keeps
  · obtain ⟨hhash, hfinite, hfits⟩ := h hkeeps
    obtain ⟨groups, hgroup, hyields⟩ := group_ok hhash sel
    obtain ⟨summary, hsummary, -, hsummarizes⟩ :=
      computeWarpSummary_ok hyields.value_ne_nil (hyields.finite hfinite)
    obtain ⟨output, hformat⟩ : ∃ output, formatGroups repr ops groups "warp" format fields = .ok output :=
      formatGroups_ok fun _ => ⟨summary, hsummary⟩
    refine ⟨output, ?_, fun s hs => ?_⟩
    · rw [queryWarps, hgroup, ok_bind, hformat]
    · obtain ⟨summary', hsummary', hshown, hshows⟩ := summary_formatGroups hformat
      obtain rfl : summary = summary' := Except.ok.inj (hsummary.symm.trans hsummary')
      obtain ⟨hnonneg, hone, hexits⟩ := hfits (hshows s hs)
      have hgrouped : Grouped ops sel (records.filter predicate) groups := ⟨hyields, hkeeps, hhash⟩
      rw [hshown (hshows s hs)] at hs
      exact hgrouped.faithful (hsummarizes s hs) hnonneg hone hexits
  · exact reports_of_not_keeps hkeeps

def ofWarpZero (sass : String) : TraceRecord where
  fields := ⟨[("warp", .int 0), ("sass", .str sass)], by simp⟩
  sass_text := fun v hv => ⟨sass, (Option.some.inj hv).symm⟩

/-- The EXIT after the first record of a warp is cut off by `--head 1`. -/
theorem head_cuts_exit : ¬Reports asciiOps ([ofWarpZero "NOP;", ofWarpZero "EXIT;"].filter fun _ => true)
    (queryWarps ⟨fun _ => "0.0", fun s => "'" ++ s ++ "'"⟩ asciiOps (fun _ => true) (.head 1) .table none
      [ofWarpZero "NOP;", ofWarpZero "EXIT;"]) := by
  intro h
  have hkeeps : (Selection.head 1).keeps := Int.one_pos
  obtain ⟨-, -, hfits⟩ := summaryFits_of_reports h hkeeps
  obtain ⟨-, -, hexits⟩ := hfits (.inl rfl)
  obtain ⟨r, hr, hexit⟩ := hexits (ofWarpZero "EXIT;") (by simp) rfl (by decide)
  have hcut : r ∈ [ofWarpZero "NOP;"] := hr
  obtain rfl := List.mem_singleton.mp hcut
  exact absurd hexit (by decide)

end CuTracer.Query
