import CuTracer.Amdgcn.Text
import CuTracer.Library.IntRanges
import CuTracer.Query.Grouper
import Mathlib.Data.List.Infix
import Mathlib.Data.List.Pairwise

/-! The summary of the warps of a grouped query: which ones have executed EXIT, which ones have not,
and which numbers below the largest one never appeared. -/

namespace CuTracer.Query

/-- `str.upper` and the `int` of a text. -/
structure TextOps where
  upper : String → String
  int : String → Option ℤ

/-- What they are for ASCII letters and decimal digits. -/
def asciiOps : TextOps where
  upper s := String.ofList (s.toList.map Char.toUpper)
  int s := (Amdgcn.digits 10 0 false s.toList).map fun n : ℕ => (n : ℤ)

section

variable (ops : TextOps)

def isExitSass (sass : String) : Bool :=
  decide ("EXIT".toList <:+: (ops.upper sass).toList) &&
    (Amdgcn.strip sass.toList).getLast? == some ';'

def isExitInstruction (r : TraceRecord) : Bool :=
  match r.fields.get? "sass" with
  | some (.str sass) => sass ≠ "" && isExitSass ops sass
  | _ => false

def warpCompleted (records : List TraceRecord) : Bool := records.any (isExitInstruction ops)

structure WarpSummary where
  total_observed : ℕ
  min_warp_id : ℤ
  max_warp_id : ℤ
  completed_warp_ids : List ℤ
  inprogress_warp_ids : List ℤ
  missing_warp_ids : List ℤ

/-- The lists that `compute_warp_summary` fills. -/
structure WarpIds where
  warp_ids : List ℤ
  completed_ids : List ℤ
  inprogress_ids : List ℤ

/-- One group. A key that is no number is passed over; an infinite one raises. -/
def addGroup (ids : WarpIds) (g : Group (List TraceRecord)) : Except GroupError WarpIds :=
  match PyKey.toInt ops.int g.shown with
  | .error .notANumber => .ok ids
  | .error .overflow => .error .overflow
  | .ok warp =>
    let ids := { ids with warp_ids := ids.warp_ids ++ [warp] }
    .ok <|
      if g.value = [] then ids
      else if warpCompleted ops g.value then { ids with completed_ids := ids.completed_ids ++ [warp] }
      else { ids with inprogress_ids := ids.inprogress_ids ++ [warp] }

/-- `range(0, max_warp + 1)` without the warps observed. -/
def missingIds (max_warp : ℤ) (warp_ids : List ℤ) : List ℤ :=
  ((List.range (max_warp + 1).toNat).map fun i : ℕ => (i : ℤ)).filter fun i => i ∉ warp_ids

/-- `compute_warp_summary`; groups without a warp have no summary. -/
def computeWarpSummary (groups : Groups) : Except GroupError (Option WarpSummary) := do
  let ids ← groups.values.foldlM (addGroup ops) ⟨[], [], []⟩
  match ids.warp_ids with
  | [] => .ok none
  | warp :: warps =>
    let max_warp := warps.foldl max warp
    .ok (some
      { total_observed := ids.warp_ids.length
        min_warp_id := warps.foldl min warp
        max_warp_id := max_warp
        completed_warp_ids := sortOn id ids.completed_ids
        inprogress_warp_ids := sortOn id ids.inprogress_ids
        missing_warp_ids := missingIds max_warp ids.warp_ids })

def WarpSummary.completed (s : WarpSummary) : List IntRanges.Range := IntRanges.merge s.completed_warp_ids

def WarpSummary.inProgress (s : WarpSummary) : List IntRanges.Range := IntRanges.merge s.inprogress_warp_ids

def WarpSummary.missing (s : WarpSummary) : List IntRanges.Range := IntRanges.merge s.missing_warp_ids

end

/-! ### What the summary of some groups says -/

variable {ops : TextOps}

def Group.warp (ops : TextOps) (g : Group (List TraceRecord)) : Option ℤ :=
  (PyKey.toInt ops.int g.shown).toOption

def warpsOf (ops : TextOps) (p : List TraceRecord → Bool) (gs : List (Group (List TraceRecord))) : List ℤ :=
  (gs.filter fun g => p g.value).filterMap (Group.warp ops)

theorem addGroup_ok {g : Group (List TraceRecord)} (hne : g.value ≠ [])
    (hwarp : PyKey.toInt ops.int g.shown ≠ .error .overflow) (ids : WarpIds) :
    addGroup ops ids g = .ok
      { warp_ids := ids.warp_ids ++ warpsOf ops (fun _ => true) [g]
        completed_ids := ids.completed_ids ++ warpsOf ops (warpCompleted ops) [g]
        inprogress_ids := ids.inprogress_ids ++ warpsOf ops (fun rs => !warpCompleted ops rs) [g] } := by
  unfold addGroup warpsOf
  cases h : PyKey.toInt ops.int g.shown with
  | error e =>
    cases e with
    | overflow => exact absurd h hwarp
    | notANumber =>
      have hnone : g.warp ops = none := by rw [Group.warp, h]; rfl
      cases hc : warpCompleted ops g.value <;> simp [hnone, hc]
  | ok warp =>
    have hsome : g.warp ops = some warp := by rw [Group.warp, h]; rfl
    cases hc : warpCompleted ops g.value <;> simp [hsome, hc, hne]

theorem warpsOf_cons (p : List TraceRecord → Bool) (g : Group (List TraceRecord))
    (gs : List (Group (List TraceRecord))) : warpsOf ops p (g :: gs) = warpsOf ops p [g] ++ warpsOf ops p gs := by
  unfold warpsOf
  rw [← List.filterMap_append, ← List.filter_append]
  rfl

theorem foldlM_addGroup {gs : List (Group (List TraceRecord))} (hne : ∀ g ∈ gs, g.value ≠ [])
    (hwarp : ∀ g ∈ gs, PyKey.toInt ops.int g.shown ≠ .error .overflow) (ids : WarpIds) :
    gs.foldlM (addGroup ops) ids = .ok
      { warp_ids := ids.warp_ids ++ warpsOf ops (fun _ => true) gs
        completed_ids := ids.completed_ids ++ warpsOf ops (warpCompleted ops) gs
        inprogress_ids := ids.inprogress_ids ++ warpsOf ops (fun rs => !warpCompleted ops rs) gs } := by
  induction gs generalizing ids with
  | nil => simp [warpsOf]
  | cons g gs ih =>
    obtain ⟨hg, hgs⟩ := List.forall_mem_cons.mp hne
    obtain ⟨hw, hws⟩ := List.forall_mem_cons.mp hwarp
    rw [List.foldlM_cons, addGroup_ok hg hw, ok_bind, ih hgs hws]
    simp only [List.append_assoc, ← warpsOf_cons]

/-- An infinite key raises. -/
theorem foldlM_addGroup_overflow {gs : List (Group (List TraceRecord))} {ids ids' : WarpIds}
    (h : gs.foldlM (addGroup ops) ids = .ok ids') :
    ∀ g ∈ gs, PyKey.toInt ops.int g.shown ≠ .error .overflow := by
  induction gs generalizing ids with
  | nil => intro g hg; cases hg
  | cons g gs ih =>
    rw [List.foldlM_cons] at h
    obtain ⟨mid, hg, hrest⟩ := bind_ok h
    refine List.forall_mem_cons.mpr ⟨fun hover => ?_, ih hrest⟩
    rw [addGroup, hover] at hg
    cases hg

theorem mem_warpsOf {p : List TraceRecord → Bool} {gs : List (Group (List TraceRecord))} {w : ℤ} :
    w ∈ warpsOf ops p gs ↔ ∃ g ∈ gs, p g.value ∧ g.warp ops = some w := by
  simp only [warpsOf, List.mem_filterMap, List.mem_filter, and_assoc]

theorem le_foldl_max {w : ℤ} (x : ℤ) (xs : List ℤ) : w ≤ xs.foldl max x ↔ ∃ y ∈ x :: xs, w ≤ y := by
  induction xs generalizing x with
  | nil => simp
  | cons y ys ih =>
    rw [List.foldl_cons, ih]
    simp only [List.exists_mem_cons_iff, le_max_iff, or_assoc]

theorem mem_missingIds {max_warp w : ℤ} {warps : List ℤ} :
    w ∈ missingIds max_warp warps ↔ (0 ≤ w ∧ w ≤ max_warp) ∧ w ∉ warps := by
  simp only [missingIds, List.mem_filter, List.mem_map, List.mem_range, decide_eq_true_eq]
  refine and_congr_left fun _ => ?_
  constructor
  · rintro ⟨i, hi, rfl⟩
    omega
  · intro h
    exact ⟨w.toNat, by omega, by omega⟩

theorem nodup_missingIds (max_warp : ℤ) (warps : List ℤ) : (missingIds max_warp warps).Nodup := by
  refine List.Nodup.filter _ (List.Nodup.map ?_ List.nodup_range)
  exact fun _ _ h => Int.ofNat_inj.mp h

structure Summarizes (ops : TextOps) (gs : List (Group (List TraceRecord))) (s : WarpSummary) : Prop where
  completed : s.completed_warp_ids = sortOn id (warpsOf ops (warpCompleted ops) gs)
  inProgress : s.inprogress_warp_ids = sortOn id (warpsOf ops (fun rs => !warpCompleted ops rs) gs)
  le_max : ∀ w, w ≤ s.max_warp_id ↔ ∃ v ∈ warpsOf ops (fun _ => true) gs, w ≤ v
  missing : s.missing_warp_ids = missingIds s.max_warp_id (warpsOf ops (fun _ => true) gs)

/-- The summary of groups whose keys are finite. -/
theorem computeWarpSummary_ok {groups : Groups} (hne : ∀ g ∈ groups.values, g.value ≠ [])
    (hwarp : ∀ g ∈ groups.values, PyKey.toInt ops.int g.shown ≠ .error .overflow) :
    ∃ summary, computeWarpSummary ops groups = .ok summary ∧
      (summary = none ↔ warpsOf ops (fun _ => true) groups.values = []) ∧
      ∀ s ∈ summary, Summarizes ops groups.values s := by
  have hfold := foldlM_addGroup hne hwarp ⟨[], [], []⟩
  simp only [List.nil_append] at hfold
  rw [computeWarpSummary, hfold, ok_bind]
  cases hall : warpsOf ops (fun _ => true) groups.values with
  | nil => exact ⟨none, rfl, by simp, fun s hs => by cases hs⟩
  | cons warp warps =>
    refine ⟨_, rfl, by simp, ?_⟩
    rintro s ⟨⟩
    refine ⟨rfl, rfl, fun w => ?_, ?_⟩
    · rw [hall]
      exact le_foldl_max warp warps
    · rw [hall]

namespace Summarizes

open IntRanges

variable {gs : List (Group (List TraceRecord))} {s : WarpSummary} {w : ℤ}

theorem covers_completed (h : Summarizes ops gs s) :
    Covers s.completed w ↔ w ∈ warpsOf ops (warpCompleted ops) gs := by
  rw [WarpSummary.completed, h.completed, merge_covers, mem_sortOn]

theorem covers_inProgress (h : Summarizes ops gs s) :
    Covers s.inProgress w ↔ w ∈ warpsOf ops (fun rs => !warpCompleted ops rs) gs := by
  rw [WarpSummary.inProgress, h.inProgress, merge_covers, mem_sortOn]

theorem covers_missing (h : Summarizes ops gs s) :
    Covers s.missing w ↔ (0 ≤ w ∧ ∃ v ∈ warpsOf ops (fun _ => true) gs, w ≤ v) ∧
      w ∉ warpsOf ops (fun _ => true) gs := by
  rw [WarpSummary.missing, h.missing, merge_covers, mem_missingIds, h.le_max]

theorem separated_completed (h : Summarizes ops gs s) :
    Separated s.completed ↔ (warpsOf ops (warpCompleted ops) gs).Nodup := by
  rw [WarpSummary.completed, h.completed, merge_separated, (sortOn_perm id _).nodup_iff]

theorem separated_inProgress (h : Summarizes ops gs s) :
    Separated s.inProgress ↔ (warpsOf ops (fun rs => !warpCompleted ops rs) gs).Nodup := by
  rw [WarpSummary.inProgress, h.inProgress, merge_separated, (sortOn_perm id _).nodup_iff]

theorem separated_missing (h : Summarizes ops gs s) : Separated s.missing := by
  rw [WarpSummary.missing, h.missing, merge_separated]
  exact nodup_missingIds _ _

end Summarizes

/-- No warp is that of two groups exactly if it is in the list once. -/
theorem nodup_warpsOf_iff {groups : Groups} {p : List TraceRecord → Bool} :
    (warpsOf ops p groups.values).Nodup ↔ ∀ e ∈ groups.entries, ∀ e' ∈ groups.entries,
      p e.2.value → p e'.2.value → ∀ w, e.2.warp ops = some w → e'.2.warp ops = some w → e = e' := by
  have hentries : warpsOf ops p groups.values =
      (groups.entries.filter fun e => p e.2.value).filterMap fun e => e.2.warp ops := by
    rw [warpsOf, Dict.values, List.filter_map, List.filterMap_map]
    rfl
  have hnodup : (groups.entries.filter fun e => p e.2.value).Nodup :=
    (List.Nodup.of_map Prod.fst groups.nodup).filter _
  rw [hentries, List.nodup_iff_pairwise_ne, List.pairwise_filterMap]
  constructor
  · intro h e he e' he' hp hp' w hw hw'
    by_contra hne
    have : Std.Symm fun a b : Json × Group (List TraceRecord) =>
        ∀ x, a.2.warp ops = some x → ∀ y, b.2.warp ops = some y → x ≠ y :=
      ⟨fun a b hab x hx y hy => (hab y hy x hx).symm⟩
    exact h.forall (List.mem_filter.mpr ⟨he, hp⟩) (List.mem_filter.mpr ⟨he', hp'⟩) hne w hw w hw' rfl
  · intro h
    refine hnodup.pairwise_of_forall_ne fun e he e' he' hne w hw w' hw' => ?_
    rintro rfl
    obtain ⟨he, hp⟩ := List.mem_filter.mp he
    obtain ⟨he', hp'⟩ := List.mem_filter.mp he'
    exact hne (h e he e' he' hp hp' w hw hw')

end CuTracer.Query
