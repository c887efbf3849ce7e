import Mathlib.Algebra.BigOperators.Group.List.Basic
import Mathlib.Algebra.GroupWithZero.Nat

/-! Admission to a budget, one item after another. An item that would exceed nothing is
admitted and uses what it needs; any other is deferred and uses nothing. Whatever is
counted this way stays within every cap that a violated constraint stands for. -/

namespace CuTracer

/-- The decision about an item: what it would exceed, and what is used after it. -/
structure Admission (α Constraint Usage : Type) where
  target : α
  constraints : List Constraint
  usage : Usage

namespace Admission

variable {α Constraint Usage : Type}

def admitted (d : Admission α Constraint Usage) : Bool := d.constraints.isEmpty

/-- Decide the items in order. -/
def each (constraints : Usage → α → List Constraint) (use : Usage → α → Usage) :
    Usage → List α → List (Admission α Constraint Usage)
  | _, [] => []
  | usage, x :: xs =>
    let exceeded := constraints usage x
    let usage := if exceeded.isEmpty then use usage x else usage
    ⟨x, exceeded, usage⟩ :: each constraints use usage xs

def targets (ds : List (Admission α Constraint Usage)) : List α :=
  (ds.filter admitted).map target

variable {constraints : Usage → α → List Constraint} {use : Usage → α → Usage}

@[simp] theorem map_target_each (usage : Usage) (xs : List α) :
    (each constraints use usage xs).map target = xs := by
  induction xs generalizing usage with
  | nil => rfl
  | cons x xs ih => rw [each, List.map_cons, ih]

/-- The first item is admitted and used, or passed over. -/
theorem targets_each_cons (usage : Usage) (x : α) (xs : List α) :
    targets (each constraints use usage (x :: xs)) =
      if constraints usage x = [] then x :: targets (each constraints use (use usage x) xs)
      else targets (each constraints use usage xs) := by
  split_ifs with h
  · simp [each, targets, admitted, List.filter_cons, h]
  · simp [each, targets, admitted, h]

theorem mem_targets {ds : List (Admission α Constraint Usage)} {x : α} :
    x ∈ targets ds ↔ ∃ d ∈ ds, d.target = x ∧ d.admitted = true := by
  simp only [targets, List.mem_map, List.mem_filter]
  constructor
  · rintro ⟨d, ⟨hd, ha⟩, rfl⟩
    exact ⟨d, hd, rfl, ha⟩
  · rintro ⟨d, hd, rfl, ha⟩
    exact ⟨d, ⟨hd, ha⟩, rfl⟩

/-- Where nothing is exceeded, everything is admitted. -/
theorem admitted_of_unlimited (h : ∀ u x, constraints u x = []) {usage : Usage} {xs : List α}
    {d : Admission α Constraint Usage} (hd : d ∈ each constraints use usage xs) :
    d.admitted = true := by
  induction xs generalizing usage with
  | nil => cases hd
  | cons x xs ih =>
    rcases List.mem_cons.mp hd with rfl | hd
    · simp [admitted, h]
    · exact ih hd

/-- What the admitted items need in all, on top of what was used, stays within a cap
that no admission crosses. -/
theorem sum_le_cap (measure : Usage → ℕ) (need : α → ℕ) {cap : ℕ} (usage : Usage) (xs : List α)
    (huse : ∀ u x, measure (use u x) = measure u + need x)
    (hcap : ∀ u x, constraints u x = [] → measure u + need x ≤ cap)
    (hstart : measure usage ≤ cap) :
    measure usage + ((targets (each constraints use usage xs)).map need).sum ≤ cap := by
  induction xs generalizing usage with
  | nil => exact hstart
  | cons x xs ih =>
    rw [targets_each_cons]
    split_ifs with h
    · rw [List.map_cons, List.sum_cons, ← Nat.add_assoc, ← huse]
      apply ih
      rw [huse]
      exact hcap usage x h
    · exact ih usage hstart

/-- An item is decided about by what the admitted items before it use. -/
theorem constraints_of_split (measure : Usage → ℕ) (need : α → ℕ)
    (huse : ∀ u x, measure (use u x) = measure u + need x) {usage : Usage} {xs : List α}
    {passed rest : List (Admission α Constraint Usage)} {d : Admission α Constraint Usage}
    (h : each constraints use usage xs = passed ++ d :: rest) :
    ∃ u, d.constraints = constraints u d.target ∧
      measure u = measure usage + ((targets passed).map need).sum := by
  induction passed generalizing usage xs with
  | nil =>
    cases xs with
    | nil => cases h
    | cons x xs =>
      obtain ⟨rfl, -⟩ := List.cons.inj h
      exact ⟨usage, rfl, rfl⟩
  | cons p passed ih =>
    cases xs with
    | nil => cases h
    | cons x xs =>
      obtain ⟨rfl, hrest⟩ := List.cons.inj h
      obtain ⟨u, hu, hmeasure⟩ := ih hrest
      refine ⟨u, hu, hmeasure.trans ?_⟩
      cases hexceeded : constraints usage x with
      | nil => simp [targets, List.filter_cons, admitted, huse, Nat.add_assoc]
      | cons c cs => simp [targets, admitted]

end Admission

end CuTracer
