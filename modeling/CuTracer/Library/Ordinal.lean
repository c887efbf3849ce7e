import Mathlib.Data.List.Basic

/-! Numbering the matches of a list. The ordinal of a place is the number of
matches before it; filtering moves a match to the index that its ordinal names,
and an observer who misses some matches numbers the rest too low by the number
of those missed so far. -/

namespace CuTracer.Ordinal

variable {α : Type*} {p seen : α → Bool} {a : α} {xs : List α}

/-- The number of matches before a place. -/
def before (p : α → Bool) (xs : List α) (i : ℕ) : ℕ := (xs.take i).countP p

@[simp] theorem before_zero : before p xs 0 = 0 := by simp [before]

theorem before_cons_of_pos (ha : p a = true) (i : ℕ) :
    before p (a :: xs) (i + 1) = before p xs i + 1 := by
  rw [before, List.take_succ_cons, List.countP_cons_of_pos ha, before]

theorem before_cons_of_neg (ha : ¬ p a = true) (i : ℕ) :
    before p (a :: xs) (i + 1) = before p xs i := by
  rw [before, List.take_succ_cons, List.countP_cons_of_neg ha, before]

theorem before_congr {q : α → Bool} (h : ∀ x ∈ xs, p x = q x) (i : ℕ) :
    before p xs i = before q xs i :=
  List.countP_congr fun x hx => by rw [h x (List.mem_of_mem_take hx)]

/-- A match sits in the filtered list at its ordinal. -/
theorem getElem?_filter_before {i : ℕ} {x : α} (hx : xs[i]? = some x) (hp : p x = true) :
    (xs.filter p)[before p xs i]? = some x := by
  induction xs generalizing i with
  | nil => simp at hx
  | cons a xs ih =>
    cases i with
    | zero =>
      obtain rfl : a = x := by simpa using hx
      simp [List.filter_cons_of_pos hp]
    | succ i =>
      have hrest := ih (i := i) (by simpa using hx)
      by_cases ha : p a = true
      · rw [List.filter_cons_of_pos ha, before_cons_of_pos ha, List.getElem?_cons_succ]
        exact hrest
      · rw [List.filter_cons_of_neg ha, before_cons_of_neg ha]
        exact hrest

/-- What sits in the filtered list is a match whose ordinal is its index. -/
theorem exists_of_getElem?_filter {n : ℕ} {x : α} (h : (xs.filter p)[n]? = some x) :
    ∃ i, xs[i]? = some x ∧ p x = true ∧ n = before p xs i := by
  induction xs generalizing n with
  | nil => simp at h
  | cons a xs ih =>
    by_cases ha : p a = true
    · rw [List.filter_cons_of_pos ha] at h
      cases n with
      | zero =>
        obtain rfl : a = x := by simpa using h
        exact ⟨0, by simp, ha, by simp⟩
      | succ n =>
        obtain ⟨i, hi, hp, rfl⟩ := ih (by simpa using h)
        exact ⟨i + 1, by simpa using hi, hp, (before_cons_of_pos ha i).symm⟩
    · rw [List.filter_cons_of_neg ha] at h
      obtain ⟨i, hi, hp, rfl⟩ := ih h
      exact ⟨i + 1, by simpa using hi, hp, (before_cons_of_neg ha i).symm⟩

/-- With a label that tells places apart, the index of a match is its ordinal. -/
theorem idxOf_label {label : α → ℕ} (hlabel : ∀ i x, xs[i]? = some x → label x = i) {i : ℕ} {x : α}
    (hx : xs[i]? = some x) (hp : p x = true) :
    ((xs.filter p).map label).idxOf i = before p xs i := by
  have hmem : i ∈ (xs.filter p).map label := by
    rw [← hlabel i x hx]
    exact List.mem_map_of_mem (List.mem_filter.mpr ⟨List.mem_of_getElem? hx, hp⟩)
  have hget := List.getElem?_eq_getElem (List.idxOf_lt_length_of_mem hmem)
  rw [List.getElem_idxOf, List.getElem?_map, Option.map_eq_some_iff] at hget
  obtain ⟨y, hy, hyi⟩ := hget
  obtain ⟨j, hj, -, hn⟩ := exists_of_getElem?_filter hy
  obtain rfl : j = i := (hlabel j y hj).symm.trans hyi
  exact hn

/-- The true ordinal is the observed one plus the number missed. -/
theorem before_eq_add_missed (h : ∀ x ∈ xs, seen x = true → p x = true) (i : ℕ) :
    before p xs i = before seen xs i + before (fun x => p x && !seen x) xs i := by
  induction xs generalizing i with
  | nil => simp [before]
  | cons a xs ih =>
    cases i with
    | zero => simp
    | succ i =>
      have hrest := ih (fun x hx => h x (List.mem_cons_of_mem a hx)) i
      by_cases hs : seen a = true
      · have hp := h a List.mem_cons_self hs
        rw [before_cons_of_pos hp, before_cons_of_pos hs, before_cons_of_neg (by simp [hs]), hrest]
        omega
      · by_cases hp : p a = true
        · rw [before_cons_of_pos hp, before_cons_of_neg hs, before_cons_of_pos (by simp [hp, hs]),
            hrest]
          omega
        · rw [before_cons_of_neg hp, before_cons_of_neg hs, before_cons_of_neg (by simp [hp]), hrest]

end CuTracer.Ordinal
