import Mathlib.Data.List.Sort

/-! The halving search of a table in order. A probe compares an entry of the table with
the key; an entry that is too small has only such entries before it, one that is too
large only such entries after it. -/

namespace CuTracer.BinarySearch

/-- Is some entry of `[first, last)` the key? -/
def search (probe : ℕ → Ordering) (first last : ℕ) : Bool :=
  if first < last then
    match probe (first + (last - first) / 2) with
    | .eq => true
    | .lt => search probe (first + (last - first) / 2 + 1) last
    | .gt => search probe first (first + (last - first) / 2)
  else false
termination_by last - first

/-- The entries before `last` are in order, as the probe sees them. -/
structure Ordered (probe : ℕ → Ordering) (last : ℕ) : Prop where
  lt : ∀ i j, i < j → j < last → probe j = .lt → probe i = .lt
  gt : ∀ i j, i < j → j < last → probe i = .gt → probe j = .gt

variable {probe : ℕ → Ordering} {first last : ℕ}

theorem Ordered.mono {last' : ℕ} (h : Ordered probe last) (hle : last' ≤ last) :
    Ordered probe last' :=
  ⟨fun i j hij hj => h.lt i j hij (by omega), fun i j hij hj => h.gt i j hij (by omega)⟩

theorem search_iff (h : Ordered probe last) :
    search probe first last = true ↔ ∃ i, first ≤ i ∧ i < last ∧ probe i = .eq := by
  fun_induction search probe first last with
  | case1 first last hlt heq => exact iff_of_true rfl ⟨_, by omega, by omega, heq⟩
  | case2 first last hlt hprobe ih =>
    rw [ih h]
    constructor
    · rintro ⟨i, hi, hlast, heq⟩
      exact ⟨i, by omega, hlast, heq⟩
    · rintro ⟨i, hi, hlast, heq⟩
      refine ⟨i, ?_, hlast, heq⟩
      -- an entry up to the middle one is too small as well
      by_contra hle
      rcases Nat.lt_or_ge i (first + (last - first) / 2) with hbefore | hafter
      · rw [h.lt i _ hbefore (by omega) hprobe] at heq
        cases heq
      · rw [show i = first + (last - first) / 2 by omega, hprobe] at heq
        cases heq
  | case3 first last hlt hprobe ih =>
    rw [ih (h.mono (by omega))]
    constructor
    · rintro ⟨i, hi, hlast, heq⟩
      exact ⟨i, hi, by omega, heq⟩
    · rintro ⟨i, hi, hlast, heq⟩
      refine ⟨i, hi, ?_, heq⟩
      by_contra hge
      rcases Nat.lt_or_ge (first + (last - first) / 2) i with hafter | hbefore
      · rw [h.gt _ i hafter hlast hprobe] at heq
        cases heq
      · rw [show i = first + (last - first) / 2 by omega, hprobe] at heq
        cases heq
  | case4 first last hlt =>
    exact iff_of_false (by simp) fun ⟨i, hi, hlast, _⟩ => hlt (by omega)

/-! ### Tables in order -/

section Table

variable {α : Type*} [LinearOrder α]

/-- What the probe says past the end of the table is never asked. -/
def probeAt (xs : List α) (key : α) (i : ℕ) : Ordering :=
  match xs[i]? with
  | some x => compare x key
  | none => .gt

/-- `std::binary_search`. -/
def binarySearch (xs : List α) (key : α) : Bool := search (probeAt xs key) 0 xs.length

theorem ordered_probeAt {xs : List α} (h : xs.Pairwise (· < ·)) (key : α) :
    Ordered (probeAt xs key) xs.length := by
  rw [List.pairwise_iff_getElem] at h
  constructor
  · intro i j hij hj hlt
    rw [probeAt, List.getElem?_eq_getElem hj, compare_lt_iff_lt] at hlt
    rw [probeAt, List.getElem?_eq_getElem (hij.trans hj), compare_lt_iff_lt]
    exact (h i j _ hj hij).trans hlt
  · intro i j hij hj hgt
    rw [probeAt, List.getElem?_eq_getElem (hij.trans hj), compare_gt_iff_gt] at hgt
    rw [probeAt, List.getElem?_eq_getElem hj, compare_gt_iff_gt]
    exact hgt.trans (h i j _ hj hij)

theorem probeAt_eq {xs : List α} {key : α} {i : ℕ} : probeAt xs key i = .eq ↔ xs[i]? = some key := by
  unfold probeAt
  split
  case h_1 x hx => rw [compare_eq_iff_eq, hx, Option.some.injEq]
  case h_2 hx => simp [hx]

theorem binarySearch_iff {xs : List α} (h : xs.Pairwise (· < ·)) (key : α) :
    binarySearch xs key = true ↔ key ∈ xs := by
  rw [binarySearch, search_iff (ordered_probeAt h key), List.mem_iff_getElem?]
  constructor
  · rintro ⟨i, -, -, hi⟩
    exact ⟨i, probeAt_eq.mp hi⟩
  · rintro ⟨i, hi⟩
    exact ⟨i, Nat.zero_le _, (List.getElem?_eq_some_iff.mp hi).1, probeAt_eq.mpr hi⟩

end Table

end CuTracer.BinarySearch
