import Mathlib.Data.List.Sort

/-! Sorted maps as lists of values with keys. A map is filled in any order and sorted
where it is iterated; with different keys the result does not depend on the order. -/

namespace CuTracer

variable {α κ : Type}

/-- Add a value unless there is one with its key. -/
def emplace [DecidableEq κ] (key : α → κ) (m : List α) (x : α) : List α :=
  if key x ∈ m.map key then m else m ++ [x]

theorem nodup_emplace [DecidableEq κ] {key : α → κ} {m : List α} {x : α}
    (h : (m.map key).Nodup) : ((emplace key m x).map key).Nodup := by
  unfold emplace
  split_ifs with hx
  · exact h
  · rw [List.map_append, List.map_singleton, List.nodup_append]
    refine ⟨h, List.nodup_singleton _, ?_⟩
    rintro k hk l hl rfl
    exact hx (List.mem_singleton.mp hl ▸ hk)

theorem mem_emplace [DecidableEq κ] {key : α → κ} (hkey : Function.Injective key) {m : List α}
    {x y : α} : y ∈ emplace key m x ↔ y ∈ m ∨ y = x := by
  unfold emplace
  split_ifs with hx
  · obtain ⟨z, hz, hzx⟩ := List.mem_map.mp hx
    obtain rfl := hkey hzx
    exact ⟨.inl, fun h => h.elim id fun h => h ▸ hz⟩
  · simp

/-- Emplacing some values one after another. -/
theorem nodup_foldl_emplace [DecidableEq κ] {key : α → κ} (xs : List α) {m : List α}
    (h : (m.map key).Nodup) : ((xs.foldl (emplace key) m).map key).Nodup := by
  induction xs generalizing m with
  | nil => exact h
  | cons x xs ih => exact ih (nodup_emplace h)

theorem mem_foldl_emplace [DecidableEq κ] {key : α → κ} (hkey : Function.Injective key)
    (xs : List α) {m : List α} {y : α} : y ∈ xs.foldl (emplace key) m ↔ y ∈ m ∨ y ∈ xs := by
  induction xs generalizing m with
  | nil => simp
  | cons x xs ih => rw [List.foldl_cons, ih, mem_emplace hkey, List.mem_cons, or_assoc]

/-! ### Sorting by a key -/

section Sorting

variable [LinearOrder κ] {key : α → κ} {xs ys : List α}

/-- Sort by a key, as a sorted map iterates its values. -/
def sortOn (key : α → κ) (xs : List α) : List α :=
  xs.insertionSort fun a b => key a ≤ key b

def IncreasingBy (key : α → κ) (xs : List α) : Prop := xs.Pairwise fun a b => key a < key b

theorem sortOn_perm (key : α → κ) (xs : List α) : (sortOn key xs).Perm xs :=
  List.perm_insertionSort _ xs

@[simp] theorem mem_sortOn {x : α} : x ∈ sortOn key xs ↔ x ∈ xs := (sortOn_perm key xs).mem_iff

@[simp] theorem length_sortOn : (sortOn key xs).length = xs.length :=
  (sortOn_perm key xs).length_eq

theorem IncreasingBy.nodup (h : IncreasingBy key xs) : (xs.map key).Nodup :=
  List.pairwise_map.mpr (List.Pairwise.imp ne_of_lt h)

theorem sortOn_increasing (h : (xs.map key).Nodup) : IncreasingBy key (sortOn key xs) := by
  have : Std.Total fun a b : α => key a ≤ key b := ⟨fun a b => le_total (key a) (key b)⟩
  have : IsTrans α fun a b => key a ≤ key b := ⟨fun _ _ _ => le_trans⟩
  have hle := List.pairwise_insertionSort (fun a b : α => key a ≤ key b) xs
  have hnodup := ((sortOn_perm key xs).map key).nodup_iff.mpr h
  exact hle.imp₂ (fun _ _ hle hne => lt_of_le_of_ne hle hne) (List.pairwise_map.mp hnodup)

theorem sortOn_eq_self (h : IncreasingBy key xs) : sortOn key xs = xs :=
  List.Pairwise.insertionSort_eq (List.Pairwise.imp le_of_lt h)

theorem eq_of_perm_of_increasing (hperm : xs.Perm ys) (hxs : IncreasingBy key xs)
    (hys : IncreasingBy key ys) : xs = ys :=
  List.Perm.eq_of_pairwise (fun _ _ _ _ hab hba => absurd hab (lt_asymm hba)) hxs hys hperm

theorem eq_of_increasing (hxs : IncreasingBy key xs) (hys : IncreasingBy key ys)
    (h : ∀ x, x ∈ xs ↔ x ∈ ys) : xs = ys := by
  apply eq_of_perm_of_increasing _ hxs hys
  rw [List.perm_ext_iff_of_nodup (List.Nodup.of_map key hxs.nodup)
    (List.Nodup.of_map key hys.nodup)]
  exact h

theorem sortOn_congr (hperm : xs.Perm ys) (h : (xs.map key).Nodup) :
    sortOn key xs = sortOn key ys := by
  apply eq_of_perm_of_increasing _ (sortOn_increasing h)
    (sortOn_increasing ((hperm.map key).nodup_iff.mp h))
  exact (sortOn_perm key xs).trans (hperm.trans (sortOn_perm key ys).symm)

end Sorting

end CuTracer
