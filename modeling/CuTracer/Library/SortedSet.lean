import Mathlib.Data.List.Dedup
import Mathlib.Data.List.Sort

/-! `sorted(set(xs))`: the elements of a list, each once, in increasing order. -/

namespace CuTracer

variable {α : Type*} [LinearOrder α] {x : α} {xs : List α}

def sortedSet (xs : List α) : List α := xs.dedup.insertionSort (· ≤ ·)

theorem mem_sortedSet : x ∈ sortedSet xs ↔ x ∈ xs := by
  rw [sortedSet, (List.perm_insertionSort _ _).mem_iff, List.mem_dedup]

theorem sortedSet_nodup (xs : List α) : (sortedSet xs).Nodup :=
  (List.perm_insertionSort _ _).nodup_iff.mpr xs.nodup_dedup

theorem sortedSet_pairwise (xs : List α) : (sortedSet xs).Pairwise (· < ·) := by
  have hle : (sortedSet xs).Pairwise (· ≤ ·) := List.pairwise_insertionSort (· ≤ ·) xs.dedup
  have hne : (sortedSet xs).Pairwise (· ≠ ·) := sortedSet_nodup xs
  exact (hle.and hne).imp fun h => lt_of_le_of_ne h.1 h.2

end CuTracer
