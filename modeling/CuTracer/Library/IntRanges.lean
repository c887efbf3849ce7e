import CuTracer.Library.SortedMap
import Mathlib.Algebra.Order.Ring.Int

/-! Integers merged into ranges. The ranges cover the integers they are made from; they are maximal,
with a gap before the next one, exactly if no integer was there twice. -/

namespace CuTracer.IntRanges

abbrev Range := ℤ × ℤ

def Range.has (r : Range) (i : ℤ) : Prop := r.1 ≤ i ∧ i ≤ r.2

instance (r : Range) (i : ℤ) : Decidable (r.has i) := inferInstanceAs (Decidable (_ ∧ _))

def Covers (ranges : List Range) (i : ℤ) : Prop := ∃ r ∈ ranges, r.has i

/-- Each range ends before a gap. -/
def Separated (ranges : List Range) : Prop := ranges.Pairwise fun r s => r.2 + 1 < s.1

/-- No two ranges share an integer. -/
def Apart (ranges : List Range) : Prop := ranges.Pairwise fun r s => ∀ i, ¬(r.has i ∧ s.has i)

theorem Separated.apart {ranges : List Range} (h : Separated ranges) : Apart ranges := by
  refine List.Pairwise.imp ?_ h
  rintro r s hgap i ⟨⟨-, hr⟩, ⟨hs, -⟩⟩
  omega

theorem covers_append {xs ys : List Range} {i : ℤ} : Covers (xs ++ ys) i ↔ Covers xs i ∨ Covers ys i := by
  simp only [Covers, List.mem_append, or_and_right, exists_or]

theorem Apart.append {xs ys : List Range} (hxs : Apart xs) (hys : Apart ys)
    (h : ∀ i, Covers xs i → ¬Covers ys i) : Apart (xs ++ ys) := by
  refine List.pairwise_append.mpr ⟨hxs, hys, ?_⟩
  rintro r hr s hs i ⟨hri, hsi⟩
  exact h i ⟨r, hr, hri⟩ ⟨s, hs, hsi⟩

/-- The ranges of sorted integers, after the range from `start` to `stop`. -/
def extend (start stop : ℤ) : List ℤ → List Range
  | [] => [(start, stop)]
  | i :: is => if i = stop + 1 then extend start i is else (start, stop) :: extend i i is

variable (ids : List ℤ)

def merge : List Range :=
  match sortOn id ids with
  | [] => []
  | i :: is => extend i i is

variable {start stop i : ℤ} {is : List ℤ}

theorem extend_covers (hle : start ≤ stop) :
    Covers (extend start stop is) i ↔ (start ≤ i ∧ i ≤ stop) ∨ i ∈ is := by
  induction is generalizing start stop with
  | nil => simp [extend, Covers, Range.has]
  | cons j is ih =>
    rw [extend]
    split_ifs with hj
    · rw [ih (by omega), List.mem_cons]
      constructor
      · rintro (⟨h1, h2⟩ | h)
        · omega
        · exact .inr (.inr h)
      · rintro (⟨h1, h2⟩ | rfl | h)
        · exact .inl (by omega)
        · exact .inl (by omega)
        · exact .inr h
    · have hcons : Covers ((start, stop) :: extend j j is) i ↔
          (start ≤ i ∧ i ≤ stop) ∨ Covers (extend j j is) i := List.exists_mem_cons_iff _ _ _
      rw [hcons, ih (le_refl j), List.mem_cons]
      refine or_congr Iff.rfl (or_congr ?_ Iff.rfl)
      exact ⟨fun h => le_antisymm h.2 h.1, fun h => ⟨h.ge, h.le⟩⟩

theorem extend_start (start stop : ℤ) (is : List ℤ) :
    ∃ stop' rest, extend start stop is = (start, stop') :: rest := by
  induction is generalizing stop with
  | nil => exact ⟨stop, [], rfl⟩
  | cons j is ih =>
    rw [extend]
    split_ifs
    · exact ih j
    · exact ⟨stop, _, rfl⟩

theorem le_of_mem_extend {r : Range} (hsorted : (start :: is).Pairwise (· ≤ ·)) (hr : r ∈ extend start stop is) :
    start ≤ r.1 := by
  induction is generalizing start stop with
  | nil =>
    obtain rfl := List.mem_singleton.mp hr
    exact le_rfl
  | cons j is ih =>
    obtain ⟨hhead, htail⟩ := List.pairwise_cons.mp hsorted
    rw [extend] at hr
    split_ifs at hr
    · refine ih (List.pairwise_cons.mpr ⟨fun k hk => hhead k (List.mem_cons_of_mem j hk), ?_⟩) hr
      exact (List.pairwise_cons.mp htail).2
    · obtain rfl | hr := List.mem_cons.mp hr
      · exact le_rfl
      · exact (hhead j List.mem_cons_self).trans (ih htail hr)

theorem extend_separated (hsorted : (stop :: is).Pairwise (· ≤ ·)) :
    Separated (extend start stop is) ↔ (stop :: is).Nodup := by
  induction is generalizing start stop with
  | nil => simp [extend, Separated]
  | cons j is ih =>
    obtain ⟨hhead, htail⟩ := List.pairwise_cons.mp hsorted
    have hj := hhead j List.mem_cons_self
    rw [extend]
    split_ifs with hnext
    · rw [ih htail, List.nodup_cons (a := stop)]
      refine (and_iff_right ?_).symm
      rintro hmem
      obtain rfl | hmem := List.mem_cons.mp hmem
      · omega
      · have := (List.pairwise_cons.mp htail).1 stop hmem
        omega
    · rw [Separated, List.pairwise_cons, ← Separated, ih htail, List.nodup_cons (a := stop)]
      refine and_congr_left fun _ => ?_
      constructor
      · intro hgap hmem
        obtain ⟨stop', rest, hextend⟩ := extend_start j j is
        have hlt := hgap (j, stop') (hextend ▸ List.mem_cons_self)
        obtain rfl | hmem := List.mem_cons.mp hmem
        · exact absurd hlt (by omega)
        · have := (List.pairwise_cons.mp htail).1 stop hmem
          exact absurd hlt (by omega)
      · intro hmem r hr
        have hne : stop ≠ j := fun h => hmem (h ▸ List.mem_cons_self)
        have := le_of_mem_extend htail hr
        omega

theorem sorted_sortOn : (sortOn id ids).Pairwise (· ≤ ·) := by
  have : Std.Total fun a b : ℤ => id a ≤ id b := ⟨fun a b => le_total a b⟩
  have : IsTrans ℤ fun a b => id a ≤ id b := ⟨fun _ _ _ => le_trans⟩
  exact List.pairwise_insertionSort (fun a b : ℤ => id a ≤ id b) ids

/-- The ranges cover the integers. -/
theorem merge_covers (i : ℤ) : Covers (merge ids) i ↔ i ∈ ids := by
  have hmem : i ∈ sortOn id ids ↔ i ∈ ids := mem_sortOn
  rw [← hmem]
  unfold merge
  cases sortOn id ids with
  | nil => simp [Covers]
  | cons j js =>
    rw [extend_covers le_rfl, List.mem_cons]
    refine or_congr ?_ Iff.rfl
    exact ⟨fun h => le_antisymm h.2 h.1, fun h => ⟨h.ge, h.le⟩⟩

/-- They are maximal unless an integer was there twice. -/
theorem merge_separated : Separated (merge ids) ↔ ids.Nodup := by
  rw [← (sortOn_perm id ids).nodup_iff]
  have hsorted := sorted_sortOn ids
  unfold merge
  cases h : sortOn id ids with
  | nil => simp [Separated]
  | cons j js => exact extend_separated (h ▸ hsorted)

end CuTracer.IntRanges
