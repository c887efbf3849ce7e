import CuTracer.Library.Rounding
import Mathlib.Algebra.Order.Field.Power
import Mathlib.Data.Rat.Floor

/-! The values of 32-bit binary floating-point words. Without its sign a word is a number
below `2 ^ 31`, and the value grows strictly with it: the words in order are the values in
order, so that adjacent values have adjacent words. Every finite value is also one of the
64-bit format, and a rounding to words goes to one of the two that bracket its argument. -/

namespace CuTracer.Binary32

open Rounding

/-! ### Words -/

def exponent (word : UInt32) : ℕ := word.toNat / 2 ^ 23 % 2 ^ 8

def fraction (word : UInt32) : ℕ := word.toNat % 2 ^ 23

/-- The value of an exponent and a fraction; the exponent 0 has no implicit one. -/
def magnitude (exponent fraction : ℕ) : ℚ :=
  if exponent = 0 then fraction * 2 ^ (-149 : ℤ)
  else (2 ^ 23 + fraction : ℕ) * 2 ^ ((exponent : ℤ) - 150)

/-- The value of a word that is neither infinite nor a NaN. -/
def value (word : UInt32) : ℚ :=
  if 2 ^ 31 ≤ word.toNat then -magnitude (exponent word) (fraction word)
  else magnitude (exponent word) (fraction word)

/-- Neither infinite nor a NaN. -/
def IsFinite (word : UInt32) : Prop := exponent word ≠ 255

def IsSubnormal (word : UInt32) : Prop := exponent word = 0 ∧ fraction word ≠ 0

instance (word : UInt32) : Decidable (IsFinite word) := by unfold IsFinite; infer_instance

instance (word : UInt32) : Decidable (IsSubnormal word) := by unfold IsSubnormal; infer_instance

def singles : Set ℚ := {x | ∃ word, IsFinite word ∧ value word = x}

/-- The values of the 64-bit format. -/
def doubles : Set ℚ := {x | ∃ m e : ℤ, |m| < 2 ^ 53 ∧ -1074 ≤ e ∧ e ≤ 971 ∧ x = m * 2 ^ e}

/-- Two words with no value between theirs, and `x` between them. -/
structure Bracket (x : ℚ) (lo hi : UInt32) : Prop where
  finite_lo : IsFinite lo
  finite_hi : IsFinite hi
  lt_lo : value lo < x
  lt_hi : x < value hi
  adjacent : ∀ word, IsFinite word → value word ≤ value lo ∨ value hi ≤ value word

/-! ### The order of the values -/

/-- The value of a word without its sign. -/
def term (k : ℕ) : ℚ := magnitude (k / 2 ^ 23) (k % 2 ^ 23)

def units (k : ℕ) : ℕ :=
  if k / 2 ^ 23 = 0 then k % 2 ^ 23 else (2 ^ 23 + k % 2 ^ 23) * 2 ^ (k / 2 ^ 23 - 1)

theorem units_strictMono : StrictMono units := by
  apply strictMono_nat_of_lt_succ
  intro k
  unfold units
  by_cases hcarry : k % 2 ^ 23 + 1 < 2 ^ 23
  · have hdiv : (k + 1) / 2 ^ 23 = k / 2 ^ 23 := by omega
    have hmod : (k + 1) % 2 ^ 23 = k % 2 ^ 23 + 1 := by omega
    rw [hdiv, hmod]
    split_ifs with hzero
    · exact Nat.lt_succ_self _
    · exact Nat.mul_lt_mul_of_pos_right (by omega) (by positivity)
  · have hdiv : (k + 1) / 2 ^ 23 = k / 2 ^ 23 + 1 := by omega
    have hmod : (k + 1) % 2 ^ 23 = 0 := by omega
    have hlast : k % 2 ^ 23 = 2 ^ 23 - 1 := by omega
    rw [hdiv, hmod, hlast, if_neg (Nat.succ_ne_zero _), Nat.add_sub_cancel]
    split_ifs with hzero
    · rw [hzero]
      norm_num
    · obtain ⟨e, he⟩ := Nat.exists_eq_succ_of_ne_zero hzero
      have hpow : 2 ^ e.succ = 2 * 2 ^ e := Nat.pow_succ'
      have hpos : 0 < 2 ^ e := Nat.two_pow_pos e
      rw [he, Nat.succ_sub_one, hpow]
      omega

theorem term_eq_units (k : ℕ) : term k = units k * 2 ^ (-149 : ℤ) := by
  unfold term magnitude units
  split_ifs with hzero
  · rfl
  · obtain ⟨e, he⟩ := Nat.exists_eq_succ_of_ne_zero hzero
    have hexp : ((k / 2 ^ 23 : ℕ) : ℤ) - 150 = (e : ℤ) + -149 := by omega
    rw [hexp, he, Nat.succ_sub_one, zpow_add₀ two_ne_zero, zpow_natCast]
    push_cast
    ring

theorem term_strictMono : StrictMono term := by
  intro j k hjk
  rw [term_eq_units, term_eq_units]
  have hpos : (0 : ℚ) < 2 ^ (-149 : ℤ) := by positivity
  exact mul_lt_mul_of_pos_right (by exact_mod_cast units_strictMono hjk) hpos

theorem term_zero : term 0 = 0 := by
  simp [term, magnitude]

theorem term_nonneg (k : ℕ) : 0 ≤ term k := by
  rw [← term_zero]
  exact term_strictMono.monotone (Nat.zero_le k)

variable {k : ℕ}

theorem term_pos (hk : 0 < k) : 0 < term k := by
  rw [← term_zero]
  exact term_strictMono hk

/-- The greatest finite word without a sign. -/
def maxFinite : ℕ := 0x7f7fffff

/-- The smallest normal word without a sign. -/
def minNormal : ℕ := 0x00800000

theorem term_minNormal : term minNormal = 2 ^ (-126 : ℤ) := by
  unfold term magnitude minNormal
  norm_num

/-! ### Signs -/

def word (negative : Bool) (k : ℕ) : UInt32 := .ofNat (if negative then k + 2 ^ 31 else k)

theorem toNat_word (negative : Bool) (hk : k < 2 ^ 31) :
    (word negative k).toNat = if negative then k + 2 ^ 31 else k := by
  unfold word
  rw [UInt32.toNat_ofNat']
  split_ifs <;> omega

/-- A word is the word of its number and its sign. -/
theorem word_surjective (w : UInt32) : w = word (decide (2 ^ 31 ≤ w.toNat)) (w.toNat % 2 ^ 31) := by
  apply UInt32.toNat_inj.mp
  have hlt := w.toNat_lt
  rw [toNat_word _ (Nat.mod_lt _ (by norm_num))]
  by_cases h : 2 ^ 31 ≤ w.toNat
  · rw [decide_eq_true h, if_pos rfl]
    omega
  · rw [decide_eq_false h, if_neg Bool.false_ne_true]
    omega

theorem exponent_word (negative : Bool) (hk : k < 2 ^ 31) :
    exponent (word negative k) = k / 2 ^ 23 := by
  unfold exponent
  rw [toNat_word negative hk]
  split_ifs <;> omega

theorem fraction_word (negative : Bool) (hk : k < 2 ^ 31) :
    fraction (word negative k) = k % 2 ^ 23 := by
  unfold fraction
  rw [toNat_word negative hk]
  split_ifs <;> omega

theorem value_word (negative : Bool) (hk : k < 2 ^ 31) :
    value (word negative k) = if negative then -term k else term k := by
  unfold value term
  rw [exponent_word negative hk, fraction_word negative hk, toNat_word negative hk]
  cases negative with
  | true => exact (if_pos (Nat.le_add_left _ _)).trans (if_pos rfl).symm
  | false => exact (if_neg (by simpa using hk)).trans (if_neg Bool.false_ne_true).symm

theorem isFinite_word (negative : Bool) (hk : k < 2 ^ 31) :
    IsFinite (word negative k) ↔ k ≤ maxFinite := by
  unfold IsFinite maxFinite
  rw [exponent_word negative hk]
  omega

variable (w : UInt32)

/-- Every word is one of a number and a sign. -/
theorem exists_word : ∃ negative k, k < 2 ^ 31 ∧ w = word negative k :=
  ⟨_, _, Nat.mod_lt _ (by norm_num), word_surjective w⟩

theorem word_of_value {negative : Bool} {w : UInt32} (hk : 0 < k) (hlt : k < 2 ^ 31)
    (h : value w = value (word negative k)) : w = word negative k := by
  obtain ⟨negative', k', hlt', rfl⟩ := exists_word w
  have hpos := term_pos hk
  have hnonneg := term_nonneg k'
  rw [value_word _ hlt, value_word _ hlt'] at h
  cases negative <;> cases negative'
  · simp only [Bool.false_eq_true, if_false] at h
    rw [term_strictMono.injective h]
  · simp only [Bool.false_eq_true, if_false, if_true] at h
    linarith
  · simp only [Bool.false_eq_true, if_false, if_true] at h
    linarith
  · simp only [if_true, neg_inj] at h
    rw [term_strictMono.injective h]

/-- Every finite value is one of the 64-bit format. -/
theorem singles_subset_doubles : singles ⊆ doubles := by
  rintro x ⟨w, hfinite, rfl⟩
  obtain ⟨negative, k, hlt, rfl⟩ := exists_word w
  have hk := (isFinite_word negative hlt).mp hfinite
  unfold maxFinite at hk
  have hterm : term k ∈ doubles := by
    unfold term magnitude
    split_ifs with hzero
    · refine ⟨(k % 2 ^ 23 : ℕ), -149, ?_, by norm_num, by norm_num, by rw [Int.cast_natCast]⟩
      rw [Nat.abs_cast]
      omega
    · refine ⟨(2 ^ 23 + k % 2 ^ 23 : ℕ), (k / 2 ^ 23 : ℕ) - 150, ?_, by omega, by omega,
        by rw [Int.cast_natCast]⟩
      rw [Nat.abs_cast]
      omega
  rw [value_word negative hlt]
  cases negative with
  | false => exact hterm
  | true =>
    obtain ⟨m, e, hm, hlo, hhi, hx⟩ := hterm
    refine ⟨-m, e, by rwa [abs_neg], hlo, hhi, ?_⟩
    rw [if_pos rfl, hx]
    push_cast
    ring

/-! ### Roundings to words -/

def flip : UInt32 := word (decide (w.toNat < 2 ^ 31)) (w.toNat % 2 ^ 31)

theorem flip_word (negative : Bool) (hk : k < 2 ^ 31) :
    flip (word negative k) = word (!negative) k := by
  unfold flip
  rw [toNat_word negative hk]
  cases negative with
  | false =>
    rw [if_neg Bool.false_ne_true, decide_eq_true hk, Nat.mod_eq_of_lt hk]
    rfl
  | true =>
    have hmod : (k + 2 ^ 31) % 2 ^ 31 = k := by omega
    rw [if_pos rfl, decide_eq_false (by omega), hmod]
    rfl

theorem value_flip : value (flip w) = -value w := by
  obtain ⟨negative, k, hlt, rfl⟩ := exists_word w
  rw [flip_word negative hlt, value_word _ hlt, value_word _ hlt]
  cases negative <;> simp

theorem flip_flip : flip (flip w) = w := by
  obtain ⟨negative, k, hlt, rfl⟩ := exists_word w
  rw [flip_word negative hlt, flip_word _ hlt, Bool.not_not]

theorem isFinite_flip : IsFinite (flip w) ↔ IsFinite w := by
  obtain ⟨negative, k, hlt, rfl⟩ := exists_word w
  rw [flip_word negative hlt, isFinite_word _ hlt, isFinite_word _ hlt]

def range : Set ℚ := Set.Icc (-term maxFinite) (term maxFinite)

def RoundsTo (pack : ℚ → UInt32) : Prop := IsRounding range singles (value ∘ pack)

theorem term_mem_singles (hk : k ≤ maxFinite) : term k ∈ singles := by
  have hlt : k < 2 ^ 31 := by unfold maxFinite at hk; omega
  exact ⟨word false k, (isFinite_word false hlt).mpr hk, value_word false hlt⟩

theorem term_mem_range (hk : k ≤ maxFinite) : term k ∈ range :=
  ⟨(neg_nonpos.mpr (term_nonneg _)).trans (term_nonneg k), term_strictMono.monotone hk⟩

theorem neg_mem_range {x : ℚ} (hx : x ∈ range) : -x ∈ range :=
  ⟨neg_le_neg hx.2, neg_le.mp hx.1⟩

/-- Between two consecutive numbers is no other value. -/
theorem adjacent_terms {w : UInt32} (hk : 0 < k) : value w ≤ term k ∨ term (k + 1) ≤ value w := by
  obtain ⟨negative, j, hlt, rfl⟩ := exists_word w
  rw [value_word negative hlt]
  have hj := term_nonneg j
  have hpos := term_pos hk
  cases negative with
  | true => exact .inl (by rw [if_pos rfl]; linarith)
  | false =>
    rw [if_neg Bool.false_ne_true, term_strictMono.le_iff_le, term_strictMono.le_iff_le]
    omega

/-- A positive value between two consecutive numbers is bracketed by their words. -/
theorem bracket_pos {x : ℚ} (hk : 0 < k) (hmax : k < maxFinite) (hlt : term k < x)
    (hgt : x < term (k + 1)) : Bracket x (word false k) (word false (k + 1)) := by
  unfold maxFinite at hmax
  have hk' : k < 2 ^ 31 := by omega
  have hk'' : k + 1 < 2 ^ 31 := by omega
  refine ⟨(isFinite_word _ hk').mpr (by unfold maxFinite; omega),
    (isFinite_word _ hk'').mpr (by unfold maxFinite; omega), ?_, ?_, fun w _ => ?_⟩
  · rwa [value_word _ hk', if_neg Bool.false_ne_true]
  · rwa [value_word _ hk'', if_neg Bool.false_ne_true]
  · rw [value_word _ hk', value_word _ hk'', if_neg Bool.false_ne_true, if_neg Bool.false_ne_true]
    exact adjacent_terms hk

theorem Bracket.flip {x : ℚ} {lo hi : UInt32} (h : Bracket x lo hi) :
    Bracket (-x) (flip hi) (Binary32.flip lo) := by
  refine ⟨(isFinite_flip hi).mpr h.finite_hi, (isFinite_flip lo).mpr h.finite_lo, ?_, ?_,
    fun w hw => ?_⟩
  · rw [value_flip]
    exact neg_lt_neg h.lt_hi
  · rw [value_flip]
    exact neg_lt_neg h.lt_lo
  · rw [value_flip, value_flip]
    have hadjacent := h.adjacent (Binary32.flip w) ((isFinite_flip w).mpr hw)
    rw [value_flip] at hadjacent
    rcases hadjacent with hle | hle
    · exact .inr (neg_le.mp hle)
    · exact .inl (le_neg.mp hle)

/-- Of a rounding, the rounding on the other side of zero. -/
theorem RoundsTo.flip {pack : ℚ → UInt32} (h : RoundsTo pack) :
    RoundsTo fun x => flip (pack (-x)) := by
  constructor
  · intro x hx y hy hxy
    show value (Binary32.flip (pack (-x))) ≤ value (Binary32.flip (pack (-y)))
    rw [value_flip, value_flip]
    exact neg_le_neg (h.monotoneOn (neg_mem_range hy) (neg_mem_range hx) (neg_le_neg hxy))
  · rintro x hx ⟨w, hw, rfl⟩
    show value (Binary32.flip (pack (-value w))) = value w
    have hfixes : value (pack (-value w)) = -value w :=
      h.fixes _ (neg_mem_range hx) ⟨Binary32.flip w, (isFinite_flip w).mpr hw, value_flip w⟩
    rw [value_flip, hfixes, neg_neg]

/-- A number's value goes to its word. -/
theorem RoundsTo.pack_term {pack : ℚ → UInt32} (h : RoundsTo pack) (hk : 0 < k)
    (hmax : k ≤ maxFinite) : pack (term k) = word false k := by
  have hlt : k < 2 ^ 31 := by unfold maxFinite at hmax; omega
  apply word_of_value hk hlt
  rw [value_word _ hlt, if_neg Bool.false_ne_true]
  exact h.fixes _ (term_mem_range hmax) (term_mem_singles hmax)

/-- A value between two consecutive numbers goes to the word of one of them. -/
theorem RoundsTo.pack_between {pack : ℚ → UInt32} (h : RoundsTo pack) {x : ℚ} (hk : 0 < k)
    (hmax : k < maxFinite) (hlt : term k < x) (hgt : x < term (k + 1)) :
    pack x = word false k ∨ pack x = word false (k + 1) := by
  have hk' : k < 2 ^ 31 := by unfold maxFinite at hmax; omega
  have hk'' : k + 1 < 2 ^ 31 := by unfold maxFinite at hmax; omega
  have hx : x ∈ range :=
    ⟨((term_mem_range hmax.le).1.trans hlt.le), hgt.le.trans (term_mem_range hmax).2⟩
  obtain ⟨hle, hge⟩ := h.mem_Icc (term_mem_range hmax.le) hx (term_mem_range hmax)
    (term_mem_singles hmax.le) (term_mem_singles hmax) hlt.le hgt.le
  rcases adjacent_terms (w := pack x) hk with hlo | hhi
  · exact .inl (word_of_value hk hk' (by
      rw [value_word _ hk', if_neg Bool.false_ne_true]; exact le_antisymm hlo hle))
  · exact .inr (word_of_value (Nat.succ_pos k) hk'' (by
      rw [value_word _ hk'', if_neg Bool.false_ne_true]; exact le_antisymm hge hhi))

/-! ### Truncation -/

/-- Towards zero, to the greatest number whose value is not above the argument. -/
def truncate (x : ℚ) : UInt32 := word (decide (x < 0)) (floorIndex term maxFinite |x|)

theorem value_truncate (x : ℚ) :
    value (truncate x) = if x < 0 then -term (floorIndex term maxFinite |x|)
      else term (floorIndex term maxFinite |x|) := by
  have hlt : floorIndex term maxFinite |x| < 2 ^ 31 :=
    floorIndex_le.trans_lt (by norm_num [maxFinite])
  rw [truncate, value_word _ hlt]
  simp only [decide_eq_true_eq]

theorem truncate_roundsTo : RoundsTo truncate := by
  constructor
  · intro x _ y _ hxy
    show value (truncate x) ≤ value (truncate y)
    rw [value_truncate, value_truncate]
    have hx := term_nonneg (floorIndex term maxFinite |x|)
    have hy := term_nonneg (floorIndex term maxFinite |y|)
    split_ifs with hx0 hy0 hy0
    · rw [abs_of_neg hx0, abs_of_neg hy0]
      exact neg_le_neg (term_strictMono.monotone (floorIndex_mono (neg_le_neg hxy)))
    · linarith
    · linarith
    · rw [abs_of_nonneg (not_lt.mp hx0), abs_of_nonneg (not_lt.mp hy0)]
      exact term_strictMono.monotone (floorIndex_mono hxy)
  · rintro x _ ⟨w, hw, rfl⟩
    show value (truncate (value w)) = value w
    obtain ⟨negative, k, hlt, rfl⟩ := exists_word w
    have hk := (isFinite_word negative hlt).mp hw
    have habs : |value (word negative k)| = term k := by
      rw [value_word _ hlt]
      cases negative
      · exact abs_of_nonneg (term_nonneg k)
      · exact (abs_neg _).trans (abs_of_nonneg (term_nonneg k))
    rw [value_truncate, habs, floorIndex_term term_strictMono hk, value_word _ hlt]
    have hnonneg := term_nonneg k
    cases negative with
    | false => exact if_neg (not_lt.mpr hnonneg)
    | true =>
      rw [if_pos rfl]
      split_ifs with hneg
      · rfl
      · linarith

end CuTracer.Binary32
