import CuTracer.Library.Binary32
import CuTracer.Library.Fallible
import Mathlib.Data.Finset.Insert

/-! The exact check of packed FP32 results. The result of one half is computed in rational
numbers from the words that the instruction read, and the words around it are found from
the one that Python's conversions give: to a double first and then to a single. Both
conversions are parameters, monotone roundings that fix what their format represents; which
way they break ties does not show in the words that are allowed. -/

namespace CuTracer.Amdgcn.Packed

open Binary32 (value exponent fraction IsFinite IsSubnormal Bracket RoundsTo maxFinite minNormal term
  word range doubles)

/-- The keys of `PACKED_F32`. -/
inductive Opcode where
  | vPkAddF32
  | vPkMulF32
  | vPkFmaF32
  deriving DecidableEq

/-- `PACKED_F32`: the source VGPR pairs each opcode reads. -/
def Opcode.sources : Opcode → ℕ
  | .vPkAddF32 => 2
  | .vPkMulF32 => 2
  | .vPkFmaF32 => 3

inductive Error where
  | indexError
  deriving DecidableEq

def fp32 (word : UInt32) : ℚ := value word

/-- `_exact`. -/
def exactOf (word : UInt32) : Option ℚ :=
  let magnitude := word &&& 0x7fffffff
  if magnitude ≠ 0 ∧ ¬(0x00800000 ≤ magnitude ∧ magnitude < 0x7f800000) then none
  else some (fp32 word)

/-- `values[i]`. -/
def item (values : List ℚ) (i : ℕ) : Except Error ℚ :=
  match values[i]? with
  | some v => .ok v
  | none => .error .indexError

def exactResult (opcode : Opcode) (values : List ℚ) : Except Error ℚ :=
  match opcode with
  | .vPkAddF32 => do return (← item values 0) + (← item values 1)
  | .vPkMulF32 => do return (← item values 0) * (← item values 1)
  | .vPkFmaF32 => do return (← item values 0) * (← item values 1) + (← item values 2)

section Allowed

variable (float : ℚ → ℚ) (pack : ℚ → UInt32)

/-- The words around an exact result, from the one that it is converted to. -/
def bracketing (exact : ℚ) : Finset ℤ :=
  let nearest := pack (float exact)
  let rounded := fp32 nearest
  if rounded = exact then {(nearest.toNat : ℤ)}
  else
    let toward : ℤ := if rounded < exact then 1 else -1
    {(nearest.toNat : ℤ), nearest.toNat + if nearest >>> 31 ≠ 0 then -toward else toward}

def allowedOf (exact : ℚ) : Option (Finset ℤ) :=
  if exact = 0 then some {0, 0x80000000}
  else if ¬(2 ^ (-126 : ℤ) ≤ |exact| ∧ |exact| ≤ fp32 0x7f7fffff) then none
  else some (bracketing float pack exact)

def allowedResults (opcode : Opcode) (words : List UInt32) : Except Error (Option (Finset ℤ)) :=
  match words.mapM exactOf with
  | none => .ok none
  | some values => do return allowedOf float pack (← exactResult opcode values)

end Allowed

/-! ### Words and their values -/

def Special (word : UInt32) : Prop := IsSubnormal word ∨ ¬IsFinite word

instance (word : UInt32) : Decidable (Special word) := by unfold Special; infer_instance

theorem toNat_magnitude (word : UInt32) : (word &&& 0x7fffffff).toNat = word.toNat % 2 ^ 31 := by
  rw [UInt32.toNat_and]
  exact Nat.and_two_pow_sub_one_eq_mod _ 31

theorem exactOf_eq (word : UInt32) : exactOf word = if Special word then none else some (fp32 word) := by
  have hspecial : ((word &&& 0x7fffffff) ≠ 0 ∧
      ¬(0x00800000 ≤ (word &&& 0x7fffffff) ∧ (word &&& 0x7fffffff) < 0x7f800000)) ↔ Special word := by
    have hlt := word.toNat_lt
    rw [Ne, ← UInt32.toNat_inj, UInt32.le_iff_toNat_le, UInt32.lt_iff_toNat_lt, toNat_magnitude]
    unfold Special IsSubnormal IsFinite exponent fraction
    simp only [UInt32.toNat_ofNat]
    norm_num
    omega
  unfold exactOf
  exact if_congr hspecial rfl rfl

theorem mapM_exactOf {words : List UInt32} (h : ∀ w ∈ words, ¬Special w) :
    words.mapM exactOf = some (words.map fp32) := by
  induction words with
  | nil => rfl
  | cons w words ih =>
    have hw : exactOf w = some (fp32 w) := by
      rw [exactOf_eq, if_neg (h w List.mem_cons_self)]
    rw [List.mapM_cons, hw, ih fun v hv => h v (List.mem_cons_of_mem w hv)]
    rfl

theorem mapM_exactOf_special {words : List UInt32} {w : UInt32} (hw : w ∈ words) (h : Special w) :
    words.mapM exactOf = none := by
  induction words with
  | nil => cases hw
  | cons v words ih =>
    rw [List.mapM_cons, exactOf_eq]
    split_ifs with hv
    · rfl
    · rcases List.mem_cons.mp hw with rfl | hw
      · exact absurd h hv
      · rw [ih hw]
        rfl

def exactValue (opcode : Opcode) (words : List UInt32) : ℚ :=
  match opcode with
  | .vPkAddF32 => value (words.getD 0 0) + value (words.getD 1 0)
  | .vPkMulF32 => value (words.getD 0 0) * value (words.getD 1 0)
  | .vPkFmaF32 => value (words.getD 0 0) * value (words.getD 1 0) + value (words.getD 2 0)

theorem item_map {words : List UInt32} {i : ℕ} (h : i < words.length) :
    item (words.map fp32) i = .ok (value (words.getD i 0)) := by
  unfold item
  rw [List.getElem?_map, List.getD_eq_getElem?_getD, List.getElem?_eq_getElem h]
  rfl

theorem exactResult_map {opcode : Opcode} {words : List UInt32} (h : opcode.sources ≤ words.length) :
    exactResult opcode (words.map fp32) = .ok (exactValue opcode words) := by
  cases opcode with
  | vPkAddF32 =>
    have h' : 2 ≤ words.length := h
    simp only [exactResult, item_map (show 0 < words.length by omega),
      item_map (show 1 < words.length by omega)]
    rfl
  | vPkMulF32 =>
    have h' : 2 ≤ words.length := h
    simp only [exactResult, item_map (show 0 < words.length by omega),
      item_map (show 1 < words.length by omega)]
    rfl
  | vPkFmaF32 =>
    have h' : 3 ≤ words.length := h
    simp only [exactResult, item_map (show 0 < words.length by omega),
      item_map (show 1 < words.length by omega), item_map (show 2 < words.length by omega)]
    rfl

/-! ### The words around an exact result -/

theorem shift_word (negative : Bool) {k : ℕ} (hk : k < 2 ^ 31) :
    word negative k >>> 31 ≠ 0 ↔ negative = true := by
  have hshift : (word negative k >>> 31).toNat = (word negative k).toNat / 2 ^ 31 := by
    rw [UInt32.toNat_shiftRight, Nat.shiftRight_eq_div_pow]
    rfl
  rw [Ne, ← UInt32.toNat_inj, hshift, Binary32.toNat_word negative hk]
  cases negative with
  | false => simpa using hk
  | true => simp

variable {float : ℚ → ℚ} {pack : ℚ → UInt32}

def signed (negative : Bool) (x : ℚ) : ℚ := if negative then -x else x

theorem value_word_signed (negative : Bool) {k : ℕ} (hk : k < 2 ^ 31) :
    value (word negative k) = signed negative (term k) := Binary32.value_word negative hk

variable {negative : Bool}

/-- The conversion of a number that is represented. -/
theorem bracketing_term {k : ℕ} (hk : k < 2 ^ 31)
    (h : pack (float (signed negative (term k))) = word negative k) :
    bracketing float pack (signed negative (term k)) = {((word negative k).toNat : ℤ)} := by
  unfold bracketing fp32
  rw [h]
  exact if_pos (value_word_signed negative hk)

/-- The conversion to the number towards zero. -/
theorem bracketing_lower {k : ℕ} {x : ℚ} (hk : k + 1 < 2 ^ 31) (hlt : term k < x)
    (h : pack (float (signed negative x)) = word negative k) :
    bracketing float pack (signed negative x) =
      {((word negative k).toNat : ℤ), ((word negative (k + 1)).toNat : ℤ)} := by
  have hk' : k < 2 ^ 31 := by omega
  unfold bracketing fp32
  simp only [h, value_word_signed negative hk', shift_word negative hk', Binary32.toNat_word negative hk',
    Binary32.toNat_word negative hk]
  cases negative with
  | false =>
    simp only [signed, Bool.false_eq_true, if_false]
    rw [if_neg hlt.ne, if_pos hlt]
    rfl
  | true =>
    simp only [signed, if_true]
    rw [if_neg (neg_injective.ne hlt.ne), if_neg (not_lt.mpr (neg_le_neg hlt.le))]
    push_cast
    ring_nf

/-- The conversion to the number away from zero. -/
theorem bracketing_upper {k : ℕ} {x : ℚ} (hk : k + 1 < 2 ^ 31) (hgt : x < term (k + 1))
    (h : pack (float (signed negative x)) = word negative (k + 1)) :
    bracketing float pack (signed negative x) =
      {((word negative k).toNat : ℤ), ((word negative (k + 1)).toNat : ℤ)} := by
  have hk' : k < 2 ^ 31 := by omega
  unfold bracketing fp32
  simp only [h, value_word_signed negative hk, shift_word negative hk, Binary32.toNat_word negative hk',
    Binary32.toNat_word negative hk]
  rw [Finset.pair_comm]
  cases negative with
  | false =>
    simp only [signed, Bool.false_eq_true, if_false]
    rw [if_neg hgt.ne', if_neg (not_lt.mpr hgt.le)]
    push_cast
    ring_nf
  | true =>
    simp only [signed, if_true]
    rw [if_neg (neg_injective.ne hgt.ne'), if_pos (neg_lt_neg hgt)]
    push_cast
    ring_nf

/-- The two conversions: rationals to doubles, and doubles to singles. -/
structure Conversions (float : ℚ → ℚ) (pack : ℚ → UInt32) : Prop where
  float : Rounding.IsRounding range doubles float
  pack : RoundsTo pack

/-- Rounding to a double first does not pass a single. -/
theorem Conversions.roundsTo (h : Conversions float pack) : RoundsTo (pack ∘ float) := by
  have hmax : maxFinite < 2 ^ 31 := by norm_num [maxFinite]
  have hhi := Binary32.term_mem_singles (le_refl maxFinite)
  have hlo : -term maxFinite ∈ Binary32.singles :=
    ⟨word true maxFinite, (Binary32.isFinite_word _ hmax).mpr le_rfl, Binary32.value_word _ hmax⟩
  exact h.pack.comp h.float Binary32.singles_subset_doubles hlo hhi

theorem pack_signed {p : ℚ → UInt32} (h : RoundsTo p) (negative : Bool) :
    ∃ p', RoundsTo p' ∧ ∀ x k, k < 2 ^ 31 → p' x = word false k → p (signed negative x) = word negative k := by
  cases negative with
  | false => exact ⟨p, h, fun _ _ _ hx => hx⟩
  | true =>
    refine ⟨_, h.flip, fun x k hk hx => ?_⟩
    have hflip := congrArg Binary32.flip hx
    rw [Binary32.flip_flip, Binary32.flip_word _ hk] at hflip
    exact hflip

structure Allows (exact : ℚ) (results : Finset ℤ) : Prop where
  zero : exact = 0 → results = {0, 0x80000000}
  represented : exact ≠ 0 → ∀ w, IsFinite w → value w = exact → results = {(w.toNat : ℤ)}
  between : exact ≠ 0 → (∀ w, IsFinite w → value w ≠ exact) →
    ∃ lo hi, Bracket exact lo hi ∧ results = {(lo.toNat : ℤ), (hi.toNat : ℤ)}

theorem signed_ne_zero {x : ℚ} (h : 0 < x) : signed negative x ≠ 0 := by
  cases negative
  · exact h.ne'
  · exact neg_ne_zero.mpr h.ne'

theorem bracket_signed {x : ℚ} {k : ℕ} (hk : 0 < k) (hmax : k < maxFinite) (hlt : term k < x)
    (hgt : x < term (k + 1)) :
    ∃ lo hi, Bracket (signed negative x) lo hi ∧
      ({((word negative k).toNat : ℤ), ((word negative (k + 1)).toNat : ℤ)} : Finset ℤ) =
        {(lo.toNat : ℤ), (hi.toNat : ℤ)} := by
  have hk' : k < 2 ^ 31 := by unfold maxFinite at hmax; omega
  have hk'' : k + 1 < 2 ^ 31 := by unfold maxFinite at hmax; omega
  have hbracket := Binary32.bracket_pos hk hmax hlt hgt
  cases negative with
  | false => exact ⟨_, _, hbracket, rfl⟩
  | true =>
    have hflip := hbracket.flip
    rw [Binary32.flip_word _ hk', Binary32.flip_word _ hk''] at hflip
    exact ⟨_, _, hflip, Finset.pair_comm _ _⟩

/-- The words of a result in the range of the normal values. -/
theorem allows_bracketing (h : Conversions float pack) {x : ℚ} (hlo : term minNormal ≤ x)
    (hhi : x ≤ term maxFinite) :
    Allows (signed negative x) (bracketing float pack (signed negative x)) := by
  have hpos : 0 < x := (Binary32.term_pos (by norm_num [minNormal])).trans_le hlo
  obtain ⟨p, hp, hsigned⟩ := pack_signed h.roundsTo negative
  have hmax : maxFinite < 2 ^ 31 := by norm_num [maxFinite]
  rcases Rounding.exists_between Binary32.term_strictMono hlo hhi with
    ⟨k, hmk, hkn, rfl⟩ | ⟨k, hmk, hkn, hlt, hgt⟩
  · -- the value is a number's
    have hk : 0 < k := lt_of_lt_of_le (by norm_num [minNormal]) hmk
    have hk' : k < 2 ^ 31 := hkn.trans_lt hmax
    have hword := hsigned _ k hk' (hp.pack_term hk hkn)
    refine ⟨fun h0 => absurd h0 (signed_ne_zero hpos), fun _ w _ hw => ?_, fun _ hno => ?_⟩
    · have hw' := Binary32.word_of_value hk hk' (hw.trans (value_word_signed negative hk').symm)
      rw [bracketing_term hk' hword, hw']
    · exact absurd (value_word_signed negative hk') (hno _ ((Binary32.isFinite_word _ hk').mpr hkn))
  · -- the value is between two numbers
    have hk : 0 < k := lt_of_lt_of_le (by norm_num [minNormal]) hmk
    have hk' : k + 1 < 2 ^ 31 := lt_of_le_of_lt hkn hmax
    obtain ⟨lo, hi, hbracket, hpair⟩ := bracket_signed hk hkn hlt hgt
    have hresult : bracketing float pack (signed negative x) = {(lo.toNat : ℤ), (hi.toNat : ℤ)} := by
      rw [← hpair]
      rcases hp.pack_between hk hkn hlt hgt with hword | hword
      · exact bracketing_lower hk' hlt (hsigned _ _ (by omega) hword)
      · exact bracketing_upper hk' hgt (hsigned _ _ hk' hword)
    refine ⟨fun h0 => absurd h0 (signed_ne_zero hpos), fun _ w hw heq => ?_,
      fun _ _ => ⟨lo, hi, hbracket, hresult⟩⟩
    rcases hbracket.adjacent w hw with hle | hle
    · exact absurd heq (hle.trans_lt hbracket.lt_lo).ne
    · exact absurd heq (hbracket.lt_hi.trans_le hle).ne'

/-- The inputs and the result that are not checked. -/
def Refused (opcode : Opcode) (words : List UInt32) : Prop :=
  (∃ w ∈ words, Special w) ∨
    (exactValue opcode words ≠ 0 ∧
      (|exactValue opcode words| < 2 ^ (-126 : ℤ) ∨ value 0x7f7fffff < |exactValue opcode words|))

theorem value_maxFinite : value 0x7f7fffff = term maxFinite :=
  Binary32.value_word false (by norm_num [maxFinite])

theorem allowedOf_eq_none {exact : ℚ} :
    allowedOf float pack exact = none ↔
      exact ≠ 0 ∧ (|exact| < 2 ^ (-126 : ℤ) ∨ value 0x7f7fffff < |exact|) := by
  unfold allowedOf fp32
  split_ifs with hzero hrange
  · simp [hzero]
  · simp only [ne_eq, false_iff, not_and_or, not_or, not_lt]
    exact .inr hrange
  · rw [not_and_or, not_le, not_le] at hrange
    exact iff_of_true rfl ⟨hzero, hrange⟩

theorem allows_allowedOf (h : Conversions float pack) {exact : ℚ}
    (hrange : ¬(exact ≠ 0 ∧ (|exact| < 2 ^ (-126 : ℤ) ∨ value 0x7f7fffff < |exact|))) :
    ∃ results, allowedOf float pack exact = some results ∧ Allows exact results := by
  unfold allowedOf fp32
  split_ifs with hzero hnot
  · exact ⟨_, rfl, fun _ => rfl, fun hne => absurd hzero hne, fun hne => absurd hzero hne⟩
  · rw [value_maxFinite, ← Binary32.term_minNormal] at hnot
    obtain ⟨negative, hsigned⟩ : ∃ negative, exact = signed negative |exact| := by
      rcases lt_or_ge exact 0 with hneg | hnonneg
      · exact ⟨true, by rw [signed, if_pos rfl, abs_of_neg hneg, neg_neg]⟩
      · exact ⟨false, (abs_of_nonneg hnonneg).symm⟩
    have hallows : Allows (signed negative |exact|) (bracketing float pack (signed negative |exact|)) :=
      allows_bracketing h hnot.1 hnot.2
    rw [← hsigned] at hallows
    exact ⟨_, rfl, hallows⟩
  · rw [not_and_or, not_le, not_le] at hnot
    exact absurd ⟨hzero, hnot⟩ hrange

/-- Nothing is checked exactly for special inputs and results out of the normal range; otherwise
the words are both zeros, the word of the exact result, or the two words around it. -/
theorem allowedResults_exact (h : Conversions float pack) (opcode : Opcode) (words : List UInt32)
    (hsources : opcode.sources ≤ words.length) :
    (allowedResults float pack opcode words = .ok none ↔ Refused opcode words) ∧
      (¬Refused opcode words →
        ∃ results, allowedResults float pack opcode words = .ok (some results) ∧
          Allows (exactValue opcode words) results) := by
  unfold allowedResults Refused
  by_cases hspecial : ∃ w ∈ words, Special w
  · obtain ⟨w, hw, hbad⟩ := hspecial
    rw [mapM_exactOf_special hw hbad]
    exact ⟨iff_of_true rfl (.inl ⟨w, hw, hbad⟩), fun hno => absurd (.inl ⟨w, hw, hbad⟩) hno⟩
  · have hnormal : ∀ w ∈ words, ¬Special w := fun w hw hbad => hspecial ⟨w, hw, hbad⟩
    rw [mapM_exactOf hnormal]
    simp only [exactResult_map hsources, ok_bind, pure_ok, hspecial, false_or]
    constructor
    · rw [Except.ok.injEq, allowedOf_eq_none]
    · intro hrange
      obtain ⟨results, hsome, hallows⟩ := allows_allowedOf h hrange
      exact ⟨results, congrArg _ hsome, hallows⟩

/-- Exact doubles and truncation to singles. -/
theorem conversions_truncate : Conversions id Binary32.truncate :=
  ⟨.id, Binary32.truncate_roundsTo⟩

/-- `1 + 2 ^ -24` is a double and lies between two singles, of which truncation gives the even one. -/
theorem allowedResults_exact_one_add :
    ∃ results, allowedResults id Binary32.truncate .vPkAddF32 [0x3f800000, 0x33800000] =
        .ok (some results) ∧ Allows (1 + 2 ^ (-24 : ℤ)) results := by
  have hone : value 0x3f800000 = 1 :=
    (Binary32.value_word false (k := 0x3f800000) (by norm_num)).trans
      (by norm_num [term, Binary32.magnitude])
  have hsmall : value 0x33800000 = 2 ^ (-24 : ℤ) :=
    (Binary32.value_word false (k := 0x33800000) (by norm_num)).trans
      (by norm_num [term, Binary32.magnitude])
  have hvalue : exactValue .vPkAddF32 [0x3f800000, 0x33800000] = 1 + 2 ^ (-24 : ℤ) := by
    rw [← hone, ← hsmall]
    rfl
  have hspecial : ¬∃ w ∈ [0x3f800000, 0x33800000], Special w := by decide
  have hmax : (2 : ℚ) ≤ value 0x7f7fffff := by
    rw [value_maxFinite]
    norm_num [term, Binary32.magnitude, maxFinite]
  have hrefused : ¬Refused .vPkAddF32 [0x3f800000, 0x33800000] := by
    unfold Refused
    rw [hvalue]
    rintro (hbad | ⟨-, hlow | hlarge⟩)
    · exact hspecial hbad
    · norm_num [abs_of_pos] at hlow
    · rw [abs_of_pos (by positivity)] at hlarge
      have : (1 : ℚ) + 2 ^ (-24 : ℤ) ≤ 2 := by norm_num
      linarith
  have hexact := (allowedResults_exact conversions_truncate .vPkAddF32 [0x3f800000, 0x33800000]
    (by decide)).2 hrefused
  rwa [hvalue] at hexact

end CuTracer.Amdgcn.Packed
