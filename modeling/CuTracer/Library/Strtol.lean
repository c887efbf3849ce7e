import Mathlib.Data.Nat.Digits.Defs
import Mathlib.Tactic.IntervalCases

/-! Numbers as the C library reads them: blanks, a sign, a base and as many digits as there
are. What overflows is clamped, and the text after the digits is handed back. -/

namespace CuTracer.Strtol

/-- `isspace` in the C locale. -/
def isSpace (c : Char) : Bool := c = ' ' || (9 ≤ c.toNat && c.toNat ≤ 13)

def digit (base : ℕ) (c : Char) : Option ℕ :=
  let n := c.toNat
  let d :=
    if 48 ≤ n ∧ n ≤ 57 then n - 48
    else if 97 ≤ n ∧ n ≤ 122 then n - 87
    else if 65 ≤ n ∧ n ≤ 90 then n - 55
    else base
  if d < base then some d else none

/-- The value of all leading digits and the text after them. -/
def digits (base : ℕ) : ℕ → List Char → ℕ × List Char
  | acc, [] => (acc, [])
  | acc, c :: cs =>
    match digit base c with
    | some d => digits base (acc * base + d) cs
    | none => (acc, c :: cs)

/-- The base that a prefix stands for, and the text after a hexadecimal one. -/
def autoBase : List Char → ℕ × List Char
  | '0' :: x :: c :: cs =>
    if (x = 'x' ∨ x = 'X') ∧ (digit 16 c).isSome then (16, c :: cs) else (8, '0' :: x :: c :: cs)
  | '0' :: cs => (8, '0' :: cs)
  | cs => (10, cs)

/-- A number without its sign; base 0 takes the base from the text. -/
def magnitude (base : ℕ) (text : List Char) : Option (ℕ × List Char) :=
  let start := if base = 0 then autoBase text else (base, text)
  match start.2 with
  | [] => none
  | c :: cs => if (digit start.1 c).isSome then some (digits start.1 0 (c :: cs)) else none

/-- Whether a number is negative, its magnitude and the text after it. -/
def number (base : ℕ) (text : List Char) : Option (Bool × ℕ × List Char) :=
  match text.dropWhile isSpace with
  | '-' :: cs => (magnitude base cs).map fun m => (true, m)
  | '+' :: cs => (magnitude base cs).map fun m => (false, m)
  | cs => (magnitude base cs).map fun m => (false, m)

/-- `strtoull`, with the text it leaves; `none` where there is no number. -/
def strtoull (base : ℕ) (text : List Char) : Option (UInt64 × List Char) :=
  (number base text).map fun m =>
    (if 2 ^ 64 ≤ m.2.1 then UInt64.ofNat (2 ^ 64 - 1)
      else if m.1 then -UInt64.ofNat m.2.1 else UInt64.ofNat m.2.1, m.2.2)

/-- The number of `strtoull`, zero where there is none. -/
def unsigned (base : ℕ) (text : List Char) : UInt64 := ((strtoull base text).map Prod.fst).getD 0

/-- `atoi`: a number clamped to 64 bits and cut to 32. -/
def atoi (text : List Char) : Int32 :=
  match number 10 text with
  | none => 0
  | some (negative, m, _) =>
    Int32.ofInt (if negative then max (-(m : ℤ)) (-2 ^ 63) else min (m : ℤ) (2 ^ 63 - 1))

/-! ### Numbers that are written out -/

section Written

variable {base : ℕ}

theorem digit_digitChar {n : ℕ} (hbase : base ≤ 16) (hn : n < base) :
    digit base n.digitChar = some n := by
  have h16 : n < 16 := by omega
  have htoNat : n.digitChar.toNat = if n < 10 then 48 + n else 87 + n := by
    interval_cases n <;> rfl
  unfold digit
  simp only [htoNat]
  by_cases h10 : n < 10
  · have hdigit : 48 ≤ 48 + n ∧ 48 + n ≤ 57 := by omega
    simp only [h10, if_true, hdigit, and_self, Nat.add_sub_cancel_left, hn]
  · have hletter : ¬(48 ≤ 87 + n ∧ 87 + n ≤ 57) ∧ 97 ≤ 87 + n ∧ 87 + n ≤ 122 := by omega
    simp only [h10, if_false, hletter, and_self, if_true, Nat.add_sub_cancel_left, hn]

theorem digits_append {ds : List Char} (h : ∀ c ∈ ds, (digit base c).isSome) (acc : ℕ)
    (cs : List Char) : digits base acc (ds ++ cs) = digits base (digits base acc ds).1 cs := by
  induction ds generalizing acc with
  | nil => rfl
  | cons c ds ih =>
    obtain ⟨d, hd⟩ := Option.isSome_iff_exists.mp (h c (by simp))
    rw [List.cons_append, digits, digits, hd]
    exact ih (fun c' hc' => h c' (by simp [hc'])) _

theorem digit_of_mem_toDigits (hbase : 1 < base) (hle : base ≤ 16) {n : ℕ} {c : Char}
    (hc : c ∈ Nat.toDigits base n) : (digit base c).isSome := by
  induction n using Nat.strong_induction_on with
  | _ n ih =>
    by_cases h : n < base
    · rw [Nat.toDigits_of_lt_base h, List.mem_singleton] at hc
      rw [hc, digit_digitChar hle h]
      rfl
    · rw [Nat.toDigits_of_base_le hbase (by omega), List.mem_append] at hc
      rcases hc with hc | hc
      · exact ih (n / base) (Nat.div_lt_self (by omega) hbase) hc
      · rw [List.mem_singleton.mp hc, digit_digitChar hle (Nat.mod_lt _ (by omega))]
        rfl

theorem digits_toDigits (hbase : 1 < base) (hle : base ≤ 16) (n : ℕ) :
    digits base 0 (Nat.toDigits base n) = (n, []) := by
  induction n using Nat.strong_induction_on with
  | _ n ih =>
    by_cases h : n < base
    · rw [Nat.toDigits_of_lt_base h]
      simp only [digits, digit_digitChar hle h, Nat.zero_mul, Nat.zero_add]
    · have hmod : n % base < base := Nat.mod_lt _ (by omega)
      rw [Nat.toDigits_of_base_le hbase (by omega),
        digits_append (fun c hc => digit_of_mem_toDigits hbase hle hc),
        ih (n / base) (Nat.div_lt_self (by omega) hbase)]
      simp only [digits, digit_digitChar hle hmod, Nat.div_add_mod']

theorem toDigits_cons (hbase : 1 < base) (hle : base ≤ 16) (n : ℕ) :
    ∃ c cs, Nat.toDigits base n = c :: cs ∧ (digit base c).isSome := by
  cases h : Nat.toDigits base n with
  | nil => exact absurd h Nat.toDigits_ne_nil
  | cons c cs => exact ⟨c, cs, rfl, digit_of_mem_toDigits hbase hle (h ▸ List.mem_cons_self)⟩

theorem magnitude_toDigits (hbase : 1 < base) (hle : base ≤ 16) (n : ℕ) :
    magnitude base (Nat.toDigits base n) = some (n, []) := by
  obtain ⟨c, cs, hcs, hc⟩ := toDigits_cons hbase hle n
  have hvalue := digits_toDigits hbase hle n
  rw [hcs] at hvalue ⊢
  have hzero : base ≠ 0 := by omega
  simp only [magnitude, hzero, if_false, hc, if_true, hvalue]

theorem magnitude_hex (n : ℕ) : magnitude 0 ('0' :: 'x' :: Nat.toDigits 16 n) = some (n, []) := by
  obtain ⟨c, cs, hcs, hc⟩ := toDigits_cons (by decide : 1 < 16) (by decide) n
  have hvalue := digits_toDigits (by decide : 1 < 16) (by decide) n
  rw [hcs] at hvalue ⊢
  simp only [magnitude, if_true, autoBase, true_or, hc, and_self, hvalue]

/-- A text that starts with a digit has neither blanks nor a sign. -/
theorem number_of_digit {c : Char} {cs : List Char} (hc : (digit base c).isSome) (b : ℕ) :
    number b (c :: cs) = (magnitude b (c :: cs)).map fun m => (false, m) := by
  have hspace : isSpace c = false := by
    have hn : 48 ≤ c.toNat := by
      unfold digit at hc
      by_contra h
      have h97 : ¬97 ≤ c.toNat := by omega
      have h65 : ¬65 ≤ c.toNat := by omega
      simp [h, h97, h65] at hc
    have hblank : c ≠ ' ' := by
      rintro rfl
      exact absurd hn (by decide)
    have hcontrol : ¬c.toNat ≤ 13 := by omega
    simp [isSpace, hblank, hcontrol]
  have hminus : c ≠ '-' := by
    rintro rfl
    simp [digit] at hc
  have hplus : c ≠ '+' := by
    rintro rfl
    simp [digit] at hc
  rw [number, List.dropWhile_cons, hspace]
  simp only [Bool.false_eq_true, if_false]
  split
  · rename_i h
    exact absurd (List.cons.inj h).1 hminus
  · rename_i h
    exact absurd (List.cons.inj h).1 hplus
  · rfl

/-- `strtoull(hex, &end, 0)`. -/
theorem strtoull_hex {n : ℕ} (h : n < 2 ^ 64) :
    strtoull 0 ('0' :: 'x' :: Nat.toDigits 16 n) = some (UInt64.ofNat n, []) := by
  rw [strtoull, @number_of_digit 10 '0' _ rfl, magnitude_hex]
  simp only [Option.map_some, Bool.false_eq_true, if_false]
  rw [if_neg (by omega)]

theorem unsigned_hex {n : ℕ} (h : n < 2 ^ 64) :
    unsigned 0 ('0' :: 'x' :: Nat.toDigits 16 n) = UInt64.ofNat n := by
  rw [unsigned, strtoull_hex h]
  rfl

/-- `strtoull(decimal, NULL, 10)`. -/
theorem unsigned_toDigits {n : ℕ} (h : n < 2 ^ 64) :
    unsigned 10 (Nat.toDigits 10 n) = UInt64.ofNat n := by
  obtain ⟨c, cs, hcs, hc⟩ := toDigits_cons (by decide : 1 < 10) (by decide) n
  have hvalue := magnitude_toDigits (by decide : 1 < 10) (by decide) n
  rw [hcs] at hvalue ⊢
  rw [unsigned, strtoull, number_of_digit hc, hvalue]
  simp only [Option.map_some, Bool.false_eq_true, if_false, Option.getD_some]
  rw [if_neg (by omega)]

theorem atoi_toDigits {n : ℕ} (h : n < 2 ^ 63) : atoi (Nat.toDigits 10 n) = Int32.ofInt n := by
  obtain ⟨c, cs, hcs, hc⟩ := toDigits_cons (by decide : 1 < 10) (by decide) n
  have hvalue := magnitude_toDigits (by decide : 1 < 10) (by decide) n
  rw [hcs] at hvalue ⊢
  rw [atoi, number_of_digit hc, hvalue]
  simp only [Option.map_some, Bool.false_eq_true, if_false]
  congr 1
  omega

end Written

end CuTracer.Strtol
