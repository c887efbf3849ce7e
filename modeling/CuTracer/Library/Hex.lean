import Mathlib.Data.Nat.Digits.Defs
import Mathlib.Tactic.IntervalCases

/-! Lowercase hexadecimal digits and the numbers they write. -/

namespace CuTracer

def hexDigit (c : Char) : ℕ := if c.isDigit then c.toNat - 48 else c.toNat - 87

/-- The number some lowercase hexadecimal digits write. -/
def hexValue (digits : List Char) : ℕ := digits.foldl (fun n c => 16 * n + hexDigit c) 0

def isHexDigit (c : Char) : Bool := ('0' ≤ c && c ≤ '9') || ('a' ≤ c && c ≤ 'f')

theorem hexDigit_digitChar {n : ℕ} (h : n < 16) : hexDigit n.digitChar = n := by
  interval_cases n <;> rfl

theorem isHexDigit_digitChar {n : ℕ} (h : n < 16) : isHexDigit n.digitChar = true := by
  interval_cases n <;> rfl

theorem hexValue_append (ds es : List Char) :
    hexValue (ds ++ es) = es.foldl (fun n c => 16 * n + hexDigit c) (hexValue ds) :=
  List.foldl_append

theorem hexValue_toDigits (n : ℕ) : hexValue (Nat.toDigits 16 n) = n := by
  induction n using Nat.strong_induction_on with
  | _ n ih =>
    by_cases h : n < 16
    · rw [Nat.toDigits_of_lt_base h]
      simp [hexValue, hexDigit_digitChar h]
    · have hmod : n % 16 < 16 := Nat.mod_lt _ (by omega)
      rw [Nat.toDigits_of_base_le (by omega) (by omega), hexValue_append, ih (n / 16) (by omega)]
      simp only [List.foldl_cons, List.foldl_nil, hexDigit_digitChar hmod]
      omega

theorem isHexDigit_of_mem_toDigits {n : ℕ} {c : Char} (hc : c ∈ Nat.toDigits 16 n) :
    isHexDigit c = true := by
  induction n using Nat.strong_induction_on with
  | _ n ih =>
    by_cases h : n < 16
    · rw [Nat.toDigits_of_lt_base h, List.mem_singleton] at hc
      rw [hc]
      exact isHexDigit_digitChar h
    · rw [Nat.toDigits_of_base_le (by omega) (by omega), List.mem_append] at hc
      rcases hc with hc | hc
      · exact ih (n / 16) (by omega) hc
      · rw [List.mem_singleton.mp hc]
        exact isHexDigit_digitChar (Nat.mod_lt _ (by omega))

end CuTracer
