import Mathlib.Data.Int.Notation
import Mathlib.Data.Nat.Notation

/-! The text of one AMDGPU instruction: opcode, operands and modifiers, register
names and integer immediates. -/

namespace CuTracer.Amdgcn

abbrev Text := List Char

/-! ### Strings -/

/-- What `str.strip` and `str.split` take for white space. -/
def isSpace (c : Char) : Bool :=
  let n := c.toNat
  (9 ≤ n && n ≤ 13) || (28 ≤ n && n ≤ 32) || (0x2000 ≤ n && n ≤ 0x200a) ||
    [0x85, 0xa0, 0x1680, 0x2028, 0x2029, 0x202f, 0x205f, 0x3000].contains n

def strip (s : Text) : Text := ((s.dropWhile isSpace).reverse.dropWhile isSpace).reverse

/-- `s.split()`. -/
def fields (s : Text) : List Text := (s.splitOnP isSpace).filter fun f => !f.isEmpty

def digitValue (base : ℕ) (c : Char) : Option ℕ :=
  let n := c.toNat
  let d :=
    if 48 ≤ n ∧ n ≤ 57 then n - 48
    else if 97 ≤ n ∧ n ≤ 122 then n - 87
    else if 65 ≤ n ∧ n ≤ 90 then n - 55
    else base
  if d < base then some d else none

/-- Digits with single underscores between them; `afterDigit` holds after a digit. -/
def digits (base : ℕ) : ℕ → Bool → Text → Option ℕ
  | acc, afterDigit, [] => if afterDigit then some acc else none
  | acc, afterDigit, c :: rest =>
    if c = '_' then if afterDigit then digits base acc false rest else none
    else
      match digitValue base c with
      | some d => digits base (acc * base + d) true rest
      | none => none

/-- The digits after a base prefix, which one underscore may follow. -/
def prefixed (base : ℕ) (s : Text) : Option ℕ :=
  match s with
  | '_' :: rest => digits base 0 false rest
  | _ => digits base 0 false s

/-- An integer literal without its sign; no nonzero one starts with a decimal zero. -/
def literal (s : Text) : Option ℕ :=
  match s with
  | '0' :: 'x' :: rest => prefixed 16 rest
  | '0' :: 'X' :: rest => prefixed 16 rest
  | '0' :: 'o' :: rest => prefixed 8 rest
  | '0' :: 'O' :: rest => prefixed 8 rest
  | '0' :: 'b' :: rest => prefixed 2 rest
  | '0' :: 'B' :: rest => prefixed 2 rest
  | _ => (digits 10 0 false s).filter fun n => n = 0 || s.head? ≠ some '0'

/-- `immediate`: `int(token, 0)`, or `none` where that fails. -/
def immediate (token : Text) : Option ℤ :=
  match strip token with
  | '-' :: rest => (literal rest).map fun n => -(n : ℤ)
  | '+' :: rest => (literal rest).map fun n => (n : ℤ)
  | s => (literal s).map fun n => (n : ℤ)

/-! ### Registers -/

def isDigit (c : Char) : Bool := (digitValue 10 c).isSome

/-- `[lo:hi]`, as the numbers from `lo` to `hi`. -/
def registerRange (s : Text) : Option (List ℕ) :=
  match s with
  | '[' :: body =>
    match body.dropWhile isDigit with
    | ':' :: tail =>
      if tail.dropWhile isDigit = [']'] then
        match digits 10 0 false (body.takeWhile isDigit), digits 10 0 false (tail.takeWhile isDigit) with
        | some lo, some hi => some ((List.range (hi + 1 - lo)).map fun i => lo + i)
        | _, _ => none
      else none
    | _ => none
  | _ => none

/-- `registers`: the 32-bit registers of an SGPR or VGPR operand. -/
def registers (token : Text) : Option (List Text) :=
  match token with
  | c :: rest =>
    if c = 's' ∨ c = 'v' then
      if rest ≠ [] ∧ rest.all isDigit then some [c :: rest]
      else (registerRange rest).map fun ns => ns.map fun n => c :: Nat.toDigits 10 n
    else none
  | [] => none

/-! ### Instructions -/

inductive ReplayError where
  /-- `operands[-1].split()` has no first item. -/
  | emptyOperand
  /-- An operand is missing. -/
  | missingOperand
  /-- `unsupported 32-bit register`. -/
  | unsupportedRegister (token : Text)
  /-- `unsupported 64-bit operand`. -/
  | unsupportedOperand (token : Text)
  /-- `unsupported 64-bit destination`. -/
  | unsupportedDestination (token : Text)
  /-- `v_lshl_add_u64 shift .. is not 0 to 4`. -/
  | shiftRange (shift : ℕ)
  /-- `.. is not in the snapshot`. -/
  | notInSnapshot (name : Text)
  /-- `NotImplementedError`. -/
  | notModelled (opcode : Text)
  deriving DecidableEq

def single (token : Text) : Except ReplayError Text :=
  match registers token with
  | some [name] => .ok name
  | _ => .error (.unsupportedRegister token)

/-- Split at commas, except where a `]` follows before any `[`. -/
def splitOperands : Text → List Text
  | [] => [[]]
  | c :: rest =>
    if c = ',' ∧ ']' ∉ rest.takeWhile (· ≠ '[') then [] :: splitOperands rest
    else
      match splitOperands rest with
      | [] => [[c]]
      | item :: items => (c :: item) :: items

/-- Drop the `_e32` or `_e64` suffix of an opcode. -/
def dropEncoding (opcode : Text) : Text :=
  if "_e32".toList.isSuffixOf opcode ∨ "_e64".toList.isSuffixOf opcode then
    opcode.take (opcode.length - 4)
  else opcode

structure Instruction where
  opcode : Text
  operands : List Text
  modifiers : List Text
  deriving DecidableEq

def split (asm : Text) : Except ReplayError Instruction :=
  let s := strip asm
  let opcode := dropEncoding (s.takeWhile (· ≠ ' '))
  let rest := (s.dropWhile (· ≠ ' ')).drop 1
  if strip rest = [] then .ok ⟨opcode, [], []⟩
  else
    let operands := (splitOperands rest).map strip
    match fields (operands.getLastD []) with
    | [] => .error .emptyOperand
    | last :: modifiers => .ok ⟨opcode, operands.dropLast ++ [last], modifiers⟩

example : split "global_load_ushort v191, v[130:131], off offset:16".toList =
    .ok ⟨"global_load_ushort".toList, ["v191".toList, "v[130:131]".toList, "off".toList],
      ["offset:16".toList]⟩ := rfl

example : registers "v[130:131]".toList = some ["v130".toList, "v131".toList] := by decide

example : immediate "0x43".toList = some 67 := by decide

end CuTracer.Amdgcn
