import CuTracer.Amdgcn.Text
import CuTracer.Library.Dict

/-! The replay of one lane. Every register word carries the hardware's bits and
an exact integer; a computed word whose exact value no longer fits when it is
widened or shifted is recorded as an overflow. Words are told apart by identity:
a high word knows the very low word it belongs to, so that a later write to the
low register breaks the link. -/

namespace CuTracer.Amdgcn

inductive WordKind where
  | word | bits | pairLo | pairHi | sext
  deriving DecidableEq

/-- `Word`, with the identity `uid` that `is` compares. -/
structure Word where
  uid : ℕ
  hw : ℕ
  exact : ℤ
  kind : WordKind
  ref : Option ℕ
  producer : Option ℕ
  deriving DecidableEq

structure Overflow where
  index : ℕ
  producer : Option ℕ
  value : ℤ
  deriving DecidableEq

structure Lane where
  leaf : Text → Option ℤ
  words : Dict Text Word
  overflows : List Overflow
  next : ℕ

/-- A lane before its first instruction. -/
def Lane.new (leaf : Text → Option ℤ) : Lane := ⟨leaf, Dict.empty, [], 0⟩

/-- `bits - (1 << 32) if bits >> 31 else bits`. -/
def signed32 (bits : ℕ) : ℤ := if 0x80000000 ≤ bits then (bits : ℤ) - 0x100000000 else bits

/-- `bits - (1 << 64) if bits >> 63 else bits`. -/
def signed64 (bits : ℕ) : ℤ :=
  if 0x8000000000000000 ≤ bits then (bits : ℤ) - 0x10000000000000000 else bits

/-- Whether a value fits a signed 32-bit word. -/
def Fits (value : ℤ) : Prop := -0x80000000 ≤ value ∧ value < 0x80000000

instance (value : ℤ) : Decidable (Fits value) := inferInstanceAs (Decidable (_ ∧ _))

/-- Whether a word was computed by an arithmetic instruction. -/
def Word.Computed (w : Word) : Prop := w.producer ≠ none ∧ w.kind = .word

instance (w : Word) : Decidable w.Computed := inferInstanceAs (Decidable (_ ∧ _))

/-- `Word.value`: the value that a 32-bit read sees. -/
def Word.value (w : Word) (signed : Bool) : ℤ :=
  if w.Computed then w.exact else if signed then signed32 w.hw else w.hw

structure Operand where
  bits : ℕ
  exact : ℤ
  word : Option Word
  deriving DecidableEq

namespace Lane

variable (lane : Lane)

/-- Put a new word in a register. -/
def store (name : Text) (hw : ℕ) (exact : ℤ) (kind : WordKind) (ref producer : Option ℕ) : Lane :=
  { lane with
    words := lane.words.insert name ⟨lane.next, hw, exact, kind, ref, producer⟩
    next := lane.next + 1 }

def record (o : Overflow) : Lane := { lane with overflows := lane.overflows ++ [o] }

/-- `Lane.word`: the word of a register, from the snapshot on first use. -/
def word (name : Text) : Except ReplayError (Word × Lane) :=
  match lane.words.get? name with
  | some w => .ok (w, lane)
  | none =>
    match lane.leaf name with
    | none => .error (.notInSnapshot name)
    | some bits =>
      let hw := (bits % 0x100000000).toNat
      .ok (⟨lane.next, hw, hw, .word, none, none⟩, lane.store name hw hw .word none none)

/-- `Lane.operand`. -/
def operand (token : Text) (signed : Bool) : Except ReplayError (Operand × Lane) :=
  match immediate token with
  | some value =>
    let bits := (value % 0x100000000).toNat
    .ok (⟨bits, if signed then signed32 bits else bits, none⟩, lane)
  | none => do
    let name ← single token
    let (w, lane) ← lane.word name
    return (⟨w.hw, w.value signed, some w⟩, lane)

/-- The value of a pair whose words were read, and the overflow of a widened word. -/
def readPair (low high : Word) (index : ℕ) : (ℕ × ℤ) × Lane :=
  let bits := low.hw ||| high.hw <<< 32
  if high.ref = some low.uid ∧ high.kind = .pairHi then ((bits, low.exact), lane)
  else if high.ref = some low.uid ∧ high.kind = .sext then
    let exact := low.value true
    ((bits, exact), if Fits exact then lane else lane.record ⟨index, low.producer, exact⟩)
  else ((bits, signed64 bits), lane)

/-- `Lane.pair`. -/
def pair (token : Text) (index : ℕ) : Except ReplayError ((ℕ × ℤ) × Lane) :=
  match immediate token with
  | some value => .ok (((value % 0x10000000000000000).toNat, value), lane)
  | none =>
    match registers token with
    | some [lo, hi] => do
      let (low, lane) ← lane.word lo
      let (high, lane) ← lane.word hi
      return lane.readPair low high index
    | _ => .error (.unsupportedOperand token)

/-- `Lane.set`. -/
def set (token : Text) (hw exact : ℤ) (index : ℕ) (kind : WordKind) (ref : Option ℕ) :
    Except ReplayError Lane := do
  let name ← single token
  return lane.store name (hw % 0x100000000).toNat exact kind ref (some index)

/-- `Lane.set_pair`. -/
def setPair (token : Text) (hw : ℕ) (exact : ℤ) (index : ℕ) : Except ReplayError Lane :=
  match registers token with
  | some [lo, hi] =>
    let low := lane.store lo (hw % 0x100000000) exact .pairLo none (some index)
    .ok (low.store hi ((hw >>> 32) % 0x100000000) (exact >>> (32 : ℕ)) .pairHi (some lane.next)
      (some index))
  | _ => .error (.unsupportedDestination token)

/-! ### Instructions -/

/-- `ops[i]`. -/
def op (ops : List Text) (i : ℕ) : Except ReplayError Text :=
  match ops[i]? with
  | some token => .ok token
  | none => .error .missingOperand

/-- `_bitwise`: `dst, a, b`, a 32-bit pattern. -/
def bitwise (function : ℕ → ℕ → ℕ) (lane : Lane) (index : ℕ) (ops : List Text) :
    Except ReplayError Lane := do
  let tokenA ← op ops 1
  let (a, lane) ← lane.operand tokenA false
  let tokenB ← op ops 2
  let (b, lane) ← lane.operand tokenB false
  let bits := function a.bits b.bits
  let dst ← op ops 0
  lane.set dst bits bits index .bits none

/-- `_mul_lo`: `dst, a, b`, the low 32 bits of the product. -/
def mulLo (index : ℕ) (ops : List Text) : Except ReplayError Lane := do
  let tokenA ← op ops 1
  let (a, lane) ← lane.operand tokenA true
  let tokenB ← op ops 2
  let (b, lane) ← lane.operand tokenB true
  let dst ← op ops 0
  lane.set dst ((a.bits * b.bits : ℕ) : ℤ) (a.exact * b.exact) index .word none

/-- The lane after a shift that is no sign extension: a wrapped input is recorded here. -/
def recordShift (value : Operand) (index : ℕ) : Lane :=
  match value.word with
  | some w =>
    if w.producer ≠ none ∧ signed32 value.bits ≠ value.exact then
      lane.record ⟨index, w.producer, value.exact⟩
    else lane
  | none => lane

/-- Write a shifted value; a shift of a register by 31 writes its sign word. -/
def writeShift (dst : Text) (value : Operand) (shift index : ℕ) : Except ReplayError Lane :=
  match value.word, decide (shift = 31) with
  | some w, true =>
    lane.set dst (signed32 value.bits >>> (31 : ℕ)) (if value.exact < 0 then -1 else 0) index .sext
      (some w.uid)
  | _, _ =>
    (lane.recordShift value index).set dst (signed32 value.bits >>> shift) (value.exact >>> shift)
      index .word none

/-- `_ashr`: `dst, amount, value`. -/
def ashr (index : ℕ) (ops : List Text) : Except ReplayError Lane := do
  let tokenV ← op ops 2
  let (value, lane) ← lane.operand tokenV true
  let tokenS ← op ops 1
  let (amount, lane) ← lane.operand tokenS false
  let dst ← op ops 0
  lane.writeShift dst value (amount.bits % 32) index

/-- A shift that `v_lshl_add_u64` has. -/
def checkShift (shift : ℕ) : Except ReplayError ℕ :=
  if 4 < shift then .error (.shiftRange shift) else .ok shift

/-- `_lshl_add64`: `dst[2], a[2], shift, b[2]`, for shifts of 0 to 4. -/
def lshlAdd64 (index : ℕ) (ops : List Text) : Except ReplayError Lane := do
  let tokenA ← op ops 1
  let ((aBits, a), lane) ← lane.pair tokenA index
  let tokenS ← op ops 2
  let (amount, lane) ← lane.operand tokenS false
  let shift ← checkShift amount.bits
  let tokenB ← op ops 3
  let ((bBits, b), lane) ← lane.pair tokenB index
  let dst ← op ops 0
  lane.setPair dst ((aBits <<< shift) + bBits) ((a <<< shift) + b) index

def handlers : List (Text × (Lane → ℕ → List Text → Except ReplayError Lane)) :=
  [("v_and_b32".toList, bitwise (· &&& ·)), ("v_or_b32".toList, bitwise (· ||| ·)),
    ("v_mul_lo_u32".toList, mulLo), ("v_ashrrev_i32".toList, ashr),
    ("v_lshl_add_u64".toList, lshlAdd64)]

/-- `Lane.run`. -/
def run (index : ℕ) (asm : Text) : Except ReplayError Lane := do
  let instruction ← split asm
  match Dict.lookup instruction.opcode handlers with
  | some handler => handler lane index instruction.operands
  | none => .error (.notModelled instruction.opcode)

end Lane

end CuTracer.Amdgcn
