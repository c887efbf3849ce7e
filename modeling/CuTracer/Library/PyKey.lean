import CuTracer.Library.JsonTree

/-! Dictionary keys of Python made from decoded documents. Equal numbers are one key, whatever their
types; lists become tuples, which are compared item by item; objects are no keys. A key is told by a
document that stands for all equal ones. -/

namespace CuTracer.PyKey

variable (bits : BitVec 64)

/-- The exponent and the fraction of a floating-point number. -/
def parts : ℕ × ℕ := ((bits.toNat / 2 ^ 52) % 2 ^ 11, bits.toNat % 2 ^ 52)

def isInf : Bool := parts bits = (2 ^ 11 - 1, 0)

def isNan : Bool := (parts bits).1 = 2 ^ 11 - 1 ∧ (parts bits).2 ≠ 0

/-- The magnitude of a finite number, times `2 ^ 1075`. -/
def scaled : ℕ :=
  let (exponent, fraction) := parts bits
  (if exponent = 0 then fraction else fraction + 2 ^ 52) * 2 ^ max exponent 1

/-- A finite number without its fractional part. -/
def truncated : ℤ :=
  let magnitude : ℕ := scaled bits / 2 ^ 1075
  if bits.msb then -(magnitude : ℤ) else magnitude

/-- A number with an integer value is that integer, and what is not a number is one object. -/
def ofFloat : Json :=
  if isNan bits then .float 0x7ff8000000000000
  else if isInf bits then .float bits
  else if 2 ^ 1075 ∣ scaled bits then .int (truncated bits)
  else .float bits

mutual

/-- The key of a value once its lists are tuples; `none` where hashing it raises. -/
def ofJson : Json → Option Json
  | .null => some .null
  | .bool b => some (.int (if b then 1 else 0))
  | .int i => some (.int i)
  | .float bits => some (ofFloat bits)
  | .str s => some (.str s)
  | .arr items => (ofItems items).map .arr
  | .obj _ => none

def ofItems : List Json → Option (List Json)
  | [] => some []
  | item :: items =>
    match ofJson item, ofItems items with
    | some key, some keys => some (key :: keys)
    | _, _ => none

end

/-- What `int(key)` raises: a `ValueError` or `TypeError`, or an `OverflowError`. -/
inductive IntError where
  | notANumber | overflow
  deriving DecidableEq

/-- `int(key)`; `parse` reads texts. -/
def toInt (parse : String → Option ℤ) : Json → Except IntError ℤ
  | .int i => .ok i
  | .bool b => .ok (if b then 1 else 0)
  | .float bits =>
    if isNan bits then .error .notANumber
    else if isInf bits then .error .overflow
    else .ok (truncated bits)
  | .str s =>
    match parse s with
    | some i => .ok i
    | none => .error .notANumber
  | .null | .arr _ | .obj _ => .error .notANumber

/-- Equal keys have one integer. -/
theorem toInt_ofJson {parse : String → Option ℤ} {v key : Json} (h : ofJson v = some key) :
    toInt parse key = toInt parse v := by
  cases v with
  | null | bool _ | int _ | str _ =>
    cases h
    rfl
  | float bits =>
    cases h
    unfold ofFloat
    split_ifs with hnan hinf hdvd
    · have hone : isNan 0x7ff8000000000000 := by decide
      rw [toInt, toInt, if_pos hone, if_pos hnan]
    · rfl
    · rw [toInt, toInt, if_neg hnan, if_neg hinf]
    · rfl
  | arr items =>
    obtain ⟨keys, -, rfl⟩ := Option.map_eq_some_iff.mp h
    rfl
  | obj fields => cases h

/-! ### Texts -/

/-- How floats are written, and texts inside of containers. -/
structure Writer where
  float : BitVec 64 → String
  text : String → String

section

variable (repr : Writer) (tuples : Bool)

mutual

/-- `repr(value)`, with its lists as lists or as tuples. -/
def write : Json → String
  | .null => "None"
  | .bool b => if b then "True" else "False"
  | .int i => toString i
  | .float bits => repr.float bits
  | .str s => repr.text s
  | .arr items =>
    if tuples then "(" ++ writeItems items ++ (if items.length = 1 then ",)" else ")")
    else "[" ++ writeItems items ++ "]"
  | .obj fields => "\x7b" ++ writeFields fields ++ "\x7d"

def writeItems : List Json → String
  | [] => ""
  | [item] => write item
  | item :: items => write item ++ ", " ++ writeItems items

def writeFields : List (String × Json) → String
  | [] => ""
  | [field] => repr.text field.1 ++ ": " ++ write field.2
  | field :: fields => repr.text field.1 ++ ": " ++ write field.2 ++ ", " ++ writeFields fields

end

/-- `str(value)`. -/
def text : Json → String
  | .str s => s
  | v => write repr tuples v

end

end CuTracer.PyKey
