import CuTracer.Library.Dict
import CuTracer.Library.Fallible
import Mathlib.Data.Rat.Defs

/-! Documents that programs exchange, and readers of the records in them. A float is its exact value;
an object that is only carried along is its text. Whatever has been written is read back. -/

namespace CuTracer

inductive Wire where
  | null
  | bool (b : Bool)
  | int (i : ℤ)
  | float (q : ℚ)
  | str (s : String)
  | arr (items : List Wire)
  | obj (fields : List (String × Wire))
  | raw (text : String)

inductive WireError where
  /-- `KeyError`. -/
  | key (name : String)
  /-- `TypeError`. -/
  | type
  /-- `ValueError`. -/
  | value (message : String)
  deriving DecidableEq

abbrev Decoding := Except WireError

namespace Wire

variable {α : Type}

/-- `if c: raise ValueError(message)`. -/
def reject (c : Bool) (message : String) : Decoding Unit :=
  if c then .error (.value message) else .ok ()

@[simp] theorem reject_false (message : String) : reject false message = .ok () := rfl

theorem passed {c : Bool} {message : String} {rest : Unit → Decoding α} {a : α}
    (h : (reject c message >>= rest) = .ok a) : c = false ∧ rest () = .ok a := by
  cases c with
  | true => cases h
  | false => exact ⟨rfl, h⟩

/-! ### Values. What a field of a record cannot hold is refused -/

def asStr : Wire → Decoding String
  | .str s => .ok s
  | _ => .error .type

/-- `int(value)`. -/
def asInt : Wire → Decoding ℤ
  | .int i => .ok i
  | .bool b => .ok b.toNat
  | .float q => .ok (q.num.tdiv q.den)
  | _ => .error .type

/-- `float(value)`, which rounds integers. -/
def asFloat (round : ℚ → ℚ) : Wire → Decoding ℚ
  | .int i => .ok (round i)
  | .bool b => .ok b.toNat
  | .float q => .ok q
  | _ => .error .type

/-- `bool(value)`. -/
def asBool : Wire → Decoding Bool
  | .null => .ok false
  | .bool b => .ok b
  | .int i => .ok (i ≠ 0)
  | .float q => .ok (q ≠ 0)
  | .str s => .ok (s ≠ "")
  | .arr items => .ok !items.isEmpty
  | .obj fields => .ok !fields.isEmpty
  | .raw text => .ok (text ≠ "\x7b\x7d")

/-- An object that is carried along. -/
def asText : Wire → Decoding String
  | .raw text => .ok text
  | _ => .error .type

def asMember (members : List α) (value : α → String) : Wire → Decoding α
  | .str s =>
    match members.find? fun m => value m = s with
    | some m => .ok m
    | none => .error (.value (s ++ " is not a member"))
  | _ => .error .type

def asVersion (version : ℤ) (message : String) : Wire → Decoding Unit
  | .int i => if i = version then .ok () else .error (.value message)
  | _ => .error (.value message)

def asList (read : Wire → Decoding α) : Wire → Decoding (List α)
  | .arr items => items.mapM read
  | _ => .error .type

/-- `None if value is None else read(value)`. -/
def asOption (read : Wire → Decoding α) : Wire → Decoding (Option α)
  | .null => .ok none
  | v => some <$> read v

/-- `None if value is None else write(value)`. -/
def ofOption (write : α → Wire) : Option α → Wire
  | none => .null
  | some a => write a

/-! ### Fields -/

/-- `d.get(key)`, without a default. -/
def find (key : String) : Wire → Decoding (Option Wire)
  | .obj fields => .ok (Dict.lookup key fields)
  | _ => .error .type

/-- `key in d`. -/
def has (d : Wire) (key : String) : Decoding Bool := Option.isSome <$> d.find key

/-- `d[key]`. -/
def item (d : Wire) (key : String) (read : Wire → Decoding α) : Decoding α := do
  match ← d.find key with
  | some v => read v
  | none => .error (.key key)

/-- `d.get(key, default)`. -/
def getOr (d : Wire) (key : String) (default : α) (read : Wire → Decoding α) : Decoding α := do
  match ← d.find key with
  | some v => read v
  | none => .ok default

/-- `d.get(key)`. -/
def nullable (d : Wire) (key : String) (read : Wire → Decoding α) : Decoding (Option α) :=
  d.getOr key none (asOption read)

/-! ### Reading back -/

section

variable {f : String × Wire} {fields : List (String × Wire)} {key : String} {read : Wire → Decoding α}

@[simp] theorem has_cons : has (.obj (f :: fields)) key =
    if f.1 = key then .ok true else has (.obj fields) key := by
  simp only [has, find, Dict.lookup]
  split_ifs <;> rfl

@[simp] theorem item_cons : item (.obj (f :: fields)) key read =
    if f.1 = key then read f.2 else item (.obj fields) key read := by
  simp only [item, find, Dict.lookup, ok_bind]
  split_ifs <;> rfl

@[simp] theorem getOr_cons {default : α} : getOr (.obj (f :: fields)) key default read =
    if f.1 = key then read f.2 else getOr (.obj fields) key default read := by
  simp only [getOr, find, Dict.lookup, ok_bind]
  split_ifs <;> rfl

@[simp] theorem getOr_nil {default : α} : getOr (.obj []) key default read = .ok default := rfl

@[simp] theorem nullable_eq (d : Wire) : d.nullable key read = d.getOr key none (asOption read) := rfl

end

@[simp] theorem asStr_str (s : String) : asStr (.str s) = .ok s := rfl

@[simp] theorem asInt_int (i : ℤ) : asInt (.int i) = .ok i := rfl

@[simp] theorem asVersion_int (version : ℤ) (message : String) :
    asVersion version message (.int version) = .ok () := if_pos rfl

@[simp] theorem asFloat_float (round : ℚ → ℚ) (q : ℚ) : asFloat round (.float q) = .ok q := rfl

@[simp] theorem asBool_bool (b : Bool) : asBool (.bool b) = .ok b := rfl

theorem asMember_value {members : List α} {value : α → String} {m : α}
    (h : members.find? (fun m' => value m' = value m) = some m) :
    asMember members value (.str (value m)) = .ok m := by
  rw [asMember, h]

theorem asOption_ofOption {read : Wire → Decoding α} {write : α → Wire} {o : Option α}
    (hnull : ∀ a, write a ≠ .null) (hread : ∀ a ∈ o, read (write a) = .ok a) :
    asOption read (ofOption write o) = .ok o := by
  cases o with
  | none => rfl
  | some a =>
    have hsome : asOption read (write a) = some <$> read (write a) := by
      cases h : write a with
      | null => exact absurd h (hnull a)
      | _ => rfl
    rw [ofOption, hsome, hread a rfl]
    rfl

theorem asList_map_to {read : Wire → Decoding α} {write : α → Wire} {f : α → α} {as : List α}
    (hread : ∀ a ∈ as, read (write a) = .ok (f a)) :
    asList read (.arr (as.map write)) = .ok (as.map f) := by
  rw [asList, mapM_ok]
  induction as with
  | nil => exact .nil
  | cons a as ih =>
    obtain ⟨ha, has⟩ := List.forall_mem_cons.mp hread
    exact .cons ha (ih has)

theorem asList_map {read : Wire → Decoding α} {write : α → Wire} {as : List α}
    (hread : ∀ a ∈ as, read (write a) = .ok a) : asList read (.arr (as.map write)) = .ok as := by
  simpa using asList_map_to (f := id) hread

@[simp] theorem asOption_str (o : Option String) : asOption asStr (ofOption .str o) = .ok o :=
  asOption_ofOption (fun _ => nofun) fun _ _ => rfl

@[simp] theorem asOption_int (o : Option ℤ) : asOption asInt (ofOption .int o) = .ok o :=
  asOption_ofOption (fun _ => nofun) fun _ _ => rfl

@[simp] theorem asList_str (as : List String) : asList asStr (.arr (as.map .str)) = .ok as :=
  asList_map fun _ _ => rfl

@[simp] theorem asList_int (as : List ℤ) : asList asInt (.arr (as.map .int)) = .ok as :=
  asList_map fun _ _ => rfl

@[simp] theorem asList_text (as : List String) : asList asText (.arr (as.map .raw)) = .ok as :=
  asList_map fun _ _ => rfl

end Wire

end CuTracer
