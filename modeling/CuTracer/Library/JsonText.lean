import CuTracer.Library.Hex
import CuTracer.Library.JsonTree
import Mathlib.Algebra.BigOperators.Ring.List
import Mathlib.Algebra.Order.BigOperators.Group.List

/-! The compact text of a document, with or without characters outside ASCII, and a
reader of the texts of plain documents. A text can be read back, so different plain
documents have different texts. -/

namespace CuTracer

namespace Json

/-! ### Writing -/

/-- The letter after the backslash of a two-character escape. -/
def shortEscape (c : Char) : Option Char :=
  if c = '"' then some '"'
  else if c = '\\' then some '\\'
  else if c.toNat = 8 then some 'b'
  else if c.toNat = 12 then some 'f'
  else if c = '\n' then some 'n'
  else if c = '\r' then some 'r'
  else if c = '\t' then some 't'
  else none

/-- The four-digit escape of a 16-bit code unit. -/
def unitText (n : ℕ) : List Char :=
  ['\\', 'u', (n / 4096).digitChar, (n / 256 % 16).digitChar, (n / 16 % 16).digitChar,
    (n % 16).digitChar]

/-- A character inside a string. With `ascii`, one outside ASCII is written by the one
or two code units of its UTF-16 encoding. -/
def escape (ascii : Bool) (c : Char) : List Char :=
  match shortEscape c with
  | some e => ['\\', e]
  | none =>
    if c.toNat < 0x20 ∨ (ascii = true ∧ 0x7f ≤ c.toNat) then
      if c.toNat < 0x10000 then unitText c.toNat
      else
        unitText (0xd800 + (c.toNat - 0x10000) / 0x400) ++
          unitText (0xdc00 + (c.toNat - 0x10000) % 0x400)
    else [c]

def writeString (ascii : Bool) (s : String) : List Char :=
  '"' :: (s.toList.flatMap (escape ascii) ++ ['"'])

/-- Texts with commas between them and a bracket after them. -/
def separated (close : Char) : List (List Char) → List Char
  | [] => [close]
  | [t] => t ++ [close]
  | t :: u :: ts => t ++ ',' :: separated close (u :: ts)

mutual

/-- The compact text of a document. No plain document has a float; one is written as
zero. -/
def write (ascii : Bool) : Json → List Char
  | .null => "null".toList
  | .bool b => (if b then "true" else "false").toList
  | .int i => (toString i).toList
  | .float _ => "0.0".toList
  | .str s => writeString ascii s
  | .arr items => '[' :: separated ']' (writeItems ascii items)
  | .obj fields => '\x7b' :: separated '\x7d' (writeFields ascii fields)

def writeItems (ascii : Bool) : List Json → List (List Char)
  | [] => []
  | v :: vs => write ascii v :: writeItems ascii vs

def writeFields (ascii : Bool) : List (String × Json) → List (List Char)
  | [] => []
  | (k, v) :: fs => (writeString ascii k ++ ':' :: write ascii v) :: writeFields ascii fs

end

def writeField (ascii : Bool) (f : String × Json) : List Char :=
  writeString ascii f.1 ++ ':' :: write ascii f.2

theorem write_arr (ascii : Bool) (items : List Json) :
    write ascii (.arr items) = '[' :: separated ']' (items.map (write ascii)) := by
  have h : writeItems ascii items = items.map (write ascii) := by
    induction items with
    | nil => rfl
    | cons v vs ih => rw [writeItems, ih, List.map_cons]
  rw [write, h]

theorem write_obj (ascii : Bool) (fields : List (String × Json)) :
    write ascii (.obj fields) = '\x7b' :: separated '\x7d' (fields.map (writeField ascii)) := by
  have h : writeFields ascii fields = fields.map (writeField ascii) := by
    induction fields with
    | nil => rfl
    | cons f fs ih => rw [writeFields, ih, List.map_cons, writeField]
  rw [write, h]

def dump (ascii : Bool) (v : Json) : String := String.ofList (write ascii v)

theorem length_lt_separated (close : Char) {t : List Char} {ts : List (List Char)}
    (h : t ∈ ts) : t.length < (separated close ts).length := by
  induction ts using separated.induct with
  | case1 => cases h
  | case2 u =>
    obtain rfl := List.mem_singleton.mp h
    simp [separated]
  | case3 u w ts ih =>
    rw [separated, List.length_append, List.length_cons]
    rcases List.mem_cons.mp h with rfl | h
    · omega
    · have := ih h
      omega

/-! ### Reading -/

def readUnit (a b c d : Char) : ℕ :=
  hexDigit a * 4096 + hexDigit b * 256 + hexDigit c * 16 + hexDigit d

def ofShortEscape (e : Char) : Option Char :=
  if e = 'b' then some (Char.ofNat 8)
  else if e = 'f' then some (Char.ofNat 12)
  else if e = 'n' then some '\n'
  else if e = 'r' then some '\r'
  else if e = 't' then some '\t'
  else some e

/-- The code unit a four-digit escape starts with, and the text after it. -/
def readEscape : List Char → Option (ℕ × List Char)
  | e :: u :: a :: b :: c :: d :: rest =>
    if e = '\\' ∧ u = 'u' then some (readUnit a b c d, rest) else none
  | _ => none

/-- A character that is written as it is, or by a two-character escape. -/
def readShort : List Char → Option (Char × List Char)
  | [] => none
  | [c] => some (c, [])
  | c :: e :: rest => if c = '\\' then (ofShortEscape e).map (·, rest) else some (c, e :: rest)

/-- The first character of the inside of a string. -/
def readChar (cs : List Char) : Option (Char × List Char) :=
  match readEscape cs with
  | some (unit, rest) =>
    if 0xd800 ≤ unit ∧ unit < 0xdc00 then
      (readEscape rest).map fun p =>
        (Char.ofNat (0x10000 + (unit - 0xd800) * 0x400 + (p.1 - 0xdc00)), p.2)
    else some (Char.ofNat unit, rest)
  | none => readShort cs

/-- The characters up to the closing quote of a string. -/
def readChars : ℕ → List Char → Option (List Char × List Char)
  | 0, _ => none
  | n + 1, cs =>
    if cs.head? = some '"' then some ([], cs.tail)
    else (readChar cs).bind fun p => (readChars n p.2).map fun q => (p.1 :: q.1, q.2)

/-- Items with commas between them, up to the closing bracket. -/
def readRest {α : Type} (item : List Char → Option (α × List Char)) (close : Char) :
    ℕ → List Char → Option (List α × List Char)
  | 0, _ => none
  | n + 1, cs =>
    (item cs).bind fun p =>
      if p.2.head? = some close then some ([p.1], p.2.tail)
      else if p.2.head? = some ',' then
        (readRest item close n p.2.tail).map fun q => (p.1 :: q.1, q.2)
      else none

def readSeq {α : Type} (item : List Char → Option (α × List Char)) (close : Char)
    (cs : List Char) : Option (List α × List Char) :=
  if cs.head? = some close then some ([], cs.tail) else readRest item close cs.length cs

def readString (cs : List Char) : Option (String × List Char) :=
  if cs.head? = some '"' then
    (readChars cs.length cs.tail).map fun p => (String.ofList p.1, p.2)
  else none

def readField (value : List Char → Option (Json × List Char)) (cs : List Char) :
    Option ((String × Json) × List Char) :=
  (readString cs).bind fun p =>
    if p.2.head? = some ':' then (value p.2.tail).map fun q => ((p.1, q.1), q.2) else none

/-- A plain document at the start of a text, with the text after it. -/
def readValue : ℕ → List Char → Option (Json × List Char)
  | 0, _ => none
  | n + 1, cs =>
    if cs.head? = some '\x7b' then
      (readSeq (readField (readValue n)) '\x7d' cs.tail).map fun p => (.obj p.1, p.2)
    else if cs.head? = some '[' then
      (readSeq (readValue n) ']' cs.tail).map fun p => (.arr p.1, p.2)
    else if cs.head? = some '"' then (readString cs).map fun p => (.str p.1, p.2)
    else
      some (.int (Nat.ofDigitChars 10 (cs.takeWhile Char.isDigit) 0), cs.dropWhile Char.isDigit)

/-- `readValue` with any reader of what is neither a string nor a container. -/
def readWith (atom : List Char → Option (Json × List Char)) : ℕ → List Char → Option (Json × List Char)
  | 0, _ => none
  | n + 1, cs =>
    if cs.head? = some '\x7b' then
      (readSeq (readField (readWith atom n)) '\x7d' cs.tail).map fun p => (.obj p.1, p.2)
    else if cs.head? = some '[' then
      (readSeq (readWith atom n) ']' cs.tail).map fun p => (.arr p.1, p.2)
    else if cs.head? = some '"' then (readString cs).map fun p => (.str p.1, p.2)
    else atom cs

/-- The digits at the start of a text. -/
def readNat (cs : List Char) : Option (Json × List Char) :=
  some (.int (Nat.ofDigitChars 10 (cs.takeWhile Char.isDigit) 0), cs.dropWhile Char.isDigit)

theorem readValue_eq (n : ℕ) : readValue n = readWith readNat n := by
  induction n with
  | zero => rfl
  | succ n ih =>
    funext cs
    rw [readValue, readWith, ih]
    rfl

/-! ### A text can be read back -/

variable {α : Type} {ascii : Bool} {rest : List Char}

theorem readEscape_unitText {n : ℕ} (h : n < 0x10000) :
    readEscape (unitText n ++ rest) = some (n, rest) := by
  have h₁ : n / 4096 < 16 := by omega
  have h₂ : n / 256 % 16 < 16 := by omega
  have h₃ : n / 16 % 16 < 16 := by omega
  have h₄ : n % 16 < 16 := by omega
  simp only [unitText, List.cons_append, List.nil_append, readEscape, and_self, if_true, readUnit,
    hexDigit_digitChar h₁, hexDigit_digitChar h₂, hexDigit_digitChar h₃, hexDigit_digitChar h₄,
    Option.some.injEq, Prod.mk.injEq, and_true]
  omega

theorem readEscape_of_ne {c : Char} {cs : List Char} (h : c ≠ '\\') :
    readEscape (c :: cs) = none := by
  unfold readEscape
  split
  · next heq =>
    obtain ⟨rfl, -⟩ := List.cons.inj heq
    rw [if_neg fun hc => h hc.1]
  · rfl

theorem readEscape_short {c : Char} {cs : List Char} (h : c ≠ 'u') :
    readEscape ('\\' :: c :: cs) = none := by
  unfold readEscape
  split
  · next heq =>
    obtain ⟨-, heq⟩ := List.cons.inj heq
    obtain ⟨rfl, -⟩ := List.cons.inj heq
    rw [if_neg fun hc => h hc.2]
  · rfl

/-- A short escape is read as the character it stands for. -/
theorem shortEscape_some {c e : Char} (h : shortEscape c = some e) :
    e ≠ 'u' ∧ ofShortEscape e = some c := by
  unfold shortEscape at h
  have ofNat : ∀ n, c.toNat = n → c = Char.ofNat n := fun n hn => hn ▸ (Char.ofNat_toNat c).symm
  split_ifs at h with h₁ h₂ h₃ h₄ h₅ h₆ h₇
  · obtain rfl := Option.some.inj h; subst h₁; decide
  · obtain rfl := Option.some.inj h; subst h₂; decide
  · obtain rfl := Option.some.inj h; rw [ofNat 8 h₃]; decide
  · obtain rfl := Option.some.inj h; rw [ofNat 12 h₄]; decide
  · obtain rfl := Option.some.inj h; subst h₅; decide
  · obtain rfl := Option.some.inj h; subst h₆; decide
  · obtain rfl := Option.some.inj h; subst h₇; decide

theorem shortEscape_none {c : Char} (h : shortEscape c = none) : c ≠ '"' ∧ c ≠ '\\' := by
  constructor
  · rintro rfl; cases h
  · rintro rfl; cases h

theorem readChar_escape (c : Char) : readChar (escape ascii c ++ rest) = some (c, rest) := by
  have hvalid : c.toNat < 0xd800 ∨ 0xdfff < c.toNat ∧ c.toNat < 0x110000 := c.valid
  unfold escape
  split
  · next e he =>
    obtain ⟨hu, hback⟩ := shortEscape_some he
    simp [readChar, readEscape_short hu, readShort, hback]
  · next hnone =>
    have hne := (shortEscape_none hnone).2
    split_ifs with hesc hsmall
    · rw [readChar, readEscape_unitText hsmall]
      simp only
      rw [if_neg (by omega), Char.ofNat_toNat]
    · have hlow : 0xdc00 + (c.toNat - 0x10000) % 0x400 < 0x10000 := by omega
      have hhigh : 0xd800 + (c.toNat - 0x10000) / 0x400 < 0x10000 := by omega
      rw [readChar, List.append_assoc, readEscape_unitText hhigh]
      simp only
      rw [if_pos (by omega), readEscape_unitText hlow, Option.map_some]
      have hsum : 0x10000 + (0xd800 + (c.toNat - 0x10000) / 0x400 - 0xd800) * 0x400 +
          (0xdc00 + (c.toNat - 0x10000) % 0x400 - 0xdc00) = c.toNat := by omega
      rw [hsum, Char.ofNat_toNat]
    · rw [readChar, List.singleton_append, readEscape_of_ne hne]
      cases rest with
      | nil => rfl
      | cons d ds => simp [readShort, hne]

theorem head?_escape (c : Char) : (escape ascii c ++ rest).head? ≠ some '"' := by
  unfold escape
  split
  · simp
  · next hnone =>
    have hne := (shortEscape_none hnone).1
    split_ifs
    · simp [unitText]
    · simp [unitText]
    · simpa using hne

theorem readChars_escape {n : ℕ} {s : List Char} (h : s.length < n) :
    readChars n (s.flatMap (escape ascii) ++ '"' :: rest) = some (s, rest) := by
  induction s generalizing n with
  | nil =>
    obtain ⟨m, rfl⟩ : ∃ m, n = m + 1 := ⟨n - 1, by simp at h; omega⟩
    simp [readChars]
  | cons c s ih =>
    obtain ⟨m, rfl⟩ : ∃ m, n = m + 1 := ⟨n - 1, by simp at h; omega⟩
    rw [List.flatMap_cons, List.append_assoc, readChars, if_neg (head?_escape c),
      readChar_escape, Option.bind_some, ih (by simpa using h)]
    rfl

theorem escape_ne_nil (ascii : Bool) (c : Char) : escape ascii c ≠ [] := by
  unfold escape
  split
  · simp
  · split_ifs <;> simp [unitText]

theorem length_le_flatMap_escape (ascii : Bool) (s : List Char) :
    s.length ≤ (s.flatMap (escape ascii)).length := by
  induction s with
  | nil => simp
  | cons c s ih =>
    have := List.length_pos_iff.mpr (escape_ne_nil ascii c)
    rw [List.flatMap_cons, List.length_append, List.length_cons]
    omega

theorem readString_write (ascii : Bool) (s : String) (rest : List Char) :
    readString (writeString ascii s ++ rest) = some (s, rest) := by
  have hlen := length_le_flatMap_escape ascii s.toList
  rw [readString, writeString, List.cons_append, List.head?_cons, if_pos rfl, List.tail_cons,
    List.append_assoc, List.singleton_append, readChars_escape]
  · simp
  · simp only [List.length_cons, List.length_append]
    omega

/-- The text after a number does not go on with a digit. -/
def Stops (rest : List Char) : Prop := ∀ c, rest.head? = some c → c.isDigit = false

theorem stops_cons {c : Char} {cs : List Char} (h : c.isDigit = false) : Stops (c :: cs) := by
  rintro d hd
  cases hd
  exact h

theorem span_digits {ds : List Char} (hds : ∀ c ∈ ds, c.isDigit = true) (hrest : Stops rest) :
    (ds ++ rest).takeWhile Char.isDigit = ds ∧ (ds ++ rest).dropWhile Char.isDigit = rest := by
  have h : rest.takeWhile Char.isDigit = [] ∧ rest.dropWhile Char.isDigit = rest := by
    cases rest with
    | nil => exact ⟨rfl, rfl⟩
    | cons c cs =>
      have hc := hrest c rfl
      simp [hc]
  rw [List.takeWhile_append_of_pos hds, List.dropWhile_append_of_pos hds, h.1, h.2,
    List.append_nil]
  exact ⟨rfl, rfl⟩

theorem length_le_length_separated (close : Char) (ts : List (List Char)) :
    ts.length ≤ (separated close ts).length := by
  induction ts using separated.induct with
  | case1 => simp
  | case2 t => simp [separated]
  | case3 t u ts ih =>
    simp only [separated, List.length_append, List.length_cons] at ih ⊢
    omega

section Sequences

variable {item : List Char → Option (α × List Char)} {text : α → List Char} {close : Char}

theorem readRest_separated {n : ℕ} {x : α} {xs : List α} (hdigit : close.isDigit = false)
    (hcomma : close ≠ ',')
    (hitem : ∀ y ∈ x :: xs, ∀ rest, Stops rest → item (text y ++ rest) = some (y, rest))
    (hn : xs.length < n) :
    readRest item close n (separated close ((x :: xs).map text) ++ rest) =
      some (x :: xs, rest) := by
  induction xs generalizing x n with
  | nil =>
    obtain ⟨m, rfl⟩ : ∃ m, n = m + 1 := ⟨n - 1, by simp at hn; omega⟩
    rw [List.map_singleton, separated, List.append_assoc, List.singleton_append, readRest,
      hitem x List.mem_cons_self _ (stops_cons hdigit)]
    simp
  | cons y ys ih =>
    obtain ⟨m, rfl⟩ : ∃ m, n = m + 1 := ⟨n - 1, by omega⟩
    have htail := ih (n := m) (x := y) (fun z hz => hitem z (List.mem_cons_of_mem x hz))
      (by simpa using hn)
    rw [List.map_cons, List.map_cons, separated, List.append_assoc, List.cons_append, readRest,
      hitem x List.mem_cons_self _ (stops_cons rfl), Option.bind_some, List.head?_cons,
      if_neg (by simpa using hcomma.symm), if_pos rfl, List.tail_cons, ← List.map_cons, htail]
    rfl

theorem readSeq_separated {xs : List α} (hdigit : close.isDigit = false) (hcomma : close ≠ ',')
    (hhead : ∀ x ∈ xs, ∀ rest, (text x ++ rest).head? ≠ some close)
    (hitem : ∀ x ∈ xs, ∀ rest, Stops rest → item (text x ++ rest) = some (x, rest)) :
    readSeq item close (separated close (xs.map text) ++ rest) = some (xs, rest) := by
  cases xs with
  | nil => simp [readSeq, separated]
  | cons x xs =>
    have hfirst : (separated close ((x :: xs).map text) ++ rest).head? ≠ some close := by
      cases xs with
      | nil =>
        rw [List.map_singleton, separated, List.append_assoc]
        exact hhead x List.mem_cons_self _
      | cons y ys =>
        rw [List.map_cons, List.map_cons, separated, List.append_assoc]
        exact hhead x List.mem_cons_self _
    rw [readSeq, if_neg hfirst, readRest_separated hdigit hcomma hitem]
    have := length_le_length_separated close ((x :: xs).map text)
    rw [List.length_map, List.length_cons] at this
    rw [List.length_append]
    omega

end Sequences

theorem write_nat (n : ℕ) : write ascii (.int n) = Nat.toDigits 10 n := by
  rw [write, ← Nat.toList_repr]
  rfl

theorem toDigits_cons (n : ℕ) : ∃ c cs, Nat.toDigits 10 n = c :: cs ∧ c.isDigit = true := by
  have hdigits := fun c => Nat.isDigit_of_mem_toDigits (b := 10) (n := n) (c := c)
  cases h : Nat.toDigits 10 n with
  | nil => exact absurd h Nat.toDigits_ne_nil
  | cons c cs => exact ⟨c, cs, rfl, hdigits c (by decide) (by decide) (h ▸ List.mem_cons_self)⟩

section Atoms

def isAtom : Json → Bool
  | .str _ | .arr _ | .obj _ => false
  | _ => true

/-- What a reader of such leaves has to do at the text of one. -/
structure ReadsAtom (ascii : Bool) (atom : List Char → Option (Json × List Char)) (v : Json) : Prop where
  read : ∀ {rest}, Stops rest → atom (write ascii v ++ rest) = some (v, rest)
  head : ∃ c cs, write ascii v = c :: cs ∧ c ∉ ['\x7b', '[', '"', ']']

variable {atom : List Char → Option (Json × List Char)} {p : Json → Bool} {v : Json}

/-- The text of a document starts with neither closing bracket. -/
theorem head?_write_of_atoms (hatom : ∀ v, p v → isAtom v → ReadsAtom ascii atom v)
    (hv : everywhere p v) (cs : List Char) : (write ascii v ++ cs).head? ≠ some ']' := by
  have hleaf : ∀ w, p w → isAtom w → (write ascii w ++ cs).head? ≠ some ']' := by
    intro w hw ha heq
    obtain ⟨c, ds, hwrite, hc⟩ := (hatom w hw ha).head
    rw [hwrite, List.cons_append, List.head?_cons] at heq
    cases heq
    exact hc (by simp)
  cases v with
  | null => exact hleaf _ hv rfl
  | bool b => exact hleaf _ hv rfl
  | int i => exact hleaf _ hv rfl
  | float bits => exact hleaf _ hv rfl
  | str s => simp [write, writeString]
  | arr items => simp [write_arr]
  | obj fields => simp [write_obj]

/-- Reading undoes writing, at a leaf. -/
theorem readWith_atom (hatom : ReadsAtom ascii atom v) {n : ℕ} (hn : (write ascii v).length ≤ n)
    (hrest : Stops rest) : readWith atom n (write ascii v ++ rest) = some (v, rest) := by
  obtain ⟨c, ds, hwrite, hc⟩ := hatom.head
  simp only [List.mem_cons, List.not_mem_nil, or_false, not_or] at hc
  obtain ⟨m, rfl⟩ : ∃ m, n = m + 1 := ⟨n - 1, by rw [hwrite] at hn; simp at hn; omega⟩
  have hread := hatom.read hrest
  rw [hwrite, List.cons_append] at hread ⊢
  rw [readWith, List.head?_cons, if_neg (by simpa using hc.1), if_neg (by simpa using hc.2.1),
    if_neg (by simpa using hc.2.2.1), hread]

theorem readWith_write (hatom : ∀ v, p v → isAtom v → ReadsAtom ascii atom v)
    (hv : everywhere p v) {n : ℕ} (hn : (write ascii v).length ≤ n) (hrest : Stops rest) :
    readWith atom n (write ascii v ++ rest) = some (v, rest) := by
  induction v using induct generalizing n rest with
  | null => exact readWith_atom (hatom _ hv rfl) hn hrest
  | bool b => exact readWith_atom (hatom _ hv rfl) hn hrest
  | int i => exact readWith_atom (hatom _ hv rfl) hn hrest
  | float bits => exact readWith_atom (hatom _ hv rfl) hn hrest
  | str s =>
    obtain ⟨m, rfl⟩ : ∃ m, n = m + 1 := ⟨n - 1, by simp [write, writeString] at hn; omega⟩
    have h := readString_write ascii s rest
    rw [write, readWith, h]
    simp [writeString]
  | arr items ih =>
    rw [write_arr] at hn ⊢
    obtain ⟨m, rfl⟩ : ∃ m, n = m + 1 := ⟨n - 1, by simp at hn; omega⟩
    rw [everywhere_arr] at hv
    have hseq : readSeq (readWith atom m) ']' (separated ']' (items.map (write ascii)) ++ rest) =
        some (items, rest) := by
      apply readSeq_separated rfl (by decide)
      · exact fun v hmem cs => head?_write_of_atoms hatom (hv.2 v hmem) cs
      · intro v hmem cs hcs
        have := length_lt_separated ']' (List.mem_map_of_mem (f := write ascii) hmem)
        exact ih v hmem (hv.2 v hmem) (by simp at hn; omega) hcs
    rw [List.cons_append, readWith, List.head?_cons, if_neg (by decide), if_pos rfl,
      List.tail_cons, hseq]
    rfl
  | obj fields ih =>
    rw [write_obj] at hn ⊢
    obtain ⟨m, rfl⟩ : ∃ m, n = m + 1 := ⟨n - 1, by simp at hn; omega⟩
    rw [everywhere_obj] at hv
    have hseq : readSeq (readField (readWith atom m)) '\x7d'
        (separated '\x7d' (fields.map (writeField ascii)) ++ rest) = some (fields, rest) := by
      apply readSeq_separated rfl (by decide)
      · exact fun f hmem cs => by simp [writeField, writeString]
      · intro f hmem cs hcs
        have hlt := length_lt_separated '\x7d'
          (List.mem_map_of_mem (f := writeField ascii) hmem)
        rw [writeField, List.length_append, List.length_cons] at hlt
        rw [readField, writeField, List.append_assoc, readString_write, Option.bind_some,
          List.cons_append, List.head?_cons, if_pos rfl, List.tail_cons,
          ih f hmem (hv.2 f hmem) (by simp at hn; omega) hcs]
        rfl
    rw [List.cons_append, readWith, List.head?_cons, if_pos rfl, List.tail_cons, hseq]
    rfl

end Atoms

theorem readsAtom_readNat (n : ℕ) : ReadsAtom ascii readNat (.int n) := by
  obtain ⟨c, ds, hdigits, hc⟩ := toDigits_cons n
  constructor
  · intro rest hrest
    have hall : ∀ d ∈ Nat.toDigits 10 n, d.isDigit = true := fun d hd =>
      Nat.isDigit_of_mem_toDigits (by decide) (by decide) hd
    obtain ⟨htake, hdrop⟩ := span_digits hall hrest
    rw [write_nat, readNat, htake, hdrop, Nat.ofDigitChars_ten_toDigits]
  · refine ⟨c, ds, by rw [write_nat, hdigits], fun hmem => ?_⟩
    simp only [List.mem_cons, List.not_mem_nil, or_false] at hmem
    rcases hmem with rfl | rfl | rfl | rfl <;> cases hc

theorem plainNode_readsAtom {v : Json} (hv : plainNode v) (ha : isAtom v) : ReadsAtom ascii readNat v := by
  cases v with
  | null => cases hv
  | bool b => cases hv
  | float bits => cases hv
  | str s => cases ha
  | arr items => cases ha
  | obj fields => cases ha
  | int i =>
    obtain ⟨n, rfl⟩ := Int.eq_ofNat_of_zero_le (plain_int.mp hv).1
    exact readsAtom_readNat n

/-- Reading undoes writing, for plain documents. -/
theorem readValue_write {v : Json} (hv : v.Plain) {n : ℕ} (hn : (write ascii v).length ≤ n)
    (hrest : Stops rest) : readValue n (write ascii v ++ rest) = some (v, rest) := by
  rw [readValue_eq]
  exact readWith_write (fun _ => plainNode_readsAtom) hv hn hrest

end Json

/-! ### Bytes -/

def utf8 (s : String) : List UInt8 := s.toByteArray.data.toList

theorem length_utf8 (s : String) : (utf8 s).length = s.utf8ByteSize := rfl

/-- The string some bytes encode, if they do. -/
def ofUtf8 (bytes : List UInt8) : Option String := String.fromUTF8? ⟨bytes.toArray⟩

theorem ofUtf8_utf8 (s : String) : ofUtf8 (utf8 s) = some s := by
  rw [ofUtf8, utf8, Array.toArray_toList, String.fromUTF8?, dif_pos s.isValidUTF8]
  rfl

theorem utf8_injective : Function.Injective utf8 := by
  intro s t h
  apply Option.some.inj
  rw [← ofUtf8_utf8 s, h, ofUtf8_utf8]

theorem utf8_ofList (cs : List Char) :
    utf8 (String.ofList cs) = cs.flatMap String.utf8EncodeChar := by
  rw [utf8, String.toByteArray_ofList, List.utf8Encode]
  simp

theorem utf8ByteSize_ascii {cs : List Char} (h : ∀ c ∈ cs, c.toNat < 128) :
    (String.ofList cs).utf8ByteSize = cs.length := by
  rw [← length_utf8, utf8_ofList, List.length_flatMap]
  induction cs with
  | nil => rfl
  | cons c cs ih =>
    obtain ⟨hc, hcs⟩ := List.forall_mem_cons.mp h
    have hval : c.val ≤ 0x7f := by
      have : c.val.toNat < 128 := hc
      exact UInt32.le_iff_toNat_le.mpr (by simp; omega)
    have hsize : c.utf8Size = 1 := if_pos hval
    rw [List.map_cons, List.sum_cons, ih hcs, String.length_utf8EncodeChar, hsize,
      List.length_cons]
    omega

theorem zero_ne_byte {n : ℕ} (h₀ : 0 < n) (h : n < 256) : (0 : UInt8) ≠ UInt8.ofNat n := by
  intro heq
  have hnat := congrArg UInt8.toNat heq
  rw [UInt8.toNat_ofNat'] at hnat
  simp at hnat
  omega

theorem zero_not_mem_utf8EncodeChar {c : Char} (h : c ≠ Char.ofNat 0) :
    (0 : UInt8) ∉ String.utf8EncodeChar c := by
  have hpos : 0 < c.val.toNat := by
    by_contra hzero
    apply h
    rw [← Char.ofNat_toNat c, show c.toNat = 0 from by simpa using hzero]
  unfold String.utf8EncodeChar
  simp only
  split_ifs with h₁ h₂ h₃
  · simpa using zero_ne_byte hpos (by omega)
  · simp only [List.mem_cons, List.not_mem_nil, or_false, not_or]
    exact ⟨zero_ne_byte (by omega) (by omega), zero_ne_byte (by omega) (by omega)⟩
  · simp only [List.mem_cons, List.not_mem_nil, or_false, not_or]
    exact ⟨zero_ne_byte (by omega) (by omega), zero_ne_byte (by omega) (by omega),
      zero_ne_byte (by omega) (by omega)⟩
  · simp only [List.mem_cons, List.not_mem_nil, or_false, not_or]
    exact ⟨zero_ne_byte (by omega) (by omega), zero_ne_byte (by omega) (by omega),
      zero_ne_byte (by omega) (by omega), zero_ne_byte (by omega) (by omega)⟩

theorem zero_not_mem_utf8 {cs : List Char} (h : Char.ofNat 0 ∉ cs) :
    (0 : UInt8) ∉ utf8 (String.ofList cs) := by
  rw [utf8_ofList, List.mem_flatMap]
  rintro ⟨c, hc, hzero⟩
  exact zero_not_mem_utf8EncodeChar (fun heq => h (heq ▸ hc)) hzero

namespace Json

instance (v : Json) : Decidable v.Plain := inferInstanceAs (Decidable (_ = true))

/-! ### No text has a null character -/

theorem mem_separated {close c : Char} {ts : List (List Char)} (h : c ∈ separated close ts) :
    c = close ∨ c = ',' ∨ ∃ t ∈ ts, c ∈ t := by
  induction ts using separated.induct with
  | case1 => exact .inl (List.mem_singleton.mp h)
  | case2 t =>
    rw [separated, List.mem_append, List.mem_singleton] at h
    rcases h with h | h
    · exact .inr (.inr ⟨t, List.mem_cons_self, h⟩)
    · exact .inl h
  | case3 t u ts ih =>
    rw [separated, List.mem_append, List.mem_cons] at h
    rcases h with h | h | h
    · exact .inr (.inr ⟨t, List.mem_cons_self, h⟩)
    · exact .inr (.inl h)
    · rcases ih h with h | h | ⟨w, hw, h⟩
      · exact .inl h
      · exact .inr (.inl h)
      · exact .inr (.inr ⟨w, List.mem_cons_of_mem t hw, h⟩)

theorem null_not_mem_unitText {n : ℕ} (hn : n < 0x10000) : Char.ofNat 0 ∉ unitText n := by
  have hdigit : ∀ k, k < 16 → Char.ofNat 0 ≠ k.digitChar := by
    intro k hk heq
    have := isHexDigit_digitChar hk
    rw [← heq] at this
    cases this
  simp only [unitText, List.mem_cons, List.not_mem_nil, or_false, not_or]
  exact ⟨by decide, by decide, hdigit _ (by omega), hdigit _ (by omega), hdigit _ (by omega),
    hdigit _ (by omega)⟩

theorem null_not_mem_escape (ascii : Bool) (c : Char) : Char.ofNat 0 ∉ escape ascii c := by
  have hvalid : c.toNat < 0xd800 ∨ 0xdfff < c.toNat ∧ c.toNat < 0x110000 := c.valid
  unfold escape
  split
  · next e he =>
    intro h
    rcases List.mem_cons.mp h with h | h
    · cases h
    · obtain rfl := List.mem_singleton.mp h
      unfold shortEscape at he
      split_ifs at he <;> cases he
  · split_ifs with h₁ h₂
    · exact null_not_mem_unitText h₂
    · rw [List.mem_append, not_or]
      exact ⟨null_not_mem_unitText (by omega), null_not_mem_unitText (by omega)⟩
    · rintro h
      obtain rfl := List.mem_singleton.mp h
      exact h₁ (.inl (by decide))

variable {ascii : Bool}

/-- What all characters of a text have: its punctuation, its atoms and its escapes. -/
theorem forall_mem_write_of_atoms {P : Char → Prop} {p : Json → Bool} {v : Json}
    (hv : everywhere p v) (hpunct : ∀ c, "\"[]\x7b\x7d,:".toList.contains c = true → P c)
    (hatom : ∀ w, p w → isAtom w → ∀ c ∈ write ascii w, P c)
    (hescape : ∀ c, ∀ d ∈ escape ascii c, P d) : ∀ c ∈ write ascii v, P c := by
  have hstring : ∀ s, ∀ c ∈ writeString ascii s, P c := by
    intro s c hc
    rw [writeString, List.mem_cons, List.mem_append, List.mem_flatMap, List.mem_singleton] at hc
    rcases hc with rfl | ⟨d, -, hc⟩ | rfl
    · exact hpunct _ rfl
    · exact hescape d c hc
    · exact hpunct _ rfl
  have hsep : ∀ close, P close → ∀ ts : List (List Char), (∀ t ∈ ts, ∀ c ∈ t, P c) →
      ∀ c ∈ separated close ts, P c := by
    intro close hclose ts hts c hc
    rcases mem_separated hc with rfl | rfl | ⟨t, ht, hc⟩
    · exact hclose
    · exact hpunct _ rfl
    · exact hts t ht c hc
  induction v using induct with
  | null => exact hatom _ hv rfl
  | bool b => exact hatom _ hv rfl
  | float bits => exact hatom _ hv rfl
  | int i => exact hatom _ hv rfl
  | str s => exact hstring s
  | arr items ih =>
    rw [write_arr, List.forall_mem_cons]
    refine ⟨hpunct _ rfl, hsep _ (hpunct _ rfl) _ fun t ht => ?_⟩
    obtain ⟨w, hw, rfl⟩ := List.mem_map.mp ht
    exact ih w hw (((everywhere_arr p items).mp hv).2 w hw)
  | obj fields ih =>
    rw [write_obj, List.forall_mem_cons]
    refine ⟨hpunct _ rfl, hsep _ (hpunct _ rfl) _ fun t ht => ?_⟩
    obtain ⟨f, hf, rfl⟩ := List.mem_map.mp ht
    intro c hc
    rw [writeField, List.mem_append, List.mem_cons] at hc
    rcases hc with hc | rfl | hc
    · exact hstring f.1 c hc
    · exact hpunct _ rfl
    · exact ih f hf (((everywhere_obj p fields).mp hv).2 f hf) c hc

/-- The atoms of a plain document are natural numbers. -/
theorem forall_mem_write {P : Char → Prop} {v : Json} (hv : v.Plain)
    (hpunct : ∀ c, "\"[]\x7b\x7d,:".toList.contains c = true → P c)
    (hdigit : ∀ c, c.isDigit = true → P c) (hescape : ∀ c, ∀ d ∈ escape ascii c, P d) :
    ∀ c ∈ write ascii v, P c := by
  apply forall_mem_write_of_atoms hv hpunct _ hescape
  intro w hw ha
  cases w with
  | int i =>
    have hrange : 0 ≤ i ∧ i < 2 ^ 64 := by simpa [plainNode] using hw
    obtain ⟨n, rfl⟩ := Int.eq_ofNat_of_zero_le hrange.1
    rw [write_nat]
    exact fun c hc => hdigit c (Nat.isDigit_of_mem_toDigits (by decide) (by decide) hc)
  | null | bool _ | float _ => cases hw
  | str _ | arr _ | obj _ => cases ha

theorem null_not_mem_write (ascii : Bool) {v : Json} (hv : v.Plain) :
    Char.ofNat 0 ∉ write ascii v := fun h =>
  forall_mem_write (P := fun c => c ≠ Char.ofNat 0) hv (by rintro _ hc rfl; cases hc)
    (by rintro _ hc rfl; cases hc)
    (by rintro c _ hd rfl; exact null_not_mem_escape ascii c hd) _ h rfl

/-- With `ascii` a text has printable ASCII characters only. -/
theorem ascii_write {v : Json} (hv : v.Plain) : ∀ c ∈ write true v, 32 ≤ c.toNat ∧ c.toNat < 128 := by
  have hdigit : ∀ n : ℕ, n < 16 → 32 ≤ n.digitChar.toNat ∧ n.digitChar.toNat < 128 := by
    intro n hn
    interval_cases n <;> decide
  have hunit : ∀ n, n < 0x10000 → ∀ d ∈ unitText n, 32 ≤ d.toNat ∧ d.toNat < 128 := by
    intro n hn d hd
    simp only [unitText, List.mem_cons, List.not_mem_nil, or_false] at hd
    rcases hd with rfl | rfl | rfl | rfl | rfl | rfl
    · decide
    · decide
    all_goals exact hdigit _ (by omega)
  have hpunct : "\"[]\x7b\x7d,:".toList.all (fun c => 32 ≤ c.toNat ∧ c.toNat < 128) = true := rfl
  refine forall_mem_write hv ?_ ?_ ?_
  · intro c hc
    exact of_decide_eq_true (List.all_eq_true.mp hpunct c (List.contains_iff_mem.mp hc))
  · intro c hc
    rw [Char.isDigit, Bool.and_eq_true, decide_eq_true_eq, decide_eq_true_eq] at hc
    exact ⟨le_trans (by decide) (UInt32.le_iff_toNat_le.mp hc.1),
      lt_of_le_of_lt (UInt32.le_iff_toNat_le.mp hc.2) (by decide)⟩
  · intro c d hd
    have hvalid : c.toNat < 0xd800 ∨ 0xdfff < c.toNat ∧ c.toNat < 0x110000 := c.valid
    unfold escape at hd
    split at hd
    · next e he =>
      rcases List.mem_cons.mp hd with rfl | hd
      · decide
      obtain rfl := List.mem_singleton.mp hd
      unfold shortEscape at he
      split_ifs at he <;> · obtain rfl := Option.some.inj he; decide
    · split_ifs at hd with h₁ h₂
      · exact hunit _ h₂ d hd
      · rcases List.mem_append.mp hd with hd | hd
        · exact hunit _ (by omega) d hd
        · exact hunit _ (by omega) d hd
      · obtain rfl := List.mem_singleton.mp hd
        simp at h₁
        omega

theorem write_ne_nil (ascii : Bool) {v : Json} (hv : v.Plain) : write ascii v ≠ [] := by
  cases v with
  | null => cases hv
  | bool b => cases hv
  | float bits => cases hv
  | str s => simp [write, writeString]
  | arr items => simp [write_arr]
  | obj fields => simp [write_obj]
  | int i =>
    obtain ⟨n, rfl⟩ := Int.eq_ofNat_of_zero_le (plain_int.mp hv).1
    rw [write_nat]
    exact Nat.toDigits_ne_nil

/-! ### Lengths -/

theorem length_separated (close : Char) {ts : List (List Char)} (h : ts ≠ []) :
    (separated close ts).length = (ts.map fun t => t.length + 1).sum := by
  induction ts using separated.induct with
  | case1 => exact absurd rfl h
  | case2 t => simp [separated]
  | case3 t u ts ih =>
    rw [separated, List.length_append, List.length_cons, ih (List.cons_ne_nil _ _),
      List.map_cons (l := u :: ts), List.sum_cons]
    omega

theorem length_write_arr (ascii : Bool) {items : List Json} (h : items ≠ []) :
    (write ascii (.arr items)).length = (items.map fun v => (write ascii v).length + 1).sum + 1 := by
  have hne : items.map (write ascii) ≠ [] := by simpa using h
  rw [write_arr, List.length_cons, length_separated _ hne, List.map_map]
  rfl

theorem length_write_obj (ascii : Bool) {fields : List (String × Json)} (h : fields ≠ []) :
    (write ascii (.obj fields)).length =
      (fields.map fun f => (writeField ascii f).length + 1).sum + 1 := by
  have hne : fields.map (writeField ascii) ≠ [] := by simpa using h
  rw [write_obj, List.length_cons, length_separated _ hne, List.map_map]
  rfl

theorem length_writeField (ascii : Bool) (f : String × Json) :
    (writeField ascii f).length = (writeString ascii f.1).length + 1 + (write ascii f.2).length := by
  rw [writeField, List.length_append, List.length_cons]
  omega

/-- A document is longer than some of its fields together. -/
theorem length_fields_lt (ascii : Bool) {fs fields : List (String × Json)} (h : fs.Sublist fields) :
    (fs.map fun f => (write ascii f.2).length).sum < (write ascii (.obj fields)).length := by
  have hle : (fs.map fun f => (write ascii f.2).length).sum ≤
      (fields.map fun f => (writeField ascii f).length + 1).sum := by
    calc (fs.map fun f => (write ascii f.2).length).sum
        ≤ (fields.map fun f => (write ascii f.2).length).sum :=
          (h.map _).sum_le_sum fun _ _ => Nat.zero_le _
      _ ≤ (fields.map fun f => (writeField ascii f).length + 1).sum := by
          apply List.sum_le_sum
          intro f _
          rw [length_writeField]
          omega
  by_cases hne : fields = []
  · subst hne
    obtain rfl := List.sublist_nil.mp h
    simp [write_obj, separated]
  · rw [length_write_obj ascii hne]
    exact Nat.lt_succ_of_le hle

/-- A key whose characters are given; its text is not decoded. -/
theorem length_writeString_ofList (ascii : Bool) (s : List Char) :
    (writeString ascii (String.ofList s)).length = (s.flatMap (escape ascii)).length + 2 := by
  simp [writeString]

theorem length_key_le {n : ℕ} {s : List Char} (h : (s.flatMap (escape ascii)).length + 2 ≤ n) :
    (writeString ascii (String.ofList s)).length ≤ n := by
  rwa [length_writeString_ofList]

/-- Strings and keys of a document that take at most `n` characters each, as do its
numbers. -/
def Short (ascii : Bool) (n : ℕ) (v : Json) : Prop :=
  everywhere (fun w => match w with
    | .obj fields => fields.all fun f => (writeString ascii f.1).length ≤ n
    | .arr _ => true
    | leaf => (write ascii leaf).length ≤ n) v

instance (ascii : Bool) (n : ℕ) (v : Json) : Decidable (Short ascii n v) :=
  inferInstanceAs (Decidable (_ = true))

theorem short_arr {n : ℕ} {items : List Json} :
    Short ascii n (.arr items) ↔ ∀ v ∈ items, Short ascii n v := by
  simp only [Short, everywhere_arr, true_and]

theorem short_obj {n : ℕ} {fields : List (String × Json)} :
    Short ascii n (.obj fields) ↔
      ∀ f ∈ fields, (writeString ascii f.1).length ≤ n ∧ Short ascii n f.2 := by
  simp only [Short, everywhere_obj, List.all_eq_true, decide_eq_true_eq]
  exact ⟨fun h f hf => ⟨h.1 f hf, h.2 f hf⟩, fun h => ⟨fun f hf => (h f hf).1, fun f hf => (h f hf).2⟩⟩

theorem short_text {n : ℕ} {s : List Char} (h : (s.flatMap (escape ascii)).length + 2 ≤ n) :
    Short ascii n (.str (String.ofList s)) :=
  decide_eq_true (length_key_le h)

theorem Short.mono {m n : ℕ} (hmn : m ≤ n) {v : Json} (h : Short ascii m v) : Short ascii n v := by
  refine everywhere_mono ?_ v h
  intro w hw
  split at hw
  · rw [List.all_eq_true] at hw ⊢
    exact fun f hf => decide_eq_true ((of_decide_eq_true (hw f hf)).trans hmn)
  · rfl
  · exact decide_eq_true ((of_decide_eq_true hw).trans hmn)

/-- A text takes for every node at most its longest piece and a character beside it. -/
theorem length_write_le {n : ℕ} (hn : 2 ≤ n) {v : Json} (hv : Short ascii n v) :
    (write ascii v).length + 1 ≤ (n + 1) * nodes v := by
  have hleaf : ∀ w : Json, (write ascii w).length ≤ n → nodes w = 1 →
      (write ascii w).length + 1 ≤ (n + 1) * nodes w := fun w hw hnode => by
    rw [hnode]
    omega
  induction v using induct with
  | null => exact hleaf _ (of_decide_eq_true hv) rfl
  | bool b => exact hleaf _ (of_decide_eq_true hv) rfl
  | int i => exact hleaf _ (of_decide_eq_true hv) rfl
  | float bits => exact hleaf _ (of_decide_eq_true hv) rfl
  | str s => exact hleaf _ (of_decide_eq_true hv) rfl
  | arr items ih =>
    rw [short_arr] at hv
    rw [nodes_arr]
    by_cases hne : items = []
    · subst hne
      simp [write_arr, separated]
      omega
    have hsum : (items.map fun v => (write ascii v).length + 1).sum ≤
        (items.map fun v => (n + 1) * nodes v).sum :=
      List.sum_le_sum fun v hmem => ih v hmem (hv v hmem)
    rw [List.sum_map_mul_left] at hsum
    rw [length_write_arr ascii hne, mul_add]
    omega
  | obj fields ih =>
    rw [short_obj] at hv
    rw [nodes_obj]
    by_cases hne : fields = []
    · subst hne
      simp [write_obj, separated]
      omega
    have hsum : (fields.map fun f => (writeField ascii f).length + 1).sum ≤
        (fields.map fun f => (n + 1) * (nodes f.2 + 1)).sum := by
      refine List.sum_le_sum fun f hmem => ?_
      have := ih f hmem (hv f hmem).2
      have := (hv f hmem).1
      rw [length_writeField, mul_add]
      omega
    rw [List.sum_map_mul_left] at hsum
    rw [length_write_obj ascii hne, mul_add]
    omega

end Json

end CuTracer
