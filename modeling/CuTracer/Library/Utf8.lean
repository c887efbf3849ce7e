import CuTracer.Library.JsonText

/-! UTF-8 as a reader of bytes meets it: the longest start of a text within a number of bytes, and
decoding that puts a replacement character for each longest piece that no character starts with.
A text that is decoded so takes no fewer bytes than were read. -/

namespace CuTracer.Utf8

/-- How many bytes a text takes. -/
def size (cs : List Char) : ℕ := (cs.map Char.utf8Size).sum

@[simp] theorem size_nil : size [] = 0 := rfl

@[simp] theorem size_cons (c : Char) (cs : List Char) : size (c :: cs) = c.utf8Size + size cs := rfl

@[simp] theorem size_append (cs ds : List Char) : size (cs ++ ds) = size cs + size ds := by
  simp [size]

theorem utf8ByteSize_ofList (cs : List Char) : (String.ofList cs).utf8ByteSize = size cs := by
  rw [← length_utf8, utf8_ofList, List.length_flatMap]
  simp [size, String.length_utf8EncodeChar]

/-! ### The start of a text -/

/-- The longest start of a text that takes at most so many bytes. -/
def fitting : ℕ → List Char → List Char
  | _, [] => []
  | n, c :: cs => if c.utf8Size ≤ n then c :: fitting (n - c.utf8Size) cs else []

theorem fitting_prefix (n : ℕ) (cs : List Char) : fitting n cs <+: cs := by
  induction cs generalizing n with
  | nil => exact List.nil_prefix
  | cons c cs ih =>
    rw [fitting]
    split_ifs
    · exact List.cons_prefix_cons.mpr ⟨rfl, ih _⟩
    · exact List.nil_prefix

/-! ### Decoding -/

/-- The ranges of the bytes that follow a first byte. -/
def following (first : ℕ) : Option (List (ℕ × ℕ)) :=
  if first < 0x80 then some []
  else if first < 0xc2 then none
  else if first < 0xe0 then some [(0x80, 0xbf)]
  else if first = 0xe0 then some [(0xa0, 0xbf), (0x80, 0xbf)]
  else if first = 0xed then some [(0x80, 0x9f), (0x80, 0xbf)]
  else if first < 0xf0 then some [(0x80, 0xbf), (0x80, 0xbf)]
  else if first = 0xf0 then some [(0x90, 0xbf), (0x80, 0xbf), (0x80, 0xbf)]
  else if first < 0xf4 then some [(0x80, 0xbf), (0x80, 0xbf), (0x80, 0xbf)]
  else if first = 0xf4 then some [(0x80, 0x8f), (0x80, 0xbf), (0x80, 0xbf)]
  else none

/-- How many bytes are in their ranges, from the first on. -/
def matching : List (ℕ × ℕ) → List UInt8 → ℕ
  | (low, high) :: ranges, b :: bs =>
    if low ≤ b.toNat ∧ b.toNat ≤ high then matching ranges bs + 1 else 0
  | _, _ => 0

/-- The number that a first byte and those that follow it encode. -/
def codePoint (first : ℕ) (bytes : List UInt8) : ℕ :=
  bytes.foldl (fun n b => n * 64 + b.toNat % 64)
    (if bytes = [] then first else first % 2 ^ (6 - bytes.length))

def replacement : Char := Char.ofNat 0xfffd

/-- The character that bytes start with, and how many bytes after the first it takes. -/
def firstChar (b : UInt8) (bs : List UInt8) : Char × ℕ :=
  match following b.toNat with
  | none => (replacement, 0)
  | some ranges =>
    if matching ranges bs = ranges.length then
      (Char.ofNat (codePoint b.toNat (bs.take ranges.length)), ranges.length)
    else (replacement, matching ranges bs)

/-- The text of bytes, of which some are passed over first. -/
def decodeFrom : ℕ → List UInt8 → List Char
  | _, [] => []
  | skip + 1, _ :: bs => decodeFrom skip bs
  | 0, b :: bs => (firstChar b bs).1 :: decodeFrom (firstChar b bs).2 bs

/-- `bytes.decode("utf-8", errors="replace")`. -/
def decodeReplace (bytes : List UInt8) : List Char := decodeFrom 0 bytes

example : decodeReplace [0x61, 0xe2, 0x82, 0xac, 0xe2, 0x82, 0xff] =
    ['a', '€', replacement, replacement] := by decide

theorem matching_le (ranges : List (ℕ × ℕ)) (bs : List UInt8) : matching ranges bs ≤ ranges.length := by
  induction ranges generalizing bs with
  | nil => cases bs <;> exact Nat.zero_le _
  | cons range ranges ih =>
    cases bs with
    | nil => exact Nat.zero_le _
    | cons b bs =>
      rw [matching, List.length_cons]
      have := ih bs
      split_ifs <;> omega

theorem matching_eq_length {range : ℕ × ℕ} {ranges : List (ℕ × ℕ)} {bs : List UInt8}
    (h : matching (range :: ranges) bs = (range :: ranges).length) :
    ∃ b bs', bs = b :: bs' ∧ range.1 ≤ b.toNat ∧ b.toNat ≤ range.2 ∧ matching ranges bs' = ranges.length := by
  cases bs with
  | nil => cases h
  | cons b bs =>
    rw [matching] at h
    split_ifs at h with hb
    exact ⟨b, bs, rfl, hb.1, hb.2, Nat.succ.inj h⟩

theorem le_utf8Size {c : Char} : 1 ≤ c.utf8Size ∧ (0x80 ≤ c.toNat → 2 ≤ c.utf8Size) ∧
    (0x800 ≤ c.toNat → 3 ≤ c.utf8Size) ∧ (0x10000 ≤ c.toNat → 4 ≤ c.utf8Size) := by
  have hle (k : UInt32) : c.val ≤ k ↔ c.toNat ≤ k.toNat := UInt32.le_iff_toNat_le
  have h1 : (0x7f : UInt32).toNat = 0x7f := rfl
  have h2 : (0x7ff : UInt32).toNat = 0x7ff := rfl
  have h3 : (0xffff : UInt32).toNat = 0xffff := rfl
  rcases c.utf8Size_eq with h | h | h | h
  · have := Char.utf8Size_eq_one_iff.mp h
    rw [show (127 : UInt32) = 0x7f from rfl, hle, h1] at this
    omega
  · have := (Char.utf8Size_eq_two_iff.mp h).2
    rw [hle, h2] at this
    omega
  · have := (Char.utf8Size_eq_three_iff.mp h).2
    rw [hle, h3] at this
    omega
  · omega

/-- A first byte takes none, one, two or three bytes after it. -/
theorem following_cases {first : ℕ} {ranges : List (ℕ × ℕ)} (h : following first = some ranges) :
    (ranges = [] ∧ first < 0x80) ∨ (ranges = [(0x80, 0xbf)] ∧ 0xc2 ≤ first ∧ first < 0xe0) ∨
      (∃ low high, ranges = [(low, high), (0x80, 0xbf)] ∧ 0xe0 ≤ first ∧ first < 0xf0 ∧ 0x80 ≤ low ∧
        high ≤ 0xbf ∧ (first = 0xe0 → 0xa0 ≤ low) ∧ (first = 0xed → high ≤ 0x9f)) ∨
      ∃ low high, ranges = [(low, high), (0x80, 0xbf), (0x80, 0xbf)] ∧ 0xf0 ≤ first ∧ first ≤ 0xf4 ∧
        0x80 ≤ low ∧ high ≤ 0xbf ∧ (first = 0xf0 → 0x90 ≤ low) ∧ (first = 0xf4 → high ≤ 0x8f) := by
  unfold following at h
  split_ifs at h with h1 h2 h3 h4 h5 h6 h7 h8 h9 <;> cases h
  · exact .inl ⟨rfl, h1⟩
  · exact .inr (.inl ⟨rfl, by omega⟩)
  · exact .inr (.inr (.inl ⟨_, _, rfl, by omega⟩))
  · exact .inr (.inr (.inl ⟨_, _, rfl, by omega⟩))
  · exact .inr (.inr (.inl ⟨_, _, rfl, by omega⟩))
  · exact .inr (.inr (.inr ⟨_, _, rfl, by omega⟩))
  · exact .inr (.inr (.inr ⟨_, _, rfl, by omega⟩))
  · exact .inr (.inr (.inr ⟨_, _, rfl, by omega⟩))

/-- The character that bytes encode takes as many bytes. -/
theorem size_codePoint {first : ℕ} {ranges : List (ℕ × ℕ)} {bs : List UInt8}
    (h : following first = some ranges) (hmatch : matching ranges bs = ranges.length) :
    ranges.length + 1 ≤ (Char.ofNat (codePoint first (bs.take ranges.length))).utf8Size := by
  have hsize {n : ℕ} (hn : n < 0xd800 ∨ 0xdfff < n ∧ n < 0x110000) :
      (0x80 ≤ n → 2 ≤ (Char.ofNat n).utf8Size) ∧ (0x800 ≤ n → 3 ≤ (Char.ofNat n).utf8Size) ∧
        (0x10000 ≤ n → 4 ≤ (Char.ofNat n).utf8Size) := by
    have hnat : (Char.ofNat n).toNat = n := by
      rw [Char.ofNat, dif_pos hn]
      rfl
    have hle := (le_utf8Size (c := Char.ofNat n)).2
    rwa [hnat] at hle
  obtain ⟨rfl, -⟩ | ⟨rfl, hfirst⟩ | ⟨low, high, rfl, hfirst⟩ | ⟨low, high, rfl, hfirst⟩ := following_cases h
  · exact le_utf8Size.1
  · obtain ⟨b₁, bs, rfl, hlow₁, hhigh₁, -⟩ := matching_eq_length hmatch
    have hcode : codePoint first ((b₁ :: bs).take 1) = first % 32 * 64 + b₁.toNat % 64 := by simp [codePoint]
    rw [List.length_singleton, hcode]
    exact (hsize (by omega)).1 (by omega)
  · obtain ⟨b₁, bs, rfl, hlow₁, hhigh₁, hmatch₁⟩ := matching_eq_length hmatch
    obtain ⟨b₂, bs, rfl, hlow₂, hhigh₂, -⟩ := matching_eq_length hmatch₁
    have hcode : codePoint first ((b₁ :: b₂ :: bs).take 2) =
        (first % 16 * 64 + b₁.toNat % 64) * 64 + b₂.toNat % 64 := by simp [codePoint]
    simp only [List.length_cons, List.length_nil, Nat.zero_add, Nat.reduceAdd] at hlow₁ hhigh₁ ⊢
    rw [hcode]
    exact (hsize (by omega)).2.1 (by omega)
  · obtain ⟨b₁, bs, rfl, hlow₁, hhigh₁, hmatch₁⟩ := matching_eq_length hmatch
    obtain ⟨b₂, bs, rfl, hlow₂, hhigh₂, hmatch₂⟩ := matching_eq_length hmatch₁
    obtain ⟨b₃, bs, rfl, hlow₃, hhigh₃, -⟩ := matching_eq_length hmatch₂
    have hcode : codePoint first ((b₁ :: b₂ :: b₃ :: bs).take 3) =
        ((first % 8 * 64 + b₁.toNat % 64) * 64 + b₂.toNat % 64) * 64 + b₃.toNat % 64 := by simp [codePoint]
    simp only [List.length_cons, List.length_nil, Nat.zero_add, Nat.reduceAdd] at hlow₁ hhigh₁ ⊢
    rw [hcode]
    exact (hsize (by omega)).2.2 (by omega)

/-- No character takes fewer bytes than it was decoded from. -/
theorem firstChar_size (b : UInt8) (bs : List UInt8) :
    (firstChar b bs).2 + 1 ≤ (firstChar b bs).1.utf8Size := by
  have hreplacement : replacement.utf8Size = 3 := by decide
  unfold firstChar
  cases hfollowing : following b.toNat with
  | none =>
    dsimp only
    omega
  | some ranges =>
    dsimp only
    split_ifs with hmatch
    · exact size_codePoint hfollowing hmatch
    · have hle := matching_le ranges bs
      have hlen : ranges.length ≤ 3 := by
        obtain ⟨rfl, -⟩ | ⟨rfl, -⟩ | ⟨_, _, rfl, -⟩ | ⟨_, _, rfl, -⟩ := following_cases hfollowing <;> simp
      dsimp only
      omega

theorem length_le_size_decodeFrom (skip : ℕ) (bytes : List UInt8) :
    bytes.length ≤ size (decodeFrom skip bytes) + skip := by
  induction bytes generalizing skip with
  | nil => exact Nat.zero_le _
  | cons b bs ih =>
    cases skip with
    | zero =>
      have hfirst := firstChar_size b bs
      have hrest := ih (firstChar b bs).2
      rw [decodeFrom, size_cons, List.length_cons]
      omega
    | succ skip =>
      have hrest := ih skip
      rw [decodeFrom, List.length_cons]
      omega

/-- A text takes no fewer bytes than it was decoded from. -/
theorem length_le_size_decodeReplace (bytes : List UInt8) : bytes.length ≤ size (decodeReplace bytes) :=
  length_le_size_decodeFrom 0 bytes

end CuTracer.Utf8
