import CuTracer.Library.Hex
import Mathlib.Data.List.Basic

/-! SHA-256, from the bytes of a message to the hexadecimal digest. -/

namespace CuTracer.Sha256

/-! ### Words -/

def rotr (w n : UInt32) : UInt32 := w >>> n ||| w <<< (32 - n)

def wordOf (bytes : List UInt8) : UInt32 := bytes.foldl (fun w b => w <<< 8 ||| b.toUInt32) 0

/-- The first `n` words of some bytes. -/
def wordsOf : ℕ → List UInt8 → List UInt32
  | 0, _ => []
  | n + 1, bytes => wordOf (bytes.take 4) :: wordsOf n (bytes.drop 4)

def wordHex (w : UInt32) : List Char :=
  [28, 24, 20, 16, 12, 8, 4, 0].map fun n : ℕ => (w.toNat >>> n % 16).digitChar

/-! ### Compression -/

def initial : List UInt32 :=
  [0x6a09e667, 0xbb67ae85, 0x3c6ef372, 0xa54ff53a, 0x510e527f, 0x9b05688c, 0x1f83d9ab, 0x5be0cd19]

def constants : List UInt32 :=
  [0x428a2f98, 0x71374491, 0xb5c0fbcf, 0xe9b5dba5, 0x3956c25b, 0x59f111f1, 0x923f82a4, 0xab1c5ed5,
   0xd807aa98, 0x12835b01, 0x243185be, 0x550c7dc3, 0x72be5d74, 0x80deb1fe, 0x9bdc06a7, 0xc19bf174,
   0xe49b69c1, 0xefbe4786, 0x0fc19dc6, 0x240ca1cc, 0x2de92c6f, 0x4a7484aa, 0x5cb0a9dc, 0x76f988da,
   0x983e5152, 0xa831c66d, 0xb00327c8, 0xbf597fc7, 0xc6e00bf3, 0xd5a79147, 0x06ca6351, 0x14292967,
   0x27b70a85, 0x2e1b2138, 0x4d2c6dfc, 0x53380d13, 0x650a7354, 0x766a0abb, 0x81c2c92e, 0x92722c85,
   0xa2bfe8a1, 0xa81a664b, 0xc24b8b70, 0xc76c51a3, 0xd192e819, 0xd6990624, 0xf40e3585, 0x106aa070,
   0x19a4c116, 0x1e376c08, 0x2748774c, 0x34b0bcb5, 0x391c0cb3, 0x4ed8aa4a, 0x5b9cca4f, 0x682e6ff3,
   0x748f82ee, 0x78a5636f, 0x84c87814, 0x8cc70208, 0x90befffa, 0xa4506ceb, 0xbef9a3f7, 0xc67178f2]

/-- The next word of a schedule, which is kept with its last word first. -/
def nextWord (ws : List UInt32) : UInt32 :=
  let a := ws.getD 14 0
  let b := ws.getD 1 0
  let small0 := rotr a 7 ^^^ rotr a 18 ^^^ a >>> 3
  let small1 := rotr b 17 ^^^ rotr b 19 ^^^ b >>> 10
  ws.getD 15 0 + small0 + ws.getD 6 0 + small1

def schedule (block : List UInt8) : List UInt32 :=
  ((fun ws => nextWord ws :: ws)^[48] (wordsOf 16 block).reverse).reverse

def round (state : List UInt32) (kw : UInt32 × UInt32) : List UInt32 :=
  match state with
  | [a, b, c, d, e, f, g, h] =>
    let big1 := rotr e 6 ^^^ rotr e 11 ^^^ rotr e 25
    let t1 := h + big1 + (e &&& f ^^^ ~~~e &&& g) + kw.1 + kw.2
    let big0 := rotr a 2 ^^^ rotr a 13 ^^^ rotr a 22
    let t2 := big0 + (a &&& b ^^^ a &&& c ^^^ b &&& c)
    [t1 + t2, a, b, c, d + t1, e, f, g]
  | other => other

def compress (state : List UInt32) (block : List UInt8) : List UInt32 :=
  List.zipWith (· + ·) state ((constants.zip (schedule block)).foldl round state)

/-! ### Messages -/

/-- A message with a one bit, zeros and its length in bits. -/
def padded (bytes : List UInt8) : List UInt8 :=
  bytes ++ 0x80 :: (List.replicate ((119 - bytes.length % 64) % 64) 0 ++
    [56, 48, 40, 32, 24, 16, 8, 0].map fun n : ℕ => UInt8.ofNat ((8 * bytes.length) >>> n))

def blocks : ℕ → List UInt8 → List (List UInt8)
  | 0, _ => []
  | n + 1, bytes => bytes.take 64 :: blocks n (bytes.drop 64)

def hash256HexString (bytes : List UInt8) : String :=
  String.ofList (((blocks ((padded bytes).length / 64) (padded bytes)).foldl compress
    initial).flatMap wordHex)

/-! ### Lengths -/

theorem length_round (state : List UInt32) (kw : UInt32 × UInt32) :
    (round state kw).length = state.length := by
  unfold round
  split <;> rfl

theorem length_compress (state : List UInt32) (block : List UInt8) :
    (compress state block).length = state.length := by
  have h : ∀ (kws : List (UInt32 × UInt32)) (s : List UInt32),
      (kws.foldl round s).length = s.length := fun kws => by
    induction kws with
    | nil => exact fun s => rfl
    | cons kw kws ih => exact fun s => (ih _).trans (length_round s kw)
  rw [compress, List.length_zipWith, h, min_self]

/-- A digest has 64 characters. -/
theorem length_hash256HexString (bytes : List UInt8) : (hash256HexString bytes).length = 64 := by
  have h : ∀ (bs : List (List UInt8)) (s : List UInt32),
      (bs.foldl compress s).length = s.length := fun bs => by
    induction bs with
    | nil => exact fun s => rfl
    | cons b bs ih => exact fun s => (ih _).trans (length_compress s b)
  rw [hash256HexString, String.length_ofList, List.length_flatMap]
  simp [wordHex, h, initial]

end CuTracer.Sha256
