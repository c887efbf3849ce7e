import CuTracer.Amdgcn.Text
import CuTracer.Library.Regex

/-! The lines of a Compute Sanitizer log, and the patterns that tell what they say. -/

namespace CuTracer.ComputeSanitizer

abbrev Text := List Char

/-- What Unicode says of a character: `\w`, and the value of what is `\d`. -/
structure CharTable where
  word : Char → Bool
  digit : Char → Option ℕ

def CharTable.isDigit (u : CharTable) (c : Char) : Bool := (u.digit c).isSome

/-- `int(...)` of digits, however many. -/
def CharTable.int (u : CharTable) (digits : Text) : ℕ :=
  digits.foldl (fun n c => 10 * n + (u.digit c).getD 0) 0

def CharTable.ascii : CharTable where
  word c := c.isAlphanum || c = '_'
  digit c := if c.isDigit then some (c.toNat - '0'.toNat) else none

def isHexDigit (c : Char) : Bool :=
  ('0' ≤ c && c ≤ '9') || ('a' ≤ c && c ≤ 'f') || ('A' ≤ c && c ≤ 'F')

/-- `.`. -/
def isDot (c : Char) : Bool := c ≠ '\n'

def startsWith (s : String) (text : Text) : Bool := s.toList.isPrefixOf text

/-- `s in text`. -/
def contains (s : String) (text : Text) : Bool := text.tails.any (startsWith s)

/-! ### Lines -/

def endsLine (c : Char) : Bool :=
  ['\n', '\r', '\x0b', '\x0c', '\x1c', '\x1d', '\x1e', '\u0085', '\u2028', '\u2029'].contains c

/-- `str.splitlines()`. -/
def splitLines : Text → List Text
  | [] => []
  | '\r' :: '\n' :: cs => [] :: splitLines cs
  | c :: cs =>
    if endsLine c then [] :: splitLines cs
    else match splitLines cs with
      | [] => [[c]]
      | l :: ls => (c :: l) :: ls

/-- `_sanitizer_body`: what follows the first marker. -/
def sanitizerBody : Text → Option Text
  | [] => none
  | c :: cs =>
    if startsWith "========= " (c :: cs) then some (Amdgcn.strip ((c :: cs).drop 9))
    else sanitizerBody cs

/-! ### Patterns -/

section Patterns

open Regex

variable (u : CharTable)

def lit (s : String) : Regex := .text s.toList

def word : Regex := .many u.word 1 false
def digits : Regex := .many u.isDigit 1 false
def spaces : Regex := .many Amdgcn.isSpace 0 false
def nonSpaces : Regex := .many (fun c => !Amdgcn.isSpace c) 1 false
def hex : Regex := chain [lit "0x", .many isHexDigit 1 false]
def anyLazy (atLeast : ℕ) : Regex := .many isDot atLeast true

/-- ` in FILE:LINE`. -/
def inFile : Regex := chain [lit " in ", .group "file" (anyLazy 1), lit ":", .group "line" (digits u)]

/-- `TYPE access at FUNC+OFFSET in FILE:LINE`. -/
def accessAt : Regex :=
  chain [.group "type" (word u), lit " access at ", .group "func" nonSpaces, lit "+",
    .group "offset" hex, inFile u]

def headerRe : Regex :=
  chain [.group "level" (.alt (lit "Error") (lit "Warning")), lit ": Race reported between ",
    accessAt u, spaces, .atEnd]

/-- `[N hazards]`. -/
def hazardCount : Regex :=
  chain [spaces, lit "[", .group "hazards" (digits u), lit " hazard", opt (lit "s"), lit "]"]

def conflictRe : Regex := chain [lit "and ", accessAt u, opt (hazardCount u), spaces, .atEnd]

def summaryRe : Regex :=
  chain [lit "RACECHECK SUMMARY: ", .group "total" (digits u), lit " hazard", opt (lit "s"),
    lit " displayed (", .group "errors" (digits u), lit " error", opt (lit "s"), lit ", ",
    .group "warnings" (digits u), lit " warning", opt (lit "s"), lit ")", .atEnd]

def invalidAccessRe : Regex :=
  chain [lit "Potential invalid __shared__ ", .group "type" (word u), lit " of size ",
    .group "size" (digits u), lit " bytes", spaces, .atEnd]

def invalidSiteRe : Regex :=
  chain [lit "at ", .group "func" (anyLazy 1), lit "+", .group "offset" hex, opt (inFile u), spaces,
    .atEnd]

def errorSummaryRe : Regex :=
  chain [lit "ERROR SUMMARY: ", .group "errors" (digits u), lit " error", opt (lit "s"), .atEnd]

def errorNotPrintedRe : Regex :=
  chain [lit "ERROR SUMMARY: ", .group "count" (digits u), lit " error", opt (lit "s"),
    lit " were not printed", .boundary u.word]

def siteRe : Regex := chain [lit "at ", .group "site" (.many isDot 1 false), .atEnd]

def siteSourceRe : Regex :=
  chain [.group "symbol" (anyLazy 0), .many Amdgcn.isSpace 1 false, lit "in ",
    .group "file" (anyLazy 1), lit ":", .group "line" (digits u), .atEnd]

def hazardSuffixRe : Regex := .seq (hazardCount u) .atEnd

def memcheckHostMessageRe : Regex := .seq (.alt (lit "Program hit") (lit "Leaked")) (lit " ")

def memcheckMessageRe : Regex :=
  .seq (.alt (lit "Invalid") (.alt (lit "Misaligned") (.alt (lit "Out of bounds")
    (.alt (lit "Program hit") (lit "Leaked"))))) (lit " ")

def memcheckAddressSuffixRe : Regex :=
  chain [.many Amdgcn.isSpace 1 false, lit "at ", hex, .atEnd]

def offsetRe : Regex := chain [lit "+", hex, .atEnd]

end Patterns

/-- `re.sub` of what ends a line by nothing. -/
def removeSuffix (r : Regex) (text : Text) : Text :=
  match r.search none text with
  | some (before, _, after) => before ++ after
  | none => text

end CuTracer.ComputeSanitizer
