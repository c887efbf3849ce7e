import CuTracer.Amdgcn.Text
import CuTracer.MemoryModel.Event

/-! The records of a trace and the event that one dynamic instruction is made into: its memory
record and its register record, read by what its SASS text says it does. -/

namespace CuTracer.MemoryModel

open Amdgcn (Text isSpace strip)

/-- What `build_events` may raise on a malformed trace. -/
inductive TraceError where
  | valueError | indexError | keyError
  deriving DecidableEq

/-! ### Instructions -/

def isWord (c : Char) : Bool := c.isAlphanum || c = '_'

/-- A prefix that ends where a word does. -/
def hasWord (word : String) (mnemonic : Text) : Bool :=
  word.toList.isPrefixOf mnemonic && !((mnemonic.drop word.length).head?.any isWord)

def hasPrefix (word : String) (mnemonic : Text) : Bool := word.toList.isPrefixOf mnemonic

/-- `word in text`. -/
def hasText (word : String) (text : Text) : Bool := text.tails.any fun rest => word.toList.isPrefixOf rest

/-- `OPCODES`: a test of the mnemonic, the kind and the size; no size is one that the mnemonic
gives, and size zero an unknown extent. -/
def opcodes : List ((Text → Bool) × Kind × Option ℕ) := [
  (hasWord "LDSM", .genericR, some 16),
  (hasWord "LDS", .genericR, none),
  (hasWord "STSM", .genericW, some 16),
  (hasWord "STS", .genericW, none),
  (fun mn => hasWord "ATOMS" mn || hasWord "REDS" mn, .genericRw, none),
  (hasWord "LDGSTS", .cpasyncW, none),
  (hasWord "UGETNEXTWORKID", .asyncW, some 16),
  (hasWord "UTMALDG", .asyncW, some 0),
  (fun mn => hasWord "UTMASTG" mn || hasWord "UTMAREDG" mn, .asyncR, some 0),
  (fun mn => hasWord "UBLKCP" mn || hasWord "UBLKRED" mn, .asyncUnresolved, some 0),
  (fun mn => ["UTCHMMA", "UTCIMMA", "UTCQMMA", "UTCOMMA", "UTCMMA", "UTCCP", "HGMMA", "IGMMA", "QGMMA", "BGMMA"].any
    fun word => hasWord word mn, .asyncDesc, some 0),
  (hasWord "FENCE.VIEW.ASYNC.S", .fenceS, some 0),
  (hasPrefix "SYNCS.ARRIVE.TRANS64.RED.A0", .mbarTx, some 0),
  (hasPrefix "SYNCS.ARRIVE.TRANS64.A0", .mbarTx, some 0),
  (hasWord "SYNCS.ARRIVE.TRANS64.RED", .mbarRemote, some 0),
  (hasPrefix "SYNCS.ARRIVE", .mbarArrive, some 0),
  (hasPrefix "SYNCS.PHASECHK", .mbarWait, some 0),
  (hasWord "SYNCS.EXCH.64", .mbarInit, some 0),
  (fun mn => hasWord "BAR.SYNC" mn || hasWord "BAR.RED" mn, .barSync, some 0),
  (hasWord "BAR.ARV", .barArv, some 0),
  (hasWord "WARPSYNC", .warpSync, some 0)]

/-- `s.split(None, 1)`. -/
def splitOnce (s : Text) : List Text :=
  let s := s.dropWhile isSpace
  let word := s.takeWhile fun c => !isSpace c
  let rest := (s.dropWhile fun c => !isSpace c).dropWhile isSpace
  if word = [] then [] else if rest = [] then [word] else [word, rest]

/-- `split_sass`: guard predicate, mnemonic and operands. -/
def splitSass (sass : Text) : Except TraceError (Option Text × Text × Text) := do
  let s := strip ((strip sass).reverse.dropWhile (· = ';')).reverse
  let (guard, s) ←
    if s.head? = some '@' then
      match splitOnce s with
      | [guard, rest] => .ok (some guard, rest)
      | _ => .error .valueError
    else .ok (none, s)
  match splitOnce s with
  | [] => .error .indexError
  | mn :: rest => .ok (guard, mn, rest.headD [])

def classify (mnemonic : Text) : Option (Kind × Option ℕ) :=
  (opcodes.find? fun entry => entry.1 mnemonic).map Prod.snd

def accessSize (mnemonic : Text) : ℕ :=
  (([(".128", 16), (".64", 8), (".U16", 2), (".S16", 2), (".U8", 1), (".S8", 1)] : List (String × ℕ)).find?
    fun entry => hasText entry.1 mnemonic).elim 4 Prod.snd

/-- An entry of `static`. -/
structure StaticInfo where
  sass : String
  guard : Option Text
  mn : Text
  ops : Text
  kind : Option Kind
  size : Option ℕ
  deriving DecidableEq

def staticInfo (sass : String) : Except TraceError StaticInfo := do
  let (guard, mn, ops) ← splitSass sass.toList
  .ok ⟨sass, guard, mn, ops, (classify mn).map Prod.fst, (classify mn).bind Prod.snd⟩

/-- `static`, from the `instructions` of the metadata record. -/
def loadStatic (instructions : List (ℕ × String)) : Except TraceError (Dict ℕ StaticInfo) :=
  instructions.foldlM (fun static e => do
    let info ← staticInfo e.2
    .ok (static.insert e.1 info)) .empty

variable (info : StaticInfo)

/-- `size or access_size(mn)`. -/
def StaticInfo.byteSize : ℕ :=
  match info.size with
  | some (n + 1) => n + 1
  | _ => accessSize info.mn

/-- `size or 1`. -/
def StaticInfo.extent : ℕ := max 1 (info.size.getD 0)

theorem accessSize_pos (mn : Text) : 0 < accessSize mn := by
  unfold accessSize
  cases hfind : List.find? (fun entry : String × ℕ => hasText entry.1 mn)
    [(".128", 16), (".64", 8), (".U16", 2), (".S16", 2), (".U8", 1), (".S8", 1)] with
  | none => simp
  | some entry =>
    have hmem := List.mem_of_find?_eq_some hfind
    simp only [List.mem_cons, List.not_mem_nil, or_false] at hmem
    rcases hmem with rfl | rfl | rfl | rfl | rfl | rfl <;> simp

theorem StaticInfo.byteSize_pos : 0 < info.byteSize := by
  unfold byteSize
  split
  · omega
  · exact accessSize_pos info.mn

theorem StaticInfo.extent_pos :
    0 < info.extent := Nat.lt_of_lt_of_le Nat.zero_lt_one (le_max_left 1 _)

/-! ### Records -/

structure RegTrace where
  cta : Cta
  warp : ℕ
  pc : String
  opcodeId : ℕ
  traceIndex : Option ℤ
  activeMask : Option ℕ
  regsIndices : List ℕ
  regs : List (List ℕ)
  uregsIndices : List ℕ
  uregs : List ℕ
  deriving DecidableEq

/-- `extra_addrs` is what other records of the instruction add. -/
structure MemAddrTrace where
  cta : Cta
  warp : ℕ
  pc : String
  opcodeId : ℕ
  traceIndex : Option ℤ
  activeMask : Option ℕ
  addrs : List ℤ
  extraAddrs : List ℤ
  deriving DecidableEq

inductive Record where
  | reg (r : RegTrace)
  | mem (m : MemAddrTrace)
  deriving DecidableEq

namespace Record

def key : Record → WarpKey
  | reg r => (r.cta, r.warp)
  | mem m => (m.cta, m.warp)

def pc : Record → String
  | reg r => r.pc
  | mem m => m.pc

def opcodeId : Record → ℕ
  | reg r => r.opcodeId
  | mem m => m.opcodeId

def traceIndex : Record → Option ℤ
  | reg r => r.traceIndex
  | mem m => m.traceIndex

def activeMask : Record → Option ℕ
  | reg r => r.activeMask
  | mem m => m.activeMask

def regsIndices : Record → List ℕ
  | reg r => r.regsIndices
  | mem _ => []

def regs : Record → List (List ℕ)
  | reg r => r.regs
  | mem _ => []

def uregs : Record → List (ℕ × ℕ)
  | reg r => r.uregsIndices.zip r.uregs
  | mem _ => []

end Record

/-- `int(rec.get("active_mask", "0xffffffff"), 16)`. -/
def maskOf (mask : Option ℕ) : ℕ := mask.getD 0xffffffff

def activeLanes {α : Type} (mask : ℕ) (items : List α) : List α :=
  (items.zipIdx.filter fun x => mask.testBit x.2).map Prod.fst

def MemAddrTrace.lanes (m : MemAddrTrace) : List ℤ := activeLanes (maskOf m.activeMask) m.addrs

/-! ### Operands -/

/-- The texts between brackets; the state is what was read since an open bracket, last first. -/
def brackets : Option Text → Text → List Text
  | _, [] => []
  | none, c :: rest => if c = '[' then brackets (some []) rest else brackets none rest
  | some inside, c :: rest =>
    if c = ']' then
      if inside = [] then brackets none rest else inside.reverse :: brackets none rest
    else brackets (some (c :: inside)) rest

/-- The sum of the terms; a term that names no known uniform register makes it unknown. -/
def sumTerms (uregs : List (ℕ × ℕ)) : ℤ → List Text → Except TraceError (Option ℤ)
  | total, [] => .ok (some total)
  | total, term :: terms =>
    if hasPrefix "0x" term then
      match Amdgcn.prefixed 16 (strip (term.drop 2)) with
      | some n => sumTerms uregs (total + n) terms
      | none => .error .valueError
    else if term = "URZ".toList ∨ term = "RZ".toList then sumTerms uregs total terms
    else if hasPrefix "UR" term ∧ term.drop 2 ≠ [] ∧ (term.drop 2).all Char.isDigit then
      match uregs.reverse.lookup (Nat.ofDigitChars 10 (term.drop 2) 0) with
      | some n => sumTerms uregs (total + n) terms
      | none => .ok none
    else .ok none

def bracketValue (operands : Text) (which : ℕ) (uregs : List (ℕ × ℕ)) : Except TraceError (Option ℤ) :=
  match (brackets none operands)[which]? with
  | none => .ok none
  | some found => sumTerms uregs 0 ((found.filter (· ≠ ' ')).splitOn '+')

def laneValues (rec : Record) (n mask : ℕ) : Except TraceError (Option (List ℕ)) :=
  if rec.regsIndices.contains n then
    match rec.regs[rec.regsIndices.idxOf n]? with
    | some values => .ok (some (activeLanes mask (values.take 32)).dedup)
    | none => .error .indexError
  else .ok none

def regValue (rec : Record) (n mask : ℕ) : Except TraceError (Option ℕ) := do
  match ← laneValues rec n mask with
  | some [value] => .ok (some value)
  | _ => .ok none

/-- The number of a text such as `R12`. -/
def registerNumber (text : Text) : Option ℕ :=
  match text with
  | 'R' :: digits => if digits ≠ [] ∧ digits.all Char.isDigit then some (Nat.ofDigitChars 10 digits 0) else none
  | _ => none

/-- Whether a text is a hexadecimal or decimal number. -/
def isImmediate (text : Text) : Bool :=
  (hasPrefix "0x" text && !(text.drop 2).isEmpty && (text.drop 2).all fun c => (Amdgcn.digitValue 16 c).isSome) ||
    (!text.isEmpty && text.all Char.isDigit)

/-- `int(text, 0)`. -/
def immediateValue (text : Text) : Except TraceError ℕ :=
  match Amdgcn.literal text with
  | some n => .ok n
  | none => .error .valueError

/-- The register after the first `],` that a register follows. -/
def waitRegister : Text → Option ℕ
  | [] => none
  | c :: rest =>
    let register := rest.tail.dropWhile isSpace
    let digits := register.tail.takeWhile Char.isDigit
    if c = ']' ∧ rest.head? = some ',' ∧ register.head? = some 'R' ∧ digits ≠ [] then
      some (Nat.ofDigitChars 10 digits 0)
    else waitRegister rest

/-! ### Events -/

def rangeOfSize (lo : ℤ) (size : ℕ) (h : 0 < size) : Range where
  lo := lo
  hi := lo + size
  lt := Int.lt_add_of_pos_right lo (Int.natCast_pos.mpr h)

def Kind.isShared : Kind → Bool
  | .genericR | .genericW | .genericRw | .cpasyncW => true
  | _ => false

def footprint (shared : List ℤ) : List Range :=
  (sortedSet shared).map fun a => rangeOfSize a info.byteSize info.byteSize_pos

/-- A generic access or a `cp.async`. -/
def emitShared (lanes : List ℤ) (ev : Event) : Event :=
  let shared := lanes.filter fun a => InWindow a
  { ev with
    kind := if lanes ≠ [] ∧ shared = [] then none else ev.kind
    ranges := footprint info shared
    flags := (if lanes = [] ∧ shared = [] then [.operandUnresolved] else []) ++
      if hasPrefix "LDSM" info.mn || hasPrefix "STSM" info.mn then [.matrixFootprintApprox] else [] }

/-- The barrier that a `UGETNEXTWORKID` completes. -/
def sourceBarrier (uregs : List (ℕ × ℕ)) : Except TraceError (Option ℤ) :=
  if hasPrefix "UGETNEXTWORKID" info.mn then bracketValue info.ops 1 uregs else .ok none

/-- An async operation on the bytes that its operand names. -/
def emitAsync (uregs : List (ℕ × ℕ)) (ev : Event) : Except TraceError Event := do
  let base ← bracketValue info.ops 0 uregs
  let srcBar ← sourceBarrier info uregs
  match base.filter fun a => InWindow a with
  | none => .ok { ev with flags := [.operandUnresolved], srcBar := srcBar }
  | some base =>
    .ok { ev with
      ranges := [rangeOfSize base info.extent info.extent_pos]
      flags := if info.size.getD 0 = 0 then [.footprintUnresolved] else []
      srcBar := srcBar }

/-- The barrier of the uniform operand, where no lane recorded one. -/
def uniformBarrier (uregs : List (ℕ × ℕ)) (lanes : List ℤ) : Except TraceError (Option ℤ) :=
  if sortedSet (lanes.filter fun a => InWindow a) = [] then bracketValue info.ops 0 uregs else .ok none

def waitToken (rec : Record) (mask : ℕ) : Except TraceError Token :=
  if info.kind = some .mbarWait then
    match waitRegister info.ops with
    | none => .ok .missing
    | some n => do
      match ← laneValues rec n mask with
      | none => .ok .missing
      | some [value] => .ok (.value value)
      | some _ => .ok .nonuniform
  else .ok .missing

def emitMbar (rec : Record) (mask : ℕ) (lanes : List ℤ) (ev : Event) : Except TraceError Event := do
  let uniform ← uniformBarrier info rec.uregs lanes
  let token ← waitToken info rec mask
  .ok { ev with
    bar := (mbarOperand lanes uniform).1
    barSet := (mbarOperand lanes uniform).2
    flags := if (mbarOperand lanes uniform).2 ≠ [] then [.barrierNonuniform] else []
    token := token }

/-- The member mask of a `WARPSYNC`; unknown members are none. -/
def syncMembers (rec : Record) (mask : ℕ) : Except TraceError ℕ :=
  let o := strip info.ops
  if hasPrefix "WARPSYNC.ALL" info.mn then .ok 0xffffffff
  else if isImmediate o then immediateValue o
  else
    match registerNumber o with
    | some n => do
      let value ← regValue rec n mask
      .ok (value.getD 0)
    | none => .ok 0

def emitWarpSync (rec : Record) (mask : ℕ) (ev : Event) : Except TraceError Event := do
  let members ← syncMembers info rec mask
  .ok { ev with members := members }

/-- The number that an operand of a barrier instruction gives. -/
def barOperand (rec : Record) (mask : ℕ) (o : Text) : Except TraceError (Option ℕ) :=
  if isImmediate o then do
    let n ← immediateValue o
    .ok (some n)
  else
    match registerNumber o with
    | some n => regValue rec n mask
    | none => .ok none

/-- A `BAR` instruction. -/
def emitBar (rec : Record) (mask : ℕ) (ev : Event) : Except TraceError Event := do
  let operands := (((info.ops.splitOn ',').map strip).filter fun o => !o.isEmpty).take 2
  let vals ← operands.mapM (barOperand rec mask)
  .ok { ev with
    flags := if vals = [] ∨ vals.contains none then [.operandUnresolved] else []
    barId := vals.head?.join.map Int.ofNat
    barCount := vals[1]?.join.map Int.ofNat }

/-- `emit`, with the position of the event. -/
def emit (static : Dict ℕ StaticInfo) (key : WarpKey) (pos : ℕ) (rec : Record) (mem : Option MemAddrTrace) :
    Except TraceError Event :=
  match static.get? rec.opcodeId with
  | none => .error .keyError
  | some info =>
    let mask := maskOf (mem.elim rec.activeMask MemAddrTrace.activeMask)
    let lanes := activeLanes mask (mem.elim [] MemAddrTrace.addrs)
    let ev : Event :=
      { cta := key.1
        warp := key.2
        pos := pos
        t := rec.traceIndex
        pc := rec.pc
        sass := info.sass
        kind := info.kind
        mask := mask
        ranges := []
        flags := []
        bar := none
        barSet := []
        rawBars := none
        srcBar := none
        token := .missing
        success := none
        members := 0
        barId := none
        barCount := none }
    match info.kind with
    | some .genericR | some .genericW | some .genericRw | some .cpasyncW => .ok (emitShared info lanes ev)
    | some .asyncW | some .asyncR => emitAsync info rec.uregs ev
    | some .mbarArrive | some .mbarWait | some .mbarInit | some .mbarTx | some .mbarRemote =>
      emitMbar info rec mask lanes ev
    | some .warpSync => emitWarpSync info rec mask ev
    | some .barSync | some .barArv => emitBar info rec mask ev
    | _ => .ok ev

end CuTracer.MemoryModel
