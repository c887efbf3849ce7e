import CuTracer.Library.Hex
import CuTracer.Library.Json
import CuTracer.Service.Contracts
import CuTracer.Stress.Config

/-! The PC offsets a trace targets: those of its selector, or the enabled points of the
pinned kernel in a delay config. An offset is an integer literal, and its normal form is
hexadecimal. -/

namespace CuTracer.Trace

open Json (field)
open Service (ArtifactRef ExperimentSpec KernelId TraceOptions TraceSelector)
open Stress (hex)

/-! ### Integers as text -/

def decimalZeros : List ℕ :=
  [0x30, 0x660, 0x6f0, 0x7c0, 0x966, 0x9e6, 0xa66, 0xae6, 0xb66, 0xbe6, 0xc66, 0xce6, 0xd66, 0xde6,
    0xe50, 0xed0, 0xf20, 0x1040, 0x1090, 0x17e0, 0x1810, 0x1946, 0x19d0, 0x1a80, 0x1a90, 0x1b50,
    0x1bb0, 0x1c40, 0x1c50, 0xa620, 0xa8d0, 0xa900, 0xa9d0, 0xa9f0, 0xaa50, 0xabf0, 0xff10, 0x104a0,
    0x10d30, 0x11066, 0x110f0, 0x11136, 0x111d0, 0x112f0, 0x11450, 0x114d0, 0x11650, 0x116c0, 0x11730,
    0x118e0, 0x11950, 0x11c50, 0x11d50, 0x11da0, 0x11f50, 0x16a60, 0x16ac0, 0x16b50, 0x1d7ce, 0x1d7d8,
    0x1d7e2, 0x1d7ec, 0x1d7f6, 0x1e140, 0x1e2f0, 0x1e4f0, 0x1e950, 0x1fbf0]

def decimalValue (c : Char) : Option ℕ :=
  (decimalZeros.find? fun z => z ≤ c.toNat && c.toNat < z + 10).map fun z => c.toNat - z

def asciiDigit (c : Char) : Char :=
  match decimalValue c with
  | none => c
  | some d => Char.ofNat (48 + d)

/-- `int(text, 0)`, or `none` where it raises. -/
def intAuto (text : String) : Option ℤ := Amdgcn.immediate (text.toList.map asciiDigit)

/-- `text.isdecimal()`. -/
def isDecimal (text : String) : Bool :=
  text ≠ "" && text.toList.all fun c => (decimalValue c).isSome

/-- `int(text, 10)` of a decimal text. -/
def intDecimal (text : String) : ℤ :=
  (text.toList.foldl (fun n c => 10 * n + (decimalValue c).getD 0) 0 : ℕ)

/-- `hex(i)`. -/
def hexInt (i : ℤ) : String := if i < 0 then "-" ++ hex i.natAbs else hex i.natAbs

/-! ### The points of a config -/

/-- `_parse_config_pc`; no other value prints as an integer. -/
def parseConfigPc : Json → Option ℤ
  | .int i => some i
  | .str text => (intAuto text).or (if isDecimal text then some (intDecimal text) else none)
  | _ => none

/-- What keeps a trace from its PC offsets. -/
inductive OffsetError where
  /-- A file could not be read or decoded. -/
  | file (error : String)
  /-- `int(text, 0)` of a value that is no integer literal. -/
  | literal
  | valueError (message : String)
  deriving DecidableEq

/-- Whether `_enabled_point_offset` takes a point; a missing `on` counts as true. -/
def pointSelected : Json → Bool
  | .obj fields => ((field fields "on").getD (.bool true)).truthy
  | _ => false

/-- The PC of a point: its `pc`, or else its key. -/
def pointPc (key : String) : Json → Option ℤ
  | .obj fields => parseConfigPc ((field fields "pc").getD (.str key))
  | _ => parseConfigPc (.str key)

def enabledPointOffset (key : String) (point : Json) : Except OffsetError (Option String) :=
  if pointSelected point then
    match pointPc key point with
    | none => .error .literal
    | some pc => .ok (some (hexInt pc))
  else .ok none

def pointOffsets : List (String × Json) → Except OffsetError (List String)
  | [] => .ok []
  | (key, point) :: points => do
    let offset ← enabledPointOffset key point
    let offsets ← pointOffsets points
    return offset.toList ++ offsets

def matchedPoints (checksum : String) : Json → Option (List (String × Json))
  | .obj kernel =>
    if Json.isStr (field kernel "kernel_checksum") checksum then
      match field kernel "instrumentation_points" with
      | some (.obj points) => some points
      | _ => some []
    else none
  | _ => none

/-- `_matching_config_offsets`: the offsets, and whether a kernel matched. -/
def matchingConfigOffsets (checksum : String) :
    List (String × Json) → Except OffsetError (List String × Bool)
  | [] => .ok ([], false)
  | (_, kernel) :: kernels =>
    match matchedPoints checksum kernel with
    | none => matchingConfigOffsets checksum kernels
    | some points => do
      let offsets ← pointOffsets points
      let (others, _) ← matchingConfigOffsets checksum kernels
      return (offsets ++ others, true)

/-- The files a trace reads: local artifacts and decoded documents. -/
structure Files where
  localPath : ArtifactRef → Except OffsetError String
  load : String → Except OffsetError Json

def selectedKernel (spec : ExperimentSpec) (selector : TraceSelector) :
    Except OffsetError (Option KernelId) :=
  if selector.kernel.isSome ∧ ¬Service.sameKernel selector.kernel spec.unit.kernel then
    .error (.valueError "trace selector kernel does not match the pinned WorkUnit")
  else .ok spec.unit.kernel

def resolvedTraceConfigPath (files : Files) (options : TraceOptions) (resolvedConfigPath : Option String) :
    Except OffsetError (Option String) :=
  match options.configArtifact with
  | none =>
    if options.selector.configSource.isSome then
      .error (.valueError "config-targeted trace requires a resolved config artifact")
    else if resolvedConfigPath.isSome then
      .error (.valueError "resolved trace config has no config artifact binding")
    else .ok none
  | some artifact =>
    if options.selector.configSource.isNone then
      .error (.valueError "trace config artifact requires a config_source selector")
    else
      match resolvedConfigPath with
      | none => (files.localPath artifact).map some
      | some path =>
        if path.toList.head? = some '/' then .ok (some path)
        else .error (.valueError "resolved trace config path must be absolute")

def configPcOffsets (files : Files) (spec : ExperimentSpec) (options : TraceOptions)
    (resolvedConfigPath : Option String) : Except OffsetError (List String) := do
  match ← resolvedTraceConfigPath files options resolvedConfigPath with
  | none => return []
  | some path =>
    match ← files.load path with
    | .obj payload =>
      match field payload "kernels" with
      | some (.obj kernels) =>
        match ← selectedKernel spec options.selector with
        | none => .error (.valueError "config-targeted trace requires a pinned WorkUnit kernel")
        | some pinned =>
          let (offsets, matchedKernel) ← matchingConfigOffsets pinned.cubinHash kernels
          if ¬matchedKernel then
            .error (.valueError ("selected trace config has no entry for the pinned kernel checksum " ++
              pinned.cubinHash ++ "; config names may be mangled while the WorkUnit name is " ++
              pinned.name))
          else if offsets = [] then
            .error (.valueError "selected trace config has no enabled PCs for the pinned kernel")
          else return offsets
      | _ => .error (.valueError "selected trace config has no kernels mapping")
    | _ => .error (.valueError "selected trace config has no kernels mapping")

/-! ### Written offsets -/

theorem asciiDigit_digitChar {n : ℕ} (h : n < 16) : asciiDigit n.digitChar = n.digitChar := by
  interval_cases n <;> decide +kernel

theorem digitValue_digitChar {n : ℕ} (h : n < 16) : Amdgcn.digitValue 16 n.digitChar = some n := by
  interval_cases n <;> rfl

theorem mem_toDigits {n : ℕ} {c : Char} (hc : c ∈ Nat.toDigits 16 n) : ∃ m < 16, c = m.digitChar := by
  induction n using Nat.strong_induction_on with
  | _ n ih =>
    by_cases h : n < 16
    · rw [Nat.toDigits_of_lt_base h, List.mem_singleton] at hc
      exact ⟨n, h, hc⟩
    · rw [Nat.toDigits_of_base_le (by omega) (by omega), List.mem_append] at hc
      rcases hc with hc | hc
      · exact ih (n / 16) (by omega) hc
      · exact ⟨n % 16, Nat.mod_lt _ (by omega), List.mem_singleton.mp hc⟩

theorem digits_append {ds cs : List Char} {acc v : ℕ} {afterDigit : Bool}
    (h : Amdgcn.digits 16 acc afterDigit ds = some v) :
    Amdgcn.digits 16 acc afterDigit (ds ++ cs) = Amdgcn.digits 16 v true cs := by
  induction ds generalizing acc afterDigit with
  | nil =>
    rw [Amdgcn.digits] at h
    split_ifs at h with hafter
    rw [List.nil_append, Option.some.inj h, hafter]
  | cons c ds ih =>
    rw [Amdgcn.digits] at h
    rw [List.cons_append, Amdgcn.digits]
    split_ifs at h ⊢ with hunderscore hafter
    · exact ih h
    · cases hc : Amdgcn.digitValue 16 c with
      | none => simp [hc] at h
      | some d =>
        simp only [hc] at h ⊢
        exact ih h

theorem digits_toDigits (n : ℕ) : Amdgcn.digits 16 0 false (Nat.toDigits 16 n) = some n := by
  have hone : ∀ {m : ℕ} (hm : m < 16) (acc : ℕ) (afterDigit : Bool),
      Amdgcn.digits 16 acc afterDigit [m.digitChar] = some (acc * 16 + m) := by
    intro m hm acc afterDigit
    have hne : m.digitChar ≠ '_' := by interval_cases m <;> decide
    simp only [Amdgcn.digits, hne, if_false, digitValue_digitChar hm, if_true]
  induction n using Nat.strong_induction_on with
  | _ n ih =>
    by_cases h : n < 16
    · rw [Nat.toDigits_of_lt_base h, hone h, Nat.zero_mul, Nat.zero_add]
    · rw [Nat.toDigits_of_base_le (by omega) (by omega), digits_append (ih (n / 16) (by omega)),
        hone (Nat.mod_lt _ (by omega)), Nat.div_add_mod']

theorem literal_hex (n : ℕ) : Amdgcn.literal ('0' :: 'x' :: Nat.toDigits 16 n) = some n := by
  have hdigits : ∀ c ∈ Nat.toDigits 16 n, c ≠ '_' := by
    intro c hc
    obtain ⟨m, hm, rfl⟩ := mem_toDigits hc
    interval_cases m <;> decide
  rw [Amdgcn.literal, Amdgcn.prefixed, digits_toDigits]
  intro rest h
  exact hdigits '_' (h ▸ List.mem_cons_self) rfl

theorem strip_eq {cs : List Char} (h : ∀ c ∈ cs, Amdgcn.isSpace c = false) : Amdgcn.strip cs = cs := by
  have hdrop : ∀ cs : List Char, (∀ c ∈ cs, Amdgcn.isSpace c = false) →
      cs.dropWhile Amdgcn.isSpace = cs := by
    intro cs hcs
    cases cs with
    | nil => rfl
    | cons c cs =>
      rw [List.dropWhile_cons, hcs c List.mem_cons_self]
      rfl
  rw [Amdgcn.strip, hdrop cs h, hdrop _ fun c hc => h c (List.mem_reverse.mp hc), List.reverse_reverse]

theorem asciiDigit_hex (n : ℕ) : (hex n).toList.map asciiDigit = '0' :: 'x' :: Nat.toDigits 16 n := by
  have hdigits : (Nat.toDigits 16 n).map asciiDigit = Nat.toDigits 16 n := by
    conv_rhs => rw [← List.map_id (Nat.toDigits 16 n)]
    apply List.map_congr_left
    intro c hc
    obtain ⟨m, hm, rfl⟩ := mem_toDigits hc
    exact asciiDigit_digitChar hm
  have hzero : asciiDigit '0' = '0' := by decide +kernel
  have hx : asciiDigit 'x' = 'x' := by decide +kernel
  rw [Stress.toList_hex, List.map_cons, List.map_cons, hdigits, hzero, hx]

/-- `int(hex(n), 0)`. -/
theorem intAuto_hex (n : ℕ) : intAuto (hex n) = some (n : ℤ) := by
  have hspace : ∀ c ∈ '0' :: 'x' :: Nat.toDigits 16 n, Amdgcn.isSpace c = false := by
    intro c hc
    rcases List.mem_cons.mp hc with rfl | hc
    · rfl
    rcases List.mem_cons.mp hc with rfl | hc
    · rfl
    obtain ⟨m, hm, rfl⟩ := mem_toDigits hc
    interval_cases m <;> rfl
  rw [intAuto, asciiDigit_hex, Amdgcn.immediate, strip_eq hspace]
  change (Amdgcn.literal ('0' :: 'x' :: Nat.toDigits 16 n)).map (fun m => (m : ℤ)) = some (n : ℤ)
  rw [literal_hex]
  rfl

end CuTracer.Trace
