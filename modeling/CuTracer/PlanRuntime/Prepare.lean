import CuTracer.Plan.Wide
import CuTracer.PlanRuntime.Host

/-! Preparing a function: the plan's kernel for its binary is found, every requested point
is checked against the loaded instructions, and only then calls are inserted, one at every
point that a configuration without a gap asks for. -/

namespace CuTracer.PlanRuntime

open Plan

/-! ### Loaded functions -/

structure Instr where
  offset : ℕ
  bytes : String
  hasPred : Bool
  opcodeShort : String

/-- A function as the driver and NVBit show it; `none` where the driver fails. -/
structure LoadedFunction where
  handle : ℕ
  owner : Option ℕ
  name : String
  registers : Option ℕ
  instrs : List Instr

/-- A function of the module of the entry, by its instructions. -/
structure MachineFunction where
  handle : ℕ
  module : ℕ
  registers : ℕ
  instructions : Dict ℕ Instr

def emplaceInstr (instructions : Dict ℕ Instr) (i : Instr) : Except String (Dict ℕ Instr) :=
  if i.offset ∈ instructions.keys then .error "Duplicate byte PC"
  else .ok (instructions.insert i.offset i)

def inventoryStep (module : ℕ) (result : Dict String MachineFunction) (f : LoadedFunction) :
    Except String (Dict String MachineFunction) :=
  if f.owner ≠ some module then .error "Related function is not bound to the same loaded module"
  else
    match result.get? f.name with
    | some known =>
      if known.handle ≠ f.handle then .error "Ambiguous machine function name" else .ok result
    | none =>
      match f.registers with
      | none => .error "Actual register allocation unavailable"
      | some registers => do
        let instructions ← f.instrs.foldlM emplaceInstr Dict.empty
        return result.insert f.name ⟨f.handle, module, registers, instructions⟩

def inventory (module : ℕ) (functions : List LoadedFunction) :
    Except String (Dict String MachineFunction) :=
  functions.foldlM (inventoryStep module) Dict.empty

/-! ### What a point can show -/

/-- Lanes that leave through a control transfer never reach a callback behind it. -/
def transfersControl (opcode : String) : Bool :=
  opcode ∈ ["BPT", "BRA", "BRX", "BRXU", "CALL", "EXIT", "JMP", "JMX", "JMXU", "KILL", "RET", "RTT"]

def outsideAllocation (registers : ℕ) (reg : Register) : Bool :=
  match reg.bank with
  | .R => 254 < reg.index || registers ≤ reg.index
  | .UR => 62 < reg.index
  | .P => 6 < reg.index
  | .UP => 6 < reg.index

/-- Why the words of a point cannot be read; empty if they can. -/
def wordsCapability (point : RuntimePoint) (function : MachineFunction) : String :=
  if planCaptureWords < point.words.length then "register_union_exceeds_16_words"
  else if point.words.any (outsideAllocation function.registers) then
    "register_outside_actual_allocation_or_bank"
  else ""

def capability (point : RuntimePoint) (request : Point) (function : MachineFunction)
    (instruction : Instr) : String :=
  if wordsCapability point function ≠ "" then wordsCapability point function
  else if request.phase = .after ∧ (instruction.hasPred = true ∨ request.predicate = .reached ∨
      transfersControl instruction.opcodeShort = true) then
    "after_control_or_predicated_instruction_unqualified"
  else if request.observations.any fun o => o.kind ≠ .registers && o.kind ≠ .opcode then
    "observation_kind_not_implemented_by_value_producer"
  else ""

/-! ### Preparing -/

structure FunctionIdentity where
  entry : String
  cubinSha256 : Except String String
  /-- `plan_cubin_target` of the artifact that the identity names. -/
  target : Except String String

/-- A function to be launched; `related` are the functions of its module, itself last. -/
structure Requested where
  name : String
  module : Option ℕ
  identity : Option FunctionIdentity
  related : List LoadedFunction

/-- A call that is inserted before or after an instruction. -/
structure Call where
  handle : ℕ
  instruction : Instr
  point : ℕ
  phase : Phase
  words : List Register

abbrev Item := ℕ × ℕ × Instr

/-- The points that were checked so far. -/
structure Checked where
  gaps : Dict ℕ String := Dict.empty
  points : Dict ℕ String := Dict.empty
  injection : List Item := []

section

variable (t : Tables) (plan : CanonicalPlan)

def asksAny (configs : List ℕ) (point : RuntimePoint) : Bool :=
  configs.any (enabled point.device.configurations)

/-- A gap is reported if the policy says so, else the function is refused. -/
def reportGap (gaps : Dict ℕ String) (index : ℕ) (gap : String) : Except String (Dict ℕ String) :=
  if gap = "" then .ok gaps
  else if plan.policy.reportUnsupportedAsGap = false then .error gap
  else .ok (gaps.insert index gap)

/-- A configuration whose kernel is entered at a point. -/
def checkEntry (point : RuntimePoint) (function : MachineFunction) (gaps : Dict ℕ String)
    (index : ℕ) : Except String (Dict ℕ String) :=
  if index ∈ point.entries then reportGap plan gaps index (wordsCapability point function)
  else .ok gaps

def checkConfig (point : RuntimePoint) (function : MachineFunction) (instruction : Instr)
    (gaps : Dict ℕ String) (index : ℕ) : Except String (Dict ℕ String) := do
  let gaps ← checkEntry plan point function gaps index
  match point.requests.get? index with
  | none => return gaps
  | some request => reportGap plan gaps index (capability point request function instruction)

/-- The function and the instruction of a point, whose bytes are as requested. -/
def locate (functions : Dict String MachineFunction) (point : RuntimePoint) :
    Except String (MachineFunction × Instr) :=
  match functions.get? point.key.2.1 with
  | none => .error "Requested function is not related to the loaded entry"
  | some function =>
    match function.instructions.get? point.key.2.2.1 with
    | none => .error "Requested byte PC is not an instruction boundary"
    | some instruction =>
      if instruction.bytes.utf8ByteSize ≠ 32 ∨
          (point.expected ≠ "" ∧ instruction.bytes ≠ point.expected) then
        .error "Requested instruction bytes mismatch"
      else .ok (function, instruction)

def checkPoint (sha256 : String) (functions : Dict String MachineFunction) (configs : List ℕ)
    (checked : Checked) (p : RuntimePoint × ℕ) : Except String Checked := do
  if p.1.key.1 ≠ sha256 ∨ asksAny configs p.1 = false then return checked
  else do
    let (function, instruction) ← locate functions p.1
    let gaps ← configs.foldlM (checkConfig plan p.1 function instruction) checked.gaps
    return {
      gaps
      points := checked.points.insert p.2 instruction.bytes
      injection := checked.injection ++ [(p.2, function.handle, instruction)] }

/-- The kernels of the plan with the name and the binary of a function. -/
def candidates (name sha256 : String) : List ℕ :=
  ((plan.kernels.zipIdx.filter fun k => k.1.entry = name).map Prod.snd).filter fun i =>
    (plan.kernels[i]?.map (·.cubinSha256)) = some sha256

/-- The kernel of the plan for a binary, `none` where the plan skips the binary. -/
def bindKernel (f : Requested) (identity : FunctionIdentity) (module : ℕ) :
    Except String (Option (ℕ × ℕ × String)) := do
  let sha256 ← identity.cubinSha256
  if candidates plan f.name sha256 = [] then
    if plan.policy.skipIdentityMismatch = false then
      .error "Requested kernel binary or target identity mismatch"
    else return none
  else do
    let target ← identity.target
    match (candidates plan f.name sha256).filter fun i =>
        (plan.kernels[i]?.map (·.target)) = some target with
    | [] => .error "Requested kernel binary or target identity mismatch"
    | [selected] => return some (selected, module, sha256)
    | _ :: _ :: _ => .error "Ambiguous matching kernel plan"

def findKernel (f : Requested) : Except String (Option (ℕ × ℕ × String)) :=
  match f.identity with
  | none => .error "Requested kernel lacks actual runtime identity"
  | some identity =>
    if identity.entry ≠ f.name then .error "Requested kernel lacks actual runtime identity"
    else
      match f.module with
      | none => .error "Module identity unavailable at plan binding"
      | some module => bindKernel plan f identity module

def configsOf (kernel : ℕ) : List ℕ :=
  (t.configs.zipIdx.filter fun c => c.1.kernel = kernel).map Prod.snd

/-- Everything that is checked before any call is inserted. -/
def checkFunction (f : Requested) (kernel module : ℕ) (sha256 : String) :
    Except String (Bound × List Item) := do
  let functions ← inventory module f.related
  let configs := configsOf t kernel
  let checked ← t.points.zipIdx.foldlM (checkPoint plan sha256 functions configs) {}
  return (⟨kernel, module, configs, checked.gaps, checked.points⟩, checked.injection)

/-- Insert the call of a point, unless no configuration without a gap asks for it. -/
def injectPoint (bound : Bound) (s : Context × List Call) (item : Item) :
    Except String Unit × (Context × List Call) :=
  match t.points[item.1]? with
  | none => (.ok (), s)
  | some point =>
    if bound.configs.any (fun c => (bound.gaps.get? c).isNone &&
        enabled point.device.configurations c) = false then (.ok (), s)
    else if planCaptureWords < point.words.length then
      (.error "Unqualified register union at supplemental marker", s)
    else if s.1.injected.contains (item.2.1, item.1) then (.ok (), s)
    else
      (.ok (), { s.1 with
        injected := s.1.injected ++ [(item.2.1, item.1)]
        owners := s.1.owners.insert item.2.1 bound.module },
        s.2 ++ [⟨item.2.1, item.2.2, item.1, point.key.2.2.2, point.words⟩])

def inject (bound : Bound) : List Item → Context × List Call →
    Except String Unit × (Context × List Call)
  | [], s => (.ok (), s)
  | item :: items, s =>
    match injectPoint t bound s item with
    | (.error what, s) => (.error what, s)
    | (.ok (), s) => inject bound items s

/-- `prepare` where the plan is not disabled: is the function instrumented, and the calls
that were inserted. -/
def Context.prepare (state : Context) (root : ℕ) (f : Requested) :
    Except String Bool × (Context × List Call) :=
  if root ∈ state.bound.keys then (.ok true, state, [])
  else if root ∈ state.skipped.keys then (.ok false, state, [])
  else if (plan.kernels.any fun k => k.entry = f.name) = false then (.ok false, state, [])
  else
    match findKernel plan f with
    | .error what => (.error what, state, [])
    | .ok none => (.ok false,
        { state with skipped := state.skipped.insert root (f.module.getD 0) }, [])
    | .ok (some (kernel, module, sha256)) =>
      match checkFunction t plan f kernel module sha256 with
      | .error what => (.error what, state, [])
      | .ok (bound, injection) =>
        match inject t bound injection (state, []) with
        | (.error what, s) => (.error what, s)
        | (.ok (), s) => (.ok true, { s.1 with bound := s.1.bound.insert root bound }, s.2)

end

def unloaded (module : Option ℕ) (owner : ℕ) : Bool := module.isNone || some owner = module

def Context.lost (state : Context) (module : Option ℕ) (handle : ℕ) : Bool :=
  ((state.owners.get? handle).map (unloaded module)).getD false

def Context.forgetModule (state : Context) (module : Option ℕ) : Context :=
  { state with
    bound := state.bound.filter fun _ b => !unloaded module b.module
    skipped := state.skipped.filter fun _ m => !unloaded module m
    injected := state.injected.filter fun i => !state.lost module i.1
    owners := state.owners.filter fun _ m => !unloaded module m }

theorem checkFunction_configs {t : Tables} {plan : CanonicalPlan} {f : Requested}
    {kernel module : ℕ} {sha256 : String} {bound : Bound} {injection : List Item}
    (h : checkFunction t plan f kernel module sha256 = .ok (bound, injection)) :
    bound.configs = configsOf t kernel := by
  unfold checkFunction at h
  obtain ⟨functions, -, h⟩ := bind_ok h
  obtain ⟨checked, -, h⟩ := bind_ok h
  exact (Prod.mk.inj (Except.ok.inj h)).1 ▸ rfl

/-! ### A small plan -/

def sampleBytes : String := "00112233445566778899aabbccddeeff"

def samplePoint : Point :=
  ⟨"kernel", 0, sampleBytes, .before, .reached, [⟨.registers, [⟨.R, 4⟩], 0, 0⟩]⟩

def sampleConfig : Config :=
  ⟨"a", ["sampling"], ⟨true, []⟩, ⟨[], [], []⟩, ⟨1, 4096⟩, [samplePoint]⟩

def samplePlan : CanonicalPlan where
  id := "plan"
  policy := ⟨false, false⟩
  kernels := [oneKernel [sampleConfig]]
  canonical := canonicalJson "plan" (Policy.toJson ⟨false, false⟩) [oneKernel [sampleConfig]]
  canonicalSha256 := compact.hash256HexString (utf8 (compact.dump true
    (canonicalJson "plan" (Policy.toJson ⟨false, false⟩) [oneKernel [sampleConfig]])))
  sourceSha256 := ""

def sampleTables : Tables := (build samplePlan).toOption.getD {}

theorem build_sample : build samplePlan = .ok sampleTables := rfl

def sampleFunction : Requested where
  name := "kernel"
  module := some 7
  identity := some ⟨"kernel", .ok cubin, .ok "sm_90a"⟩
  related := [⟨0, some 7, "kernel", some 8, [⟨0, sampleBytes, false, "IADD3"⟩]⟩]

end CuTracer.PlanRuntime
