import CuTracer.Library.Dict
import Mathlib.Data.List.Infix

/-! The tables that the hooks keep for CUDA functions. One table of metadata and one set
of instrumented functions serve all contexts; a context has the SASS and register tables
of its functions, the launch roots it traces and the handles it retired. A launch enters
its root and the functions the root can call, a module unload takes out what it owned. -/

namespace CuTracer.Hooks

abbrev CUcontext := ℕ

abbrev CUmodule := ℕ

abbrev CUfunction := ℕ

/-! ### What the driver and the caller give -/

/-- The register numbers that the operand walk of one instruction collects. -/
structure RegIndices where
  regIndices : List ℕ
  uregIndices : List ℕ
  deriving DecidableEq

/-- An instruction of `nvbit_get_instrs`. -/
structure Instr where
  idx : ℕ
  sass : List Char
  binary : List ℕ
  registers : RegIndices
  deriving DecidableEq

/-- A function of a launch. `moduleFound` is the success of `cuFuncGetModule`. Its module
was loaded as `lifetime`, which the hooks never see: they write it on what they store, for
the reader of the tables only. -/
structure Func where
  handle : CUfunction
  module : CUmodule
  moduleFound : Bool
  lifetime : ℕ
  mangledName : List Char
  unmangledName : List Char
  instrs : List Instr
  deriving DecidableEq

structure ExactKernelSelector where
  name : List Char
  checksum : List Char

def ExactKernelSelector.enabled (s : ExactKernelSelector) : Bool :=
  !s.name.isEmpty || !s.checksum.isEmpty

def ExactKernelSelector.matches (s : ExactKernelSelector)
    (mangledName unmangledName kernelChecksum : List Char) : Bool :=
  !s.name.isEmpty && !s.checksum.isEmpty && s.checksum == kernelChecksum &&
    (s.name == mangledName || s.name == unmangledName)

/-- The settings of a run. The checksum of a kernel is any function of its name and code. -/
structure Settings where
  anyInstrumentation : Bool
  exactKernelSelector : ExactKernelSelector
  kernelFilters : List (List Char)
  instrBeginInterval : ℕ
  instrEndInterval : ℕ
  runtimePlanRequested : Bool
  runtimeIdentity : Bool
  kernelEvents : Bool
  computeKernelChecksum : List Char → List Instr → List Char

/-- A kernel launch, or a kernel put into a graph. With an instrumentation plan `prepare`
answers which functions take the plan's calls, `planApplied` that the launch got a slot. -/
structure Launch where
  ctx : CUcontext
  root : Func
  related : List Func
  streamCapture : Bool
  buildGraph : Bool
  legacyApi : Bool
  prepare : Option (CUfunction → Bool)
  planApplied : Bool

/-- The functions that the entry of a launch can reach, the root last. -/
def Launch.functions (l : Launch) : List Func := l.related ++ [l.root]

structure GraphNode where
  ctx : CUcontext
  func : Func
  related : List Func
  planActive : Bool
  planApplied : Bool

/-- The functions that a graph node runs, its kernel last. -/
def GraphNode.functions (n : GraphNode) : List Func := n.related ++ [n.func]

/-! ### The tables -/

/-- A value and the module load of the function that it was read from. -/
structure Built (α : Type) where
  value : α
  lifetime : ℕ
  deriving DecidableEq

/-- Values of the instructions of each function, by opcode. -/
abbrev Table (α : Type) := CUfunction → ℕ → Option (Built α)

def Table.put {α : Type} (t : Table α) (f : Func) (id : ℕ) (value : α) : Table α :=
  Function.update t f.handle (Function.update (t f.handle) id (some ⟨value, f.lifetime⟩))

/-- The table without the functions that `gone` names. -/
def Table.erase {α : Type} (t : Table α) (gone : CUfunction → Bool) : Table α :=
  fun f => if gone f then fun _ => none else t f

structure KernelFuncMetadata where
  ownerContext : CUcontext
  ownerModule : Option CUmodule
  mangledName : List Char
  unmangledName : List Char
  kernelChecksum : List Char
  instructionCount : ℕ

structure CTXstate where
  channelFailed : Bool
  instrumentedLaunchRoots : CUfunction → Bool
  retiredFunctionHandles : CUfunction → Bool
  idToSassMap : Table (List Char)
  idToSassBinaryMap : Table (List ℕ)
  idToRegIndicesMap : Table RegIndices

def CTXstate.new : CTXstate where
  channelFailed := false
  instrumentedLaunchRoots := fun _ => false
  retiredFunctionHandles := fun _ => false
  idToSassMap := fun _ _ => none
  idToSassBinaryMap := fun _ _ => none
  idToRegIndicesMap := fun _ _ => none

/-- Everything the hooks know of functions. -/
structure Tool where
  kernelMetadataByFunc : Dict CUfunction KernelFuncMetadata
  alreadyInstrumented : CUfunction → Bool
  ctxStateMap : CUcontext → Option CTXstate

def Tool.new : Tool := ⟨Dict.empty, fun _ => false, fun _ => none⟩

variable (t : Tool)

def Tool.modify (ctx : CUcontext) (g : CTXstate → CTXstate) : Tool :=
  { t with ctxStateMap := Function.update t.ctxStateMap ctx ((t.ctxStateMap ctx).map g) }

def Tool.reusedFunctionHandle (ctx : CUcontext) (f : CUfunction) : Bool :=
  match t.ctxStateMap ctx with
  | some state => state.retiredFunctionHandles f
  | none => false

def Tool.channelFailed (t : Tool) (ctx : CUcontext) : Bool :=
  match t.ctxStateMap ctx with
  | some state => state.channelFailed
  | none => false

def Tool.isRoot (ctx : CUcontext) (f : CUfunction) : Bool :=
  match t.ctxStateMap ctx with
  | some state => state.instrumentedLaunchRoots f
  | none => false

def Tool.setRoot (ctx : CUcontext) (f : CUfunction) (traced : Bool) : Tool :=
  t.modify ctx fun s =>
    { s with instrumentedLaunchRoots := Function.update s.instrumentedLaunchRoots f traced }

/-! ### Entering functions -/

section Enter

variable (cfg : Settings)

def newMetadata (ctx : CUcontext) (f : Func) : KernelFuncMetadata where
  ownerContext := ctx
  ownerModule := if f.moduleFound then some f.module else none
  mangledName := f.mangledName
  unmangledName := f.unmangledName
  kernelChecksum := cfg.computeKernelChecksum f.mangledName f.instrs
  instructionCount := 0

def Tool.getOrCreateKernelFuncMetadata (t : Tool) (ctx : CUcontext) (f : Func) :
    KernelFuncMetadata × Tool :=
  let created := newMetadata cfg ctx f
  match t.kernelMetadataByFunc.get? f.handle with
  | some known =>
    if known.ownerContext = ctx then (known, t)
    else (created, { t with
      kernelMetadataByFunc := t.kernelMetadataByFunc.insert f.handle created
      alreadyInstrumented := Function.update t.alreadyInstrumented f.handle false })
  | none => (created, { t with
      kernelMetadataByFunc := t.kernelMetadataByFunc.insert f.handle created })

def Tool.matchesExactKernelSelector (t : Tool) (ctx : CUcontext) (f : Func) : Bool × Tool :=
  if !cfg.exactKernelSelector.enabled then (true, t)
  else
    let (entry, t) := t.getOrCreateKernelFuncMetadata cfg ctx f
    (cfg.exactKernelSelector.matches entry.mangledName entry.unmangledName entry.kernelChecksum, t)

/-- No filter is set, or the launch root was selected exactly. -/
def Settings.unfiltered : Bool := cfg.exactKernelSelector.enabled || cfg.kernelFilters.isEmpty

/-- `kernel_filter_matched`: a filter occurs in a name of the function. -/
def Settings.filterMatched (f : Func) : Bool :=
  cfg.unfiltered ||
    cfg.kernelFilters.any fun w => decide (w <:+: f.unmangledName) || decide (w <:+: f.mangledName)

/-- Store what one instruction of a function shows. An empty encoding leaves the old one. -/
def CTXstate.store (f : Func) (s : CTXstate) (p : Instr × ℕ) : CTXstate :=
  if p.2 < cfg.instrBeginInterval || cfg.instrEndInterval ≤ p.2 then s
  else { s with
    idToSassMap := s.idToSassMap.put f p.1.idx p.1.sass
    idToSassBinaryMap :=
      if p.1.binary.isEmpty then s.idToSassBinaryMap
      else s.idToSassBinaryMap.put f p.1.idx p.1.binary
    idToRegIndicesMap := s.idToRegIndicesMap.put f p.1.idx p.1.registers }

def CTXstate.storeAll (f : Func) (s : CTXstate) : CTXstate :=
  f.instrs.zipIdx.foldl (CTXstate.store cfg f) s

/-- The body of the loop over related functions, past the filters. -/
def Tool.instrumentFunction (t : Tool) (ctx : CUcontext) (f : Func) : Tool :=
  let t := { t with alreadyInstrumented := Function.update t.alreadyInstrumented f.handle true }
  let (entry, t) := t.getOrCreateKernelFuncMetadata cfg ctx f
  let t := { t with kernelMetadataByFunc :=
    t.kernelMetadataByFunc.insert f.handle { entry with instructionCount := f.instrs.length } }
  t.modify ctx (CTXstate.storeAll cfg f)

/-- The loop so far: the tables, the answer and the functions it instrumented. -/
structure Pass where
  tool : Tool
  shouldInstrument : Bool
  instrumented : List Func

def Pass.visit (ctx : CUcontext) (p : Pass) (f : Func) : Pass :=
  let matched := cfg.filterMatched f
  let shouldInstrument := p.shouldInstrument || matched
  if !matched || p.tool.alreadyInstrumented f.handle then
    { p with shouldInstrument := shouldInstrument }
  else ⟨p.tool.instrumentFunction cfg ctx f, shouldInstrument, p.instrumented ++ [f]⟩

def instrumentFunctionIfNeeded (t : Tool) (l : Launch) : Pass :=
  if !cfg.anyInstrumentation then ⟨t, false, []⟩
  else
    let (selected, t) := t.matchesExactKernelSelector cfg l.ctx l.root
    if !selected then ⟨t, false, []⟩
    else l.functions.foldl (Pass.visit cfg l.ctx) ⟨t, cfg.unfiltered, []⟩

/-- With a plan the loop is the plan's, over the same functions. -/
def preparePlan (t : Tool) (l : Launch) : Pass :=
  match l.prepare with
  | none => ⟨t, false, []⟩
  | some chosen => ⟨t, true, l.functions.filter fun f => chosen f.handle⟩

/-- The decision about a launch whose root is in the tables. A reused handle runs its
original code. -/
def decideLaunch (t : Tool) (l : Launch) : Pass :=
  if t.channelFailed l.ctx || t.reusedFunctionHandle l.ctx l.root.handle then ⟨t, false, []⟩
  else if cfg.runtimePlanRequested then preparePlan t l
  else instrumentFunctionIfNeeded cfg t l

/-- What the entry of a launch did. `enabled`: the root runs its instrumented code;
`traced`: it has a trace writer. -/
structure Entered where
  tool : Tool
  instrumented : List Func
  enabled : Bool
  traced : Bool

def enterKernelLaunch (t : Tool) (l : Launch) : Entered :=
  if cfg.runtimePlanRequested && l.legacyApi then ⟨t, [], false, false⟩
  else
    let (_, t) := t.getOrCreateKernelFuncMetadata cfg l.ctx l.root
    let pass := decideLaunch cfg t l
    let t := pass.tool.setRoot l.ctx l.root.handle pass.shouldInstrument
    let direct := !l.streamCapture && !l.buildGraph
    if pass.shouldInstrument && direct && cfg.runtimePlanRequested && !l.planApplied then
      ⟨t.setRoot l.ctx l.root.handle false, pass.instrumented, false, false⟩
    else ⟨t, pass.instrumented, pass.shouldInstrument, pass.shouldInstrument && direct⟩

/-- A graph node is traced when the launch that put it into the graph was instrumented. -/
def atGraphNodeLaunch (t : Tool) (n : GraphNode) : Entered :=
  let selected := t.isRoot n.ctx n.func.handle && !t.channelFailed n.ctx &&
    (!cfg.runtimePlanRequested || n.planActive)
  let instrumentEnabled := (cfg.runtimePlanRequested || cfg.anyInstrumentation) && selected
  let t := if instrumentEnabled || cfg.runtimeIdentity || cfg.kernelEvents then
    (t.getOrCreateKernelFuncMetadata cfg n.ctx n.func).2 else t
  let traced := instrumentEnabled && (!cfg.runtimePlanRequested || n.planApplied)
  ⟨t, [], traced, traced⟩

end Enter

/-! ### Contexts and modules -/

def KernelFuncMetadata.owned (ctx : CUcontext) (module : Option CUmodule)
    (entry : KernelFuncMetadata) : Bool :=
  decide (entry.ownerContext = ctx) && (module.isNone || decide (entry.ownerModule = module))

def Tool.ownedHandle (ctx : CUcontext) (module : Option CUmodule) (f : CUfunction) : Bool :=
  (t.kernelMetadataByFunc.get? f).any (KernelFuncMetadata.owned ctx module)

/-- What a context forgets of handles; a module unload retires them. -/
def CTXstate.forget (s : CTXstate) (module : Option CUmodule) (gone : CUfunction → Bool) : CTXstate where
  channelFailed := s.channelFailed
  instrumentedLaunchRoots := fun f => !gone f && s.instrumentedLaunchRoots f
  retiredFunctionHandles := fun f => (module.isSome && gone f) || s.retiredFunctionHandles f
  idToSassMap := s.idToSassMap.erase gone
  idToSassBinaryMap := s.idToSassBinaryMap.erase gone
  idToRegIndicesMap := s.idToRegIndicesMap.erase gone

/-- `missed`: the receiver did not reach a chunk boundary in time. -/
def forgetRuntimeModule (ctx : CUcontext) (module : Option CUmodule) (missed : Bool) : Tool :=
  let gone := t.ownedHandle ctx module
  if t.kernelMetadataByFunc.values.any (KernelFuncMetadata.owned ctx module) then
    let t := if missed then t.modify ctx fun s => { s with channelFailed := true } else t
    { t.modify ctx (·.forget module gone) with
      kernelMetadataByFunc :=
        t.kernelMetadataByFunc.filter fun _ entry => !entry.owned ctx module
      alreadyInstrumented := fun f => !gone f && t.alreadyInstrumented f }
  else t

def atCtxInit (ctx : CUcontext) : Tool :=
  { t with ctxStateMap := Function.update t.ctxStateMap ctx (some CTXstate.new) }

def atCtxTerm (ctx : CUcontext) : Tool :=
  forgetRuntimeModule { t with ctxStateMap := Function.update t.ctxStateMap ctx none } ctx none false

end CuTracer.Hooks
