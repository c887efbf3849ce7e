import CuTracer.Hooks.Entering

/-! Handle values over the life of modules. The driver may give the value of a function
handle again once the module of its function is unloaded. A handle is then stale in its
context, and no stale handle may be instrumented or traced. The hooks retire the handles
that an unload owns and check the root of a launch against them; the runs in which this
is enough are exactly those that need neither a retired handle among the functions that a
launch instruments nor a handle that an unload missed. -/

namespace CuTracer.Hooks

/-! ### Runs -/

structure Load where
  ctx : CUcontext
  module : CUmodule
  lifetime : ℕ
  deriving DecidableEq

/-- A handle that stood for a function of a module load at some launch. -/
structure Use where
  ctx : CUcontext
  handle : CUfunction
  lifetime : ℕ
  deriving DecidableEq

/-- The tables with what is loaded, what was used in the contexts that live, the handles
of unloaded modules that the unload did not retire, and those that NVBit has instrumented
code of: it keeps that of a handle when the module is unloaded. -/
structure World where
  tool : Tool
  live : List Load
  uses : List Use
  missed : List (CUcontext × CUfunction)
  patched : List (CUcontext × CUfunction)
  next : ℕ

inductive Event where
  | contextBegin (ctx : CUcontext)
  | contextEnd (ctx : CUcontext)
  | moduleLoad (ctx : CUcontext) (module : CUmodule)
  | moduleUnload (ctx : CUcontext) (module : CUmodule) (boundaryMissed : Bool)
  | launch (l : Launch)
  | graphNode (n : GraphNode)
  | channelFailure (ctx : CUcontext)

namespace World

def start : World := ⟨Tool.new, [], [], [], [], 0⟩

/-- The module load has not been unloaded. -/
def IsLive (w : World) (ctx : CUcontext) (lifetime : ℕ) : Prop :=
  ∃ m ∈ w.live, m.ctx = ctx ∧ m.lifetime = lifetime

/-- The handle was used in the context under a module that has since been unloaded. -/
def Stale (w : World) (ctx : CUcontext) (f : CUfunction) : Prop :=
  ∃ u ∈ w.uses, u.ctx = ctx ∧ u.handle = f ∧ ¬w.IsLive ctx u.lifetime

/-- The handle was used under the module load that is in place of `module`. -/
def usedUnder (w : World) (ctx : CUcontext) (module : CUmodule) : List CUfunction :=
  (w.uses.filter fun u => u.ctx = ctx ∧ ⟨ctx, module, u.lifetime⟩ ∈ w.live).map Use.handle

/-- Functions of live modules that a context can launch. A handle that was used under a
module that is still loaded still stands for its function. -/
def Callable (w : World) (ctx : CUcontext) (fs : List Func) : Prop :=
  (w.tool.ctxStateMap ctx).isSome = true ∧
    (∀ f ∈ fs, ⟨ctx, f.module, f.lifetime⟩ ∈ w.live ∧
      ∀ u ∈ w.uses, u.ctx = ctx → u.handle = f.handle → w.IsLive ctx u.lifetime →
        u.lifetime = f.lifetime) ∧
    ∀ f ∈ fs, ∀ g ∈ fs, f.handle = g.handle → f.lifetime = g.lifetime

/-- What the driver can do next. -/
def Permitted (w : World) : Event → Prop
  | .contextBegin ctx => (w.tool.ctxStateMap ctx).isSome = false
  | .contextEnd ctx => (w.tool.ctxStateMap ctx).isSome = true
  | .moduleLoad ctx module => (w.tool.ctxStateMap ctx).isSome = true ∧
      ∀ m ∈ w.live, ¬(m.ctx = ctx ∧ m.module = module)
  | .moduleUnload ctx module _ => ∃ m ∈ w.live, m.ctx = ctx ∧ m.module = module
  | .launch l => w.Callable l.ctx l.functions
  | .graphNode n => w.Callable n.ctx n.functions
  | .channelFailure ctx => (w.tool.ctxStateMap ctx).isSome = true

def useAll (w : World) (ctx : CUcontext) (fs : List Func) : List Use :=
  fs.map (fun f => ⟨ctx, f.handle, f.lifetime⟩) ++ w.uses

variable (cfg : Settings)

def step (w : World) : Event → World
  | .contextBegin ctx => { w with tool := atCtxInit w.tool ctx }
  | .contextEnd ctx =>
    { tool := atCtxTerm w.tool ctx
      live := w.live.filter fun m => m.ctx ≠ ctx
      uses := w.uses.filter fun u => u.ctx ≠ ctx
      missed := w.missed.filter fun p => p.1 ≠ ctx
      patched := w.patched.filter fun p => p.1 ≠ ctx
      next := w.next }
  | .moduleLoad ctx module =>
    { w with live := ⟨ctx, module, w.next⟩ :: w.live, next := w.next + 1 }
  | .moduleUnload ctx module boundaryMissed =>
    { w with
      tool := forgetRuntimeModule w.tool ctx (some module) boundaryMissed
      live := w.live.filter fun m => ¬(m.ctx = ctx ∧ m.module = module)
      missed := ((w.usedUnder ctx module).filter fun f =>
        !w.tool.ownedHandle ctx (some module) f).map (ctx, ·) ++ w.missed }
  | .launch l =>
    let entered := enterKernelLaunch cfg w.tool l
    { w with
      tool := entered.tool
      uses := w.useAll l.ctx l.functions
      patched := entered.instrumented.map (fun f => (l.ctx, f.handle)) ++ w.patched }
  | .graphNode n =>
    { w with tool := (atGraphNodeLaunch cfg w.tool n).tool, uses := w.useAll n.ctx n.functions }
  | .channelFailure ctx =>
    { w with tool := w.tool.modify ctx fun s => { s with channelFailed := true } }

def EveryStep (P : World → Event → Prop) : World → List Event → Prop
  | _, [] => True
  | w, e :: es => P w e ∧ EveryStep P (w.step cfg e) es

instance (w : World) (ctx : CUcontext) (lifetime : ℕ) : Decidable (w.IsLive ctx lifetime) :=
  inferInstanceAs (Decidable (∃ m ∈ w.live, m.ctx = ctx ∧ m.lifetime = lifetime))

instance (w : World) (ctx : CUcontext) (fs : List Func) : Decidable (w.Callable ctx fs) :=
  inferInstanceAs (Decidable ((w.tool.ctxStateMap ctx).isSome = true ∧
    (∀ f ∈ fs, ⟨ctx, f.module, f.lifetime⟩ ∈ w.live ∧
      ∀ u ∈ w.uses, u.ctx = ctx → u.handle = f.handle → w.IsLive ctx u.lifetime →
        u.lifetime = f.lifetime) ∧
    ∀ f ∈ fs, ∀ g ∈ fs, f.handle = g.handle → f.lifetime = g.lifetime))

instance (w : World) : DecidablePred w.Permitted
  | .contextBegin ctx => inferInstanceAs (Decidable ((w.tool.ctxStateMap ctx).isSome = false))
  | .contextEnd ctx => inferInstanceAs (Decidable ((w.tool.ctxStateMap ctx).isSome = true))
  | .moduleLoad ctx module => inferInstanceAs (Decidable ((w.tool.ctxStateMap ctx).isSome = true ∧
      ∀ m ∈ w.live, ¬(m.ctx = ctx ∧ m.module = module)))
  | .moduleUnload ctx module _ =>
    inferInstanceAs (Decidable (∃ m ∈ w.live, m.ctx = ctx ∧ m.module = module))
  | .launch l => inferInstanceAs (Decidable (w.Callable l.ctx l.functions))
  | .graphNode n => inferInstanceAs (Decidable (w.Callable n.ctx n.functions))
  | .channelFailure ctx => inferInstanceAs (Decidable ((w.tool.ctxStateMap ctx).isSome = true))

instance decideEveryStep (P : World → Event → Prop) [∀ w, DecidablePred (P w)] (w : World)
    (es : List Event) : Decidable (EveryStep cfg P w es) :=
  match es with
  | [] => isTrue trivial
  | e :: es =>
    have := decideEveryStep P (w.step cfg e) es
    inferInstanceAs (Decidable (P w e ∧ EveryStep cfg P (w.step cfg e) es))

/-! ### What a step must not do -/

/-- What runs its instrumented code with a root: `nvbit_enable_instrumented` is about the root and
the functions related to it. -/
def runsPatched (w : World) (ctx : CUcontext) (root : Func) (related : List Func) : List Func :=
  root :: related.filter fun f => w.patched.contains (ctx, f.handle)

/-- The functions that a step instruments, and those whose instrumented code it runs. -/
def touched (w : World) : Event → List (CUcontext × Func)
  | .launch l =>
    let entered := enterKernelLaunch cfg w.tool l
    (entered.instrumented ++
      if entered.enabled then w.runsPatched l.ctx l.root l.related else []).map (l.ctx, ·)
  | .graphNode n =>
    (if (atGraphNodeLaunch cfg w.tool n).traced then w.runsPatched n.ctx n.func n.related
      else []).map (n.ctx, ·)
  | _ => []

def traced (w : World) : Event → Option (CUcontext × Func)
  | .launch l => if (enterKernelLaunch cfg w.tool l).traced then some (l.ctx, l.root) else none
  | .graphNode n => if (atGraphNodeLaunch cfg w.tool n).traced then some (n.ctx, n.func) else none
  | _ => none

/-- A step touches no stale handle. The tables of a traced launch have no row that was read
in another module load than that of its function. -/
def Sound (w : World) (e : Event) : Prop :=
  (∀ p ∈ w.touched cfg e, ¬w.Stale p.1 p.2.handle) ∧
    ∀ p ∈ w.traced cfg e, ∀ s, (w.step cfg e).tool.ctxStateMap p.1 = some s →
      ∀ lifetime, s.BuiltIn p.2.handle lifetime → lifetime = p.2.lifetime

/-- A handle that is neither retired nor was missed by an unload. -/
def Fresh (w : World) (ctx : CUcontext) (f : CUfunction) : Prop :=
  w.tool.reusedFunctionHandle ctx f = false ∧ (ctx, f) ∉ w.missed

/-- A root that no unload missed, and no stale one among the related functions that NVBit has
instrumented code of. -/
def RunsFresh (w : World) (ctx : CUcontext) (root : Func) (related : List Func) : Prop :=
  (ctx, root.handle) ∉ w.missed ∧
    ∀ f ∈ related, w.patched.contains (ctx, f.handle) = true → w.Fresh ctx f.handle

/-- What a launch is about to instrument is fresh, and so is what is about to run its
instrumented code. -/
def Careful (w : World) : Event → Prop
  | .launch l =>
    (∀ f ∈ l.functions, l.instruments cfg w.tool f = true → w.Fresh l.ctx f.handle) ∧
    (l.enables cfg w.tool = true → w.RunsFresh l.ctx l.root l.related)
  | .graphNode n =>
    (atGraphNodeLaunch cfg w.tool n).traced = true → w.RunsFresh n.ctx n.func n.related
  | _ => True

instance (w : World) (ctx : CUcontext) (f : CUfunction) : Decidable (w.Fresh ctx f) :=
  inferInstanceAs (Decidable (w.tool.reusedFunctionHandle ctx f = false ∧ (ctx, f) ∉ w.missed))

instance (w : World) (ctx : CUcontext) (root : Func) (related : List Func) :
    Decidable (w.RunsFresh ctx root related) :=
  inferInstanceAs (Decidable ((ctx, root.handle) ∉ w.missed ∧
    ∀ f ∈ related, w.patched.contains (ctx, f.handle) = true → w.Fresh ctx f.handle))

instance (w : World) : DecidablePred (w.Careful cfg)
  | .launch l => inferInstanceAs (Decidable (
      (∀ f ∈ l.functions, l.instruments cfg w.tool f = true → w.Fresh l.ctx f.handle) ∧
      (l.enables cfg w.tool = true → w.RunsFresh l.ctx l.root l.related)))
  | .graphNode n => inferInstanceAs (Decidable
      ((atGraphNodeLaunch cfg w.tool n).traced = true → w.RunsFresh n.ctx n.func n.related))
  | .contextBegin _ | .contextEnd _ | .moduleLoad _ _ | .moduleUnload _ _ _ | .channelFailure _ =>
    isTrue trivial

end World

/-! ### What an unload takes out -/

/-- A state without the rows and roots of the handles that `gone` names, which a module
unload retires. -/
structure CTXstate.Forgets (module : Option CUmodule) (gone : CUfunction → Bool)
    (s s' : CTXstate) : Prop where
  retired : ∀ f, s'.retiredFunctionHandles f = (module.isSome && gone f || s.retiredFunctionHandles f)
  roots : ∀ f, s'.instrumentedLaunchRoots f = true →
    s.instrumentedLaunchRoots f = true ∧ gone f = false
  rows : ∀ f lifetime, s'.BuiltIn f lifetime → s.BuiltIn f lifetime

theorem CTXstate.forgets_forget (module : Option CUmodule) (gone : CUfunction → Bool)
    {s s₀ : CTXstate} (hretired : s₀.retiredFunctionHandles = s.retiredFunctionHandles)
    (hroots : s₀.instrumentedLaunchRoots = s.instrumentedLaunchRoots)
    (hrows : ∀ f lifetime, s₀.BuiltIn f lifetime → s.BuiltIn f lifetime) :
    s.Forgets module gone (s₀.forget module gone) where
  retired f := by simp [CTXstate.forget, hretired]
  roots f h := by
    simp only [CTXstate.forget, Bool.and_eq_true, Bool.not_eq_true', hroots] at h
    exact ⟨h.2, h.1⟩
  rows f lifetime h := hrows f lifetime (CTXstate.forget_builtIn h)

section Forget

variable {t : Tool} {ctx : CUcontext} {module : Option CUmodule} {missed : Bool}

theorem get?_forgetRuntimeModule {f : CUfunction} {e : KernelFuncMetadata} :
    (forgetRuntimeModule t ctx module missed).kernelMetadataByFunc.get? f = some e ↔
      t.kernelMetadataByFunc.get? f = some e ∧ e.owned ctx module = false := by
  unfold forgetRuntimeModule
  dsimp only
  split_ifs with hany hmissed
  · simp [Dict.get?_filter, Tool.modify]
  · simp [Dict.get?_filter]
  · refine ⟨fun h => ⟨h, ?_⟩, And.left⟩
    have hmem : e ∈ t.kernelMetadataByFunc.values :=
      List.mem_map.mpr ⟨(f, e), (Dict.get?_eq_some_iff _ f e).mp h, rfl⟩
    simp only [List.any_eq_true, not_exists, not_and, Bool.not_eq_true] at hany
    exact hany e hmem

theorem ctxStateMap_forgetRuntimeModule_of_ne {c : CUcontext} (h : c ≠ ctx) :
    (forgetRuntimeModule t ctx module missed).ctxStateMap c = t.ctxStateMap c := by
  unfold forgetRuntimeModule
  dsimp only
  split_ifs <;> simp [Tool.modify, Function.update_of_ne h]

theorem ctxStateMap_forgetRuntimeModule_none (h : t.ctxStateMap ctx = none) :
    (forgetRuntimeModule t ctx module missed).ctxStateMap ctx = none := by
  unfold forgetRuntimeModule
  dsimp only
  split_ifs <;> simp [Tool.modify, h]

/-- When no entry is owned nothing is forgotten. -/
theorem ownedHandle_eq_false
    (h : ¬t.kernelMetadataByFunc.values.any (KernelFuncMetadata.owned ctx module) = true)
    (f : CUfunction) : t.ownedHandle ctx module f = false := by
  unfold Tool.ownedHandle
  cases he : t.kernelMetadataByFunc.get? f with
  | none => rfl
  | some e =>
    have hmem : e ∈ t.kernelMetadataByFunc.values :=
      List.mem_map.mpr ⟨(f, e), (Dict.get?_eq_some_iff _ f e).mp he, rfl⟩
    simp only [List.any_eq_true, not_exists, not_and, Bool.not_eq_true] at h
    exact h e hmem

theorem ctxStateMap_forgetRuntimeModule (module : Option CUmodule) (missed : Bool) {s : CTXstate}
    (hs : t.ctxStateMap ctx = some s) :
    ∃ s', (forgetRuntimeModule t ctx module missed).ctxStateMap ctx = some s' ∧
      s.Forgets module (t.ownedHandle ctx module) s' := by
  unfold forgetRuntimeModule
  dsimp only
  have hforgets : ∀ s₀ : CTXstate, s₀ = { s with channelFailed := s₀.channelFailed } →
      s.Forgets module (t.ownedHandle ctx module) (s₀.forget module (t.ownedHandle ctx module)) := by
    rintro s₀ hs₀
    rw [hs₀]
    exact CTXstate.forgets_forget module _ rfl rfl fun _ _ h => h
  split_ifs with hany hmissed
  · refine ⟨CTXstate.forget { s with channelFailed := true } module _, ?_, hforgets _ rfl⟩
    simp only [Tool.modify, Function.update_self, hs, Option.map_some]
  · refine ⟨CTXstate.forget s module _, ?_, hforgets _ rfl⟩
    simp only [Tool.modify, Function.update_self, hs, Option.map_some]
  · refine ⟨s, hs, ?_, ?_, fun _ _ h => h⟩
    · intro f
      simp [ownedHandle_eq_false hany]
    · exact fun f h => ⟨h, ownedHandle_eq_false hany f⟩

end Forget

/-! ### The invariant -/

namespace World

variable {w : World} {ctx : CUcontext} (cfg : Settings)

/-- A handle of a context is stale when it is retired or was missed. What the tables hold
goes back to a use; the module that owns an entry is loaded. -/
structure Inv (w : World) : Prop where
  stale : ∀ ctx s, w.tool.ctxStateMap ctx = some s → ∀ f,
    w.Stale ctx f ↔ s.retiredFunctionHandles f = true ∨ (ctx, f) ∈ w.missed
  roots : ∀ ctx s, w.tool.ctxStateMap ctx = some s → ∀ f,
    s.instrumentedLaunchRoots f = true → s.retiredFunctionHandles f = false
  rows : ∀ ctx s, w.tool.ctxStateMap ctx = some s → ∀ f lifetime,
    s.BuiltIn f lifetime → ⟨ctx, f, lifetime⟩ ∈ w.uses
  owner : ∀ f e, w.tool.kernelMetadataByFunc.get? f = some e → ∀ module, e.owner.2 = some module →
    ∃ lifetime, ⟨e.owner.1, module, lifetime⟩ ∈ w.live ∧ ⟨e.owner.1, f, lifetime⟩ ∈ w.uses
  loaded : ∀ m ∈ w.live, (w.tool.ctxStateMap m.ctx).isSome = true ∧ m.lifetime < w.next
  used : ∀ u ∈ w.uses, (w.tool.ctxStateMap u.ctx).isSome = true ∧ u.lifetime < w.next
  escaped : ∀ p ∈ w.missed, (w.tool.ctxStateMap p.1).isSome = true
  one : ∀ m ∈ w.live, ∀ m' ∈ w.live, m.ctx = m'.ctx →
    m.module = m'.module ∨ m.lifetime = m'.lifetime → m = m'

theorem inv_start : start.Inv where
  stale _ _ h := by cases h
  roots _ _ h := by cases h
  rows _ _ h := by cases h
  owner _ _ h := by cases h
  loaded _ h := by cases h
  used _ h := by cases h
  escaped _ h := by cases h
  one _ h := by cases h

/-- New uses are of loaded modules, so they make no handle stale. -/
theorem stale_useAll {fs : List Func} (h : w.Callable ctx fs) (t : Tool)
    (patched : List (CUcontext × CUfunction)) (c : CUcontext) (f : CUfunction) :
    (⟨t, w.live, w.useAll ctx fs, w.missed, patched, w.next⟩ : World).Stale c f ↔ w.Stale c f := by
  constructor
  · rintro ⟨u, hu, hctx, hhandle, hlive⟩
    rcases List.mem_append.mp hu with hu | hu
    · obtain ⟨g, hg, rfl⟩ := List.mem_map.mp hu
      exact absurd ⟨_, (h.2.1 g hg).1, hctx, rfl⟩ hlive
    · exact ⟨u, hu, hctx, hhandle, hlive⟩
  · rintro ⟨u, hu, hctx, hhandle, hlive⟩
    exact ⟨u, List.mem_append_right _ hu, hctx, hhandle, hlive⟩

theorem isSome_enters {fs : List Func} {t t' : Tool} (h : t.Enters ctx fs t') (c : CUcontext) :
    (t'.ctxStateMap c).isSome = (t.ctxStateMap c).isSome := by
  by_cases hc : c = ctx
  · subst hc
    cases hs : t.ctxStateMap c with
    | none => rw [h.absent hs]
    | some s =>
      obtain ⟨s', hs', -⟩ := h.state s hs
      rw [hs']
      rfl
  · rw [h.others c hc]

/-- The state of a context after functions were entered comes from one before. -/
theorem exists_stores {fs : List Func} {t t' : Tool} (h : t.Enters ctx fs t') {c : CUcontext}
    {s' : CTXstate} (hs' : t'.ctxStateMap c = some s') :
    ∃ s, t.ctxStateMap c = some s ∧ s.Stores (if c = ctx then fs else []) s' := by
  by_cases hc : c = ctx
  · subst hc
    cases hs : t.ctxStateMap c with
    | none => rw [h.absent hs] at hs'; cases hs'
    | some s =>
      obtain ⟨s₁, hs₁, hstores⟩ := h.state s hs
      rw [hs₁, Option.some.injEq] at hs'
      exact ⟨s, rfl, by simpa [hs'] using hstores⟩
  · rw [h.others c hc] at hs'
    exact ⟨s', hs', by simpa [hc] using .refl [] s'⟩

theorem Inv.enter (hw : w.Inv) {fs : List Func} {t' : Tool} (hcall : w.Callable ctx fs)
    (h : w.tool.Enters ctx fs t') (patched : List (CUcontext × CUfunction)) :
    Inv { w with tool := t', uses := w.useAll ctx fs, patched } where
  stale c s' hs' f := by
    obtain ⟨s, hs, hstores⟩ := exists_stores h hs'
    rw [stale_useAll hcall, hw.stale c s hs, hstores.retired]
  roots c s' hs' f hroot := by
    obtain ⟨s, hs, hstores⟩ := exists_stores h hs'
    rw [hstores.retired]
    exact (hstores.roots f hroot).elim (hw.roots c s hs f) id
  rows c s' hs' f lifetime hrow := by
    obtain ⟨s, hs, hstores⟩ := exists_stores h hs'
    rcases hstores.rows f lifetime hrow with hold | ⟨g, hg, rfl, rfl⟩
    · exact List.mem_append_right _ (hw.rows c s hs f lifetime hold)
    · split_ifs at hg with hc
      · subst hc
        exact List.mem_append_left _ (List.mem_map_of_mem hg)
      · cases hg
  owner f e' he' module hmodule := by
    rcases h.owner f e' he' with ⟨e, he, howner⟩ | ⟨g, hg, rfl, howner⟩
    · rw [← howner] at hmodule ⊢
      obtain ⟨lifetime, hlive, huse⟩ := hw.owner f e he module hmodule
      exact ⟨lifetime, hlive, List.mem_append_right _ huse⟩
    · rw [howner] at hmodule ⊢
      unfold Func.owner at hmodule
      dsimp only at hmodule
      split_ifs at hmodule
      cases hmodule
      exact ⟨g.lifetime, (hcall.2.1 g hg).1, List.mem_append_left _ (List.mem_map_of_mem hg)⟩
  loaded m hm := by
    rw [isSome_enters h]
    exact hw.loaded m hm
  used u hu := by
    rw [isSome_enters h]
    rcases List.mem_append.mp hu with hu | hu
    · obtain ⟨g, hg, rfl⟩ := List.mem_map.mp hu
      exact ⟨hcall.1, (hw.loaded _ (hcall.2.1 g hg).1).2⟩
    · exact hw.used u hu
  escaped p hp := by
    rw [isSome_enters h]
    exact hw.escaped p hp
  one := hw.one

theorem ctxStateMap_atCtxInit (t : Tool) (c : CUcontext) :
    (atCtxInit t ctx).ctxStateMap c = if c = ctx then some CTXstate.new else t.ctxStateMap c := by
  rw [← Function.update_apply]
  rfl

/-- Nothing is known of a context that begins. -/
theorem Inv.contextBegin (hw : w.Inv) (hnew : (w.tool.ctxStateMap ctx).isSome = false) :
    (w.step cfg (.contextBegin ctx)).Inv := by
  have hstate : ∀ c s, (atCtxInit w.tool ctx).ctxStateMap c = some s →
      c = ctx ∧ s = CTXstate.new ∨ w.tool.ctxStateMap c = some s := by
    intro c s hs
    rw [ctxStateMap_atCtxInit] at hs
    split_ifs at hs with hc
    · exact .inl ⟨hc, (Option.some.inj hs).symm⟩
    · exact .inr hs
  have hsome : ∀ c, (w.tool.ctxStateMap c).isSome = true →
      ((atCtxInit w.tool ctx).ctxStateMap c).isSome = true := by
    intro c hc
    rw [ctxStateMap_atCtxInit]
    split_ifs
    · rfl
    · exact hc
  have hnone : ∀ c, (w.tool.ctxStateMap c).isSome = true → c ≠ ctx := by
    rintro c hc rfl
    rw [hnew] at hc
    cases hc
  refine ⟨?_, ?_, ?_, hw.owner, ?_, ?_, ?_, hw.one⟩
  · intro c s hs f
    rcases hstate c s hs with ⟨rfl, rfl⟩ | hs
    · constructor
      · rintro ⟨u, hu, rfl, -⟩
        exact absurd rfl (hnone _ (hw.used u hu).1)
      · rintro (h | h)
        · cases h
        · exact absurd rfl (hnone _ (hw.escaped _ h))
    · exact hw.stale c s hs f
  · intro c s hs f hroot
    rcases hstate c s hs with ⟨rfl, rfl⟩ | hs
    · rfl
    · exact hw.roots c s hs f hroot
  · intro c s hs f lifetime hrow
    rcases hstate c s hs with ⟨rfl, rfl⟩ | hs
    · exact absurd hrow (CTXstate.new_builtIn f lifetime)
    · exact hw.rows c s hs f lifetime hrow
  · exact fun m hm => ⟨hsome _ (hw.loaded m hm).1, (hw.loaded m hm).2⟩
  · exact fun u hu => ⟨hsome _ (hw.used u hu).1, (hw.used u hu).2⟩
  · exact fun p hp => hsome _ (hw.escaped p hp)

theorem ctxStateMap_atCtxTerm (t : Tool) (c : CUcontext) :
    (atCtxTerm t ctx).ctxStateMap c = if c = ctx then none else t.ctxStateMap c := by
  by_cases hc : c = ctx
  · subst hc
    rw [if_pos rfl]
    unfold atCtxTerm forgetRuntimeModule
    dsimp only
    split_ifs <;> simp [Tool.modify]
  · rw [if_neg hc, atCtxTerm, ctxStateMap_forgetRuntimeModule_of_ne hc]
    exact Function.update_of_ne hc ..

/-- What belongs to a context ends with it. -/
theorem Inv.contextEnd (hw : w.Inv) : (w.step cfg (.contextEnd ctx)).Inv := by
  have hstate : ∀ c s, (atCtxTerm w.tool ctx).ctxStateMap c = some s →
      c ≠ ctx ∧ w.tool.ctxStateMap c = some s := by
    intro c s hs
    rw [ctxStateMap_atCtxTerm] at hs
    split_ifs at hs with hc
    exact ⟨hc, hs⟩
  have hsome : ∀ c, c ≠ ctx → (w.tool.ctxStateMap c).isSome = true →
      ((atCtxTerm w.tool ctx).ctxStateMap c).isSome = true := by
    intro c hc h
    rwa [ctxStateMap_atCtxTerm, if_neg hc]
  refine ⟨?_, ?_, ?_, ?_, ?_, ?_, ?_, ?_⟩
  · intro c s hs f
    obtain ⟨hc, hs⟩ := hstate c s hs
    have hmissed : (c, f) ∈ (w.step cfg (.contextEnd ctx)).missed ↔ (c, f) ∈ w.missed := by
      simp [step, hc]
    have hstale : (w.step cfg (.contextEnd ctx)).Stale c f ↔ w.Stale c f := by
      constructor
      · rintro ⟨u, hu, rfl, hhandle, hlive⟩
        refine ⟨u, (List.mem_filter.mp hu).1, rfl, hhandle, fun ⟨m, hm, hctx, hlifetime⟩ => ?_⟩
        exact hlive ⟨m, List.mem_filter.mpr ⟨hm, by simpa [hctx] using hc⟩, hctx, hlifetime⟩
      · rintro ⟨u, hu, rfl, hhandle, hlive⟩
        refine ⟨u, List.mem_filter.mpr ⟨hu, by simpa using hc⟩, rfl, hhandle, ?_⟩
        rintro ⟨m, hm, hctx, hlifetime⟩
        exact hlive ⟨m, (List.mem_filter.mp hm).1, hctx, hlifetime⟩
    rw [hstale, hmissed]
    exact hw.stale c s hs f
  · intro c s hs f
    exact hw.roots c s (hstate c s hs).2 f
  · intro c s hs f lifetime hrow
    obtain ⟨hc, hs⟩ := hstate c s hs
    exact List.mem_filter.mpr ⟨hw.rows c s hs f lifetime hrow, by simpa using hc⟩
  · intro f e he module hmodule
    obtain ⟨he, howned⟩ := get?_forgetRuntimeModule.mp he
    have hc : e.ownerContext ≠ ctx := by simpa [KernelFuncMetadata.owned] using howned
    obtain ⟨lifetime, hlive, huse⟩ := hw.owner f e he module hmodule
    exact ⟨lifetime, List.mem_filter.mpr ⟨hlive, decide_eq_true hc⟩,
      List.mem_filter.mpr ⟨huse, decide_eq_true hc⟩⟩
  · intro m hm
    obtain ⟨hm, hc⟩ := List.mem_filter.mp hm
    exact ⟨hsome _ (by simpa using hc) (hw.loaded m hm).1, (hw.loaded m hm).2⟩
  · intro u hu
    obtain ⟨hu, hc⟩ := List.mem_filter.mp hu
    exact ⟨hsome _ (by simpa using hc) (hw.used u hu).1, (hw.used u hu).2⟩
  · intro p hp
    obtain ⟨hp, hc⟩ := List.mem_filter.mp hp
    exact hsome _ (by simpa using hc) (hw.escaped p hp)
  · intro m hm m' hm'
    exact hw.one m (List.mem_filter.mp hm).1 m' (List.mem_filter.mp hm').1

/-- A new module load has a lifetime of its own. -/
theorem Inv.moduleLoad (hw : w.Inv) {module : CUmodule}
    (h : w.Permitted (.moduleLoad ctx module)) : (w.step cfg (.moduleLoad ctx module)).Inv := by
  refine ⟨?_, hw.roots, hw.rows, ?_, ?_, ?_, hw.escaped, ?_⟩
  · intro c s hs f
    refine Iff.trans ?_ (hw.stale c s hs f)
    constructor
    · rintro ⟨u, hu, hctx, hhandle, hlive⟩
      exact ⟨u, hu, hctx, hhandle, fun ⟨m, hm, hm'⟩ => hlive ⟨m, List.mem_cons_of_mem _ hm, hm'⟩⟩
    · rintro ⟨u, hu, hctx, hhandle, hlive⟩
      refine ⟨u, hu, hctx, hhandle, ?_⟩
      rintro ⟨m, hm, hm'⟩
      rcases List.mem_cons.mp hm with rfl | hm
      · have hlt := (hw.used u hu).2
        have heq : w.next = u.lifetime := hm'.2
        omega
      · exact hlive ⟨m, hm, hm'⟩
  · intro f e he module' hmodule
    obtain ⟨lifetime, hlive, huse⟩ := hw.owner f e he module' hmodule
    exact ⟨lifetime, List.mem_cons_of_mem _ hlive, huse⟩
  · intro m hm
    rcases List.mem_cons.mp hm with rfl | hm
    · exact ⟨h.1, Nat.lt_succ_self _⟩
    · exact ⟨(hw.loaded m hm).1, Nat.lt_succ_of_lt (hw.loaded m hm).2⟩
  · exact fun u hu => ⟨(hw.used u hu).1, Nat.lt_succ_of_lt (hw.used u hu).2⟩
  · have hfresh : ∀ m ∈ w.live, m.ctx = ctx → ¬(m.module = module ∨ m.lifetime = w.next) := by
      rintro m hm hctx (hmodule | hlifetime)
      · exact h.2 m hm ⟨hctx, hmodule⟩
      · have := (hw.loaded m hm).2
        omega
    intro m hm m' hm' hctx hsame
    rcases List.mem_cons.mp hm with rfl | hm <;> rcases List.mem_cons.mp hm' with rfl | hm'
    · rfl
    · exact absurd (hsame.imp Eq.symm Eq.symm) (hfresh m' hm' hctx.symm)
    · exact absurd hsame (hfresh m hm hctx)
    · exact hw.one m hm m' hm' hctx hsame

theorem mem_usedUnder {module : CUmodule} {f : CUfunction} : f ∈ w.usedUnder ctx module ↔
    ∃ lifetime, ⟨ctx, f, lifetime⟩ ∈ w.uses ∧ ⟨ctx, module, lifetime⟩ ∈ w.live := by
  unfold usedUnder
  constructor
  · intro h
    obtain ⟨u, hu, rfl⟩ := List.mem_map.mp h
    obtain ⟨hu, hlive⟩ := List.mem_filter.mp hu
    obtain ⟨hctx, hlive⟩ := of_decide_eq_true hlive
    exact ⟨u.lifetime, hctx ▸ hu, hlive⟩
  · rintro ⟨lifetime, hu, hlive⟩
    exact List.mem_map.mpr ⟨_, List.mem_filter.mpr ⟨hu, by simpa using hlive⟩, rfl⟩

/-- An unload makes the handles stale that were used under its module, and no others. -/
theorem stale_moduleUnload (hw : w.Inv) {module : CUmodule} {missed : Bool} {c : CUcontext}
    {f : CUfunction} : (w.step cfg (.moduleUnload ctx module missed)).Stale c f ↔
      w.Stale c f ∨ c = ctx ∧ f ∈ w.usedUnder ctx module := by
  constructor
  · rintro ⟨u, hu, rfl, rfl, hlive⟩
    by_cases hbefore : w.IsLive u.ctx u.lifetime
    · obtain ⟨m, hm, hctx, hlifetime⟩ := hbefore
      have hgone : m.ctx = ctx ∧ m.module = module := by
        by_contra hkeep
        exact hlive ⟨m, List.mem_filter.mpr ⟨hm, decide_eq_true hkeep⟩, hctx, hlifetime⟩
      obtain ⟨rfl, rfl⟩ := hgone
      exact .inr ⟨hctx.symm, mem_usedUnder.mpr ⟨u.lifetime, hctx ▸ hu, hlifetime ▸ hm⟩⟩
    · exact .inl ⟨u, hu, rfl, rfl, hbefore⟩
  · rintro (⟨u, hu, hctx, hhandle, hlive⟩ | ⟨rfl, hf⟩)
    · refine ⟨u, hu, hctx, hhandle, ?_⟩
      rintro ⟨m, hm, hm'⟩
      exact hlive ⟨m, (List.mem_filter.mp hm).1, hm'⟩
    · obtain ⟨lifetime, hu, hm⟩ := mem_usedUnder.mp hf
      refine ⟨_, hu, rfl, rfl, ?_⟩
      rintro ⟨m', hm', hctx, hlifetime⟩
      obtain ⟨hm', hkeep⟩ := List.mem_filter.mp hm'
      -- the load of a lifetime is unique
      cases hw.one m' hm' _ hm hctx (.inr hlifetime)
      simp at hkeep

/-- What the metadata of a handle owns was used under a module that is still loaded. -/
theorem Inv.usedUnder_of_owned (hw : w.Inv) {module : CUmodule} {f : CUfunction}
    (h : w.tool.ownedHandle ctx (some module) f = true) : f ∈ w.usedUnder ctx module := by
  obtain ⟨e, he, howned⟩ := (Option.any_eq_true _ _).mp h
  simp only [KernelFuncMetadata.owned, Option.isNone_some, Bool.false_or, Bool.and_eq_true,
    decide_eq_true_eq] at howned
  obtain ⟨lifetime, hlive, hu⟩ := hw.owner f e he module howned.2
  have hctx : e.owner.1 = ctx := howned.1
  rw [hctx] at hlive hu
  exact mem_usedUnder.mpr ⟨lifetime, hu, hlive⟩

/-- An unload retires a handle that was used under its module, or misses it. -/
theorem Inv.moduleUnload (hw : w.Inv) {module : CUmodule} {missed : Bool} :
    (w.step cfg (.moduleUnload ctx module missed)).Inv := by
  have hstate : ∀ c, (∀ s', (forgetRuntimeModule w.tool ctx (some module) missed).ctxStateMap c =
        some s' → ∃ s, w.tool.ctxStateMap c = some s ∧ s.Forgets (some module)
          (fun f => decide (c = ctx) && w.tool.ownedHandle ctx (some module) f) s') ∧
      ((w.tool.ctxStateMap c).isSome = true →
        ((forgetRuntimeModule w.tool ctx (some module) missed).ctxStateMap c).isSome = true) := by
    intro c
    by_cases hc : c = ctx
    · subst hc
      cases hs : w.tool.ctxStateMap c with
      | none =>
        refine ⟨fun s' hs' => ?_, fun h => absurd h (by simp)⟩
        rw [ctxStateMap_forgetRuntimeModule_none hs] at hs'
        cases hs'
      | some s =>
        obtain ⟨s₁, hs₁, hforgets⟩ := ctxStateMap_forgetRuntimeModule (some module) missed hs
        refine ⟨fun s' hs' => ⟨s, rfl, ?_⟩, fun _ => by rw [hs₁]; rfl⟩
        rw [hs₁, Option.some.injEq] at hs'
        simpa [hs'] using hforgets
    · rw [ctxStateMap_forgetRuntimeModule_of_ne hc]
      refine ⟨fun s hs => ⟨s, hs, ⟨fun f => ?_, fun f hf => ⟨hf, ?_⟩, fun _ _ h => h⟩⟩, id⟩
      · simp [hc]
      · simp [hc]
  refine ⟨?_, ?_, ?_, ?_, ?_, ?_, ?_, ?_⟩
  · intro c s' hs' f
    obtain ⟨s, hs, hforgets⟩ := (hstate c).1 s' hs'
    rw [stale_moduleUnload cfg hw, hw.stale c s hs, hforgets.retired]
    have hmissed : (c, f) ∈ (w.step cfg (.moduleUnload ctx module missed)).missed ↔
        (c = ctx ∧ f ∈ w.usedUnder ctx module ∧ w.tool.ownedHandle ctx (some module) f = false) ∨
          (c, f) ∈ w.missed := by
      rw [step, List.mem_append]
      refine or_congr_left ?_
      simp only [List.mem_map, List.mem_filter, Bool.not_eq_true', Prod.mk.injEq]
      constructor
      · rintro ⟨g, hg, rfl, rfl⟩
        exact ⟨rfl, hg⟩
      · rintro ⟨rfl, hf⟩
        exact ⟨f, hf, rfl, rfl⟩
    rw [hmissed]
    have howned : w.tool.ownedHandle ctx (some module) f = true → f ∈ w.usedUnder ctx module :=
      hw.usedUnder_of_owned
    simp only [Option.isSome_some, Bool.true_and, Bool.or_eq_true, Bool.and_eq_true,
      decide_eq_true_eq, ← Bool.not_eq_true]
    tauto
  · intro c s' hs' f hroot
    obtain ⟨s, hs, hforgets⟩ := (hstate c).1 s' hs'
    obtain ⟨hold, hgone⟩ := hforgets.roots f hroot
    rw [hforgets.retired, hgone, hw.roots c s hs f hold]
    rfl
  · intro c s' hs' f lifetime hrow
    obtain ⟨s, hs, hforgets⟩ := (hstate c).1 s' hs'
    exact hw.rows c s hs f lifetime (hforgets.rows f lifetime hrow)
  · intro f e he module' hmodule
    obtain ⟨he, howned⟩ := get?_forgetRuntimeModule.mp he
    obtain ⟨lifetime, hlive, huse⟩ := hw.owner f e he module' hmodule
    refine ⟨lifetime, List.mem_filter.mpr ⟨hlive, decide_eq_true ?_⟩, huse⟩
    rintro ⟨hctx, rfl⟩
    have howner : e.ownerContext = ctx ∧ e.ownerModule = some module' := ⟨hctx, hmodule⟩
    simp [KernelFuncMetadata.owned, howner] at howned
  · intro m hm
    have hm := (List.mem_filter.mp hm).1
    exact ⟨(hstate _).2 (hw.loaded m hm).1, (hw.loaded m hm).2⟩
  · exact fun u hu => ⟨(hstate _).2 (hw.used u hu).1, (hw.used u hu).2⟩
  · intro p hp
    rcases List.mem_append.mp hp with hp | hp
    · obtain ⟨f, hf, rfl⟩ := List.mem_map.mp hp
      obtain ⟨lifetime, hu, -⟩ := mem_usedUnder.mp (List.mem_filter.mp hf).1
      exact (hstate _).2 (hw.used _ hu).1
    · exact (hstate _).2 (hw.escaped p hp)
  · intro m hm m' hm'
    exact hw.one m (List.mem_filter.mp hm).1 m' (List.mem_filter.mp hm').1

theorem Inv.channelFailure (hw : w.Inv) (h : (w.tool.ctxStateMap ctx).isSome = true) :
    (w.step cfg (.channelFailure ctx)).Inv := by
  have hcall : w.Callable ctx [] := ⟨h, by simp, by simp⟩
  have henters : w.tool.Enters ctx [] (w.tool.modify ctx fun s => { s with channelFailed := true }) :=
    Tool.enters_modify fun s _ => ⟨rfl, fun _ h => .inl h, fun _ _ h => .inl h⟩
  exact hw.enter hcall henters w.patched

/-- Every step that the driver can take keeps the invariant. -/
theorem Inv.step (hw : w.Inv) {e : Event} (h : w.Permitted e) : (w.step cfg e).Inv := by
  cases e with
  | contextBegin ctx => exact hw.contextBegin cfg h
  | contextEnd ctx => exact hw.contextEnd cfg
  | moduleLoad ctx module => exact hw.moduleLoad cfg h
  | moduleUnload ctx module missed => exact hw.moduleUnload cfg
  | launch l => exact hw.enter h (enters_enterKernelLaunch cfg) _
  | graphNode n => exact hw.enter h (enters_atGraphNodeLaunch cfg n) _
  | channelFailure ctx => exact hw.channelFailure cfg h

/-! ### When no stale handle is touched -/

/-- In a context that lives a handle is stale when it is retired or was missed. -/
theorem Inv.stale_iff (hw : w.Inv) (hctx : (w.tool.ctxStateMap ctx).isSome = true) (f : CUfunction) :
    w.Stale ctx f ↔ w.tool.reusedFunctionHandle ctx f = true ∨ (ctx, f) ∈ w.missed := by
  obtain ⟨s, hs⟩ := Option.isSome_iff_exists.mp hctx
  rw [hw.stale ctx s hs, Tool.reusedFunctionHandle, hs]

/-- A root that a graph node traces is not retired: the unload took it out of the roots. -/
theorem Inv.reused_of_node (hw : w.Inv) {n : GraphNode}
    (h : (atGraphNodeLaunch cfg w.tool n).traced = true) :
    w.tool.reusedFunctionHandle n.ctx n.func.handle = false := by
  have hroot : w.tool.isRoot n.ctx n.func.handle = true := by
    simp only [atGraphNodeLaunch, Bool.and_eq_true] at h
    exact h.1.2.1.1
  unfold Tool.isRoot at hroot
  unfold Tool.reusedFunctionHandle
  cases hs : w.tool.ctxStateMap n.ctx with
  | none => rfl
  | some s =>
    rw [hs] at hroot
    exact hw.roots _ s hs _ hroot

theorem Inv.not_stale_iff (hw : w.Inv) (hctx : (w.tool.ctxStateMap ctx).isSome = true)
    (f : CUfunction) : ¬w.Stale ctx f ↔ w.Fresh ctx f := by
  rw [hw.stale_iff hctx, not_or, Bool.not_eq_true, Fresh]

/-- Behind a root that is not retired. -/
theorem Inv.runsPatched_iff (hw : w.Inv) (hctx : (w.tool.ctxStateMap ctx).isSome = true) {root : Func}
    (hroot : w.tool.reusedFunctionHandle ctx root.handle = false) (related : List Func) :
    (∀ f ∈ w.runsPatched ctx root related, ¬w.Stale ctx f.handle) ↔
      w.RunsFresh ctx root related := by
  simp only [runsPatched, List.forall_mem_cons, List.mem_filter, and_imp, hw.not_stale_iff hctx]
  exact and_congr_left fun _ => and_iff_right hroot

theorem Inv.touched_iff (hw : w.Inv) {e : Event} (h : w.Permitted e) :
    (∀ p ∈ w.touched cfg e, ¬w.Stale p.1 p.2.handle) ↔ w.Careful cfg e := by
  cases e with
  | launch l =>
    have hctx : (w.tool.ctxStateMap l.ctx).isSome = true := h.1
    have hinstrumented :
        (∀ f ∈ (enterKernelLaunch cfg w.tool l).instrumented, ¬w.Stale l.ctx f.handle) ↔
        ∀ f ∈ l.functions, l.instruments cfg w.tool f = true → w.Fresh l.ctx f.handle := by
      have := not_congr (exists_instrumented_enterKernelLaunch cfg (t := w.tool) (l := l)
        fun f => w.Stale l.ctx f)
      push Not at this
      rw [this]
      exact forall₂_congr fun f _ => imp_congr_right fun _ => hw.not_stale_iff hctx f.handle
    rw [Careful, ← hinstrumented, ← enabled_enterKernelLaunch]
    simp only [touched, List.forall_mem_map, List.forall_mem_append]
    refine and_congr_right fun _ => ?_
    cases henabled : (enterKernelLaunch cfg w.tool l).enabled with
    | false => simp
    | true =>
      rw [enabled_enterKernelLaunch] at henabled
      have hadmitted := reused_of_admitted cfg (Bool.and_eq_true_iff.mp henabled).1
      simpa using hw.runsPatched_iff hctx hadmitted l.related
  | graphNode n =>
    have hctx : (w.tool.ctxStateMap n.ctx).isSome = true := h.1
    simp only [touched, Careful, List.forall_mem_map]
    split_ifs with htraced
    · simpa [htraced] using hw.runsPatched_iff hctx (hw.reused_of_node cfg htraced) n.related
    · simp [htraced]
  | _ => simp [touched, Careful]

/-- A traced launch of a handle that is not stale reads rows of its own module load only. -/
theorem Inv.rows_of_not_stale (hw : w.Inv) {fs : List Func} {t' : Tool} (hcall : w.Callable ctx fs)
    (h : w.tool.Enters ctx fs t') {f : Func} (hf : f ∈ fs) (hstale : ¬w.Stale ctx f.handle)
    {s : CTXstate} (hs : t'.ctxStateMap ctx = some s) {lifetime : ℕ}
    (hrow : s.BuiltIn f.handle lifetime) : lifetime = f.lifetime := by
  obtain ⟨s₀, hs₀, hstores⟩ := exists_stores h hs
  rw [if_pos rfl] at hstores
  rcases hstores.rows f.handle lifetime hrow with hold | ⟨g, hg, hhandle, rfl⟩
  · have huse := hw.rows ctx s₀ hs₀ f.handle lifetime hold
    have hlive : w.IsLive ctx lifetime := by
      by_contra hdead
      exact hstale ⟨_, huse, rfl, rfl, hdead⟩
    exact (hcall.2.1 f hf).2 _ huse rfl rfl hlive
  · exact hcall.2.2 g hg f hf hhandle

theorem touched_of_traced {e : Event} {p : CUcontext × Func} (h : p ∈ w.traced cfg e) :
    p ∈ w.touched cfg e := by
  cases e with
  | launch l =>
    simp only [traced, Option.mem_def] at h
    split_ifs at h with htraced
    cases h
    simp [touched, runsPatched, enabled_of_traced cfg htraced]
  | graphNode n =>
    simp only [traced, Option.mem_def] at h
    split_ifs at h with htraced
    cases h
    simp [touched, runsPatched, htraced]
  | _ => cases h

theorem Inv.sound_iff_careful (hw : w.Inv) {e : Event} (h : w.Permitted e) :
    w.Sound cfg e ↔ w.Careful cfg e := by
  rw [← hw.touched_iff cfg h, Sound, and_iff_left_iff_imp]
  intro hfresh p hp s hs lifetime hrow
  have hstale := hfresh p (touched_of_traced cfg hp)
  cases e with
  | launch l =>
    simp only [traced, Option.mem_def] at hp
    split_ifs at hp
    cases hp
    exact hw.rows_of_not_stale h (enters_enterKernelLaunch cfg) l.root_mem hstale hs hrow
  | graphNode n =>
    simp only [traced, Option.mem_def] at hp
    split_ifs at hp
    cases hp
    exact hw.rows_of_not_stale h (enters_atGraphNodeLaunch cfg n) n.func_mem hstale hs hrow
  | _ => cases hp

theorem Inv.everyStep_sound_iff (hw : w.Inv) {es : List Event} (h : EveryStep cfg Permitted w es) :
    EveryStep cfg (Sound cfg) w es ↔ EveryStep cfg (Careful cfg) w es := by
  induction es generalizing w with
  | nil => rfl
  | cons e es ih =>
    exact and_congr (hw.sound_iff_careful cfg h.1) (ih (hw.step cfg h.1) h.2)

/-- In a run that the driver permits, no step touches a stale handle or traces with rows of
another module load exactly when every step is careful. -/
theorem handle_reuse_sound_iff (es : List Event) (h : EveryStep cfg Permitted start es) :
    EveryStep cfg (Sound cfg) start es ↔ EveryStep cfg (Careful cfg) start es :=
  inv_start.everyStep_sound_iff cfg h

/-- Everything is instrumented, without a plan. -/
def plainSettings : Settings where
  anyInstrumentation := true
  exactKernelSelector := ⟨[], []⟩
  kernelFilters := []
  instrBeginInterval := 0
  instrEndInterval := 4294967295
  runtimePlanRequested := false
  runtimeIdentity := false
  kernelEvents := false
  computeKernelChecksum := fun name _ => name

def plainFunc (handle : CUfunction) (module : CUmodule) (lifetime : ℕ) : Func where
  handle := handle
  module := module
  moduleFound := true
  lifetime := lifetime
  mangledName := ['f']
  unmangledName := ['f']
  instrs := [⟨0, ['E', 'X', 'I', 'T'], [77], ⟨[], []⟩⟩]

def plainLaunch (root : Func) (related : List Func) : Launch where
  ctx := 0
  root := root
  related := related
  streamCapture := false
  buildGraph := false
  legacyApi := false
  prepare := none
  planApplied := false

/-- A module with a kernel 1 that calls 2 is unloaded; a kernel of the next module takes the
handles over: as a root, then as the callee of the new root 3. -/
def reload (moduleFound : Bool) (last : Launch) : List Event :=
  [.contextBegin 0, .moduleLoad 0 10,
    .launch (plainLaunch (plainFunc 1 10 0) [{ plainFunc 2 10 0 with moduleFound }]),
    .moduleUnload 0 10 false, .moduleLoad 0 11, .launch last]

theorem handle_reuse_sound_reload :
    EveryStep plainSettings Permitted start (reload true (plainLaunch (plainFunc 1 11 1) [])) ∧
      EveryStep plainSettings (Sound plainSettings) start
        (reload true (plainLaunch (plainFunc 1 11 1) [])) :=
  ⟨by decide +kernel,
    (handle_reuse_sound_iff plainSettings _ (by decide +kernel)).mpr (by decide +kernel)⟩

/-- The new root's callee 2. -/
def callsAgain : Launch := plainLaunch (plainFunc 3 11 1) [plainFunc 2 11 1]

/-- The callee 2 of the new root is instrumented although its handle is retired. Where the driver
did not name its module at first, the unload leaves it, and its old instrumented code runs. -/
theorem related_handle_reused :
    (EveryStep plainSettings Permitted start (reload true callsAgain) ∧
      ¬EveryStep plainSettings (Sound plainSettings) start (reload true callsAgain)) ∧
    EveryStep plainSettings Permitted start (reload false callsAgain) ∧
      ¬EveryStep plainSettings (Sound plainSettings) start (reload false callsAgain) := by
  have hpermitted : ∀ moduleFound,
      EveryStep plainSettings Permitted start (reload moduleFound callsAgain) := by decide +kernel
  have hcareless : ∀ moduleFound, ¬EveryStep plainSettings (Careful plainSettings) start
      (reload moduleFound callsAgain) := by decide +kernel
  have hunsound : ∀ moduleFound, ¬EveryStep plainSettings (Sound plainSettings) start
      (reload moduleFound callsAgain) := fun moduleFound hsound => hcareless moduleFound
    ((inv_start.everyStep_sound_iff plainSettings (hpermitted moduleFound)).mp hsound)
  exact ⟨⟨hpermitted true, hunsound true⟩, hpermitted false, hunsound false⟩

end World

end CuTracer.Hooks
