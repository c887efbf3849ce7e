import CuTracer.Hooks.Functions

/-! What entering functions changes. A launch only adds to the tables: an entry of the
metadata keeps its owner or is new for a function it reaches, a row keeps its build or is
new for a function it reaches. Which functions it instruments is decided by the tables
before it. -/

namespace CuTracer.Hooks

/-! ### Rows -/

/-- The table has a row of the function that was read in a module load. -/
def Table.BuiltIn {α : Type} (t : Table α) (f : CUfunction) (lifetime : ℕ) : Prop :=
  ∃ id b, t f id = some b ∧ b.lifetime = lifetime

/-- One of the tables has such a row. -/
def CTXstate.BuiltIn (s : CTXstate) (f : CUfunction) (lifetime : ℕ) : Prop :=
  s.idToSassMap.BuiltIn f lifetime ∨ s.idToSassBinaryMap.BuiltIn f lifetime ∨
    s.idToRegIndicesMap.BuiltIn f lifetime

theorem Table.put_builtIn {α : Type} {t : Table α} {g : Func} {id : ℕ} {value : α}
    {f : CUfunction} {lifetime : ℕ} (h : (t.put g id value).BuiltIn f lifetime) :
    t.BuiltIn f lifetime ∨ g.handle = f ∧ g.lifetime = lifetime := by
  obtain ⟨id', b, hb, rfl⟩ := h
  by_cases hf : f = g.handle
  · subst hf
    simp only [Table.put, Function.update_self] at hb
    by_cases hid : id' = id
    · subst hid
      rw [Function.update_self, Option.some.injEq] at hb
      exact .inr ⟨rfl, hb ▸ rfl⟩
    · rw [Function.update_of_ne hid] at hb
      exact .inl ⟨id', b, hb, rfl⟩
  · rw [Table.put, Function.update_of_ne hf] at hb
    exact .inl ⟨id', b, hb, rfl⟩

theorem Table.erase_builtIn {α : Type} {t : Table α} {gone : CUfunction → Bool} {f : CUfunction}
    {lifetime : ℕ} (h : (t.erase gone).BuiltIn f lifetime) : t.BuiltIn f lifetime := by
  obtain ⟨id, b, hb, hlifetime⟩ := h
  unfold Table.erase at hb
  split_ifs at hb
  exact ⟨id, b, hb, hlifetime⟩

theorem CTXstate.new_builtIn (f : CUfunction) (lifetime : ℕ) : ¬CTXstate.new.BuiltIn f lifetime := by
  rintro (⟨_, _, h, _⟩ | ⟨_, _, h, _⟩ | ⟨_, _, h, _⟩) <;> cases h

theorem CTXstate.forget_builtIn {s : CTXstate} {module : Option CUmodule}
    {gone : CUfunction → Bool} {f : CUfunction} {lifetime : ℕ}
    (h : (s.forget module gone).BuiltIn f lifetime) : s.BuiltIn f lifetime :=
  h.imp Table.erase_builtIn (Or.imp Table.erase_builtIn Table.erase_builtIn)

/-! ### States of one context -/

/-- A state keeps what it retired, and marks no such root. Its rows are old or of the
functions `fs`. -/
structure CTXstate.Stores (fs : List Func) (s s' : CTXstate) : Prop where
  retired : s'.retiredFunctionHandles = s.retiredFunctionHandles
  roots : ∀ f, s'.instrumentedLaunchRoots f = true →
    s.instrumentedLaunchRoots f = true ∨ s.retiredFunctionHandles f = false
  rows : ∀ f lifetime, s'.BuiltIn f lifetime →
    s.BuiltIn f lifetime ∨ ∃ g ∈ fs, g.handle = f ∧ g.lifetime = lifetime

variable {fs : List Func} {s s' s'' : CTXstate}

theorem CTXstate.Stores.refl (fs : List Func) (s : CTXstate) : s.Stores fs s :=
  ⟨rfl, fun _ h => .inl h, fun _ _ h => .inl h⟩

theorem CTXstate.Stores.trans (h : s.Stores fs s') (h' : s'.Stores fs s'') : s.Stores fs s'' where
  retired := h'.retired.trans h.retired
  roots f hf := (h'.roots f hf).elim (h.roots f) fun hretired => .inr (h.retired ▸ hretired)
  rows f lifetime hrow := (h'.rows f lifetime hrow).elim (h.rows f lifetime) .inr

variable (cfg : Settings)

/-- One instruction writes rows of its own function. -/
theorem CTXstate.stores_store {f : Func} (hf : f ∈ fs) (s : CTXstate) (p : Instr × ℕ) :
    s.Stores fs (s.store cfg f p) := by
  unfold CTXstate.store
  split_ifs with hskip hbinary
  · exact .refl fs s
  all_goals
    refine ⟨rfl, fun _ h => .inl h, fun g lifetime hrow => ?_⟩
    have hput : ∀ {α : Type} {t : Table α} {value : α}, (t.put f p.1.idx value).BuiltIn g lifetime →
        t.BuiltIn g lifetime ∨ ∃ g' ∈ fs, g'.handle = g ∧ g'.lifetime = lifetime := fun h =>
      (Table.put_builtIn h).imp_right fun hnew => ⟨f, hf, hnew⟩
  · rcases hrow with h | h | h
    · exact (hput h).imp_left .inl
    · exact .inl (.inr (.inl h))
    · exact (hput h).imp_left fun h => .inr (.inr h)
  · rcases hrow with h | h | h
    · exact (hput h).imp_left .inl
    · exact (hput h).imp_left fun h => .inr (.inl h)
    · exact (hput h).imp_left fun h => .inr (.inr h)

theorem CTXstate.stores_storeAll {f : Func} (hf : f ∈ fs) (s : CTXstate) :
    s.Stores fs (s.storeAll cfg f) := by
  unfold CTXstate.storeAll
  induction f.instrs.zipIdx generalizing s with
  | nil => exact .refl fs s
  | cons p ps ih => exact (s.stores_store cfg hf p).trans (ih _)

/-! ### All tables -/

def KernelFuncMetadata.owner (e : KernelFuncMetadata) : CUcontext × Option CUmodule :=
  (e.ownerContext, e.ownerModule)

def Func.owner (f : Func) (ctx : CUcontext) : CUcontext × Option CUmodule :=
  (ctx, if f.moduleFound then some f.module else none)

/-- A context entered functions among `fs`. -/
structure Tool.Enters (ctx : CUcontext) (fs : List Func) (t t' : Tool) : Prop where
  owner : ∀ g e', t'.kernelMetadataByFunc.get? g = some e' →
    (∃ e, t.kernelMetadataByFunc.get? g = some e ∧ e.owner = e'.owner) ∨
      ∃ f ∈ fs, f.handle = g ∧ e'.owner = f.owner ctx
  others : ∀ c, c ≠ ctx → t'.ctxStateMap c = t.ctxStateMap c
  absent : t.ctxStateMap ctx = none → t'.ctxStateMap ctx = none
  state : ∀ s, t.ctxStateMap ctx = some s → ∃ s', t'.ctxStateMap ctx = some s' ∧ s.Stores fs s'

variable {ctx : CUcontext} {t t' t'' : Tool}

theorem Tool.Enters.refl (ctx : CUcontext) (fs : List Func) (t : Tool) : t.Enters ctx fs t :=
  ⟨fun _ e h => .inl ⟨e, h, rfl⟩, fun _ _ => rfl, id, fun s h => ⟨s, h, .refl fs s⟩⟩

theorem Tool.Enters.trans (h : t.Enters ctx fs t') (h' : t'.Enters ctx fs t'') :
    t.Enters ctx fs t'' where
  owner g e'' he'' := by
    rcases h'.owner g e'' he'' with ⟨e', he', howner⟩ | hnew
    · rw [← howner]
      exact h.owner g e' he'
    · exact .inr hnew
  others c hc := (h'.others c hc).trans (h.others c hc)
  absent hnone := h'.absent (h.absent hnone)
  state s hs := by
    obtain ⟨s', hs', hstores⟩ := h.state s hs
    obtain ⟨s'', hs'', hstores'⟩ := h'.state s' hs'
    exact ⟨s'', hs'', hstores.trans hstores'⟩

theorem Tool.Enters.reusedFunctionHandle (h : t.Enters ctx fs t') :
    t'.reusedFunctionHandle ctx = t.reusedFunctionHandle ctx := by
  funext f
  unfold Tool.reusedFunctionHandle
  cases hs : t.ctxStateMap ctx with
  | none => rw [h.absent hs]
  | some s =>
    obtain ⟨s', hs', hstores⟩ := h.state s hs
    rw [hs']
    exact congrFun hstores.retired f

theorem Tool.enters_modify {g : CTXstate → CTXstate}
    (hg : ∀ s, t.ctxStateMap ctx = some s → s.Stores fs (g s)) :
    t.Enters ctx fs (t.modify ctx g) where
  owner _ e h := .inl ⟨e, h, rfl⟩
  others c hc := Function.update_of_ne hc ..
  absent hnone := by simp [Tool.modify, hnone]
  state s hs := ⟨g s, by simp [Tool.modify, hs], hg s hs⟩

/-- A root may be marked unless its handle is retired. -/
theorem Tool.enters_setRoot {f : CUfunction} {traced : Bool}
    (h : traced = true → t.reusedFunctionHandle ctx f = false) :
    t.Enters ctx fs (t.setRoot ctx f traced) := by
  apply Tool.enters_modify
  intro s hs
  refine ⟨rfl, fun g hg => ?_, fun _ _ h => .inl h⟩
  by_cases hgf : g = f
  · subst hgf
    have htraced : traced = true := by simpa using hg
    have hreused := h htraced
    rw [Tool.reusedFunctionHandle, hs] at hreused
    exact .inr hreused
  · exact .inl (by simpa [Function.update_of_ne hgf] using hg)

@[simp] theorem ctxStateMap_getOrCreate (f : Func) :
    (t.getOrCreateKernelFuncMetadata cfg ctx f).2.ctxStateMap = t.ctxStateMap := by
  unfold Tool.getOrCreateKernelFuncMetadata
  split
  · split_ifs <;> rfl
  · rfl

/-- Afterwards the entry of the function belongs to the context, any other is unchanged. -/
theorem getOrCreate_entry (f : Func) :
    (t.getOrCreateKernelFuncMetadata cfg ctx f).1.ownerContext = ctx ∧
    (t.getOrCreateKernelFuncMetadata cfg ctx f).2.kernelMetadataByFunc.get? f.handle =
      some (t.getOrCreateKernelFuncMetadata cfg ctx f).1 := by
  unfold Tool.getOrCreateKernelFuncMetadata
  split
  · rename_i known hknown
    split_ifs with howner
    · exact ⟨howner, hknown⟩
    · exact ⟨rfl, by simp [Dict.get?_insert]⟩
  · exact ⟨rfl, by simp [Dict.get?_insert]⟩

theorem enters_getOrCreate {f : Func} (hf : f ∈ fs) :
    t.Enters ctx fs (t.getOrCreateKernelFuncMetadata cfg ctx f).2 := by
  have hinsert : ∀ already, t.Enters ctx fs { t with
      kernelMetadataByFunc := t.kernelMetadataByFunc.insert f.handle (newMetadata cfg ctx f)
      alreadyInstrumented := already } := by
    intro already
    refine ⟨fun g e' he' => ?_, fun _ _ => rfl, id, fun s h => ⟨s, h, .refl fs s⟩⟩
    rw [Dict.get?_insert] at he'
    split_ifs at he' with hg
    · cases he'
      exact .inr ⟨f, hf, hg.symm, rfl⟩
    · exact .inl ⟨e', he', rfl⟩
  unfold Tool.getOrCreateKernelFuncMetadata
  split
  · split_ifs
    · exact .refl ctx fs t
    · exact hinsert _
  · exact hinsert _

theorem enters_matchesExactKernelSelector {f : Func} (hf : f ∈ fs) :
    t.Enters ctx fs (t.matchesExactKernelSelector cfg ctx f).2 := by
  unfold Tool.matchesExactKernelSelector
  split_ifs
  · exact .refl ctx fs t
  · exact enters_getOrCreate cfg hf

theorem enters_instrumentFunction {f : Func} (hf : f ∈ fs) :
    t.Enters ctx fs (t.instrumentFunction cfg ctx f) := by
  unfold Tool.instrumentFunction
  set t₁ : Tool := { t with alreadyInstrumented := _ } with ht₁
  set r := t₁.getOrCreateKernelFuncMetadata cfg ctx f with hr
  have hentry : r.2.kernelMetadataByFunc.get? f.handle = some r.1 := (getOrCreate_entry cfg f).2
  have h₁ : t.Enters ctx fs t₁ :=
    ⟨fun _ e h => .inl ⟨e, h, rfl⟩, fun _ _ => rfl, id, fun s h => ⟨s, h, .refl fs s⟩⟩
  have h₂ : t₁.Enters ctx fs r.2 := enters_getOrCreate cfg hf
  -- counting the instructions keeps the owner of the entry
  have h₃ : r.2.Enters ctx fs { r.2 with
      kernelMetadataByFunc := r.2.kernelMetadataByFunc.insert f.handle
        { r.1 with instructionCount := f.instrs.length } } := by
    refine ⟨fun g e' he' => ?_, fun _ _ => rfl, id, fun s h => ⟨s, h, .refl fs s⟩⟩
    rw [Dict.get?_insert] at he'
    split_ifs at he' with hg
    · cases he'
      exact .inl ⟨r.1, hg ▸ hentry, rfl⟩
    · exact .inl ⟨e', he', rfl⟩
  exact ((h₁.trans h₂).trans h₃).trans (Tool.enters_modify fun s _ => s.stores_storeAll cfg hf)

theorem enters_visit (p : Pass) {f : Func} (hf : f ∈ fs) :
    p.tool.Enters ctx fs (p.visit cfg ctx f).tool := by
  unfold Pass.visit
  dsimp only
  split_ifs
  · exact .refl ctx fs p.tool
  · exact enters_instrumentFunction cfg hf

theorem enters_foldl_visit {gs : List Func} (hgs : ∀ f ∈ gs, f ∈ fs) (p : Pass) :
    p.tool.Enters ctx fs (gs.foldl (Pass.visit cfg ctx) p).tool := by
  induction gs generalizing p with
  | nil => exact .refl ctx fs p.tool
  | cons g gs ih =>
    exact (enters_visit cfg p (hgs g List.mem_cons_self)).trans
      (ih (fun f hf => hgs f (List.mem_cons_of_mem g hf)) _)

theorem Launch.root_mem (l : Launch) : l.root ∈ l.functions := by simp [Launch.functions]

theorem enters_instrumentFunctionIfNeeded (t : Tool) (l : Launch) :
    t.Enters l.ctx l.functions (instrumentFunctionIfNeeded cfg t l).tool := by
  unfold instrumentFunctionIfNeeded
  have hselector : t.Enters l.ctx l.functions (t.matchesExactKernelSelector cfg l.ctx l.root).2 :=
    enters_matchesExactKernelSelector cfg l.root_mem
  split_ifs
  · exact .refl l.ctx l.functions t
  · dsimp only
    split_ifs
    · exact hselector
    · exact hselector.trans (enters_foldl_visit cfg (fun _ hf => hf)
        ⟨(t.matchesExactKernelSelector cfg l.ctx l.root).2, cfg.unfiltered, []⟩)

theorem enters_preparePlan (t : Tool) (l : Launch) :
    t.Enters l.ctx l.functions (preparePlan t l).tool := by
  unfold preparePlan
  split <;> exact .refl l.ctx l.functions t

/-! ### What a launch instruments -/

theorem getOrCreate_getOrCreate (f : Func) :
    (t.getOrCreateKernelFuncMetadata cfg ctx f).2.getOrCreateKernelFuncMetadata cfg ctx f =
      t.getOrCreateKernelFuncMetadata cfg ctx f := by
  obtain ⟨howner, hentry⟩ :
      (t.getOrCreateKernelFuncMetadata cfg ctx f).1.ownerContext = ctx ∧
        (t.getOrCreateKernelFuncMetadata cfg ctx f).2.kernelMetadataByFunc.get? f.handle =
          some (t.getOrCreateKernelFuncMetadata cfg ctx f).1 := getOrCreate_entry cfg f
  generalize t.getOrCreateKernelFuncMetadata cfg ctx f = r at howner hentry ⊢
  rw [Tool.getOrCreateKernelFuncMetadata, hentry]
  simp only [howner, if_true]

variable (t) (l : Launch)

/-- The tables once the entry has looked at the root. -/
def Launch.entered : Tool := (t.getOrCreateKernelFuncMetadata cfg l.ctx l.root).2

/-- The checks at the entry let the launch through. -/
def Launch.admitted : Bool :=
  !(cfg.runtimePlanRequested && l.legacyApi) && !t.channelFailed l.ctx &&
    !t.reusedFunctionHandle l.ctx l.root.handle

/-- Without a plan: there is something to instrument, and the selector takes the root. -/
def Launch.selected : Bool :=
  cfg.anyInstrumentation && ((l.entered cfg t).matchesExactKernelSelector cfg l.ctx l.root).1

/-- The launch is about to instrument a function that it reaches. -/
def Launch.instruments (f : Func) : Bool :=
  l.admitted cfg t &&
    if cfg.runtimePlanRequested then l.prepare.any fun chosen => chosen f.handle
    else l.selected cfg t && cfg.filterMatched f && !(l.entered cfg t).alreadyInstrumented f.handle

/-- The launch is about to run the instrumented code of its root. -/
def Launch.enables : Bool :=
  l.admitted cfg t &&
    if cfg.runtimePlanRequested then
      l.prepare.isSome && (l.streamCapture || l.buildGraph || l.planApplied)
    else l.selected cfg t && (cfg.unfiltered || l.functions.any cfg.filterMatched)

variable {t l}

theorem matchesExactKernelSelector_entered :
    ((l.entered cfg t).matchesExactKernelSelector cfg l.ctx l.root).2 = l.entered cfg t := by
  unfold Tool.matchesExactKernelSelector
  split_ifs
  · rfl
  · exact congrArg Prod.snd (getOrCreate_getOrCreate cfg l.root)

theorem alreadyInstrumented_instrumentFunction_of_ne {f : Func} {g : CUfunction} (h : g ≠ f.handle) :
    (t.instrumentFunction cfg ctx f).alreadyInstrumented g = t.alreadyInstrumented g := by
  have hcreate : ∀ t : Tool, (t.getOrCreateKernelFuncMetadata cfg ctx f).2.alreadyInstrumented g =
      t.alreadyInstrumented g := by
    intro t
    unfold Tool.getOrCreateKernelFuncMetadata
    split
    · split_ifs
      · rfl
      · exact Function.update_of_ne h ..
    · rfl
  exact (hcreate _).trans (Function.update_of_ne h ..)

theorem shouldInstrument_foldl_visit (gs : List Func) (p : Pass) :
    (gs.foldl (Pass.visit cfg ctx) p).shouldInstrument =
      (p.shouldInstrument || gs.any cfg.filterMatched) := by
  induction gs generalizing p with
  | nil => simp
  | cons g gs ih =>
    rw [List.foldl_cons, ih, List.any_cons, ← Bool.or_assoc]
    congr 1
    unfold Pass.visit
    dsimp only
    split_ifs <;> rfl

/-- Up to handles the loop instruments what it can reach, passes the filters and was not
instrumented before the loop. A second visit of a handle adds no new handle. -/
theorem exists_instrumented_foldl_visit (P : CUfunction → Prop) (gs : List Func) (p : Pass) :
    (∃ f ∈ (gs.foldl (Pass.visit cfg ctx) p).instrumented, P f.handle) ↔
      (∃ f ∈ p.instrumented, P f.handle) ∨
        ∃ f ∈ gs, cfg.filterMatched f = true ∧ p.tool.alreadyInstrumented f.handle = false ∧
          P f.handle := by
  induction gs generalizing p with
  | nil => simp
  | cons g gs ih =>
    rw [List.foldl_cons, ih]
    unfold Pass.visit
    dsimp only
    split_ifs with hskip
    · have hg : ¬(cfg.filterMatched g = true ∧ p.tool.alreadyInstrumented g.handle = false ∧
          P g.handle) := by
        rintro ⟨hmatched, hnew, -⟩
        simp [hmatched, hnew] at hskip
      simp [hg]
    · have hg : cfg.filterMatched g = true ∧ p.tool.alreadyInstrumented g.handle = false := by
        simpa using hskip
      constructor
      · rintro (⟨f, hf, hP⟩ | ⟨f, hf, hmatched, hnew, hP⟩)
        · rcases List.mem_append.mp hf with hf | hf
          · exact .inl ⟨f, hf, hP⟩
          · cases List.mem_singleton.mp hf
            exact .inr ⟨g, List.mem_cons_self, hg.1, hg.2, hP⟩
        · by_cases hfg : f.handle = g.handle
          · exact .inr ⟨g, List.mem_cons_self, hg.1, hg.2, hfg ▸ hP⟩
          · rw [alreadyInstrumented_instrumentFunction_of_ne cfg hfg] at hnew
            exact .inr ⟨f, List.mem_cons_of_mem g hf, hmatched, hnew, hP⟩
      · rintro (⟨f, hf, hP⟩ | ⟨f, hf, hmatched, hnew, hP⟩)
        · exact .inl ⟨f, List.mem_append_left _ hf, hP⟩
        · by_cases hfg : f.handle = g.handle
          · exact .inl ⟨g, by simp, hfg ▸ hP⟩
          · rcases List.mem_cons.mp hf with heq | hf
            · exact absurd (congrArg Func.handle heq) hfg
            · rw [← alreadyInstrumented_instrumentFunction_of_ne cfg hfg] at hnew
              exact .inr ⟨f, hf, hmatched, hnew, hP⟩

theorem channelFailed_entered : (l.entered cfg t).channelFailed = t.channelFailed := by
  unfold Tool.channelFailed Launch.entered
  rw [ctxStateMap_getOrCreate]

theorem reusedFunctionHandle_entered :
    (l.entered cfg t).reusedFunctionHandle = t.reusedFunctionHandle := by
  unfold Tool.reusedFunctionHandle Launch.entered
  rw [ctxStateMap_getOrCreate]

/-- Past the entry checks the answer is the plan's or the loop's. -/
theorem shouldInstrument_decideLaunch (h : (cfg.runtimePlanRequested && l.legacyApi) = false) :
    (decideLaunch cfg (l.entered cfg t) l).shouldInstrument =
      (l.admitted cfg t && if cfg.runtimePlanRequested then l.prepare.isSome
        else l.selected cfg t && (cfg.unfiltered || l.functions.any cfg.filterMatched)) := by
  unfold decideLaunch Launch.admitted
  rw [channelFailed_entered, reusedFunctionHandle_entered, h]
  cases t.channelFailed l.ctx <;> cases t.reusedFunctionHandle l.ctx l.root.handle <;>
    simp only [Bool.or_false, Bool.or_true, Bool.not_false, Bool.not_true, Bool.and_true,
      Bool.and_false, Bool.false_and, Bool.true_and, if_true, Bool.false_eq_true, if_false]
  split_ifs with hplan
  · unfold preparePlan
    cases l.prepare <;> rfl
  · unfold instrumentFunctionIfNeeded Launch.selected
    cases cfg.anyInstrumentation
    · rfl
    · cases hsel : ((l.entered cfg t).matchesExactKernelSelector cfg l.ctx l.root).1
      · simp [hsel]
      · simp [hsel, shouldInstrument_foldl_visit]

theorem exists_instrumented_decideLaunch (P : CUfunction → Prop)
    (h : (cfg.runtimePlanRequested && l.legacyApi) = false) :
    (∃ f ∈ (decideLaunch cfg (l.entered cfg t) l).instrumented, P f.handle) ↔
      ∃ f ∈ l.functions, l.instruments cfg t f = true ∧ P f.handle := by
  unfold decideLaunch Launch.instruments Launch.admitted
  rw [channelFailed_entered, reusedFunctionHandle_entered, h]
  cases t.channelFailed l.ctx <;> cases t.reusedFunctionHandle l.ctx l.root.handle <;>
    simp only [Bool.or_false, Bool.or_true, Bool.not_false, Bool.not_true, Bool.and_true,
      Bool.and_false, Bool.false_and, Bool.true_and, if_true, Bool.false_eq_true, if_false,
      List.not_mem_nil, false_and, and_false, exists_false]
  split_ifs with hplan
  · unfold preparePlan
    cases l.prepare with
    | none => simp
    | some chosen => simp [List.mem_filter, and_assoc]
  · unfold instrumentFunctionIfNeeded Launch.selected
    cases cfg.anyInstrumentation
    · simp
    · cases hsel : ((l.entered cfg t).matchesExactKernelSelector cfg l.ctx l.root).1
      · simp [hsel]
      · simp [hsel, exists_instrumented_foldl_visit, matchesExactKernelSelector_entered, and_assoc]

theorem enters_decideLaunch : (l.entered cfg t).Enters l.ctx l.functions
    (decideLaunch cfg (l.entered cfg t) l).tool := by
  unfold decideLaunch
  split_ifs
  · exact .refl ..
  · exact enters_preparePlan _ l
  · exact enters_instrumentFunctionIfNeeded cfg _ l

/-! ### The whole entry -/

/-- The entry refuses the launch APIs that a plan does not support. -/
theorem enterKernelLaunch_refused (h : (cfg.runtimePlanRequested && l.legacyApi) = true) :
    enterKernelLaunch cfg t l = ⟨t, [], false, false⟩ := by
  unfold enterKernelLaunch
  rw [if_pos h]

/-- Any other launch is decided, its root marked, and unmarked when the plan has no slot. -/
theorem enterKernelLaunch_decided (h : (cfg.runtimePlanRequested && l.legacyApi) = false) :
    enterKernelLaunch cfg t l =
      let pass := decideLaunch cfg (l.entered cfg t) l
      let marked := pass.tool.setRoot l.ctx l.root.handle pass.shouldInstrument
      let direct := !l.streamCapture && !l.buildGraph
      if pass.shouldInstrument && direct && cfg.runtimePlanRequested && !l.planApplied then
        ⟨marked.setRoot l.ctx l.root.handle false, pass.instrumented, false, false⟩
      else ⟨marked, pass.instrumented, pass.shouldInstrument, pass.shouldInstrument && direct⟩ := by
  unfold enterKernelLaunch
  rw [if_neg (by simp [h])]
  rfl

theorem enabled_enterKernelLaunch : (enterKernelLaunch cfg t l).enabled = l.enables cfg t := by
  cases h : cfg.runtimePlanRequested && l.legacyApi
  · rw [enterKernelLaunch_decided cfg h]
    dsimp only
    rw [shouldInstrument_decideLaunch cfg h, Launch.enables]
    cases l.admitted cfg t
    · simp
    · cases cfg.runtimePlanRequested
      · simp
      · cases l.prepare.isSome <;> cases l.streamCapture <;> cases l.buildGraph <;>
          cases l.planApplied <;> simp
  · rw [enterKernelLaunch_refused cfg h]
    simp [Launch.enables, Launch.admitted, h]

theorem enabled_of_traced (h : (enterKernelLaunch cfg t l).traced = true) :
    (enterKernelLaunch cfg t l).enabled = true := by
  cases hrefused : cfg.runtimePlanRequested && l.legacyApi
  · rw [enterKernelLaunch_decided cfg hrefused] at h ⊢
    dsimp only at h ⊢
    split_ifs at h ⊢ with hslot
    exact (Bool.and_eq_true_iff.mp h).1
  · rw [enterKernelLaunch_refused cfg hrefused] at h
    cases h

theorem exists_instrumented_enterKernelLaunch (P : CUfunction → Prop) :
    (∃ f ∈ (enterKernelLaunch cfg t l).instrumented, P f.handle) ↔
      ∃ f ∈ l.functions, l.instruments cfg t f = true ∧ P f.handle := by
  cases h : cfg.runtimePlanRequested && l.legacyApi
  · rw [enterKernelLaunch_decided cfg h, ← exists_instrumented_decideLaunch cfg P h]
    dsimp only
    split_ifs <;> rfl
  · rw [enterKernelLaunch_refused cfg h]
    simp [Launch.instruments, Launch.admitted, h]

/-- A launch that is let through has a root whose handle is not retired. -/
theorem reused_of_admitted (h : l.admitted cfg t = true) :
    t.reusedFunctionHandle l.ctx l.root.handle = false := by
  simp only [Launch.admitted, Bool.and_eq_true, Bool.not_eq_true'] at h
  exact h.2

theorem enters_enterKernelLaunch : t.Enters l.ctx l.functions (enterKernelLaunch cfg t l).tool := by
  cases h : cfg.runtimePlanRequested && l.legacyApi
  · rw [enterKernelLaunch_decided cfg h]
    set pass := decideLaunch cfg (l.entered cfg t) l with hpass
    have hdecided : t.Enters l.ctx l.functions pass.tool :=
      (enters_getOrCreate cfg l.root_mem).trans (enters_decideLaunch cfg)
    have hmark : pass.tool.Enters l.ctx l.functions
        (pass.tool.setRoot l.ctx l.root.handle pass.shouldInstrument) := by
      apply Tool.enters_setRoot
      intro hshould
      rw [hpass, shouldInstrument_decideLaunch cfg h, Bool.and_eq_true] at hshould
      rw [hdecided.reusedFunctionHandle]
      exact reused_of_admitted cfg hshould.1
    dsimp only
    split_ifs
    · exact (hdecided.trans hmark).trans (Tool.enters_setRoot fun h => absurd h (by decide))
    · exact hdecided.trans hmark
  · rw [enterKernelLaunch_refused cfg h]
    exact .refl ..

theorem GraphNode.func_mem (n : GraphNode) : n.func ∈ n.functions := by simp [GraphNode.functions]

theorem enters_atGraphNodeLaunch (n : GraphNode) :
    t.Enters n.ctx n.functions (atGraphNodeLaunch cfg t n).tool := by
  unfold atGraphNodeLaunch
  dsimp only
  split_ifs
  · exact enters_getOrCreate cfg n.func_mem
  · exact .refl ..

end CuTracer.Hooks
