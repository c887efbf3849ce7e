import CuTracer.Runtime.Ledger

/-! What a call can do to the ledger. Every call is a sequence of actions, each of which
keeps a ledger consistent: a record is taken or lost, a lifetime begins or ends with all
that depends on it, a launch is published and becomes pending, or is completed. What
holds of every action holds of every call, wherever it throws. -/

namespace CuTracer.Runtime

open Relation (ReflTransGen)
open Json (setField)

/-! ### Actions -/

def World.publish (event : Event) (w : World) : World :=
  { w with
    sequence := w.sequence + 1
    published := w.published ++ [⟨w.processKey, w.sequence, event⟩] }

def World.lose (w : World) : World := { w with sequence := w.sequence + 1, gap := true }

/-- The records whose publication is an action of its own. A launch is reported incomplete
only by a ledger that knows of a gap. -/
def Plain (w : World) : Event → Prop
  | .launch _ => False
  | .driverCompletion .. => False
  | .processEnd .. => False
  | .launchIncomplete _ => w.gap = true
  | _ => True

def Context.count (context : Context) (ordinalKey : String × String) : Context :=
  { context with ordinals := context.ordinals.upsert ordinalKey fun n => n.getD 0 + 1 }

def Context.next (context : Context) (ordinalKey : String × String) : ℕ :=
  (context.ordinals.get? ordinalKey).getD 0

def OfModule (w : World) (ctx : ℕ) (key : String) : Prop :=
  ∃ module known, w.modules.get? (ctx, module) = some known ∧ known.key = key

def World.beginModule (digest : Json → String) (ctx module : ℕ) (context : Context)
    (observed : Bool) (w : World) : World :=
  { w with
    moduleCounter := w.moduleCounter + 1
    modules := w.modules.insert (ctx, module)
      ⟨digest (moduleIdentity context.key w.moduleCounter module), observed⟩
    digested := w.digested ++ [moduleIdentity context.key w.moduleCounter module]
    begun := w.begun ++ [moduleIdentity context.key w.moduleCounter module] }

inductive Action (digest : Json → String) : World → World → Prop
  | lose {w : World} : Action digest w w.lose
  | publish {w : World} {event : Event} (h : Plain w event) : Action digest w (w.publish event)
  | gap {w : World} : Action digest w { w with gap := true }
  | digest {w : World} (value : Json) :
    Action digest w { w with digested := w.digested ++ [value] }
  | beginContext {w : World} {handle : ℕ} (hnew : handle ∉ w.contexts.keys) :
    Action digest w { w with
      contextCounter := w.contextCounter + 1
      contexts := w.contexts.insert handle
        ⟨digest (contextIdentity w.processKey w.contextCounter handle), Dict.empty⟩
      digested := w.digested ++ [contextIdentity w.processKey w.contextCounter handle]
      begun := w.begun ++ [contextIdentity w.processKey w.contextCounter handle] }
  | endContext {w : World} (handle : ℕ) :
    Action digest w { w with toLedger := endContext handle w.toLedger }
  | beginModule {w : World} {ctx module : ℕ} {context : Context} (observed : Bool)
    (hctx : w.contexts.get? ctx = some context) (hnew : (ctx, module) ∉ w.modules.keys) :
    Action digest w (w.beginModule digest ctx module context observed)
  | endModule {w : World} {ctx module : ℕ} {known : Module}
    (hknown : w.modules.get? (ctx, module) = some known) :
    Action digest w { w with toLedger := endModule ctx module known.key w.toLedger }
  | serve {w : World} {ctx function : ℕ} {attributes : Fields} {key : String}
    (hmodule : OfModule w ctx key) (hof : moduleOf attributes = some (.str key))
    (hnew : (ctx, function) ∉ w.functions.keys) (hserved : (ctx, function) ∉ w.failedFunctions.keys) :
    Action digest w { w with functions := w.functions.insert (ctx, function) attributes }
  | fail {w : World} {ctx function : ℕ} {key : String} (hmodule : OfModule w ctx key)
    (hnew : (ctx, function) ∉ w.functions.keys) :
    Action digest w (failFunction (ctx, function) key w)
  | count {w : World} {ctx : ℕ} {context : Context} (ordinalKey : String × String)
    (hctx : w.contexts.get? ctx = some context) (value : Json) :
    Action digest w { w with
      contexts := w.contexts.insert ctx (context.count ordinalKey)
      digested := w.digested ++ [value] }
  | retire {w : World} {id : ℕ} (hnew : id ∉ w.pending.keys) :
    Action digest w { w with toLedger := retireLaunchId id w.toLedger }
  | launch {w : World} {ctx id : ℕ} {context : Context} {binding fields : Fields}
    {cubin entry : String} {selected : Bool} (hctx : w.contexts.get? ctx = some context)
    (hcubin : bindingText binding "cubin_sha256" = some cubin)
    (hentry : bindingText binding "entry" = some entry) (hnew : id ∉ w.pending.keys)
    (hretired : id ∉ w.retiredLaunchIds) {identity : Fields}
    (hidentity : identity = launchIdentity w.processKey context.key binding id
      (context.next (cubin, entry)) fields) :
    Action digest w { World.publish
        (.launch (setField "launch" (.str (digest (.obj identity))) identity)) w with
      contexts := w.contexts.insert ctx (context.count (cubin, entry))
      digested := w.digested ++ [.obj identity]
      pending := w.pending.insert id ⟨ctx, digest (.obj identity), selected⟩ }
  | complete {w : World} {id : ℕ} {known : Launch} {contextKey : String} (completed drained : Bool)
    (hknown : w.pending.get? id = some known) :
    Action digest w { w.publish (.driverCompletion known.key id contextKey completed drained
        known.captureSelected) with
      toLedger := { retireLaunchId id (w.publish (.driverCompletion known.key id contextKey
          completed drained known.captureSelected)).toLedger with
        gap := w.gap || !completed || !drained
        pending := w.pending.filter fun i _ => i ≠ id } }
  | finish {w : World} (hopen : w.finished = false) :
    Action digest w { w.publish (.processEnd w.pending.keys.length w.contexts.keys.length
        (w.gap || !w.pending.keys.isEmpty)) with finished := true }

variable {digest : Json → String} {sink : ℕ → Bool} {w w' : World}

abbrev Does (digest : Json → String) (w w' : World) : Prop := ReflTransGen (Action digest) w w'

theorem Action.does (h : Action digest w w') : Does digest w w' := .single h

theorem Outcome.andThen_ok {α : Type} (x : Outcome α) :
    (x.andThen fun a w => (.ok a, w)).2 = x.2 := by
  rcases x with ⟨_ | _, _⟩ <;> rfl

/-! ### Publication -/

theorem emit_cases (sink : ℕ → Bool) (e : Event) (w : World) :
    emit sink e w = closed w ∨
      w.finished = false ∧ (emit sink e w = (.ok (), w.publish e) ∨
        emit sink e w = (.error .sink, w.lose)) := by
  unfold emit
  split_ifs with hfinished hsink
  · exact .inl rfl
  · exact .inr ⟨by simpa using hfinished, .inl rfl⟩
  · exact .inr ⟨by simpa using hfinished, .inr rfl⟩

/-- What follows a plain record follows on the record taken; if the record is not taken
the operation ends. -/
theorem emit_andThen {α : Type} {e : Event} (he : Plain w e) {f : Unit → World → Outcome α}
    {w₀ : World} (h₀ : Does digest w₀ w)
    (hf : Does digest w₀ (w.publish e) → Does digest w₀ (f () (w.publish e)).2) :
    Does digest w₀ ((emit sink e w).andThen f).2 := by
  rcases emit_cases sink e w with h | ⟨-, h | h⟩
  · rw [h]
    exact h₀
  · rw [h]
    exact hf (h₀.tail (.publish he))
  · rw [h]
    exact h₀.tail .lose

theorem emit_does {e : Event} (he : Plain w e) {w₀ : World} (h₀ : Does digest w₀ w) :
    Does digest w₀ (emit sink e w).2 := by
  rcases emit_cases sink e w with h | ⟨-, h | h⟩
  · rw [h]
    exact h₀
  · rw [h]
    exact h₀.tail (.publish he)
  · rw [h]
    exact h₀.tail .lose

/-! ### Contexts and modules -/

theorem contextBegin_does (handle : ℕ) : Does digest w (contextBegin digest sink handle w).2 := by
  unfold contextBegin
  split_ifs with hfinished hrefused
  · exact .refl
  · exact .refl
  · push Not at hrefused
    apply emit_andThen (by simp [Plain]) (Action.beginContext hrefused.2.1).does
    exact id

/-- What follows a list of reports follows in whatever state they leave. -/
theorem emitAll_andThen {α : Type} (keys : List String) (hgap : keys ≠ [] → w.gap = true)
    {f : Unit → World → Outcome α} {w₀ : World} (h₀ : Does digest w₀ w)
    (hf : ∀ w', Does digest w₀ w' → Does digest w₀ (f () w').2) :
    Does digest w₀ ((emitAll sink (keys.map .launchIncomplete) w).andThen f).2 := by
  induction keys generalizing w with
  | nil => exact hf w h₀
  | cons key keys ih =>
    have hw : w.gap = true := hgap (by simp)
    rcases emit_cases sink (.launchIncomplete key) w with h | ⟨-, h | h⟩
    · simpa [emitAll, h, Outcome.andThen, closed] using h₀
    · have h₁ := ih (w := w.publish (.launchIncomplete key)) (fun _ => hw) (h₀.tail (.publish hw))
      simpa [emitAll, h, Outcome.andThen] using h₁
    · simpa [emitAll, h, Outcome.andThen] using h₀.tail .lose

theorem contextEnd_does (handle : ℕ) : Does digest w (contextEnd sink handle w).2 := by
  unfold contextEnd
  split_ifs with hfinished
  · exact .refl
  · split
    · exact .refl
    · apply emitAll_andThen _ _ (Action.endContext handle).does
      · intro w' h'
        exact emit_does (by simp [Plain]) h'
      · intro hne
        have : launchesOf handle w.toLedger ≠ [] := by simpa using hne
        simp [endContext, this]

/-- A module that is used in a live context is refused, is known, or begins. -/
theorem moduleLocked_cases (digest : Json → String) (sink : ℕ → Bool) (ctx module : ℕ)
    (api : String) (observed : Bool) (w : World) :
    (∃ e, moduleLocked digest sink ctx module api observed w = (.error e, w)) ∨
    (∃ context known, w.contexts.get? ctx = some context ∧
      w.modules.get? (ctx, module) = some known ∧
      moduleLocked digest sink ctx module api observed w = (.ok known.key, w)) ∨
    (∃ context, w.contexts.get? ctx = some context ∧ w.modules.get? (ctx, module) = none ∧
      moduleLocked digest sink ctx module api observed w =
        (emit sink (.moduleBegin context.key
            (digest (moduleIdentity context.key w.moduleCounter module)) module observed api)
          (w.beginModule digest ctx module context observed)).andThen fun _ w' =>
            (.ok (digest (moduleIdentity context.key w.moduleCounter module)), w')) := by
  unfold moduleLocked
  cases hcontext : w.contexts.get? ctx with
  | none => exact .inl ⟨_, rfl⟩
  | some context =>
    cases hknown : w.modules.get? (ctx, module) with
    | none =>
      by_cases hmodule : module = 0
      · exact .inl ⟨_, if_pos hmodule⟩
      · by_cases hfull : w.limits.modules ≤ w.modules.keys.length
        · exact .inl ⟨_, by simp only [if_neg hmodule, if_pos hfull]; rfl⟩
        · refine .inr (.inr ⟨context, rfl, rfl, ?_⟩)
          simp only [if_neg hmodule, if_neg hfull]
          rfl
    | some known =>
      by_cases hmodule : module = 0
      · exact .inl ⟨_, if_pos hmodule⟩
      · cases observed with
        | true => exact .inl ⟨_, by simp only [if_neg hmodule, if_true]; rfl⟩
        | false => exact .inr (.inl ⟨context, known, rfl, rfl, by simp [if_neg hmodule]⟩)

theorem moduleLocked_andThen {α : Type} (ctx module : ℕ) (api : String) (observed : Bool)
    {f : String → World → Outcome α} {w₀ : World} (h₀ : Does digest w₀ w)
    (hf : ∀ known w', Does digest w₀ w' → w'.modules.get? (ctx, module) = some known →
      Does digest w₀ (f known.key w').2) :
    Does digest w₀ ((moduleLocked digest sink ctx module api observed w).andThen f).2 := by
  rcases moduleLocked_cases digest sink ctx module api observed w with
    ⟨e, h⟩ | ⟨context, known, hcontext, hknown, h⟩ | ⟨context, hcontext, hnone, h⟩
  · rw [h]
    exact h₀
  · rw [h]
    exact hf known w h₀ hknown
  · rw [h]
    have hbegin := h₀.tail (.beginModule observed hcontext ((Dict.get?_eq_none_iff _ _).mp hnone))
    have hknown : (w.beginModule digest ctx module context observed).modules.get? (ctx, module) =
        some ⟨digest (moduleIdentity context.key w.moduleCounter module), observed⟩ :=
      Dict.get?_upsert_self _ _ _
    generalize moduleIdentity context.key w.moduleCounter module = identity at hknown ⊢
    rcases emit_cases sink (.moduleBegin context.key (digest identity) module observed api)
      (w.beginModule digest ctx module context observed) with he | ⟨-, he | he⟩
    · rw [he]
      exact hbegin
    · rw [he]
      exact hf _ _ (hbegin.tail (.publish (by simp [Plain]))) hknown
    · rw [he]
      exact hbegin.tail .lose

theorem moduleLoad_does (ctx module : ℕ) (api : String) :
    Does digest w (moduleLoad digest sink ctx module api w).2 := by
  rw [← Outcome.andThen_ok (moduleLoad digest sink ctx module api w)]
  exact moduleLocked_andThen ctx module api true .refl fun _ _ h _ => h

theorem moduleUnload_does (ctx module : ℕ) : Does digest w (moduleUnload sink ctx module w).2 := by
  unfold moduleUnload
  split_ifs with hfinished
  · exact .refl
  · split
    · exact .refl
    · split
      · exact emit_does (by simp [Plain]) Action.gap.does
      · rename_i known hknown
        exact emit_does (by simp [Plain]) (Action.endModule hknown).does

/-! ### Functions -/

theorem moduleOf_serve (processKey contextKey moduleKey : String) (observed : Bool) (function : ℕ)
    (fields : Fields) (value : Json) :
    moduleOf (setField "function" value
      (functionIdentity processKey contextKey moduleKey observed function fields)) =
        some (.str moduleKey) := by
  simp [moduleOf, functionIdentity, Json.field_setField]

/-- A function that is served or fails belongs to a live module. -/
theorem serveFunction_does {ctx function : ℕ} {contextKey moduleKey : String} {observed : Bool}
    {fields : Fields} (hof : OfModule w ctx moduleKey) {w₀ : World} (h₀ : Does digest w₀ w) :
    Does digest w₀
      (serveFunction digest sink ctx function contextKey moduleKey observed fields w).2 := by
  unfold serveFunction
  split_ifs with hfailed
  · exact h₀
  · have hdigest := h₀.tail (.digest
      (.obj (functionIdentity w.processKey contextKey moduleKey observed function fields)))
    dsimp only
    split
    · split_ifs with hchanged
      · exact hdigest
      · exact hdigest
    · rename_i hnone
      have hnew := (Dict.get?_eq_none_iff _ _).mp hnone
      split_ifs with hfull
      · exact hdigest
      · have hfield := moduleOf_serve w.processKey contextKey moduleKey observed function fields
          (.str (digest (.obj
            (functionIdentity w.processKey contextKey moduleKey observed function fields))))
        generalize functionIdentity w.processKey contextKey moduleKey observed function fields =
          identity at *
        rcases emit_cases sink (.function (setField "function" (.str (digest (.obj identity)))
          identity)) { w with digested := w.digested ++ [.obj identity] } with he | ⟨-, he | he⟩
        · rw [he]
          exact hdigest.tail (.fail hof hnew)
        · rw [he]
          exact (hdigest.tail (.publish (by simp [Plain]))).tail (.serve hof hfield hnew hfailed)
        · rw [he]
          exact (hdigest.tail .lose).tail (.fail hof hnew)

theorem functionLocked_does (ctx module function : ℕ) (attributes : Json) {w₀ : World}
    (h₀ : Does digest w₀ w) :
    Does digest w₀ (functionLocked digest sink ctx module function attributes w).2 := by
  unfold functionLocked
  split_ifs with hfinished
  · exact h₀
  · split
    · exact h₀
    · apply moduleLocked_andThen ctx module _ false h₀
      intro known w' h hknown
      split
      · exact serveFunction_does ⟨module, known, hknown, rfl⟩ h
      · exact h

/-- Serving a function that throws leaves the functions and the modules as they were. -/
theorem serveFunction_error {ctx function : ℕ} {contextKey moduleKey : String} {observed : Bool}
    {fields : Fields} {e : LedgerError}
    (h : serveFunction digest sink ctx function contextKey moduleKey observed fields w =
      (.error e, w')) : w'.functions = w.functions ∧ w'.modules = w.modules := by
  unfold serveFunction at h
  split_ifs at h with hfailed
  · cases h
    exact ⟨rfl, rfl⟩
  · dsimp only at h
    split at h
    · split_ifs at h
      · cases h
        exact ⟨rfl, rfl⟩
      · cases h
    · split_ifs at h
      · cases h
        exact ⟨rfl, rfl⟩
      · generalize setField "function" _ _ = attributes at h
        rcases emit_cases sink (.function attributes) { w with digested := w.digested ++
          [.obj (functionIdentity w.processKey contextKey moduleKey observed function fields)] }
          with he | ⟨-, he | he⟩
        · rw [he] at h
          cases h
          exact ⟨rfl, rfl⟩
        · rw [he] at h
          cases h
        · rw [he] at h
          cases h
          exact ⟨rfl, rfl⟩

theorem functionLocked_error {ctx module function : ℕ} {attributes : Json} {known : Module}
    {e : LedgerError} (hknown : w.modules.get? (ctx, module) = some known)
    (h : functionLocked digest sink ctx module function attributes w = (.error e, w')) :
    w'.functions = w.functions ∧ w'.modules = w.modules := by
  unfold functionLocked at h
  split_ifs at h with hfinished
  · cases h
    exact ⟨rfl, rfl⟩
  · split at h
    · cases h
      exact ⟨rfl, rfl⟩
    · rcases moduleLocked_cases digest sink ctx module "first_seen_function" false w with
        ⟨e', hm⟩ | ⟨context, known', hcontext, hknown', hm⟩ | ⟨context, -, hnone, -⟩
      · rw [hm] at h
        cases h
        exact ⟨rfl, rfl⟩
      · rw [hm] at h
        simp only [Outcome.andThen, hcontext, hknown'] at h
        exact serveFunction_error h
      · rw [hnone] at hknown
        cases hknown

theorem captureFunction_does (ctx module function : ℕ) (capture : Option (Option Json)) :
    Does digest w (captureFunction digest sink ctx module function capture w).2 := by
  unfold captureFunction
  cases capture with
  | none => split_ifs <;> exact .refl
  | some captured =>
    split_ifs with hfinished hfunction
    · exact .refl
    · exact .refl
    · apply moduleLocked_andThen ctx module _ false .refl
      intro known w' h hknown
      split
      · split_ifs <;> exact h
      · split_ifs <;> exact h
      · rename_i hfailed hnone
        have hnew := (Dict.get?_eq_none_iff _ _).mp hnone
        have hof : OfModule w' ctx known.key := ⟨module, known, hknown, rfl⟩
        split_ifs with hfull
        · exact h
        · cases captured with
          | none => exact (h.tail (.fail hof hnew)).tail .gap
          | some attributes =>
            have hlocked := @functionLocked_does _ sink _ ctx module function attributes _ h
            dsimp only
            split
            · rename_i e w'' he
              obtain ⟨hfunctions, hmodules⟩ := functionLocked_error hknown he
              rw [he] at hlocked
              have hof' : OfModule w'' ctx known.key := ⟨module, known, hmodules ▸ hknown, rfl⟩
              exact (hlocked.tail (.fail hof' (hfunctions ▸ hnew))).tail .gap
            · rename_i fields w'' he
              rw [he] at hlocked
              exact hlocked

/-! ### Launches -/

theorem publishLaunch_does {ctx id : ℕ} {context : Context} {binding fields : Fields}
    {selected : Bool} {cubin entry : String} (hcontext : w.contexts.get? ctx = some context)
    (hcubin : bindingText binding "cubin_sha256" = some cubin)
    (hentry : bindingText binding "entry" = some entry)
    (hnew : id ∉ w.pending.keys) (hretired : id ∉ w.retiredLaunchIds) :
    Does digest w
      (publishLaunch digest sink ctx id context binding fields selected (cubin, entry) w).2 := by
  unfold publishLaunch
  dsimp only
  have hcount (value : Json) := (Action.does (.count (cubin, entry) hcontext value) :
    Does digest w _)
  rcases emit_cases sink _ _ with he | ⟨-, he | he⟩
  · rw [he]
    exact (hcount _).tail (.retire hnew)
  · rw [he]
    exact (Action.launch hcontext hcubin hentry hnew hretired rfl).does
  · rw [he]
    exact ((hcount _).tail .lose).tail (.retire hnew)

theorem launch_does (ctx function id : ℕ) (attributes : Json) :
    Does digest w (launch digest sink ctx function id attributes w).2 := by
  unfold launch
  split_ifs with hfinished hknown hfull
  · exact .refl
  · split
    · exact .refl
    · split <;> exact .refl
  · split
    · exact .refl
    · split <;> exact .refl
  · push Not at hknown
    split
    · exact .refl
    · rename_i context hcontext
      split
      · rename_i binding fields hbinding
        split
        · rename_i selected cubin entry hselected hcubin hentry
          exact publishLaunch_does hcontext hcubin hentry hknown.1 hknown.2
        · exact .refl
      · exact .refl

theorem complete_does (ctx id : ℕ) (completed drained : Bool) :
    Does digest w (complete sink ctx id completed drained w).2 := by
  unfold complete
  split
  · rename_i known context hknown hcontext
    split_ifs with hother
    · exact .refl
    · rcases emit_cases sink (.driverCompletion known.key id context.key completed drained
        known.captureSelected) w with he | ⟨-, he | he⟩
      · rw [he]
        exact .refl
      · rw [he]
        exact (Action.complete completed drained hknown).does
      · rw [he]
        exact Action.lose.does
  · exact .refl
  · split_ifs <;> exact .refl

/-! ### Calls -/

theorem markGap_does (reason : String) : Does digest w (markGap sink reason w).2 :=
  emit_does (by simp [Plain]) Action.gap.does

theorem planEvent_does (type : String) (data : Json) :
    Does digest w (planEvent sink type data w).2 := by
  by_cases htype : type ∉ planTypes
  · rw [planEvent, if_pos htype]
  · rw [planEvent, if_neg htype]
    by_cases hfinished : w.finished = true
    · rw [if_pos hfinished]
      exact .refl
    · rw [if_neg hfinished]
      apply emit_does (by simp [Plain])
      by_cases hgap : type = "plan_gap" ∨ type = "plan_error"
      · have : (w.gap || type = "plan_gap" || type = "plan_error") = true := by
          rcases hgap with h | h <;> simp [h]
        rw [this]
        exact Action.gap.does
      · have : (w.gap || type = "plan_gap" || type = "plan_error") = w.gap := by
          push Not at hgap
          simp [hgap]
        rw [this]

theorem finish_does : Does digest w (finish sink w).2 := by
  unfold finish
  split_ifs with hfinished
  · exact .refl
  · rcases emit_cases sink (.processEnd w.pending.keys.length w.contexts.keys.length
      (w.gap || !w.pending.keys.isEmpty)) w with he | ⟨hopen, he | he⟩
    · rw [he]
      exact .refl
    · rw [he]
      exact (Action.finish hopen).does
    · rw [he]
      exact Action.lose.does

/-- Every call is a sequence of actions, whether it returns or throws. -/
theorem step_does (c : Call) : Does digest w (step digest sink c w) := by
  cases c with
  | contextBegin handle => exact contextBegin_does handle
  | contextEnd handle => exact contextEnd_does handle
  | moduleLoad ctx module api => exact moduleLoad_does ctx module api
  | moduleUnload ctx module => exact moduleUnload_does ctx module
  | function ctx module function attributes =>
    exact functionLocked_does ctx module function attributes .refl
  | captureFunction ctx module function capture =>
    exact captureFunction_does ctx module function capture
  | launch ctx function id attributes => exact launch_does ctx function id attributes
  | complete ctx id completed drained => exact complete_does ctx id completed drained
  | gap reason => exact markGap_does reason
  | planEvent type data => exact planEvent_does type data
  | finish => exact finish_does

theorem run_does (calls : List Call) : Does digest w (run digest sink w calls) := by
  induction calls generalizing w with
  | nil => exact .refl
  | cons c calls ih => exact (step_does c).trans ih

/-- What every action keeps, every run keeps. -/
theorem run_induction {P : World → Prop} (hstep : ∀ w w', Action digest w w' → P w → P w')
    (h : P w) (calls : List Call) : P (run digest sink w calls) := by
  have hrun : Does digest w (run digest sink w calls) := run_does calls
  generalize run digest sink w calls = w' at hrun
  induction hrun with
  | refl => exact h
  | tail _ hlast ih => exact hstep _ _ hlast ih

/-! ### The beginning -/

/-- The state of a ledger that published its process. -/
def World.start (digest : Json → String) (process : Json) (limits : RuntimeIdentityLimits) :
    World where
  limits := limits
  processKey := digest process
  sequence := 1
  contextCounter := 0
  moduleCounter := 0
  finished := false
  gap := false
  contexts := Dict.empty
  modules := Dict.empty
  functions := Dict.empty
  failedFunctions := Dict.empty
  pending := Dict.empty
  retiredLaunchIds := ∅
  retiredLaunchOrder := []
  published := [⟨digest process, 0, .processStart process⟩]
  digested := [process]
  begun := []

theorem create_ok {process : Json} {limits : RuntimeIdentityLimits}
    (h : create digest sink process limits = (.ok (), w)) : w = World.start digest process limits := by
  unfold create at h
  dsimp only at h
  split at h
  · rename_i fields
    rcases emit_cases sink _ _ with he | ⟨-, he | he⟩
    · rw [he] at h
      cases h
    · rw [he] at h
      cases h
      rfl
    · rw [he] at h
      cases h
  · cases h

end CuTracer.Runtime
