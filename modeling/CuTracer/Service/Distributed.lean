import CuTracer.Service.Coordinator

/-! Any number of callbacks of one session, interleaved. The stored sessions form one run of the
reducer, and what was dispatched was asked for by a session that was stored before. -/

namespace CuTracer.Service

variable (h : Hashes) (guard : ExperimentGuardPolicy) (policy : TriagePolicy)
  (callbacks : List Callback) (s₀ : Stored)

/-! ### What was stored -/

def Event.write? : Event → Option Write
  | .wrote w => some w
  | .called _ _ => none

def writes (log : List Event) : List Write := log.filterMap Event.write?

def storedIn (log : List Event) : List Stored := s₀ :: (writes log).map fun w => w.after

/-- The command that an update has for a session, and the snapshot that then belongs to it. -/
def Update.Asks (update : Update) (current : Stored) (command : Command)
    (snapshot : Option TriageSnapshot) : Prop :=
  match update with
  | .envelope e => e.analyzedStateRevision ≤ current.revision ∧
      command = .experimentResult e.result ∧ snapshot = current.snapshot
  | .result r => command = .experimentResult r ∧ snapshot = current.snapshot
  | .decision revision d => current.revision = revision ∧
      command = .analysisDecision d ∧ snapshot = current.snapshot
  | .infrastructureFailure revision reason => current.revision = revision ∧
      current.session.status.terminal = false ∧
      command = .infrastructureFailure reason ∧ snapshot = current.snapshot
  | .publicationFailure revision reason => current.revision = revision ∧
      current.session.reportPublication = .pending ∧
      command = .reportPublicationFailed reason ∧ snapshot = current.snapshot
  | .triage => current.session.status = .waitingTriage ∧ ∃ verdict : TriageVerdict,
      command = .triageDecision verdict.toTriageDecision ∧ snapshot = some verdict.snapshot
  | .published artifact => command = .reportPublished artifact ∧ snapshot = current.snapshot
  | .childrenStarted ids => command = .discoveryChildrenStarted ids ∧ snapshot = current.snapshot

/-- A write is one command of its update, accepted by the session that it replaces. -/
structure Write.Applied (w : Write) : Prop where
  asks : w.label.update.Asks w.before w.label.command w.after.snapshot
  step : ∃ t, step h guard w.before.session w.label.command = .ok t ∧ t.session = w.after.session ∧
    (t.effects ≠ [] ∨ t.session ≠ w.before.session)
  revision : w.after.revision = w.before.revision + 1

/-! ### What was dispatched -/

/-- The effect is one of the transition that stored the session, or of a resume of it. -/
def Outstanding (log : List Event) (s : Stored) (effect : SessionEffect) : Prop :=
  s ∈ storedIn s₀ log ∧ (effect ∈ (resumeSession s.session).effects ∨
    ∃ w ∈ writes log, w.after = s ∧ ∃ t, step h guard w.before.session w.label.command = .ok t ∧
      t.session = s.session ∧ effect ∈ t.effects)

/-- What a call is dispatched for. -/
def Call.Justified (log : List Event) : Call → Prop
  | .beforeDispatch => ∃ s effect, Outstanding h guard s₀ log s effect
  | .submit revision experiments => ∃ s, s.revision = revision ∧
      Outstanding h guard s₀ log s (.submitExperiments experiments)
  | .reasoner revision => ∃ s, s.revision = revision ∧ Outstanding h guard s₀ log s .runReasoner
  | .publish s => Outstanding h guard s₀ log s .publishReport
  | .record b => ∃ s artifact t, Outstanding h guard s₀ log s .publishReport ∧
      .called (.publish s) true ∈ log ∧ recordReportPublished s.session artifact = .ok t ∧
      b ∈ publishedBaselines policy { s with session := t.session }
  | .startChild s _ => Outstanding h guard s₀ log s .createChildSessions
  | .decide s => Outstanding h guard s₀ log s .runTriage

/-- A publication is told once the report was published and its baselines were recorded. -/
def Update.Ready (log : List Event) : Update → Prop
  | .published artifact => ∃ s t, Outstanding h guard s₀ log s .publishReport ∧
      recordReportPublished s.session artifact = .ok t ∧ .called (.publish s) true ∈ log ∧
      ∀ b ∈ publishedBaselines policy { s with session := t.session }, .called (.record b) true ∈ log
  | _ => True

/-- An update that a dispatch applies. -/
def Update.internal : Update → Bool
  | .triage | .published _ | .childrenStarted _ => true
  | _ => false

/-- The update is that of the caller, or one of its dispatches. -/
def Update.OwnedBy (caller : ℕ) (update : Update) : Prop :=
  ∃ callback, callbacks[caller]? = some callback ∧
    (callback.update = some update ∨ update.internal = true)

/-- The logs that the callbacks can leave, and the session then stored. -/
inductive Legal : List Event → Stored → Prop where
  | nil : Legal [] s₀
  | wrote {log : List Event} {w : Write} (before : Legal log w.before)
    (applied : w.Applied h guard) (ready : w.label.update.Ready h guard policy s₀ log)
    (owned : w.label.update.OwnedBy callbacks w.label.caller) : Legal (log ++ [.wrote w]) w.after
  | called {log : List Event} {s : Stored} {c : Call} (before : Legal log s)
    (justified : c.Justified h guard policy s₀ log) (succeeded : Bool) :
    Legal (log ++ [.called c succeeded]) s

variable {h guard policy callbacks s₀} {log log' : List Event} {s t u : Stored}

/-! ### Logs -/

theorem writes_append (log log' : List Event) : writes (log ++ log') = writes log ++ writes log' :=
  List.filterMap_append

theorem writes_subset (hlog : log <+: log') : writes log ⊆ writes log' := by
  obtain ⟨rest, rfl⟩ := hlog
  rw [writes_append]
  exact List.subset_append_left _ _

theorem storedIn_subset (hlog : log <+: log') : storedIn s₀ log ⊆ storedIn s₀ log' :=
  List.cons_subset_cons _ (List.map_subset _ (writes_subset hlog))

theorem Outstanding.later {effect : SessionEffect} (hout : Outstanding h guard s₀ log s effect)
    (hlog : log <+: log') : Outstanding h guard s₀ log' s effect := by
  obtain ⟨hstored, heffect⟩ := hout
  refine ⟨storedIn_subset hlog hstored, heffect.imp_right ?_⟩
  rintro ⟨w, hw, hafter⟩
  exact ⟨w, writes_subset hlog hw, hafter⟩

theorem Call.Justified.later {c : Call} (hcall : c.Justified h guard policy s₀ log) (hlog : log <+: log') :
    c.Justified h guard policy s₀ log' := by
  cases c with
  | beforeDispatch =>
    obtain ⟨s, effect, hout⟩ := hcall
    exact ⟨s, effect, hout.later hlog⟩
  | submit revision experiments =>
    obtain ⟨s, hrevision, hout⟩ := hcall
    exact ⟨s, hrevision, hout.later hlog⟩
  | reasoner revision =>
    obtain ⟨s, hrevision, hout⟩ := hcall
    exact ⟨s, hrevision, hout.later hlog⟩
  | publish s => exact Outstanding.later hcall hlog
  | record b =>
    obtain ⟨s, artifact, t, hout, hpublished, ht⟩ := hcall
    exact ⟨s, artifact, t, hout.later hlog, hlog.subset hpublished, ht⟩
  | startChild s id => exact Outstanding.later hcall hlog
  | decide s => exact Outstanding.later hcall hlog

theorem Update.Ready.later {update : Update} (hready : update.Ready h guard policy s₀ log)
    (hlog : log <+: log') : update.Ready h guard policy s₀ log' := by
  cases update with
  | published artifact =>
    obtain ⟨s, t, hout, ht, hpublished, hrecorded⟩ := hready
    exact ⟨s, t, hout.later hlog, ht, hlog.subset hpublished, fun b hb => hlog.subset (hrecorded b hb)⟩
  | _ => trivial

theorem writes_wrote (log : List Event) (w : Write) : writes (log ++ [.wrote w]) = writes log ++ [w] :=
  writes_append log _

theorem writes_called (log : List Event) (c : Call) (succeeded : Bool) :
    writes (log ++ [.called c succeeded]) = writes log := by
  rw [writes_append]
  exact List.append_nil _

/-! ### Legal logs -/

variable (hlegal : Legal h guard policy callbacks s₀ log s)

include hlegal in
theorem Legal.chain : Versioned.Chain Stored.revision s₀ ((writes log).map Write.toWritten) s := by
  induction hlegal with
  | nil => rfl
  | wrote _ applied _ _ ih =>
    rw [writes_wrote, List.map_append]
    exact ih.snoc applied.revision
  | called _ _ _ ih =>
    rw [writes_called]
    exact ih

include hlegal in
theorem Legal.stored_mem : s ∈ storedIn s₀ log := by
  have hmem := hlegal.chain.last_mem
  rwa [List.map_map] at hmem

include hlegal in
/-- What was stored is stored still, or its revision is past. -/
theorem Legal.seen : ∀ u ∈ storedIn s₀ log, Versioned.Seen Stored.revision u s := by
  induction hlegal with
  | nil =>
    intro u hu
    rw [List.mem_singleton.mp hu]
    exact Versioned.Seen.refl s₀
  | @wrote log w _ applied _ _ ih =>
    intro u hu
    rw [storedIn, writes_wrote, List.map_append, ← List.cons_append] at hu
    rcases List.mem_append.mp hu with hold | hnew
    · exact (ih u hold).write applied.revision
    · rw [List.mem_singleton.mp hnew]
      exact Versioned.Seen.refl w.after
  | called _ _ _ ih =>
    intro u hu
    rw [storedIn, writes_called] at hu
    exact ih u hu

/-- What a log holds was legal when it was written. -/
theorem Legal.of_append (hlegal : Legal h guard policy callbacks s₀ (log ++ log') s) :
    ∃ u, Legal h guard policy callbacks s₀ log u := by
  induction log' using List.reverseRecOn generalizing s with
  | nil =>
    rw [List.append_nil] at hlegal
    exact ⟨s, hlegal⟩
  | append_singleton rest event ih =>
    rw [← List.append_assoc] at hlegal
    generalize hwhole : log ++ rest ++ [event] = whole at hlegal
    cases hlegal with
    | nil => simp at hwhole
    | wrote before =>
      obtain ⟨rfl, -⟩ := List.append_inj' hwhole rfl
      exact ih before
    | called before =>
      obtain ⟨rfl, -⟩ := List.append_inj' hwhole rfl
      exact ih before

theorem Legal.called_justified {c : Call} {succeeded : Bool}
    (hlegal : Legal h guard policy callbacks s₀ (log ++ .called c succeeded :: log') s) :
    c.Justified h guard policy s₀ log := by
  rw [← List.singleton_append, ← List.append_assoc] at hlegal
  obtain ⟨u, hlegal⟩ := hlegal.of_append
  generalize hwhole : log ++ [.called c succeeded] = whole at hlegal
  cases hlegal with
  | nil => simp at hwhole
  | wrote =>
    obtain ⟨-, hevent⟩ := List.append_inj' hwhole rfl
    simp at hevent
  | called before justified =>
    obtain ⟨rfl, hevent⟩ := List.append_inj' hwhole rfl
    simp only [List.cons.injEq, Event.called.injEq] at hevent
    rw [hevent.1.1]
    exact justified

include hlegal in
theorem Legal.write {w : Write} (hw : w ∈ writes log) :
    w.Applied h guard ∧ w.label.update.OwnedBy callbacks w.label.caller := by
  induction hlegal with
  | nil => exact nomatch hw
  | wrote _ applied _ owned ih =>
    rw [writes_wrote] at hw
    rcases List.mem_append.mp hw with hold | hnew
    · exact ih hold
    · rw [List.mem_singleton.mp hnew]
      exact ⟨applied, owned⟩
  | called _ _ _ ih =>
    rw [writes_called] at hw
    exact ih hw

/-! ### Actions -/

variable (h guard policy callbacks s₀) in
/-- Callbacks extend a legal log. -/
def coordination : Prog.Rely World :=
  .shared (fun w => Legal h guard policy callbacks s₀ w.log w.stored) (fun w w' => w.log <+: w'.log)
    (fun w => List.prefix_refl w.log) fun _ _ _ => List.IsPrefix.trans

variable (h guard policy callbacks s₀) in
/-- Whatever the other callbacks do, the program keeps to what is legal and ends with `Q`. -/
abbrev Coordinates {α : Type} (Q : α → World → Prop) (p : Program α) (w : World) : Prop :=
  @Prog.Ensures coordinatorInterface α Fault World (coordination h guard policy callbacks s₀) Does Q p w

section Actions

variable {w : World}

theorem coordinates_perform {action : StoreAction} {Q : action.Value → World → Prop}
    (hdoes : ∀ w₁, w.log <+: w₁.log → Legal h guard policy callbacks s₀ w₁.log w₁.stored →
      ∀ r w₂, Does w₁ action r w₂ → Legal h guard policy callbacks s₀ w₂.log w₂.stored ∧
        w₁.log <+: w₂.log ∧ ∀ w₃ : World, w₂.log <+: w₃.log → ∀ a, r = .ok a → Q a w₃) :
    Coordinates h guard policy callbacks s₀ Q (perform action) w := by
  refine Prog.Holds.perform fun w₁ hlater hinv r w₂ hr => ?_
  obtain ⟨hinv₂, hlater₂, hQ⟩ := hdoes w₁ hlater hinv r w₂ hr
  exact ⟨hinv₂, hlater₂, fun w₃ hlater₃ _ => hQ w₃ hlater₃⟩

theorem coordinates_load :
    Coordinates h guard policy callbacks s₀ (fun s w => s ∈ storedIn s₀ w.log) load w := by
  refine coordinates_perform fun w₁ _ hlegal r w₂ hdoes => ?_
  cases hdoes with
  | load =>
    refine ⟨hlegal, List.prefix_refl _, fun w₃ hlater s hs => ?_⟩
    rw [← Except.ok.inj hs]
    exact storedIn_subset hlater hlegal.stored_mem
  | fault => exact ⟨hlegal, List.prefix_refl _, fun w₃ _ s hs => nomatch hs⟩

theorem coordinates_call {c : Call} (hjustified : c.Justified h guard policy s₀ w.log) :
    Coordinates h guard policy callbacks s₀ (fun _ w => .called c true ∈ w.log) (call c) w := by
  refine coordinates_perform fun w₁ hlater hlegal r w₂ hdoes => ?_
  have hcall := hlegal.called (hjustified.later hlater)
  cases hdoes with
  | call =>
    refine ⟨hcall true, List.prefix_append _ _, fun w₃ hlater₃ _ _ => hlater₃.subset ?_⟩
    exact List.mem_append_right _ (List.mem_singleton_self _)
  | callFault => exact ⟨hcall false, List.prefix_append _ _, fun w₃ _ a ha => nomatch ha⟩
  | fault => exact ⟨hlegal, List.prefix_refl _, fun w₃ _ a ha => nomatch ha⟩

theorem coordinates_compareAndSwap {x : Write} (hstored : x.before ∈ storedIn s₀ w.log)
    (happlied : x.Applied h guard) (hready : x.label.update.Ready h guard policy s₀ w.log)
    (howned : x.label.update.OwnedBy callbacks x.label.caller) :
    Coordinates h guard policy callbacks s₀ (fun _ w => x ∈ writes w.log)
      (compareAndSwap x.before.revision x.after x.label) w := by
  refine coordinates_perform fun w₁ hlater hlegal r w₂ hdoes => ?_
  cases hdoes with
  | swap hrevision =>
    -- the revision is the one that was loaded, so the session still is
    have hbefore : x.before = w₁.stored :=
      (hlegal.seen _ (storedIn_subset hlater hstored)).eq hrevision.symm
    obtain ⟨⟨before, after⟩, label⟩ := x
    obtain rfl := hbefore
    refine ⟨hlegal.wrote happlied (hready.later hlater) howned, List.prefix_append _ _, ?_⟩
    refine fun w₃ hlater₃ _ _ => writes_subset hlater₃ ?_
    rw [writes_wrote]
    exact List.mem_append_right _ (List.mem_singleton_self _)
  | fault => exact ⟨hlegal, List.prefix_refl _, fun w₃ _ a ha => nomatch ha⟩

end Actions

/-! ### Reducers -/

variable (h guard) in
/-- What a reducer hands on is a command of its update, accepted by the session. -/
structure Reduced.Of (r : Reduced) (update : Update) (current : Stored) : Prop where
  asks : update.Asks current r.command r.snapshot
  step : step h guard current.session r.command = .ok r.transition

section Reducers

variable {w : World} {current : Stored} {update : Update}

theorem coordinates_raised {α : Type} {x : Except ServiceError α} :
    Coordinates h guard policy callbacks s₀ (fun a _ => x = .ok a) (raised x) w := by
  cases x with
  | ok a => exact Prog.ensures_pure fun _ _ _ => rfl
  | error e => exact Prog.ensures_throw

theorem coordinates_reduceBy {command : Command} (hasks : update.Asks current command current.snapshot) :
    Coordinates h guard policy callbacks s₀ (fun r _ => r.Of h guard update current ∧ r.command = command)
      (reduceBy h guard current command) w := by
  refine Prog.ensures_bind (Prog.Ensures.weaken coordinates_raised fun t _ _ _ ht => ?_)
  exact Prog.ensures_pure fun _ _ _ => ⟨⟨hasks, ht⟩, rfl⟩

/-- A callback is told that it was accepted only where its command changes the session. -/
def Accepts (current : Stored) (r : Option Reduced × Bool) : Prop :=
  r.2 = true → ∃ x, r.1 = some x ∧ x.transition.session ≠ current.session

/-- A reducer of one command, and when it tells that it was accepted. -/
theorem coordinates_reduced {command : Command} {accepted : Bool}
    (hasks : update.Asks current command current.snapshot)
    (haccepts : accepted = true → ∀ t, step h guard current.session command = .ok t →
      t.session ≠ current.session) :
    Coordinates h guard policy callbacks s₀
      (fun r _ => (∀ x, r.1 = some x → x.Of h guard update current) ∧ Accepts current r)
      (do return (some (← reduceBy h guard current command), accepted)) w := by
  refine Prog.ensures_bind (Prog.Ensures.weaken (coordinates_reduceBy hasks) fun x _ _ _ hx => ?_)
  obtain ⟨hof, hcommand⟩ := hx
  refine Prog.ensures_pure fun _ _ _ => ⟨fun y hy => ?_, fun haccepted => ⟨x, rfl, ?_⟩⟩
  · rw [← Option.some.inj hy]
    exact hof
  · exact haccepts haccepted _ (hcommand ▸ hof.step)

theorem coordinates_unchanged :
    Coordinates h guard policy callbacks s₀
      (fun r _ => (∀ x, r.1 = some x → x.Of h guard update current) ∧ Accepts current r)
      (return (none, false)) w := by
  refine Prog.ensures_pure fun _ _ _ => ⟨fun x hx => ?_, fun haccepted => ?_⟩
  · cases hx
  · cases haccepted

theorem coordinates_reduceTriage (hstored : current ∈ storedIn s₀ w.log)
    (hstatus : current.session.status = .waitingTriage) :
    Coordinates h guard policy callbacks s₀ (fun r _ => r.Of h guard .triage current)
      (reduceTriage h guard current) w := by
  have hout : Outstanding h guard s₀ w.log current .runTriage := by
    refine ⟨hstored, Or.inl ?_⟩
    rw [resumeSession, hstatus]
    exact List.mem_singleton_self _
  refine Prog.ensures_bind (Prog.Ensures.weaken (coordinates_call hout) fun verdict _ _ _ _ => ?_)
  refine Prog.ensures_bind (Prog.Ensures.weaken coordinates_raised fun t _ _ _ ht => ?_)
  exact Prog.ensures_pure fun _ _ _ => ⟨⟨hstatus, verdict, rfl, rfl⟩, ht⟩

theorem coordinates_reduce (hstored : current ∈ storedIn s₀ w.log) :
    Coordinates h guard policy callbacks s₀
      (fun r _ => (∀ x, r.1 = some x → x.Of h guard update current) ∧ Accepts current r)
      (reduce h guard update current) w := by
  cases update with
  | envelope e =>
    rw [reduce]
    split
    · exact Prog.ensures_throw
    · rename_i hrevision
      refine coordinates_reduced ⟨Nat.le_of_not_gt hrevision, rfl, rfl⟩ fun haccepted t ht hsame => ?_
      have hnew : e.result.experimentId ∉ current.session.completedExperimentIds := by
        rw [e.result_id]
        exact of_decide_eq_true haccepted
      have hcompleted := experimentResult_completed ht hnew
      rw [hsame] at hcompleted
      simp at hcompleted
  | result r => exact coordinates_reduced ⟨rfl, rfl⟩ nofun
  | decision revision d =>
    rw [reduce]
    split
    · exact coordinates_unchanged
    · rename_i hrevision
      refine coordinates_reduced ⟨not_not.mp hrevision, rfl, rfl⟩ fun _ t ht hsame => ?_
      have hturns := analysisDecision_turns ht
      rw [hsame] at hturns
      omega
  | infrastructureFailure revision reason =>
    rw [reduce]
    split
    · rename_i hrevision
      obtain ⟨hrevision, hterminal⟩ := hrevision
      have hfalse := Bool.eq_false_iff.mpr hterminal
      refine coordinates_reduced ⟨hrevision, hfalse, rfl, rfl⟩ fun _ t ht hsame => ?_
      rcases infrastructureFailure_cases ht with ⟨htrue, -⟩ | ⟨-, rfl⟩
      · exact hterminal htrue
      · rw [← hsame] at hfalse
        exact nomatch hfalse
    · exact coordinates_unchanged
  | publicationFailure revision reason =>
    rw [reduce]
    split
    · rename_i hrevision
      obtain ⟨hrevision, hpending⟩ := hrevision
      refine coordinates_reduced ⟨hrevision, hpending, rfl, rfl⟩ fun _ t ht hsame => ?_
      obtain ⟨-, ⟨hfailed, -⟩ | ⟨-, rfl⟩⟩ := reportPublicationFailed_cases ht
      · rw [hpending] at hfailed
        exact nomatch hfailed
      · rw [← hsame] at hpending
        exact nomatch hpending
    · exact coordinates_unchanged
  | triage =>
    rw [reduce]
    split
    · exact coordinates_unchanged
    · rename_i hstatus
      refine Prog.ensures_bind (Prog.Ensures.weaken
        (coordinates_reduceTriage hstored (not_not.mp hstatus)) fun x _ _ _ hx => ?_)
      refine Prog.ensures_pure fun _ _ _ => ⟨fun y hy => ?_, nofun⟩
      rw [← Option.some.inj hy]
      exact hx
  | published artifact => exact coordinates_reduced ⟨rfl, rfl⟩ nofun
  | childrenStarted ids => exact coordinates_reduced ⟨rfl, rfl⟩ nofun

end Reducers

/-! ### Updates and their effects -/

variable (s₀) in
/-- An update returns a session that was stored, and tells that it was accepted only of a write. -/
structure Returned (caller : ℕ) (update : Update) (r : Stored × Bool) (w : World) : Prop where
  stored : r.1 ∈ storedIn s₀ w.log
  written : r.2 = true → ∃ x ∈ writes w.log, x.label.caller = caller ∧ x.label.update = update

variable (h guard policy callbacks s₀) in
def Applies (caller : ℕ) (apply : Update → Program (Stored × Bool)) : Prop :=
  ∀ w update, update.Ready h guard policy s₀ w.log → update.OwnedBy callbacks caller →
    Coordinates h guard policy callbacks s₀ (Returned s₀ caller update) (apply update) w

variable (h guard policy callbacks s₀) in
def Dispatches (dispatch : Stored → List SessionEffect → Program Stored) : Prop :=
  ∀ w s effects, s ∈ storedIn s₀ w.log → effects.length ≤ 1 →
    (∀ effect ∈ effects, Outstanding h guard s₀ w.log s effect) →
    Coordinates h guard policy callbacks s₀ (fun u w => u ∈ storedIn s₀ w.log) (dispatch s effects) w

section Updates

variable {w : World} {caller : ℕ}

theorem coordinates_applyWith {dispatch : Stored → List SessionEffect → Program Stored} {update : Update}
    (hdispatch : Dispatches h guard policy callbacks s₀ dispatch) (hready : update.Ready h guard policy s₀ w.log)
    (howned : update.OwnedBy callbacks caller) (attempts : ℕ) :
    Coordinates h guard policy callbacks s₀ (Returned s₀ caller update)
      (applyWith h guard dispatch caller update attempts) w := by
  induction attempts generalizing w with
  | zero => exact Prog.ensures_throw
  | succ attempts ih =>
    refine Prog.ensures_bind (Prog.Ensures.weaken coordinates_load fun current w₁ hlog₁ _ hcurrent => ?_)
    have hready₁ := hready.later hlog₁
    refine Prog.ensures_bind (Prog.Ensures.weaken (coordinates_reduce hcurrent)
      fun r w₂ hlog₂ _ hr => ?_)
    obtain ⟨reduced, accepted⟩ := r
    obtain ⟨hof, haccepts⟩ := hr
    have hcurrent₂ := storedIn_subset hlog₂ hcurrent
    have hready₂ := hready₁.later hlog₂
    cases reduced with
    | none =>
      refine Prog.ensures_pure fun w₃ hlog₃ _ => ⟨storedIn_subset hlog₃ hcurrent₂, fun haccepted => ?_⟩
      obtain ⟨x, hx, -⟩ := haccepts haccepted
      exact nomatch hx
    | some x =>
      obtain ⟨hasks, hstep⟩ := hof x rfl
      dsimp only
      split
      · rename_i hsame
        -- nothing to write, so nothing was accepted
        refine Prog.ensures_pure fun w₃ hlog₃ _ => ⟨storedIn_subset hlog₃ hcurrent₂, fun haccepted => ?_⟩
        obtain ⟨y, hy, hchanged⟩ := haccepts haccepted
        rw [← Option.some.inj hy] at hchanged
        exact absurd hsame.2 hchanged
      · rename_i hchanged
        let write : Write :=
          ⟨⟨current, ⟨x.transition.session, x.snapshot, current.revision + 1⟩⟩, ⟨caller, update, x.command⟩⟩
        have happlied : write.Applied h guard :=
          ⟨hasks, ⟨x.transition, hstep, rfl, not_and_or.mp hchanged⟩, rfl⟩
        refine Prog.ensures_tryCatch ?_ fun fault w₃ hlog₃ _ => ?_
        · refine Prog.ensures_bind (Prog.Ensures.weaken
            (coordinates_compareAndSwap (x := write) hcurrent₂ happlied hready₂ howned)
            fun _ w₃ _ _ hwritten => ?_)
          have hafter : write.after ∈ storedIn s₀ w₃.log :=
            List.mem_cons_of_mem _ (List.mem_map_of_mem hwritten)
          refine Prog.ensures_bind (Prog.Ensures.weaken (hdispatch w₃ write.after _ hafter
            (step_single hstep) fun effect heffect => ?_) fun u w₄ hlog₄ _ hu => ?_)
          · exact ⟨hafter, Or.inr ⟨write, hwritten, rfl, x.transition, hstep, rfl, heffect⟩⟩
          · refine Prog.ensures_pure fun w₅ hlog₅ _ => ⟨storedIn_subset hlog₅ hu, fun _ => ?_⟩
            exact ⟨write, writes_subset hlog₅ (writes_subset hlog₄ hwritten), rfl, rfl⟩
        · cases fault with
          | conflict => exact ih (hready₂.later hlog₃)
          | _ => exact Prog.ensures_throw

section Effects

variable {childId : AnalysisSession → KernelId → String} {apply : Update → Program (Stored × Bool)}
  {stored : Stored}

theorem coordinates_beforeDispatch {effect : SessionEffect}
    (hout : Outstanding h guard s₀ w.log stored effect) :
    Coordinates h guard policy callbacks s₀ (fun _ _ => True) (call .beforeDispatch) w :=
  Prog.Ensures.weaken (coordinates_call (c := .beforeDispatch) ⟨stored, effect, hout⟩)
    fun _ _ _ _ _ => trivial

theorem coordinates_startChildren (hout : Outstanding h guard s₀ w.log stored .createChildSessions)
    (ids : List String) :
    Coordinates h guard policy callbacks s₀ (fun _ _ => True) (startChildren stored ids) w := by
  induction ids generalizing w with
  | nil => exact Prog.ensures_pure fun _ _ _ => trivial
  | cons id ids ih =>
    refine Prog.ensures_bind (Prog.Ensures.weaken (coordinates_beforeDispatch hout) fun _ w₁ hlog₁ _ _ => ?_)
    have hout₁ := hout.later hlog₁
    have hstart : Coordinates h guard policy callbacks s₀ (fun _ _ => True)
        (tryCatch (do call (.startChild stored id); return []) fun _ => return [id]) w₁ := by
      refine Prog.ensures_tryCatch ?_ fun _ _ _ _ => Prog.ensures_pure fun _ _ _ => trivial
      refine Prog.ensures_bind (Prog.Ensures.weaken (coordinates_call hout₁) fun _ _ _ _ _ => ?_)
      exact Prog.ensures_pure fun _ _ _ => trivial
    refine Prog.ensures_bind (Prog.Ensures.weaken hstart fun _ w₂ hlog₂ _ _ => ?_)
    refine Prog.ensures_bind (Prog.Ensures.weaken (ih (hout₁.later hlog₂)) fun _ _ _ _ _ => ?_)
    exact Prog.ensures_pure fun _ _ _ => trivial

variable (happly : Applies h guard policy callbacks s₀ caller apply)

include happly in
theorem coordinates_applied {update : Update} (hready : update.Ready h guard policy s₀ w.log)
    (howned : update.OwnedBy callbacks caller) :
    Coordinates h guard policy callbacks s₀ (fun u w => u ∈ storedIn s₀ w.log)
      (do let (session, _) ← apply update; return session) w := by
  refine Prog.ensures_bind (Prog.Ensures.weaken (happly w update hready howned) fun r w₁ _ _ hr => ?_)
  exact Prog.ensures_pure fun w₂ hlog₂ _ => storedIn_subset hlog₂ hr.stored

include happly in
theorem coordinates_createDiscoveryChildren {callback : Callback}
    (hcaller : callbacks[caller]? = some callback)
    (hout : Outstanding h guard s₀ w.log stored .createChildSessions) :
    Coordinates h guard policy callbacks s₀ (fun u w => u ∈ storedIn s₀ w.log)
      (createDiscoveryChildren childId apply stored) w := by
  unfold createDiscoveryChildren
  split
  · split
    · exact Prog.ensures_throw
    · rename_i manifest _
      split
      · exact Prog.ensures_throw
      split
      · exact Prog.ensures_throw
      refine Prog.ensures_bind (Prog.Ensures.weaken (coordinates_startChildren hout _)
        fun failures w₁ _ _ _ => ?_)
      split
      · exact Prog.ensures_throw
      · exact coordinates_applied happly trivial ⟨callback, hcaller, Or.inr rfl⟩
  · exact Prog.ensures_throw

theorem coordinates_recordEach {baselines : List ScopeBaseline}
    (hjustified : ∀ b ∈ baselines, (Call.record b).Justified h guard policy s₀ w.log) :
    Coordinates h guard policy callbacks s₀ (fun _ w => ∀ b ∈ baselines, .called (.record b) true ∈ w.log)
      (recordEach baselines) w := by
  induction baselines generalizing w with
  | nil => exact Prog.ensures_pure fun _ _ _ b hb => absurd hb List.not_mem_nil
  | cons first baselines ih =>
    refine Prog.ensures_bind (Prog.Ensures.weaken (coordinates_call (hjustified first List.mem_cons_self))
      fun _ w₁ hlog₁ _ hfirst => ?_)
    refine Prog.Ensures.weaken
      (ih fun b hb => (hjustified b (List.mem_cons_of_mem _ hb)).later hlog₁) fun _ w₂ hlog₂ _ hrest => ?_
    intro b hb
    rcases List.mem_cons.mp hb with rfl | hb
    · exact hlog₂.subset hfirst
    · exact hrest b hb

include happly in
theorem coordinates_publishReport {callback : Callback}
    (hcaller : callbacks[caller]? = some callback)
    (hout : Outstanding h guard s₀ w.log stored .publishReport) :
    Coordinates h guard policy callbacks s₀ (fun u w => u ∈ storedIn s₀ w.log)
      (publishReport policy apply stored) w := by
  refine Prog.ensures_bind (Prog.Ensures.weaken coordinates_raised fun _ w₁ hlog₁ _ _ => ?_)
  have hout₁ := hout.later hlog₁
  refine Prog.ensures_bind (Prog.Ensures.weaken (coordinates_call (c := .publish stored) hout₁)
    fun artifact w₂ hlog₂ _ hpublished => ?_)
  refine Prog.ensures_bind (Prog.Ensures.weaken coordinates_raised fun t w₃ hlog₃ _ ht => ?_)
  have hout₃ := hout₁.later (hlog₂.trans hlog₃)
  have hpublished₃ := hlog₃.subset hpublished
  have hrecord : ∀ b ∈ publishedBaselines policy { stored with session := t.session },
      (Call.record b).Justified h guard policy s₀ w₃.log := fun b hb =>
    ⟨stored, artifact, t, hout₃, hpublished₃, ht, hb⟩
  refine Prog.ensures_bind (Prog.Ensures.weaken (coordinates_recordEach hrecord)
    fun _ w₄ hlog₄ _ hrecorded => ?_)
  refine coordinates_applied happly ?_ ⟨callback, hcaller, Or.inr rfl⟩
  exact ⟨stored, t, hout₃.later hlog₄, ht, hlog₄.subset hpublished₃, hrecorded⟩

include happly in
theorem coordinates_dispatchEach {callback : Callback} {effect : SessionEffect}
    (hcaller : callbacks[caller]? = some callback)
    (hout : Outstanding h guard s₀ w.log stored effect) :
    Coordinates h guard policy callbacks s₀ (fun u w => u ∈ storedIn s₀ w.log)
      (dispatchEach policy childId apply stored [effect]) w := by
  refine Prog.ensures_bind (Prog.Ensures.weaken (coordinates_beforeDispatch hout) fun _ w₁ hlog₁ _ _ => ?_)
  have hout₁ := hout.later hlog₁
  have hdone : ∀ w₂ : World, w₁.log <+: w₂.log → Coordinates h guard policy callbacks s₀
      (fun u w => u ∈ storedIn s₀ w.log) (dispatchEach policy childId apply stored []) w₂ :=
    fun w₂ hlog₂ => Prog.ensures_pure fun w₃ hlog₃ _ => storedIn_subset (hlog₂.trans hlog₃) hout₁.1
  have hlast : ∀ w₂ : World, ∀ u ∈ storedIn s₀ w₂.log, Coordinates h guard policy callbacks s₀
      (fun u w => u ∈ storedIn s₀ w.log) (dispatchEach policy childId apply u []) w₂ :=
    fun w₂ u hu => Prog.ensures_pure fun w₃ hlog₃ _ => storedIn_subset hlog₃ hu
  cases effect with
  | submitExperiments experiments =>
    refine Prog.ensures_bind (Prog.Ensures.weaken
      (coordinates_call (c := .submit stored.revision experiments) ⟨stored, rfl, hout₁⟩)
      fun _ w₂ hlog₂ _ _ => ?_)
    exact hdone w₂ hlog₂
  | runTriage => exact hdone w₁ (List.prefix_refl _)
  | createChildSessions =>
    refine Prog.ensures_bind (Prog.Ensures.weaken
      (coordinates_createDiscoveryChildren happly hcaller hout₁) fun u w₂ _ _ hu => ?_)
    exact hlast w₂ u hu
  | runReasoner =>
    refine Prog.ensures_bind (Prog.Ensures.weaken
      (coordinates_call (c := .reasoner stored.revision) ⟨stored, rfl, hout₁⟩) fun _ w₂ hlog₂ _ _ => ?_)
    exact hdone w₂ hlog₂
  | publishReport =>
    refine Prog.ensures_bind (Prog.Ensures.weaken
      (coordinates_publishReport happly hcaller hout₁) fun u w₂ _ _ hu => ?_)
    exact hlast w₂ u hu

include happly in
theorem coordinates_dispatchWith {callback : Callback}
    (hcaller : callbacks[caller]? = some callback) :
    Dispatches h guard policy callbacks s₀ (dispatchWith policy childId apply) := by
  intro w s effects hs hlength hout
  unfold dispatchWith
  split
  · exact Prog.ensures_throw
  split
  · exact Prog.ensures_throw
  have heach : Coordinates h guard policy callbacks s₀ (fun u w => u ∈ storedIn s₀ w.log)
      (dispatchEach policy childId apply s effects) w := by
    match effects with
    | [] => exact Prog.ensures_pure fun w₁ hlog₁ _ => storedIn_subset hlog₁ hs
    | [effect] =>
      exact coordinates_dispatchEach happly hcaller (hout effect (List.mem_singleton_self _))
    | _ :: _ :: _ => simp at hlength
  refine Prog.ensures_bind (Prog.Ensures.weaken heach fun u w₁ hlog₁ _ hu => ?_)
  split
  · exact coordinates_applied happly trivial ⟨callback, hcaller, Or.inr rfl⟩
  · exact Prog.ensures_pure fun w₂ hlog₂ _ => storedIn_subset hlog₂ hu

end Effects

variable {childId : AnalysisSession → KernelId → String} {callback : Callback}

/-- However deep updates are nested. -/
theorem coordinates_apply (hcaller : callbacks[caller]? = some callback) (depth : ℕ) :
    Applies h guard policy callbacks s₀ caller (apply h guard policy childId caller depth) := by
  induction depth with
  | zero => exact fun w update _ _ => Prog.ensures_throw
  | succ depth ih =>
    intro w update hready howned
    exact coordinates_applyWith (coordinates_dispatchWith ih hcaller) hready howned maxCasAttempts

variable (s₀) in
/-- A callback returns a session that was stored, and tells that it was accepted only where its
update was written. -/
structure Callback.Answers (callback : Callback) (caller : ℕ) (r : Stored × Bool) (w : World) : Prop where
  stored : r.1 ∈ storedIn s₀ w.log
  written : r.2 = true → ∃ x ∈ writes w.log, x.label.caller = caller ∧ callback.update = some x.label.update

theorem coordinates_callback (hcaller : callbacks[caller]? = some callback) (depth : ℕ) :
    Coordinates h guard policy callbacks s₀ (callback.Answers s₀ caller)
      (callback.run h guard policy childId caller depth) w := by
  have happly : Applies h guard policy callbacks s₀ caller (apply h guard policy childId caller depth) :=
    coordinates_apply hcaller depth
  unfold Callback.run
  split
  · rename_i update hupdate
    have hready : update.Ready h guard policy s₀ w.log := by
      cases callback <;> cases hupdate <;> trivial
    refine Prog.Ensures.weaken (happly w update hready ⟨callback, hcaller, Or.inl hupdate⟩)
      fun r w₁ _ _ hr => ⟨hr.stored, fun haccepted => ?_⟩
    obtain ⟨x, hx, hxcaller, hxupdate⟩ := hr.written haccepted
    exact ⟨x, hx, hxcaller, hxupdate ▸ hupdate⟩
  · refine Prog.ensures_bind (Prog.Ensures.weaken coordinates_load fun current w₁ _ _ hcurrent => ?_)
    refine Prog.ensures_bind (Prog.Ensures.weaken (coordinates_dispatchWith happly hcaller w₁ current _
      hcurrent (resumeSession_single _) fun effect heffect => ⟨hcurrent, Or.inl heffect⟩)
      fun u w₂ _ _ hu => ?_)
    exact Prog.ensures_pure fun w₃ hlog₃ _ => ⟨storedIn_subset hlog₃ hu, nofun⟩

end Updates

/-! ### Results and decisions -/

def Command.resultId? : Command → Option String
  | .experimentResult result => some result.experimentId
  | _ => none

/-- The revision that an update's decision was computed from. -/
def Update.decisionRevision? : Update → Option ℕ
  | .decision revision _ => some revision
  | _ => none

def resultIds (log : List Event) : List String :=
  (writes log).filterMap fun w => w.label.command.resultId?

def decisionRevisions (log : List Event) : List ℕ :=
  (writes log).filterMap fun w => w.label.update.decisionRevision?

/-- A write completes the experiment that its command has a result of, and none else. -/
theorem Write.Applied.completed {w : Write} (happlied : w.Applied h guard) :
    (∀ id ∈ w.label.command.resultId?, id ∉ w.before.session.completedExperimentIds) ∧
      w.after.session.completedExperimentIds =
        w.before.session.completedExperimentIds ++ w.label.command.resultId?.toList := by
  obtain ⟨t, ht, hafter, hchanged⟩ := happlied.step
  rw [← hafter]
  cases hcommand : w.label.command with
  | experimentResult result =>
    rw [hcommand] at ht
    have hnew : result.experimentId ∉ w.before.session.completedExperimentIds := by
      rcases experimentResult_cases ht with ⟨-, rfl⟩ | ⟨spec, hacc, -⟩
      · exact absurd hchanged (by simp)
      · exact hacc.new
    refine ⟨fun id hid => ?_, experimentResult_completed ht hnew⟩
    rw [← Option.some.inj hid]
    exact hnew
  | _ =>
    refine ⟨nofun, ?_⟩
    rw [hcommand] at ht
    rcases step_completedIds ht with hsame | ⟨result, hresult, -⟩
    · rw [hsame]
      exact (List.append_nil _).symm
    · exact nomatch hresult

theorem Write.Applied.decision {w : Write} (happlied : w.Applied h guard) {revision : ℕ}
    (hrevision : revision ∈ w.label.update.decisionRevision?) : w.before.revision = revision := by
  have hasks := happlied.asks
  cases hupdate : w.label.update with
  | decision r d =>
    rw [hupdate] at hasks hrevision
    rw [← Option.some.inj hrevision]
    exact hasks.1
  | _ =>
    rw [hupdate] at hrevision
    exact nomatch hrevision

include hlegal in
/-- The results that were recorded are those of different experiments, all of them completed. -/
theorem Legal.results :
    (resultIds log).Nodup ∧ ∀ id ∈ resultIds log, id ∈ s.session.completedExperimentIds := by
  induction hlegal with
  | nil => exact ⟨List.nodup_nil, fun id hid => nomatch hid⟩
  | @wrote log w _ applied _ _ ih =>
    obtain ⟨hnodup, hcompleted⟩ := ih
    obtain ⟨hnew, hafter⟩ := applied.completed
    rw [resultIds, writes_wrote, List.filterMap_append, hafter]
    cases hid : w.label.command.resultId? with
    | none =>
      simp only [List.filterMap_cons, hid, List.filterMap_nil, List.append_nil, Option.toList_none]
      exact ⟨hnodup, hcompleted⟩
    | some id =>
      simp only [List.filterMap_cons, hid, List.filterMap_nil, Option.toList_some]
      have hfresh : id ∉ resultIds log := fun hold => hnew id hid (hcompleted id hold)
      refine ⟨hnodup.append (List.nodup_singleton id) ?_, fun id' hid' => ?_⟩
      · exact List.disjoint_singleton.mpr hfresh
      · rcases List.mem_append.mp hid' with hold | hlast
        · exact List.mem_append_left _ (hcompleted id' hold)
        · exact List.mem_append_right _ hlast
  | called _ _ _ ih =>
    rw [resultIds, writes_called]
    exact ih

include hlegal in
/-- The decisions that were recorded were computed from different revisions, all of them past. -/
theorem Legal.decisions :
    (decisionRevisions log).Nodup ∧ ∀ r ∈ decisionRevisions log, r < s.revision := by
  induction hlegal with
  | nil => exact ⟨List.nodup_nil, fun r hr => nomatch hr⟩
  | @wrote log w _ applied _ _ ih =>
    obtain ⟨hnodup, hpast⟩ := ih
    have hrevision := applied.revision
    have hlater : ∀ r ∈ decisionRevisions log, r < w.after.revision := fun r hr => by
      have := hpast r hr
      omega
    rw [decisionRevisions, writes_wrote, List.filterMap_append]
    cases hid : w.label.update.decisionRevision? with
    | none =>
      simp only [List.filterMap_cons, hid, List.filterMap_nil, List.append_nil]
      exact ⟨hnodup, hlater⟩
    | some r =>
      simp only [List.filterMap_cons, hid, List.filterMap_nil]
      have hbefore : w.before.revision = r := applied.decision hid
      refine ⟨hnodup.append (List.nodup_singleton r) ?_, fun r' hr' => ?_⟩
      · refine List.disjoint_singleton.mpr fun hold => ?_
        have := hpast r hold
        omega
      · rcases List.mem_append.mp hr' with hold | hlast
        · exact hlater r' hold
        · rw [List.mem_singleton.mp hlast]
          omega
  | called _ _ _ ih =>
    rw [decisionRevisions, writes_called]
    exact ih

include hlegal in
/-- The commands of the writes are a run of the reducer. -/
theorem Legal.run :
    run h guard s₀.session ((writes log).map fun w => w.label.command) = .ok s.session := by
  induction hlegal with
  | nil => rfl
  | @wrote log w _ applied _ _ ih =>
    obtain ⟨t, ht, hafter, -⟩ := applied.step
    rw [writes_wrote, List.map_append, Service.run, List.foldlM_append]
    rw [Service.run] at ih
    rw [ih, ok_bind, List.map_singleton, List.foldlM_cons, ht, ← hafter]
    rfl
  | called _ _ _ ih =>
    rw [writes_called]
    exact ih

/-! ### Coordinators -/

/-- What is left to do of a callback. -/
abbrev Running := Prog coordinatorInterface (Except Fault (Stored × Bool))

variable (h guard policy callbacks s₀) in
/-- What the callbacks leave, in whatever order their actions were. -/
structure Linearized (final : World) (programs : List Running) : Prop where
  /-- Every write replaces the session that was stored, at the next revision. -/
  chain : Versioned.Chain Stored.revision s₀ ((writes final.log).map Write.toWritten) final.stored
  /-- Every write is one command of one callback, accepted by the session that it replaces. -/
  applied : ∀ w ∈ writes final.log, w.Applied h guard ∧ w.label.update.OwnedBy callbacks w.label.caller
  run : run h guard s₀.session ((writes final.log).map fun w => w.label.command) = .ok final.stored.session
  /-- What is dispatched was asked for by a session that was stored before. -/
  dispatched : ∀ before c succeeded after, final.log = before ++ .called c succeeded :: after →
    c.Justified h guard policy s₀ before
  answered : ∀ (caller : ℕ) (callback : Callback) (r : Stored × Bool),
    callbacks[caller]? = some callback → programs[caller]? = some (.done (.ok r)) →
    callback.Answers s₀ caller r final
  results_once : (resultIds final.log).Nodup
  decisions_once : (decisionRevisions final.log).Nodup
  decided : ∀ w ∈ writes final.log, ∀ revision decision,
    w.label.update = .decision revision decision → w.before.revision = revision

/-- A run of callbacks leaves a legal log, and what each of them answers. -/
theorem coordinators_legal {childId : AnalysisSession → KernelId → String} {depth : ℕ} {final : World}
    {programs : List Running}
    (hrun : Relation.ReflTransGen (Prog.Step Does)
      (⟨s₀, []⟩, callbacks.mapIdx fun i c => (c.run h guard policy childId i depth).run) (final, programs)) :
    Legal h guard policy callbacks s₀ final.log final.stored ∧
      ∀ (caller : ℕ) (callback : Callback) (r : Stored × Bool),
        callbacks[caller]? = some callback → programs[caller]? = some (.done (.ok r)) →
        callback.Answers s₀ caller r final := by
  let answers (i : ℕ) (r : Except Fault (Stored × Bool)) (w : World) : Prop :=
    ∀ a, r = .ok a → ∀ callback, callbacks[i]? = some callback → callback.Answers s₀ i a w
  have hstart : (coordination h guard policy callbacks s₀).Inv ⟨s₀, []⟩ := Legal.nil
  have hcallbacks : ∀ n p, (callbacks.mapIdx fun i c => (c.run h guard policy childId i depth).run)[n]? = some p →
      Prog.Holds (coordination h guard policy callbacks s₀) Does (answers n) p ⟨s₀, []⟩ := by
    intro n p hp
    rw [List.getElem?_mapIdx] at hp
    obtain ⟨callback, hcallback, rfl⟩ := Option.map_eq_some_iff.mp hp
    refine Prog.Holds.weaken (coordinates_callback hcallback depth) ?_
    intro r w _ _ hr a ha callback' hcallback'
    rw [Option.some.inj (hcallback'.symm.trans hcallback)]
    exact hr a ha
  obtain ⟨hlegal, -, hprograms⟩ := Prog.holds_run (fun _ _ hlater => hlater) hstart hcallbacks hrun
  refine ⟨hlegal, fun caller callback r hcaller hdone => ?_⟩
  exact Prog.Holds.done_iff hlegal (hprograms caller _ hdone) r rfl callback hcaller

/-- Coordinators of one session are linearizable. -/
theorem coordinators_linearizable (h : Hashes) (guard : ExperimentGuardPolicy) (policy : TriagePolicy)
    (childId : AnalysisSession → KernelId → String) (depth : ℕ) (callbacks : List Callback) (s₀ : Stored)
    (final : World) (programs : List Running)
    (hrun : Relation.ReflTransGen (Prog.Step Does)
      (⟨s₀, []⟩, callbacks.mapIdx fun i c => (c.run h guard policy childId i depth).run) (final, programs)) :
    Linearized h guard policy callbacks s₀ final programs := by
  obtain ⟨hlegal, hanswers⟩ := coordinators_legal hrun
  refine ⟨hlegal.chain, fun w hw => hlegal.write hw, hlegal.run, ?_, hanswers, hlegal.results.1,
    hlegal.decisions.1, ?_⟩
  · intro before c succeeded after hlog
    rw [hlog] at hlegal
    exact hlegal.called_justified
  · intro w hw revision decision hupdate
    refine (hlegal.write hw).1.decision ?_
    rw [hupdate]
    rfl

def waitingForReasoner : Stored where
  session :=
    { sessionId := "s1"
      unit := vectorAdd
      status := .waitingReasoner
      evidence := EvidenceBundle.empty
      budget := SessionBudget.default }
  snapshot := none
  revision := 5

def inconclusiveDecision : AnalysisDecision :=
  ⟨.inconclusive, "no evidence", some { raceReport with evidenceRefs := [] }, []⟩

/-- Of two coordinators that bring the same decision one is told that it was accepted. -/
theorem coordinators_linearizable_twice : ∃ final s s', Linearized racecheckDigest .default .default
    [.reasoningDecision 5 inconclusiveDecision, .reasoningDecision 5 inconclusiveDecision]
    waitingForReasoner final [.done (.ok (s, true)), .done (.ok (s', false))] := by
  obtain ⟨final, s, s', hrun⟩ : ∃ final s s', Relation.ReflTransGen (Prog.Step Does)
      (⟨waitingForReasoner, []⟩, [.reasoningDecision 5 inconclusiveDecision,
        .reasoningDecision 5 inconclusiveDecision].mapIdx fun i (c : Callback) =>
          (c.run racecheckDigest .default .default (fun _ _ => "") i 2).run)
      (final, [.done (.ok (s, true)), .done (.ok (s', false))]) :=
    ⟨_, _, _,
      .head (.act (n := 0) rfl .load) <|
      .head (.act (n := 1) rfl .load) <|
      .head (.act (n := 0) rfl (@Does.swap _ _ _ _ (.ok ()) rfl)) <|
      .head (.act (n := 1) rfl (@Does.fault _ _ .conflict)) <|
      .head (.act (n := 1) rfl .load) <|
      .head (.act (n := 0) rfl (@Does.call _ .beforeDispatch ())) <|
      .head (.act (n := 0) rfl (@Does.call _ (.publish _) none)) <|
      .head (.act (n := 0) rfl .load) <|
      .head (.act (n := 0) rfl (@Does.swap _ _ _ _ (.ok ()) rfl)) .refl⟩
  exact ⟨final, s, s', coordinators_linearizable _ _ _ _ _ _ _ _ _ hrun⟩

end CuTracer.Service
