import CuTracer.Service.Deliver
import CuTracer.Service.Runner

/-! A local session that is stopped, wherever and however often, ends as it would have ended
without: what it saved last asks for the same as the loop that was stopped. -/

namespace CuTracer.Service.Runner

/-- Ports that always answer the same. -/
structure Environment where
  execute : ExperimentSpec → Except PortError ExperimentResult
  analyze : Stored → Except PortError AnalysisDecision
  decide : Stored → Except PortError TriageVerdict
  publish : Stored → Except PortError Unit

/-- The replies of a run that nothing stops. -/
def Environment.reply (env : Environment) : (action : Action) → Except PortError action.Value
  | .clock => .ok (0 : ℤ)
  | .execute spec => env.execute spec
  | .analyze s => env.analyze s
  | .decide s => env.decide s
  | .publish s => env.publish s
  | .record _ | .save _ => .ok ()

def Action.answered : Action → Bool
  | .execute _ | .analyze _ | .decide _ | .publish _ => true
  | _ => false

/-- An action in an environment; the clock is any, and a store may raise. -/
def Environment.Does (env : Environment) (w : World) (action : Action)
    (reply : Except PortError action.Value) (w' : World) : Prop :=
  Runner.Does w action reply w' ∧ (action.answered = true → reply = env.reply action)

section

variable (h : Hashes) (guard : ExperimentGuardPolicy) (policy : TriagePolicy)
  (str : ServiceError → String) (env : Environment) (sink : Bool)

/-- What a run that nothing stops ends with, in so many steps. -/
def uninterrupted (steps : ℕ) (session : Stored) : Except Fault Stored :=
  @Prog.evalExcept interface Stored Fault env.reply
    (resumeWithin h guard policy str ⟨none, sink⟩ steps session)

def Leads (s s' : AnalysisSession) : Prop := ∃ cs, run h guard s cs = .ok s'

/-- The session accepts whatever the executor returns, and never has it already. -/
def Accepts (s : AnalysisSession) : Prop :=
  ∀ s', Leads h guard s s' → ∀ spec ∈ s'.pendingExperiments, ∀ result, env.execute spec = .ok result →
    result.experimentId ∉ s'.completedExperimentIds ∧ ∃ t, recordExperimentResult s' result = .ok t

/-- A run that was stopped, and what it had saved last. -/
def Stops (s u : Stored) : Prop :=
  ∃ deadlineMs w p, Relation.ReflTransGen (@Prog.Alone interface _ World env.Does)
    (⟨s, []⟩, (resumeLocalSession h guard policy str ⟨deadlineMs, sink⟩ s).run) (w, p) ∧ w.saved = u

end

variable {h : Hashes} {guard : ExperimentGuardPolicy} {policy : TriagePolicy}
  {str : ServiceError → String} {env : Environment} {sink : Bool} {s s' : AnalysisSession}
  {t : Transition}

/-! ### Sessions that follow -/

theorem Leads.refl (s : AnalysisSession) : Leads h guard s s := ⟨[], rfl⟩

theorem Leads.step {c : Command} (hs : Leads h guard s s') (ht : step h guard s' c = .ok t) :
    Leads h guard s t.session := by
  obtain ⟨cs, hcs⟩ := hs
  refine ⟨cs ++ [c], ?_⟩
  rw [Service.run] at hcs ⊢
  rw [List.foldlM_append, hcs, ok_bind, List.foldlM_cons, ht]
  rfl

theorem Leads.reachable (hs : Reachable h guard s) (hleads : Leads h guard s s') : Reachable h guard s' := by
  obtain ⟨cs, hcs⟩ := hleads
  exact reachable_run hs hcs

/-- A result of another experiment would leave its own pending, and then be one that the session
has already. -/
theorem Accepts.id (haccepts : Accepts h guard env s) (hleads : Leads h guard s s') {spec : ExperimentSpec}
    (hspec : spec ∈ s'.pendingExperiments) {result : ExperimentResult}
    (hresult : env.execute spec = .ok result) : result.experimentId = spec.experimentId := by
  obtain ⟨hnew, t, ht⟩ := haccepts s' hleads spec hspec result hresult
  by_contra hother
  obtain ⟨matched, -, hcontinue⟩ := experimentResult_new ht hnew
  have hstill : spec ∈ (acceptResult s' matched result).pendingExperiments :=
    List.mem_filter.mpr ⟨hspec, decide_eq_true (Ne.symm hother)⟩
  have hsame : t = ⟨acceptResult s' matched result, []⟩ := by
    rcases continueSession_cases hcontinue with ⟨-, hsame⟩ | ⟨hnil, -⟩
    · exact hsame
    · rw [hnil] at hstill
      exact nomatch hstill
  have hnext := hleads.step (c := .experimentResult result) ht
  rw [hsame] at hnext
  obtain ⟨hagain, -⟩ := haccepts _ hnext spec hstill result hresult
  exact hagain (List.mem_append_right _ (List.mem_singleton_self _))

theorem accepts_of_answers (hideal : h.Ideal) (hs : Reachable h guard s)
    (hanswers : ∀ spec result, env.execute spec = .ok result → Answers spec result) :
    Accepts h guard env s := by
  intro s' hleads spec hspec result hresult
  have hreachable := hleads.reachable hs
  have hinv := reachable_inv hideal hreachable
  have hanswer := hanswers spec result hresult
  have hnew : result.experimentId ∉ s'.completedExperimentIds := by
    rw [hanswer.id]
    exact hinv.disjoint _ (List.mem_map_of_mem hspec)
  refine ⟨hnew, ?_⟩
  rw [record_answer hinv hspec hanswer]
  by_cases hlast : (acceptResult s' spec result).pendingExperiments = []
  · obtain ⟨reason, ht⟩ := continueSession_last hinv (reachable_lifecycle hreachable)
      ⟨hspec, hanswer.id.symm, hnew, (hinv.context spec hspec).valid, hanswer.valid⟩ hlast
    exact ⟨_, ht⟩
  · exact ⟨_, if_pos hlast⟩

/-- The pending experiments after the result of the first of them. -/
theorem pending_rest {spec : ExperimentSpec} {rest : List ExperimentSpec} {result : ExperimentResult}
    (hpending : s.pendingExperiments = spec :: rest) (hid : result.experimentId = spec.experimentId)
    (hnodup : s.pendingExperimentIds.Nodup) (matched : ExperimentSpec) :
    (acceptResult s matched result).pendingExperiments = rest := by
  rw [AnalysisSession.pendingExperimentIds, hpending, List.map_cons, List.nodup_cons] at hnodup
  simp only [acceptResult, hpending, hid]
  rw [List.filter_cons_of_neg (by simp), List.filter_eq_self]
  intro other hother
  refine decide_eq_true fun heq => hnodup.1 ?_
  rw [← heq]
  exact List.mem_map_of_mem hother

/-- One result of a batch: the session goes on to the next experiment, or the batch is over. -/
theorem experimentResult_batch {spec : ExperimentSpec} {rest : List ExperimentSpec}
    {result : ExperimentResult} (hpublishing : Publishing s) (hinv : Inv h s)
    (hpending : s.pendingExperiments = spec :: rest) (hid : result.experimentId = spec.experimentId)
    (hnew : result.experimentId ∉ s.completedExperimentIds)
    (ht : recordExperimentResult s result = .ok t) :
    (rest = [] ∧ t.effects = (resumeSession t.session).effects) ∨
      (rest ≠ [] ∧ t.effects = [] ∧ t.session.pendingExperiments = rest ∧ t.session.status = s.status) := by
  obtain ⟨matched, -, hcontinue⟩ := experimentResult_new ht hnew
  have hrest := pending_rest hpending hid hinv.pending_nodup matched
  rcases continueSession_cases hcontinue with ⟨hne, rfl⟩ | ⟨hnil, status, reason, effects, -, rfl⟩
  · rw [hrest] at hne
    exact Or.inr ⟨hne, rfl, hrest, rfl⟩
  · exact Or.inl ⟨hrest.symm.trans hnil, experimentResult_last hpublishing ht hnil hnew⟩

/-! ### What a run ends with -/

section Evaluation

variable {c f : Stored} {e : SessionEffect} {effects : List SessionEffect} {steps : ℕ}

abbrev returns {α : Type} (env : Environment) (p : Program α) : Except Fault α :=
  @Prog.evalExcept interface α Fault env.reply p

theorem returns_bind {α β : Type} (p : Program α) (q : α → Program β) :
    returns env (p >>= q) = returns env p >>= fun a => returns env (q a) :=
  Prog.evalExcept_bind _ p q

theorem returns_attempt (action : Action) : returns env (attempt action) = .ok (env.reply action) := rfl

theorem returns_perform {action : Action} {a : action.Value} (hreply : env.reply action = .ok a) :
    returns env (perform action) = .ok a := by
  rw [perform, returns_bind, returns_attempt, hreply, ok_bind]
  rfl

theorem returns_raised {α : Type} {x : Except ServiceError α} {a : α} (hx : x = .ok a) :
    returns env (raised x) = .ok a := by
  rw [hx]
  rfl

def advanced (previous : Stored) (session : AnalysisSession) (snapshot : Option TriageSnapshot) : Stored :=
  if session = previous.session then previous else ⟨session, snapshot, previous.revision + 1⟩

theorem returns_checkpoint (previous : Stored) (session : AnalysisSession)
    (snapshot : Option TriageSnapshot) :
    returns env (checkpoint previous session snapshot) = .ok (advanced previous session snapshot) := by
  unfold checkpoint advanced
  split
  · rfl
  · rfl

theorem advanced_session (previous : Stored) (session : AnalysisSession)
    (snapshot : Option TriageSnapshot) : (advanced previous session snapshot).session = session := by
  unfold advanced
  split
  · rename_i hsame
    exact hsame.symm
  · rfl

theorem returns_failed {reason : String} (ht : recordInfrastructureFailure c.session reason = .ok t) :
    returns env (failed c reason) = .ok (advanced c t.session c.snapshot, []) := by
  rw [failed, returns_bind, returns_raised ht, ok_bind, returns_bind, returns_checkpoint, ok_bind]
  rfl

theorem returns_recordEach (baselines : List ScopeBaseline) :
    returns env (recordEach baselines) = .ok () := by
  induction baselines with
  | nil => rfl
  | cons baseline baselines ih =>
    refine (returns_bind (perform (.record baseline)) fun _ => recordEach baselines).trans ?_
    exact ih

theorem returns_drive (he : e ≠ .createChildSessions) :
    returns env (drive h guard policy str ⟨none, sink⟩ (steps + 1) c (e :: effects)) =
      returns env (runEffect h guard policy str ⟨none, sink⟩ c e) >>= fun r =>
        returns env (drive h guard policy str ⟨none, sink⟩ steps r.1 (effects ++ r.2)) := by
  rw [drive, if_neg he, returns_bind]
  exact returns_bind _ _

/-- More steps do not change what a run ends with. -/
theorem returns_drive_mono {more : ℕ} (hmore : steps ≤ more)
    (hf : returns env (drive h guard policy str ⟨none, sink⟩ steps c effects) = .ok f) :
    returns env (drive h guard policy str ⟨none, sink⟩ more c effects) = .ok f := by
  induction steps generalizing c effects more with
  | zero =>
    cases effects with
    | nil => cases more <;> exact hf
    | cons e effects => exact nomatch hf
  | succ steps ih =>
    obtain ⟨more, rfl⟩ := Nat.exists_eq_add_of_le' (Nat.lt_of_lt_of_le (Nat.succ_pos steps) hmore)
    cases effects with
    | nil => exact hf
    | cons e effects =>
      by_cases he : e = .createChildSessions
      · rw [drive, if_pos he] at hf ⊢
        exact hf
      · rw [returns_drive he] at hf ⊢
        obtain ⟨r, hr, hrest⟩ := bind_ok hf
        rw [hr, ok_bind]
        exact ih (Nat.le_of_succ_le_succ hmore) hrest

theorem uninterrupted_mono {more : ℕ} (hmore : steps ≤ more)
    (hf : uninterrupted h guard policy str env sink steps c = .ok f) :
    uninterrupted h guard policy str env sink more c = .ok f :=
  returns_drive_mono hmore hf

/-- The session that an effect leads to ends as the one that asked for it. -/
theorem uninterrupted_next {next : Stored} {generated : List SessionEffect}
    (hasks : (resumeSession c.session).effects = [e]) (he : e ≠ .createChildSessions)
    (hnext : returns env (runEffect h guard policy str ⟨none, sink⟩ c e) = .ok (next, generated))
    (hgenerated : generated = (resumeSession next.session).effects)
    (hf : uninterrupted h guard policy str env sink steps c = .ok f) :
    uninterrupted h guard policy str env sink steps next = .ok f := by
  cases steps with
  | zero =>
    rw [uninterrupted, resumeWithin, hasks] at hf
    exact nomatch hf
  | succ steps =>
    have hdrive : returns env (drive h guard policy str ⟨none, sink⟩ (steps + 1) c [e]) = .ok f := by
      rw [← hasks]
      exact hf
    rw [returns_drive he, hnext, ok_bind, List.nil_append, hgenerated] at hdrive
    exact returns_drive_mono (Nat.le_succ steps) hdrive

/-- Two sessions whose effects lead to the same end as one another. -/
theorem uninterrupted_congr {c' : Stored} {e' : SessionEffect}
    (hasks : (resumeSession c.session).effects = [e]) (he : e ≠ .createChildSessions)
    (hasks' : (resumeSession c'.session).effects = [e']) (he' : e' ≠ .createChildSessions)
    (hsame : returns env (runEffect h guard policy str ⟨none, sink⟩ c e) =
      returns env (runEffect h guard policy str ⟨none, sink⟩ c' e')) :
    uninterrupted h guard policy str env sink steps c = uninterrupted h guard policy str env sink steps c' := by
  rw [uninterrupted, uninterrupted, resumeWithin, resumeWithin, hasks, hasks']
  cases steps with
  | zero => rfl
  | succ steps =>
    refine (returns_drive he).trans (Eq.trans ?_ (returns_drive he').symm)
    rw [hsame]

end Evaluation

/-! ### What a run keeps -/

variable (h guard policy str env sink) in
/-- A session that is saved ends as `f`, and has everything that is done. -/
structure Kept (s₀ f : Stored) (steps : ℕ) (done : List String) (c : Stored) : Prop where
  leads : Leads h guard s₀.session c.session
  ends : uninterrupted h guard policy str env sink steps c = .ok f
  completed : done ⊆ c.session.completedExperimentIds

variable (h guard policy str env sink) in
/-- What is saved ends as `f`, and nothing that is done is executed. -/
def surviving (s₀ f : Stored) (steps : ℕ) (done : List String) : Prog.Rely World :=
  .alone (fun w => Kept h guard policy str env sink s₀ f steps done w.saved ∧
      ∀ spec, .executed spec ∈ w.log → spec.experimentId ∉ done)
    (fun _ _ => True) (fun _ => trivial) fun _ _ _ _ _ => trivial

variable (h guard policy str env sink) in
abbrev Survives {α : Type} (s₀ f : Stored) (steps : ℕ) (done : List String)
    (Q : α → World → Prop) (p : Program α) (w : World) : Prop :=
  @Prog.Ensures interface α Fault World (surviving h guard policy str env sink s₀ f steps done) env.Does Q p w

section Survives

variable {s₀ f c : Stored} {steps : ℕ} {done : List String} {w : World} {e : SessionEffect}

theorem step_completed_subset {c : Command} (ht : step h guard s c = .ok t) :
    s.completedExperimentIds ⊆ t.session.completedExperimentIds := by
  rcases step_completedIds ht with hsame | ⟨result, -, -, hmore⟩
  · rw [hsame]
    exact List.Subset.refl _
  · rw [hmore]
    exact List.subset_append_left _ _

theorem Kept.next {snapshot : Option TriageSnapshot} {generated : List SessionEffect}
    (hkept : Kept h guard policy str env sink s₀ f steps done c) (command : Command)
    (hasks : (resumeSession c.session).effects = [e]) (he : e ≠ .createChildSessions)
    (ht : step h guard c.session command = .ok t)
    (hreturns : returns env (runEffect h guard policy str ⟨none, sink⟩ c e) =
      .ok (advanced c t.session snapshot, generated))
    (hgenerated : generated = (resumeSession t.session).effects) :
    Kept h guard policy str env sink s₀ f steps done (advanced c t.session snapshot) where
  leads := by
    rw [advanced_session]
    exact hkept.leads.step ht
  ends := by
    refine uninterrupted_next hasks he hreturns ?_ hkept.ends
    rw [advanced_session]
    exact hgenerated
  completed := by
    rw [advanced_session]
    exact List.Subset.trans hkept.completed (step_completed_subset ht)

/-- A port that is asked and answers. -/
theorem survives_attempt {a : Action} (hanswered : a.answered = true)
    (hnew : ∀ spec, a = .execute spec → spec.experimentId ∉ done) :
    Survives h guard policy str env sink s₀ f steps done
      (fun r w' => r = env.reply a ∧ w'.saved = w.saved) (attempt a) w := by
  rintro w₁ rfl ⟨hkept, hlog⟩ r w₂ ⟨hdoes, hreply⟩
  have hlater : (surviving h guard policy str env sink s₀ f steps done).Inv w₂ ∧ w₂.saved = w.saved := by
    cases hdoes with
    | clock => exact nomatch hanswered
    | execute =>
      refine ⟨⟨hkept, fun other hother => ?_⟩, rfl⟩
      rcases List.mem_append.mp hother with hold | hlast
      · exact hlog other hold
      · rw [Event.executed.inj (List.mem_singleton.mp hlast)]
        exact hnew _ rfl
    | analyze => exact ⟨⟨hkept, hlog⟩, rfl⟩
    | decide => exact ⟨⟨hkept, hlog⟩, rfl⟩
    | publish =>
      refine ⟨⟨hkept, fun other hother => hlog other ?_⟩, rfl⟩
      simpa using hother
    | record => exact nomatch hanswered
    | save => exact nomatch hanswered
    | fault => exact ⟨⟨hkept, hlog⟩, rfl⟩
  refine ⟨hlater.1, trivial, ?_⟩
  rintro w₃ rfl - v hv
  rw [← Except.ok.inj hv]
  exact ⟨hreply hanswered, hlater.2⟩

theorem survives_perform {a : Action} (hanswered : a.answered = true)
    (hnew : ∀ spec, a = .execute spec → spec.experimentId ∉ done) :
    Survives h guard policy str env sink s₀ f steps done
      (fun v w' => env.reply a = .ok v ∧ w'.saved = w.saved) (perform a) w := by
  refine Prog.ensures_bind (Prog.Ensures.weaken (survives_attempt hanswered hnew) fun r w₁ _ _ hr => ?_)
  cases r with
  | ok v =>
    refine Prog.ensures_pure ?_
    rintro w₂ rfl -
    exact ⟨hr.1.symm, hr.2⟩
  | error e => exact Prog.ensures_throw

theorem survives_raised {α : Type} {x : Except ServiceError α} :
    Survives h guard policy str env sink s₀ f steps done (fun a w' => x = .ok a ∧ w'.saved = w.saved)
      (raised x) w := by
  cases x with
  | ok a =>
    refine Prog.ensures_pure ?_
    rintro w₁ rfl -
    exact ⟨rfl, rfl⟩
  | error e => exact Prog.ensures_throw

/-- An action that no environment answers, and that saves nothing. -/
theorem survives_unsaved {action : Action} (hunsaved : action = .clock ∨ ∃ b, action = .record b) :
    Survives h guard policy str env sink s₀ f steps done (fun _ w' => w'.saved = w.saved)
      (perform action) w := by
  refine Prog.ensures_bind (Prog.Ensures.weaken (Q := fun _ w' => w'.saved = w.saved) ?_
    fun r w₁ _ _ hw₁ => ?_)
  · rintro w₁ rfl ⟨hkept, hlog⟩ r w₂ ⟨hdoes, -⟩
    have hlater : (surviving h guard policy str env sink s₀ f steps done).Inv w₂ ∧ w₂.saved = w.saved := by
      rcases hunsaved with rfl | ⟨b, rfl⟩
      · cases hdoes <;> exact ⟨⟨hkept, hlog⟩, rfl⟩
      · cases hdoes with
        | record =>
          refine ⟨⟨hkept, fun other hother => hlog other ?_⟩, rfl⟩
          simpa using hother
        | fault => exact ⟨⟨hkept, hlog⟩, rfl⟩
    refine ⟨hlater.1, trivial, ?_⟩
    rintro w₃ rfl - - -
    exact hlater.2
  · cases r with
    | ok a =>
      refine Prog.ensures_pure ?_
      rintro w₂ rfl -
      exact hw₁
    | error e => exact Prog.ensures_throw

theorem survives_expired (resume : Resume) :
    Survives h guard policy str env sink s₀ f steps done (fun _ w' => w'.saved = w.saved)
      (expired resume) w := by
  unfold expired
  split
  · refine Prog.ensures_pure ?_
    rintro w₁ rfl -
    rfl
  · refine Prog.ensures_bind (Prog.Ensures.weaken (survives_unsaved (Or.inl rfl)) fun _ w₁ _ _ hw₁ => ?_)
    refine Prog.ensures_pure ?_
    rintro w₂ rfl -
    exact hw₁

theorem survives_recordEach (baselines : List ScopeBaseline) :
    Survives h guard policy str env sink s₀ f steps done (fun _ w' => w'.saved = w.saved)
      (recordEach baselines) w := by
  induction baselines generalizing w with
  | nil =>
    refine Prog.ensures_pure ?_
    rintro w₁ rfl -
    rfl
  | cons b baselines ih =>
    refine Prog.ensures_bind (Prog.Ensures.weaken (survives_unsaved (Or.inr ⟨b, rfl⟩))
      fun _ w₁ _ _ hw₁ => ?_)
    exact Prog.Ensures.weaken ih fun _ w₂ _ _ hw₂ => hw₂.trans hw₁

theorem survives_checkpoint {session : AnalysisSession} {snapshot : Option TriageSnapshot}
    (hsaved : w.saved = c)
    (hkept : Kept h guard policy str env sink s₀ f steps done (advanced c session snapshot)) :
    Survives h guard policy str env sink s₀ f steps done
      (fun next w' => next = advanced c session snapshot ∧ w'.saved = next)
      (checkpoint c session snapshot) w := by
  unfold checkpoint
  unfold advanced at hkept ⊢
  split
  · refine Prog.ensures_pure ?_
    rintro w₁ rfl -
    exact ⟨rfl, hsaved⟩
  · rename_i hchanged
    rw [if_neg hchanged] at hkept
    refine Prog.ensures_bind (Prog.ensures_bind ?_)
    rintro w₁ rfl ⟨hbefore, hlog⟩ r w₂ ⟨hdoes, -⟩
    cases hdoes with
    | save =>
      refine ⟨⟨hkept, fun other hother => hlog other (by simpa using hother)⟩, trivial, ?_⟩
      rintro w₃ rfl - a ha
      rw [← Except.ok.inj ha]
      cases r with
      | ok a =>
        refine Prog.ensures_pure ?_
        rintro w₄ rfl -
        refine Prog.ensures_pure ?_
        rintro w₅ rfl -
        exact ⟨rfl, rfl⟩
      | error e => exact Prog.ensures_throw
    | fault =>
      refine ⟨⟨hbefore, hlog⟩, trivial, ?_⟩
      rintro w₃ rfl - a ha
      rw [← Except.ok.inj ha]
      exact Prog.ensures_throw

/-! ### Effects -/

/-- The session that an effect leads to is saved, and what it asks for is done next, unless the
run is stopped. -/
def Goes (r : Stored × List SessionEffect) (w : World) : Prop :=
  w.saved = r.1 ∧ (r.2 = [] ∨ r.2 = (resumeSession r.1.session).effects)

theorem survives_advance {session : AnalysisSession} {snapshot : Option TriageSnapshot}
    {generated : List SessionEffect} (hsaved : w.saved = c)
    (hkept : Kept h guard policy str env sink s₀ f steps done (advanced c session snapshot))
    (hgenerated : generated = [] ∨ generated = (resumeSession session).effects) :
    Survives h guard policy str env sink s₀ f steps done Goes
      (do return (← checkpoint c session snapshot, generated)) w := by
  refine Prog.ensures_bind (Prog.Ensures.weaken (survives_checkpoint hsaved hkept) fun next w₁ _ _ hnext => ?_)
  obtain ⟨rfl, hsaved₁⟩ := hnext
  refine Prog.ensures_pure ?_
  rintro w₂ rfl -
  refine ⟨hsaved₁, ?_⟩
  rw [advanced_session]
  exact hgenerated

theorem survives_failed {reason : String} (hsaved : w.saved = c)
    (hkept : Kept h guard policy str env sink s₀ f steps done c) (hpublishing : Publishing c.session)
    (hasks : (resumeSession c.session).effects = [e]) (he : e ≠ .createChildSessions)
    (hstatus : c.session.status.terminal = false)
    (hreturns : returns env (runEffect h guard policy str ⟨none, sink⟩ c e) = returns env (failed c reason)) :
    Survives h guard policy str env sink s₀ f steps done Goes (failed c reason) w := by
  refine Prog.ensures_bind (Prog.Ensures.weaken survives_raised fun t w₁ _ _ ht => ?_)
  obtain ⟨ht, hsaved₁⟩ := ht
  rw [returns_failed ht] at hreturns
  have heffects := infrastructureFailure_effects hpublishing hstatus ht
  have hnone : t.effects = [] := by
    rcases infrastructureFailure_cases ht with ⟨-, rfl⟩ | ⟨-, rfl⟩ <;> rfl
  exact survives_advance (hsaved₁.trans hsaved)
    (hkept.next (.infrastructureFailure reason) hasks he ht hreturns (hnone.symm.trans heffects))
    (Or.inl rfl)

theorem returns_advance {command : Except ServiceError Transition} (ht : command = .ok t)
    (snapshot : Option TriageSnapshot) (generated : Transition → List SessionEffect) :
    returns env (do
        let t ← raised command
        return (← checkpoint c t.session snapshot, generated t)) =
      .ok (advanced c t.session snapshot, generated t) := by
  rw [returns_bind, returns_raised ht, ok_bind, returns_bind, returns_checkpoint, ok_bind]
  rfl

theorem survives_runTriage (resume : Resume) (hsaved : w.saved = c)
    (hkept : Kept h guard policy str env sink s₀ f steps done c)
    (hasks : (resumeSession c.session).effects = [.runTriage]) :
    Survives h guard policy str env sink s₀ f steps done Goes
      (runEffect h guard policy str resume c .runTriage) w := by
  refine Prog.ensures_bind (Prog.Ensures.weaken (survives_perform (a := .decide c) rfl
    fun _ heq => Action.noConfusion heq) fun verdict w₁ _ _ hverdict => ?_)
  obtain ⟨hverdict, hsaved₁⟩ := hverdict
  refine Prog.ensures_bind (Prog.Ensures.weaken survives_raised fun t w₂ _ _ ht => ?_)
  obtain ⟨ht, hsaved₂⟩ := ht
  have hreturns : returns env (runEffect h guard policy str ⟨none, sink⟩ c .runTriage) =
      .ok (advanced c t.session (some verdict.snapshot), t.effects) := by
    refine (returns_bind (perform (.decide c)) (triaged c)).trans ?_
    rw [returns_perform hverdict, ok_bind]
    exact returns_advance ht _ Transition.effects
  have heffects := triageDecision_effects ht
  exact survives_advance (hsaved₂.trans (hsaved₁.trans hsaved))
    (hkept.next (.triageDecision verdict.toTriageDecision) hasks nofun ht hreturns heffects)
    (Or.inr heffects)

theorem survives_runReasoner (resume : Resume) (hsaved : w.saved = c)
    (hkept : Kept h guard policy str env sink s₀ f steps done c) (hpublishing : Publishing c.session)
    (hasks : (resumeSession c.session).effects = [.runReasoner])
    (hstatus : c.session.status.terminal = false) :
    Survives h guard policy str env sink s₀ f steps done Goes
      (runEffect h guard policy str resume c .runReasoner) w := by
  have hreturns : returns env (runEffect h guard policy str ⟨none, sink⟩ c .runReasoner) =
      returns env (analyzed h guard c (env.analyze c)) :=
    returns_bind (attempt (.analyze c)) (analyzed h guard c)
  refine Prog.ensures_bind (Prog.Ensures.weaken (survives_attempt (a := .analyze c) rfl
    fun _ heq => Action.noConfusion heq) fun r w₁ _ _ hr => ?_)
  obtain ⟨hr, hsaved₁⟩ := hr
  have hanalyze : env.analyze c = r := hr.symm
  rw [hanalyze] at hreturns
  cases r with
  | error error =>
    cases error with
    | infrastructure message =>
      exact survives_failed (hsaved₁.trans hsaved) hkept hpublishing hasks nofun hstatus hreturns
    | other message => exact Prog.ensures_throw
  | ok decision =>
    refine Prog.ensures_bind (Prog.Ensures.weaken survives_raised fun t w₂ _ _ ht => ?_)
    obtain ⟨ht, hsaved₂⟩ := ht
    have hadvance := hreturns.trans (returns_advance ht c.snapshot Transition.effects)
    have heffects := analysisDecision_effects ht
    exact survives_advance (hsaved₂.trans (hsaved₁.trans hsaved))
      (hkept.next (.analysisDecision decision) hasks nofun ht hadvance heffects)
      (Or.inr heffects)

/-- The publication of a report, told or failed, is the last that is asked for. -/
theorem survives_acknowledge (command : Command) (hsaved : w.saved = c)
    (hkept : Kept h guard policy str env sink s₀ f steps done c)
    (hasks : (resumeSession c.session).effects = [.publishReport])
    (hlast : ∀ t, step h guard c.session command = .ok t → (resumeSession t.session).effects = [])
    (hreturns : ∀ t, step h guard c.session command = .ok t →
      returns env (runEffect h guard policy str ⟨none, sink⟩ c .publishReport) =
        .ok (advanced c t.session c.snapshot, [])) :
    Survives h guard policy str env sink s₀ f steps done Goes (do
      let t ← raised (step h guard c.session command)
      return (← checkpoint c t.session c.snapshot, [])) w := by
  refine Prog.ensures_bind (Prog.Ensures.weaken survives_raised fun t w₁ _ _ ht => ?_)
  obtain ⟨ht, hsaved₁⟩ := ht
  exact survives_advance (hsaved₁.trans hsaved)
    (hkept.next command hasks nofun ht (hreturns t ht) (hlast t ht).symm) (Or.inl rfl)

theorem reportPublished_last {artifact : Option ArtifactRef} (ht : recordReportPublished s artifact = .ok t) :
    (resumeSession t.session).effects = [] := by
  rw [← reportPublished_effects ht]
  obtain ⟨-, ⟨-, rfl⟩ | ⟨-, rfl⟩⟩ := reportPublished_cases ht <;> rfl

theorem reportPublicationFailed_last {reason : String} (ht : recordReportPublicationFailed s reason = .ok t) :
    (resumeSession t.session).effects = [] := by
  rw [← reportPublicationFailed_effects ht]
  obtain ⟨-, ⟨-, rfl⟩ | ⟨-, rfl⟩⟩ := reportPublicationFailed_cases ht <;> rfl

theorem survives_published {r : Except PortError Unit} (hsaved : w.saved = c)
    (hkept : Kept h guard policy str env sink s₀ f steps done c)
    (hasks : (resumeSession c.session).effects = [.publishReport])
    (hreturns : returns env (runEffect h guard policy str ⟨none, sink⟩ c .publishReport) =
      returns env (published policy c r)) :
    Survives h guard policy str env sink s₀ f steps done Goes (published policy c r) w := by
  cases r with
  | error error =>
    cases error with
    | infrastructure message =>
      exact survives_acknowledge (.reportPublicationFailed message) hsaved hkept hasks
        (fun t ht => reportPublicationFailed_last ht)
        fun t ht => hreturns.trans (returns_advance ht _ fun _ => [])
    | other message => exact Prog.ensures_throw
  | ok =>
    refine Prog.ensures_bind (Prog.Ensures.weaken survives_raised fun t w₁ _ _ ht => ?_)
    obtain ⟨ht, hsaved₁⟩ := ht
    refine Prog.ensures_bind (Prog.Ensures.weaken (survives_recordEach _) fun _ w₂ _ _ hsaved₂ => ?_)
    refine survives_advance (hsaved₂.trans (hsaved₁.trans hsaved))
      (hkept.next (.reportPublished none) hasks nofun ht (hreturns.trans ?_)
        (reportPublished_last ht).symm) (Or.inl rfl)
    refine (returns_bind _ _).trans ?_
    rw [returns_raised ht, ok_bind, returns_bind, returns_recordEach, ok_bind, returns_bind,
      returns_checkpoint, ok_bind]
    rfl

theorem survives_publishReport (deadlineMs : Option ℤ) (hsaved : w.saved = c)
    (hkept : Kept h guard policy str env sink s₀ f steps done c)
    (hasks : (resumeSession c.session).effects = [.publishReport]) :
    Survives h guard policy str env sink s₀ f steps done Goes
      (runEffect h guard policy str ⟨deadlineMs, sink⟩ c .publishReport) w := by
  refine Prog.ensures_bind (Prog.Ensures.weaken survives_raised fun _ w₁ _ _ hreportable => ?_)
  obtain ⟨hreportable, hsaved₁⟩ := hreportable
  have hreturns : returns env (runEffect h guard policy str ⟨none, sink⟩ c .publishReport) =
      returns env (if sink then do published policy c (← attempt (.publish c)) else acknowledged c) := by
    refine (returns_bind (raised (checkReportable c.session)) _).trans ?_
    rw [returns_raised hreportable, ok_bind]
  dsimp only
  cases sink with
  | true =>
    rw [if_pos rfl] at hreturns ⊢
    have hpublished := hreturns.trans (returns_bind (attempt (.publish c)) (published policy c))
    rw [returns_attempt, ok_bind] at hpublished
    refine Prog.ensures_bind (Prog.Ensures.weaken (survives_attempt (a := .publish c) rfl
      fun _ heq => Action.noConfusion heq) fun r w₂ _ _ hr => ?_)
    obtain ⟨rfl, hsaved₂⟩ := hr
    exact survives_published (hsaved₂.trans (hsaved₁.trans hsaved)) hkept hasks hpublished
  | false =>
    rw [if_neg (by decide)] at hreturns ⊢
    exact survives_acknowledge (.reportPublished none) (hsaved₁.trans hsaved) hkept hasks
      (fun t ht => reportPublished_last ht)
      fun t ht => hreturns.trans (returns_advance ht _ fun _ => [])

/-! ### Experiments -/

section Experiments

variable (hideal : h.Ideal) (hs : Reachable h guard s₀.session)
  (haccepts : Accepts h guard env s₀.session)

include hideal hs in
theorem Kept.inv (hkept : Kept h guard policy str env sink s₀ f steps done c) : Inv h c.session :=
  reachable_inv hideal (hkept.leads.reachable hs)

include hs in
theorem Kept.publishing (hkept : Kept h guard policy str env sink s₀ f steps done c) :
    Publishing c.session :=
  reachable_publishing (hkept.leads.reachable hs)

theorem resumeSession_waits (hwaits : s.status.WaitsForExperiments) :
    (resumeSession s).effects = [.submitExperiments s.pendingExperiments] := by
  unfold resumeSession
  rcases hwaits with hwait | hwait <;> rw [hwait]

theorem not_terminal_of_waits {status : SessionStatus} (hwaits : status.WaitsForExperiments) :
    status.terminal = false := by
  rcases hwaits with rfl | rfl <;> rfl

/-- The first experiment of a batch that nothing stops. -/
theorem returns_batch (spec : ExperimentSpec) (rest : List ExperimentSpec) :
    returns env (runEffect h guard policy str ⟨none, sink⟩ c (.submitExperiments (spec :: rest))) =
      returns env (executed str c
        (fun next generated => runExperimentBatch str ⟨none, sink⟩ next generated rest)
        (env.execute spec)) :=
  (returns_bind (expired ⟨none, sink⟩) _).trans (returns_bind (attempt (.execute spec)) _)

include hideal hs haccepts in
/-- The rest of a batch, when it is all that is pending. -/
theorem survives_batch (deadlineMs : Option ℤ) (experiments : List ExperimentSpec) (hsaved : w.saved = c)
    (hkept : Kept h guard policy str env sink s₀ f steps done c)
    (hpending : c.session.pendingExperiments = experiments)
    (hwaits : c.session.status.WaitsForExperiments) :
    Survives h guard policy str env sink s₀ f steps done Goes
      (runExperimentBatch str ⟨deadlineMs, sink⟩ c [] experiments) w := by
  induction experiments generalizing c w with
  | nil =>
    refine Prog.ensures_pure ?_
    rintro w₁ rfl -
    exact ⟨hsaved, Or.inl rfl⟩
  | cons spec rest ih =>
    have hinv := hkept.inv hideal hs
    have hpublishing := hkept.publishing hs
    have hasks := resumeSession_waits hwaits
    rw [hpending] at hasks
    have hspec : spec ∈ c.session.pendingExperiments := by
      rw [hpending]
      exact List.mem_cons_self
    have hundone : spec.experimentId ∉ done := fun hdone =>
      hinv.disjoint _ (List.mem_map_of_mem hspec) (hkept.completed hdone)
    refine Prog.ensures_bind (Prog.Ensures.weaken (survives_expired _) fun late w₁ _ _ hsaved₁ => ?_)
    split
    · refine Prog.ensures_pure ?_
      rintro w₂ rfl -
      exact ⟨hsaved₁.trans hsaved, Or.inl rfl⟩
    refine Prog.ensures_bind (Prog.Ensures.weaken (survives_attempt (a := .execute spec) rfl
      fun _ heq => Action.execute.inj heq ▸ hundone) fun r w₂ _ _ hr => ?_)
    obtain ⟨hr, hsaved₂⟩ := hr
    have hsaved₂ := hsaved₂.trans (hsaved₁.trans hsaved)
    have hexecute : env.execute spec = r := hr.symm
    have hreturns : returns env (runEffect h guard policy str ⟨none, sink⟩ c
        (.submitExperiments (spec :: rest))) = returns env (executed str c
          (fun next generated => runExperimentBatch str ⟨none, sink⟩ next generated rest) r) := by
      rw [← hexecute]
      exact returns_batch spec rest
    cases r with
    | error error =>
      cases error with
      | infrastructure message =>
        exact survives_failed hsaved₂ hkept hpublishing hasks nofun (not_terminal_of_waits hwaits) hreturns
      | other message => exact Prog.ensures_throw
    | ok result =>
      obtain ⟨hnew, t, ht⟩ := haccepts _ hkept.leads spec hspec result hexecute
      have hid := haccepts.id hkept.leads hspec hexecute
      have hafter := experimentResult_batch hpublishing hinv hpending hid hnew ht
      have hreturns' : returns env (runEffect h guard policy str ⟨none, sink⟩ c
          (.submitExperiments (spec :: rest))) =
          returns env (runExperimentBatch str ⟨none, sink⟩ (advanced c t.session c.snapshot) t.effects rest) := by
        refine hreturns.trans ?_
        simp only [executed, ht]
        refine (returns_bind _ _).trans ?_
        rw [returns_checkpoint, ok_bind]
      simp only [executed, ht, List.nil_append]
      rcases hafter with ⟨rfl, heffects⟩ | ⟨hne, heffects, hrest, hstatus⟩
      · have hnext := hkept.next (.experimentResult result) hasks nofun ht hreturns' heffects
        refine Prog.ensures_bind (Prog.Ensures.weaken (survives_checkpoint hsaved₂ hnext)
          fun next w₃ _ _ hsaved₃ => ?_)
        obtain ⟨rfl, hsaved₃⟩ := hsaved₃
        refine Prog.ensures_pure ?_
        rintro w₄ rfl -
        refine ⟨hsaved₃, Or.inr ?_⟩
        rw [advanced_session]
        exact heffects
      · have hwaits' : (advanced c t.session c.snapshot).session.status.WaitsForExperiments := by
          rw [advanced_session, hstatus]
          exact hwaits
        have hpending' : (advanced c t.session c.snapshot).session.pendingExperiments = rest := by
          rw [advanced_session, hrest]
        have hasks' := resumeSession_waits hwaits'
        rw [hpending'] at hasks'
        rw [heffects] at hreturns' ⊢
        have hnext : Kept h guard policy str env sink s₀ f steps done (advanced c t.session c.snapshot) := by
          refine ⟨?_, ?_, ?_⟩
          · rw [advanced_session]
            exact hkept.leads.step (c := .experimentResult result) ht
          · rw [← uninterrupted_congr hasks nofun hasks' nofun hreturns']
            exact hkept.ends
          · rw [advanced_session]
            have hstep : step h guard c.session (.experimentResult result) = .ok t := ht
            exact List.Subset.trans hkept.completed (step_completed_subset hstep)
        refine Prog.ensures_bind (Prog.Ensures.weaken (survives_checkpoint hsaved₂ hnext)
          fun next w₃ _ _ hsaved₃ => ?_)
        obtain ⟨rfl, hsaved₃⟩ := hsaved₃
        exact ih hsaved₃ hnext hpending' hwaits'

include hideal hs haccepts in
theorem survives_runEffect (deadlineMs : Option ℤ) (hsaved : w.saved = c)
    (hkept : Kept h guard policy str env sink s₀ f steps done c)
    (hasks : (resumeSession c.session).effects = [e]) (he : e ≠ .createChildSessions) :
    Survives h guard policy str env sink s₀ f steps done Goes
      (runEffect h guard policy str ⟨deadlineMs, sink⟩ c e) w := by
  have hbatch : c.session.status.WaitsForExperiments → Survives h guard policy str env sink s₀ f steps done
      Goes (runEffect h guard policy str ⟨deadlineMs, sink⟩ c e) w := fun hwaits => by
    obtain rfl := List.singleton_inj.mp ((resumeSession_waits hwaits).symm.trans hasks)
    exact survives_batch hideal hs haccepts deadlineMs _ hsaved hkept rfl hwaits
  cases hstatus : c.session.status with
  | waitingInitial => exact hbatch (Or.inl hstatus)
  | waitingFollowup => exact hbatch (Or.inr hstatus)
  | waitingTriage =>
    have hasks' := hasks
    rw [resumeSession, hstatus] at hasks'
    obtain rfl := List.singleton_inj.mp hasks'
    exact survives_runTriage _ hsaved hkept hasks
  | waitingReasoner =>
    have hasks' := hasks
    rw [resumeSession, hstatus] at hasks'
    obtain rfl := List.singleton_inj.mp hasks'
    exact survives_runReasoner _ hsaved hkept (hkept.publishing hs) hasks (by rw [hstatus]; rfl)
  | waitingChildren =>
    rw [resumeSession, hstatus] at hasks
    exact absurd (List.singleton_inj.mp hasks).symm he
  | completed | inconclusive | failed =>
    have hasks' := hasks
    rw [resumeSession, hstatus] at hasks'
    dsimp only at hasks'
    split at hasks'
    · obtain rfl := List.singleton_inj.mp hasks'
      exact survives_publishReport deadlineMs hsaved hkept hasks
    · exact absurd hasks'.symm (List.cons_ne_nil e [])

include hideal hs haccepts in
/-- The loop, wherever it is stopped. -/
theorem survives_drive (deadlineMs : Option ℤ) (left : ℕ) {effects : List SessionEffect}
    (hsaved : w.saved = c) (hkept : Kept h guard policy str env sink s₀ f steps done c)
    (heffects : effects = [] ∨ effects = (resumeSession c.session).effects) :
    Survives h guard policy str env sink s₀ f steps done (fun _ _ => True)
      (drive h guard policy str ⟨deadlineMs, sink⟩ left c effects) w := by
  induction left generalizing c effects w with
  | zero =>
    cases effects with
    | nil => exact Prog.ensures_pure fun _ _ _ => trivial
    | cons e effects => exact Prog.ensures_throw
  | succ left ih =>
    cases effects with
    | nil => exact Prog.ensures_pure fun _ _ _ => trivial
    | cons e effects =>
      have hall := heffects.resolve_left (List.cons_ne_nil e effects)
      have hsingle := resumeSession_single c.session
      rw [← hall] at hsingle
      obtain rfl : effects = [] := List.length_eq_zero_iff.mp (Nat.le_zero.mp (Nat.le_of_succ_le_succ hsingle))
      by_cases he : e = .createChildSessions
      · rw [drive, if_pos he]
        exact Prog.ensures_pure fun _ _ _ => trivial
      · rw [drive, if_neg he]
        refine Prog.ensures_bind (Prog.Ensures.weaken (survives_expired _) fun late w₁ _ _ hsaved₁ => ?_)
        split
        · exact Prog.ensures_pure fun _ _ _ => trivial
        · refine Prog.ensures_bind (Prog.Ensures.weaken (survives_runEffect hideal hs haccepts deadlineMs
            (hsaved₁.trans hsaved) hkept hall.symm he) fun r w₂ _ hinv hr => ?_)
          obtain ⟨hsaved₂, hgenerated⟩ := hr
          have hkept₂ := hinv.1
          rw [hsaved₂] at hkept₂
          exact ih hsaved₂ hkept₂ hgenerated

include hideal hs haccepts in
theorem survives_run {deadlineMs : Option ℤ} {p : Prog interface (Except Fault Stored)}
    (hkept : Kept h guard policy str env sink s₀ f steps done c)
    (hrun : Relation.ReflTransGen (@Prog.Alone interface _ World env.Does)
      (⟨c, []⟩, (resumeLocalSession h guard policy str ⟨deadlineMs, sink⟩ c).run) (w, p)) :
    Kept h guard policy str env sink s₀ f steps done w.saved ∧
      ∀ spec, .executed spec ∈ w.log → spec.experimentId ∉ done := by
  have hstart : (surviving h guard policy str env sink s₀ f steps done).Inv ⟨c, []⟩ :=
    ⟨hkept, fun _ hmem => absurd hmem List.not_mem_nil⟩
  have hdrive := survives_drive hideal hs haccepts deadlineMs 100 (w := ⟨c, []⟩) rfl hkept (Or.inr rfl)
  exact (Prog.holds_alone hstart hdrive hrun).1

end Experiments

end Survives

/-! ### Interruption -/

theorem Environment.does_reply (env : Environment) (w : World) (action : Action) :
    ∃ w', env.Does w action (env.reply action) w' := by
  cases action with
  | clock => exact ⟨_, .clock, nofun⟩
  | execute spec => exact ⟨_, .execute, fun _ => rfl⟩
  | analyze s => exact ⟨_, .analyze, fun _ => rfl⟩
  | decide s => exact ⟨_, .decide, fun _ => rfl⟩
  | publish s => exact ⟨_, .publish, fun _ => rfl⟩
  | record b => exact ⟨_, .record, nofun⟩
  | save s => exact ⟨_, .save, nofun⟩

variable (h guard policy str env sink) in
/-- What resuming `u` does, when `f` is what so many steps lead to without interruption. -/
structure Resumes (u f : Stored) (steps : ℕ) : Prop where
  /-- Where it ends, it ends in the same session. -/
  same : ∀ g, uninterrupted h guard policy str env sink 100 u = .ok g → g = f
  /-- It ends, if no more steps are needed than it has. -/
  ends : steps ≤ 100 → ∃ w, Relation.ReflTransGen (@Prog.Alone interface _ World env.Does)
    (⟨u, []⟩, (resumeLocalSession h guard policy str ⟨none, sink⟩ u).run) (w, .done (.ok f))
  /-- No experiment that was saved is executed again. -/
  once : ∀ deadlineMs w p, Relation.ReflTransGen (@Prog.Alone interface _ World env.Does)
    (⟨u, []⟩, (resumeLocalSession h guard policy str ⟨deadlineMs, sink⟩ u).run) (w, p) →
    ∀ spec, .executed spec ∈ w.log → spec.experimentId ∉ u.session.completedExperimentIds

/-- A local session survives interruption, however often and wherever it is stopped. -/
theorem local_session_survives (h : Hashes) (hideal : h.Ideal) (guard : ExperimentGuardPolicy)
    (policy : TriagePolicy) (str : ServiceError → String) (env : Environment) (sink : Bool)
    (s₀ f u : Stored) (steps : ℕ) (hs : Reachable h guard s₀.session)
    (haccepts : Accepts h guard env s₀.session)
    (hfinal : uninterrupted h guard policy str env sink steps s₀ = .ok f)
    (hstops : Relation.ReflTransGen (Stops h guard policy str env sink) s₀ u) :
    Resumes h guard policy str env sink u f steps := by
  have hkept : Kept h guard policy str env sink s₀ f steps [] u := by
    induction hstops with
    | refl => exact ⟨Leads.refl _, hfinal, List.nil_subset _⟩
    | tail _ hstop ih =>
      obtain ⟨deadlineMs, w, p, hrun, rfl⟩ := hstop
      exact (survives_run hideal hs haccepts ih hrun).1
  have hleast : ∀ g, uninterrupted h guard policy str env sink 100 u = .ok g → g = f := by
    intro g hg
    have hmost := uninterrupted_mono (Nat.le_max_left 100 steps) hg
    rw [uninterrupted_mono (Nat.le_max_right 100 steps) hkept.ends] at hmost
    exact (Except.ok.inj hmost).symm
  refine ⟨hleast, fun hsteps => ?_, fun deadlineMs w p hrun => ?_⟩
  · obtain ⟨w, hrun⟩ := Prog.eval_run (I := interface) env.reply env.does_reply
      (resumeLocalSession h guard policy str ⟨none, sink⟩ u).run ⟨u, []⟩
    have hends : Prog.eval (I := interface) env.reply
        (resumeLocalSession h guard policy str ⟨none, sink⟩ u).run = .ok f :=
      uninterrupted_mono hsteps hkept.ends
    rw [hends] at hrun
    exact ⟨w, hrun⟩
  · have hdone : Kept h guard policy str env sink s₀ f steps u.session.completedExperimentIds u :=
      ⟨hkept.leads, hkept.ends, List.Subset.refl _⟩
    exact (survives_run hideal hs haccepts hdone hrun).2

def racecheckEnvironment : Environment where
  execute spec :=
    if spec = initialSanitizer racecheckDigest "s1" vectorAdd "racecheck" then
      .ok (.sanitizer racecheckFinding)
    else .error (.infrastructure "no GPU")
  analyze _ := .error (.infrastructure "no reasoner")
  decide _ := .ok ⟨⟨.finish, "known"⟩, ⟨[], .unknown, [], List.nodup_nil⟩⟩
  publish _ := .ok ()

/-- A crash after the only result was saved. -/
theorem local_session_survives_crash : ∃ s₀ f u,
    Stops racecheckDigest .default .default (fun _ => "") racecheckEnvironment true s₀ u ∧
    u.session.status = .waitingTriage ∧
    Resumes racecheckDigest .default .default (fun _ => "") racecheckEnvironment true u f 3 := by
  obtain ⟨t, ht⟩ : ∃ t, createSession racecheckDigest "s1" vectorAdd SessionBudget.default
      InitialCampaignPolicy.sanitizerOnly [] = .ok t := ⟨_, rfl⟩
  have hs : Reachable racecheckDigest .default t.session := .session ht
  have haccepts : Accepts racecheckDigest .default racecheckEnvironment t.session := by
    refine accepts_of_answers racecheckDigest_ideal hs fun spec result hresult => ?_
    obtain ⟨rfl, hresult⟩ | ⟨-, hresult⟩ := ite_eq_iff.mp hresult
    · cases hresult
      exact ⟨rfl, rfl⟩
    · cases hresult
  let s₀ : Stored := ⟨t.session, none, 0⟩
  obtain ⟨f, hf⟩ : ∃ f, uninterrupted racecheckDigest .default .default (fun _ => "")
      racecheckEnvironment true 3 s₀ = .ok f := by
    cases ht
    exact ⟨_, rfl⟩
  obtain ⟨u, hstop, hstatus⟩ : ∃ u, Stops racecheckDigest .default .default (fun _ => "")
      racecheckEnvironment true s₀ u ∧ u.session.status = .waitingTriage := by
    cases ht
    exact ⟨_, ⟨none, _, _, .head (.act ⟨.execute, fun _ => rfl⟩)
      (.head (.act ⟨@Does.save _ _ (.ok ()), fun hanswered => nomatch hanswered⟩) .refl), rfl⟩, rfl⟩
  exact ⟨s₀, f, u, hstop, hstatus, local_session_survives racecheckDigest racecheckDigest_ideal .default
    .default (fun _ => "") racecheckEnvironment true s₀ f u 3 hs haccepts hf (.single hstop)⟩

end CuTracer.Service.Runner
