import CuTracer.Service.Distributed
import CuTracer.Service.Runner

/-! A delivered diagnosis and its baselines. A driver that publishes to a sink records the
baselines of a report after it was delivered and before it is acknowledged; one without a sink
acknowledges the report and records nothing. -/

namespace CuTracer.Service

/-! ### Milestones -/

/-- What the drivers of a session do with its report and its baselines. -/
inductive Milestone where
  | delivered (s : Stored)
  | recorded (b : ScopeBaseline) (succeeded : Bool)
  | stored (s : Stored)

/-- The baseline of a scope has the keys that its snapshot observed, added and left unchanged. -/
structure ScopeTriageSnapshot.RecordedBy (s : ScopeTriageSnapshot) (b : ScopeBaseline) : Prop where
  scope : b.scope = s.scope
  keys : b.correlationKeys = sortedSet (s.observedKeys ++ s.newKeys ++ s.unchangedKeys)

/-- A milestone comes after what it needs: a delivered diagnosis is stored after a baseline of
every complete scope was recorded, and a baseline is recorded after the report was delivered. -/
def Milestone.Follows (policy : TriagePolicy) (before : List Milestone) : Milestone → Prop
  | .delivered _ => True
  | .recorded b _ => ∃ s artifact t, .delivered s ∈ before ∧
      recordReportPublished s.session artifact = .ok t ∧
      b ∈ publishedBaselines policy { s with session := t.session }
  | .stored s => s.session.delivered = true → ∀ snapshot, s.snapshot = some snapshot →
      ∀ scope ∈ snapshot.scopes, scope.completeness = .complete →
        ∃ b, .recorded b true ∈ before ∧ scope.RecordedBy b

/-- Every milestone of a run follows what it needs. -/
def Advances (policy : TriagePolicy) (ms : List Milestone) : Prop :=
  ∀ before m after, ms = before ++ m :: after → m.Follows policy before

variable {h : Hashes} {guard : ExperimentGuardPolicy} {policy : TriagePolicy} {ms : List Milestone}

theorem advances_nil : Advances policy [] := fun before m after hms => by simp at hms

theorem Advances.snoc {m : Milestone} (hms : Advances policy ms) (hm : m.Follows policy ms) :
    Advances policy (ms ++ [m]) := by
  intro before m' after hsplit
  induction after using List.reverseRecOn with
  | nil =>
    obtain ⟨rfl, hlast⟩ := List.append_inj' hsplit rfl
    rw [← (List.cons.inj hlast).1]
    exact hm
  | append_singleton rest last _ =>
    rw [← List.cons_append, ← List.append_assoc] at hsplit
    obtain ⟨hfront, -⟩ := List.append_inj' hsplit rfl
    exact hms before m' rest hfront

/-- A step that adds one milestone, or none. -/
theorem Advances.option {m? : Option Milestone} (hms : Advances policy ms)
    (hm : ∀ m ∈ m?, m.Follows policy ms) : Advances policy (ms ++ m?.toList) := by
  cases m? with
  | none =>
    rw [Option.toList_none, List.append_nil]
    exact hms
  | some m => exact hms.snoc (hm m rfl)

/-! ### Baselines -/

theorem delivered_published {s : AnalysisSession} (hdelivered : s.delivered = true) :
    s.reportPublication = .published := by
  simp only [AnalysisSession.delivered, Bool.and_eq_true, decide_eq_true_eq] at hdelivered
  exact hdelivered.1.1.2

structure TriagePolicy.Records (policy : TriagePolicy) : Prop where
  baselines : policy.baselines = true
  record : policy.recordBaselines = true

/-- The baselines of a delivered diagnosis are those of its complete scopes. -/
theorem publishedBaselines_complete (hrecords : policy.Records) {s : Stored}
    (hdelivered : s.session.delivered = true) {snapshot : TriageSnapshot}
    (hsnapshot : s.snapshot = some snapshot) {scope : ScopeTriageSnapshot} (hscope : scope ∈ snapshot.scopes)
    (hcomplete : scope.completeness = .complete) :
    ∃ b ∈ publishedBaselines policy s, scope.RecordedBy b := by
  obtain ⟨today, htoday⟩ :=
    Option.isSome_iff_exists.mp (policy.records_dated hrecords.record hrecords.baselines)
  have hbaseline : scope.baseline s.session.unit.sourceRevision today = some ⟨scope.scope,
      sortedSet (scope.observedKeys ++ scope.newKeys ++ scope.unchangedKeys),
      s.session.unit.sourceRevision, today⟩ := if_pos (decide_eq_true hcomplete)
  refine ⟨⟨scope.scope, sortedSet (scope.observedKeys ++ scope.newKeys ++ scope.unchangedKeys),
    s.session.unit.sourceRevision, today⟩, ?_, ⟨rfl, rfl⟩⟩
  rw [publishedBaselines, hrecords.baselines, hrecords.record, hdelivered, htoday, hsnapshot]
  exact List.mem_filterMap.mpr ⟨scope, hscope, hbaseline⟩

/-! ### Coordinators -/

/-- What a coordinator's event is in the course of a report. -/
def Event.milestone? : Event → Option Milestone
  | .wrote w => some (.stored w.after)
  | .called (.publish s) true => some (.delivered s)
  | .called (.record b) succeeded => some (.recorded b succeeded)
  | .called _ _ => none

def milestones (log : List Event) : List Milestone := log.filterMap Event.milestone?

section Coordinators

variable {callbacks : List Callback} {s₀ s u : Stored} {log : List Event} {w : Write}

theorem milestones_append (log : List Event) (e : Event) :
    milestones (log ++ [e]) = milestones log ++ e.milestone?.toList := by
  rw [milestones, List.filterMap_append, List.filterMap_cons, List.filterMap_nil]
  cases e.milestone? <;> rfl

theorem delivered_mem (hcalled : .called (.publish s) true ∈ log) : .delivered s ∈ milestones log :=
  List.mem_filterMap.mpr ⟨_, hcalled, rfl⟩

theorem recorded_mem {b : ScopeBaseline} (hcalled : .called (.record b) true ∈ log) :
    .recorded b true ∈ milestones log :=
  List.mem_filterMap.mpr ⟨_, hcalled, rfl⟩

/-- A report that is still to be published is that of the session that is stored now, or that
session has dealt with it. -/
structure Current (s u : Stored) : Prop where
  publishing : Publishing u.session
  pending : u.session.reportPublication = .pending →
    u = s ∨ s.session.status.reported = true ∧ s.session.reportPublication ≠ .pending

theorem Write.Applied.changed (happlied : w.Applied h guard) : ∃ t,
    Service.step h guard w.before.session w.label.command = .ok t ∧ t.session = w.after.session ∧
      t ≠ ⟨w.before.session, []⟩ := by
  obtain ⟨t, ht, hafter, hchanged⟩ := happlied.step
  refine ⟨t, ht, hafter, ?_⟩
  rintro rfl
  simp at hchanged

theorem Current.write (happlied : w.Applied h guard) (hcurrent : Current w.before u)
    (hbefore : Publishing w.before.session) : Current w.after u := by
  obtain ⟨t, ht, hafter, hchanged⟩ := happlied.changed
  refine ⟨hcurrent.publishing, fun hpending => Or.inr ?_⟩
  have hreported : w.before.session.status.reported = true := by
    rcases hcurrent.pending hpending with rfl | ⟨hreported, -⟩
    · exact hbefore (by rw [hpending]; exact nofun)
    · exact hreported
  obtain ⟨-, hreported, hsettled⟩ := (step_reported hreported ht).resolve_left hchanged
  rw [← hafter]
  exact ⟨hreported, hsettled⟩

theorem Legal.current (hs₀ : Publishing s₀.session) (hlegal : Legal h guard policy callbacks s₀ log s) :
    ∀ u ∈ storedIn s₀ log, Current s u := by
  induction hlegal with
  | nil =>
    intro u hu
    rw [List.mem_singleton.mp hu]
    exact ⟨hs₀, fun _ => Or.inl rfl⟩
  | @wrote log w before applied _ _ ih =>
    have hbefore := (ih _ before.stored_mem).publishing
    intro u hu
    rw [storedIn, writes_wrote, List.map_append, ← List.cons_append] at hu
    rcases List.mem_append.mp hu with hold | hnew
    · exact (ih u hold).write applied hbefore
    · obtain ⟨t, ht, hafter, -⟩ := applied.changed
      rw [List.mem_singleton.mp hnew]
      exact ⟨hafter ▸ step_publishing hbefore ht, fun _ => Or.inl rfl⟩
  | called _ _ _ ih =>
    intro u hu
    rw [storedIn, writes_called] at hu
    exact ih u hu

/-- A report is published for a session that is to publish it. -/
theorem Outstanding.pending
    (hout : Outstanding h guard s₀ log u .publishReport) : u.session.reportPublication = .pending := by
  have hasks : SessionEffect.publishReport ∈ (resumeSession u.session).effects := by
    rcases hout.2 with hasks | ⟨w, -, -, t, ht, hafter, hasks⟩
    · exact hasks
    · rcases step_effects ht with hnone | hsame
      · rw [hnone] at hasks
        exact absurd hasks List.not_mem_nil
      · rw [← hafter, ← hsame]
        exact hasks
  unfold resumeSession at hasks
  split at hasks
  all_goals first
    | (split at hasks
       · assumption
       · exact absurd hasks List.not_mem_nil)
    | simp at hasks

theorem publishedBaselines_congr {t : AnalysisSession} (hsession : s.session = t)
    (hsnapshot : s.snapshot = u.snapshot) :
    publishedBaselines policy s = publishedBaselines policy { u with session := t } := by
  rw [publishedBaselines, publishedBaselines, hsession, hsnapshot]

theorem Update.Asks.published {update : Update} {artifact : Option ArtifactRef}
    {snapshot : Option TriageSnapshot} (hasks : update.Asks u (.reportPublished artifact) snapshot) :
    update = .published artifact ∧ snapshot = u.snapshot := by
  cases update with
  | envelope e => exact nomatch hasks.2.1
  | result r => exact nomatch hasks.1
  | decision revision d => exact nomatch hasks.2.1
  | infrastructureFailure revision reason => exact nomatch hasks.2.2.1
  | publicationFailure revision reason => exact nomatch hasks.2.2.1
  | triage =>
    obtain ⟨-, verdict, hcommand, -⟩ := hasks
    exact nomatch hcommand
  | published artifact' =>
    obtain ⟨hcommand, hsnapshot⟩ := hasks
    exact ⟨by rw [Command.reportPublished.inj hcommand], hsnapshot⟩
  | childrenStarted ids => exact nomatch hasks.1

/-- A write after which a report is delivered follows the baselines of the report. -/
theorem Legal.advances_write (hs₀ : Publishing s₀.session)
    (hlegal : Legal h guard policy callbacks s₀ log w.before) (happlied : w.Applied h guard)
    (hready : w.label.update.Ready h guard policy s₀ log)
    (hdelivered : w.after.session.delivered = true) :
    ∀ b ∈ publishedBaselines policy w.after, .called (.record b) true ∈ log := by
  obtain ⟨t, ht, hafter, hchanged⟩ := happlied.changed
  have hpublished := delivered_published hdelivered
  have hpublishing := (hlegal.current hs₀ _ hlegal.stored_mem).publishing
  obtain ⟨hpending, artifact, hcommand⟩ :=
    (step_published hpublishing ht (hafter ▸ hpublished)).resolve_left hchanged
  have hasks := happlied.asks
  rw [hcommand] at hasks
  obtain ⟨hupdate, hsnapshot⟩ := hasks.published
  rw [hupdate] at hready
  obtain ⟨s, t', hout, ht', -, hrecorded⟩ := hready
  -- the session that was published is still stored
  obtain rfl := ((hlegal.current hs₀ s hout.1).pending hout.pending).resolve_right
    fun hsettled => hsettled.2 hpending
  rw [hcommand] at ht
  obtain rfl := Except.ok.inj (ht.symm.trans ht')
  rw [publishedBaselines_congr hafter.symm hsnapshot]
  exact hrecorded

/-- A baseline is recorded for a report that was delivered. -/
theorem Call.Justified.follows {c : Call} {succeeded : Bool} {m : Milestone}
    (hcall : c.Justified h guard policy s₀ log) (hm : m ∈ (Event.called c succeeded).milestone?) :
    m.Follows policy (.stored s₀ :: milestones log) := by
  cases c with
  | record b =>
    obtain ⟨s, artifact, t, -, hcalled, ht, hb⟩ := hcall
    cases hm
    exact ⟨s, artifact, t, List.mem_cons_of_mem _ (delivered_mem hcalled), ht, hb⟩
  | publish s =>
    cases succeeded with
    | true =>
      cases hm
      trivial
    | false => cases hm
  | _ => cases hm

theorem Legal.advances (hrecords : policy.Records) (hs₀ : Publishing s₀.session)
    (hnew : s₀.session.reportPublication ≠ .published)
    (hlegal : Legal h guard policy callbacks s₀ log s) :
    Advances policy (.stored s₀ :: milestones log) := by
  induction hlegal with
  | nil =>
    refine advances_nil.snoc fun hdelivered => ?_
    exact absurd (delivered_published hdelivered) hnew
  | @wrote log w before applied ready _ ih =>
    rw [milestones_append, ← List.cons_append]
    refine ih.snoc fun hdelivered snapshot hsnapshot scope hscope hcomplete => ?_
    obtain ⟨b, hb, hrecorded⟩ := publishedBaselines_complete hrecords hdelivered hsnapshot hscope hcomplete
    refine ⟨b, List.mem_cons_of_mem _ (recorded_mem ?_), hrecorded⟩
    exact before.advances_write hs₀ applied ready hdelivered b hb
  | called before justified succeeded ih =>
    rw [milestones_append, ← List.cons_append]
    exact ih.option fun m hm => justified.follows hm

end Coordinators

/-! ### Local sessions -/

namespace Runner

/-- What an action is in the course of a report. A baseline may have been recorded though its store
raised, and so may a session. -/
def Action.milestone? (action : Action) (reply : Except PortError action.Value) : Option Milestone :=
  match action with
  | .publish s => if reply.isOk then some (.delivered s) else none
  | .record b => some (.recorded b reply.isOk)
  | .save s => some (.stored s)
  | _ => none

/-- The world of a driver, and the milestones of the run so far. -/
structure Course where
  world : World
  milestones : List Milestone

/-- A report that is still to be published, whose baselines are to be recorded once it is. -/
structure Owes (s : Stored) : Prop where
  pending : s.session.reportPublication = .pending
  delivered : { s.session with reportPublication := .published }.delivered = true
  complete : ∃ snapshot, s.snapshot = some snapshot ∧
    ∃ scope ∈ snapshot.scopes, scope.completeness = .complete

/-- Only a driver with a sink acknowledges a report that owes baselines. -/
def Acknowledges (resume : Resume) (w : World) : Action → Prop
  | .save _ => resume.sink = true ∨ ¬ Owes w.saved
  | _ => True

/-- Any driver acknowledges any report. -/
def Unrestricted (_ : Resume) (_ : World) (_ : Action) : Prop := True

section

variable (Allows : Resume → World → Action → Prop) (resume : Resume)

structure Passes (o : Course) (action : Action) (reply : Except PortError action.Value) (o' : Course) :
    Prop where
  does : Does o.world action reply o'.world
  allowed : Allows resume o.world action
  milestones : o'.milestones = o.milestones ++ (action.milestone? reply).toList

variable {Allows resume} in
theorem Does.passes {o : Course} {action : Action} {reply : Except PortError action.Value} {w : World}
    (hdoes : Does o.world action reply w) (hallowed : Allows resume o.world action) :
    Passes Allows resume o action reply ⟨w, o.milestones ++ (action.milestone? reply).toList⟩ :=
  ⟨hdoes, hallowed, rfl⟩

/-- One call resumes the session that was saved last, and stops anywhere. -/
def Lives (h : Hashes) (policy : TriagePolicy) (o o' : Course) : Prop :=
  ∃ guard str resume p, Relation.ReflTransGen (@Prog.Alone interface _ Course (Passes Allows resume))
    (o, (resumeLocalSession h guard policy str resume o.world.saved).run) (o', p)

end

variable (policy) in
/-- A driver alone: every milestone follows what it needs. -/
def advancing : Prog.Rely Course :=
  .alone (fun o => Publishing o.world.saved.session ∧ Advances policy o.milestones)
    (fun o o' => o.milestones <+: o'.milestones) (fun o => List.prefix_refl o.milestones)
    fun _ _ _ => List.IsPrefix.trans

variable (policy) in
abbrev Keeps {α : Type} (resume : Resume) (Q : α → Course → Prop) (p : Program α) (o : Course) : Prop :=
  @Prog.Ensures interface α Fault Course (advancing policy) (Passes Acknowledges resume) Q p o

section Keeps

variable {resume : Resume} {str : ServiceError → String} {o o' : Course} {c : Stored}

theorem Does.saved {w w' : World} {a : Action} {reply : Except PortError a.Value}
    (hdoes : Does w a reply w') (hsave : ∀ s, a ≠ .save s) : w'.saved = w.saved := by
  cases hdoes with
  | save => exact absurd rfl (hsave _)
  | _ => rfl

theorem Does.of_save {w w' : World} {s : Stored} {reply : Except PortError Unit}
    (hdoes : Does w (.save s) reply w') : w'.saved = s ∨ w'.saved = w.saved ∧ reply.isOk = false := by
  cases hdoes with
  | save => exact Or.inl rfl
  | fault => exact Or.inr ⟨rfl, rfl⟩

theorem Passes.later {a : Action} {reply : Except PortError a.Value} {Allows : Resume → World → Action → Prop}
    (hpasses : Passes Allows resume o a reply o') : o.milestones <+: o'.milestones := by
  rw [hpasses.milestones]
  exact List.prefix_append _ _

theorem keeps_attempt {a : Action} (hsave : ∀ s, a ≠ .save s)
    (hfollows : ∀ reply, ∀ m ∈ a.milestone? reply, m.Follows policy o.milestones) :
    Keeps policy resume (fun reply o' => o'.world.saved = o.world.saved ∧
      o'.milestones = o.milestones ++ (a.milestone? reply).toList) (attempt a) o := by
  rintro o₁ rfl ⟨hpublishing, hadvances⟩ reply o₂ hpasses
  have hsaved := hpasses.does.saved hsave
  refine ⟨⟨?_, ?_⟩, hpasses.later, ?_⟩
  · rw [hsaved]
    exact hpublishing
  · rw [hpasses.milestones]
    exact hadvances.option (hfollows reply)
  · rintro o₃ rfl - v hv
    rw [← Except.ok.inj hv]
    exact ⟨hsaved, hpasses.milestones⟩

/-- An action of no concern to the report. -/
theorem follows_none {a : Action} (hnone : ∀ reply, a.milestone? reply = none)
    (reply : Except PortError a.Value) : ∀ m ∈ a.milestone? reply, m.Follows policy ms := by
  intro m hm
  rw [hnone reply] at hm
  exact absurd hm (Option.not_mem_none m)

theorem keeps_perform {a : Action} (hsave : ∀ s, a ≠ .save s)
    (hfollows : ∀ reply, ∀ m ∈ a.milestone? reply, m.Follows policy o.milestones) :
    Keeps policy resume (fun v o' => o'.world.saved = o.world.saved ∧
      o'.milestones = o.milestones ++ (a.milestone? (.ok v)).toList) (perform a) o := by
  refine Prog.ensures_bind (Prog.Ensures.weaken (keeps_attempt hsave hfollows) fun reply o₁ _ _ ho₁ => ?_)
  cases reply with
  | ok v => exact Prog.ensures_pure_alone ho₁
  | error e => exact Prog.ensures_throw

theorem keeps_raised {α : Type} {x : Except ServiceError α} :
    Keeps policy resume (fun a o' => x = .ok a ∧ o' = o) (raised x) o := by
  cases x with
  | ok a => exact Prog.ensures_pure_alone ⟨rfl, rfl⟩
  | error e => exact Prog.ensures_throw

theorem keeps_expired : Keeps policy resume (fun _ o' => o'.world.saved = o.world.saved) (expired resume) o := by
  unfold expired
  split
  · exact Prog.ensures_pure_alone rfl
  · refine Prog.ensures_bind (Prog.Ensures.weaken (keeps_perform (fun _ => Action.noConfusion)
      (follows_none fun _ => rfl)) fun _ o₁ _ _ ho₁ => ?_)
    exact Prog.ensures_pure_alone ho₁.1

variable {snapshot : Option TriageSnapshot}

/-- A session is saved where that follows the run so far, given that it may be acknowledged. -/
theorem keeps_checkpoint {session : AnalysisSession} (hsaved : o.world.saved = c)
    (hpublishing : Publishing session)
    (hfollows : session ≠ c.session → resume.sink = true ∨ ¬ Owes c →
      Milestone.Follows policy o.milestones (.stored ⟨session, snapshot, c.revision + 1⟩)) :
    Keeps policy resume (fun next o' => o'.world.saved = next) (checkpoint c session snapshot) o := by
  unfold checkpoint
  split
  · exact Prog.ensures_pure_alone hsaved
  · rename_i hchanged
    refine Prog.ensures_bind (Prog.ensures_bind ?_)
    rintro o₁ rfl ⟨hbefore, hadvances⟩ reply o₂ hpasses
    have hallowed : resume.sink = true ∨ ¬ Owes c := hsaved ▸ hpasses.allowed
    have hnext : Advances policy o₂.milestones := by
      rw [hpasses.milestones]
      exact hadvances.snoc (hfollows hchanged hallowed)
    rcases hpasses.does.of_save with hsaved₂ | ⟨hsaved₂, hfault⟩
    · refine ⟨⟨?_, hnext⟩, hpasses.later, ?_⟩
      · rw [hsaved₂]
        exact hpublishing
      · rintro o₃ rfl - v hv
        rw [← Except.ok.inj hv]
        cases reply with
        | ok v => exact Prog.ensures_pure_alone (Prog.ensures_pure_alone hsaved₂)
        | error e => exact Prog.ensures_throw
    · refine ⟨⟨?_, hnext⟩, hpasses.later, ?_⟩
      · rw [hsaved₂]
        exact hbefore
      · rintro o₃ rfl - v hv
        rw [← Except.ok.inj hv]
        cases reply with
        | ok v => exact nomatch hfault
        | error e => exact Prog.ensures_throw

def Saved (r : Stored × List SessionEffect) (o : Course) : Prop := o.world.saved = r.1

theorem keeps_saved {session : AnalysisSession} (generated : List SessionEffect)
    (hsaved : o.world.saved = c) (hpublishing : Publishing session)
    (hfollows : session ≠ c.session → resume.sink = true ∨ ¬ Owes c →
      Milestone.Follows policy o.milestones (.stored ⟨session, snapshot, c.revision + 1⟩)) :
    Keeps policy resume Saved (do return (← checkpoint c session snapshot, generated)) o := by
  refine Prog.ensures_bind (Prog.Ensures.weaken (keeps_checkpoint hsaved hpublishing hfollows)
    fun next o₁ _ _ ho₁ => ?_)
  exact Prog.ensures_pure_alone ho₁

theorem follows_of_step {command : Command} {t : Transition} (hpublishing : Publishing c.session)
    (ht : step h guard c.session command = .ok t)
    (hother : ∀ artifact, command ≠ .reportPublished artifact) (hchanged : t.session ≠ c.session) :
    Milestone.Follows policy ms (.stored ⟨t.session, snapshot, c.revision + 1⟩) := by
  intro hdelivered
  rcases step_published hpublishing ht (delivered_published hdelivered) with rfl | ⟨-, artifact, rfl⟩
  · exact absurd rfl hchanged
  · exact absurd rfl (hother artifact)

theorem keeps_step {command : Command} {t : Transition} (generated : List SessionEffect)
    (hsaved : o.world.saved = c) (hpublishing : Publishing c.session)
    (ht : step h guard c.session command = .ok t)
    (hother : ∀ artifact, command ≠ .reportPublished artifact) :
    Keeps policy resume Saved (do return (← checkpoint c t.session snapshot, generated)) o :=
  keeps_saved generated hsaved (step_publishing hpublishing ht)
    fun hchanged _ => follows_of_step hpublishing ht hother hchanged

section Commands

-- What these commands do does not depend on the hashes or on the guard.
variable (h guard)

include h guard in
theorem keeps_failed {reason : String} (hsaved : o.world.saved = c) (hpublishing : Publishing c.session) :
    Keeps policy resume Saved (failed c reason) o := by
  refine Prog.ensures_bind (Prog.Ensures.weaken keeps_raised fun t o₁ _ _ ht => ?_)
  obtain ⟨ht, rfl⟩ := ht
  have ht : step h guard c.session (.infrastructureFailure reason) = .ok t := ht
  exact keeps_step [] hsaved hpublishing ht fun _ => Command.noConfusion

include h guard in
theorem keeps_executed {next : Stored → List SessionEffect → Program (Stored × List SessionEffect)}
    (hnext : ∀ u effects o', o'.world.saved = u → Keeps policy resume Saved (next u effects) o')
    (reply : Except PortError ExperimentResult) (hsaved : o.world.saved = c)
    (hpublishing : Publishing c.session) : Keeps policy resume Saved (executed str c next reply) o := by
  unfold executed
  split
  · exact keeps_failed h guard hsaved hpublishing
  · exact Prog.ensures_throw
  · rename_i result
    split
    · exact keeps_failed h guard hsaved hpublishing
    · exact Prog.ensures_throw
    · rename_i t ht
      have ht : step h guard c.session (.experimentResult result) = .ok t := ht
      refine Prog.ensures_bind (Prog.Ensures.weaken (keeps_checkpoint hsaved
        (step_publishing hpublishing ht) fun hchanged _ => follows_of_step hpublishing ht
          (fun _ => Command.noConfusion) hchanged) fun u o₁ _ _ hu => ?_)
      exact hnext u _ o₁ hu

include h guard in
/-- A batch, however far it goes. -/
theorem keeps_batch (effects : List SessionEffect) (experiments : List ExperimentSpec)
    (hsaved : o.world.saved = c) :
    Keeps policy resume Saved (runExperimentBatch str resume c effects experiments) o := by
  induction experiments generalizing c effects o with
  | nil => exact Prog.ensures_pure_alone hsaved
  | cons spec experiments ih =>
    refine Prog.ensures_bind (Prog.Ensures.weaken keeps_expired fun late o₁ _ _ hsaved₁ => ?_)
    split
    · exact Prog.ensures_pure_alone (hsaved₁.trans hsaved)
    · refine Prog.ensures_bind (Prog.Ensures.weaken (keeps_attempt (fun _ => Action.noConfusion)
        (follows_none fun _ => rfl)) fun reply o₂ _ hinv₂ ho₂ => ?_)
      have hsaved₂ : o₂.world.saved = c := ho₂.1.trans (hsaved₁.trans hsaved)
      have hpublishing : Publishing c.session := hsaved₂ ▸ hinv₂.1
      exact keeps_executed h guard (fun u generated o' ho' => ih _ ho') reply hsaved₂ hpublishing

theorem keeps_recordEach {artifact : Option ArtifactRef} {t : Transition} {baselines : List ScopeBaseline}
    (hdelivered : .delivered c ∈ o.milestones) (ht : recordReportPublished c.session artifact = .ok t)
    (hbaselines : ∀ b ∈ baselines, b ∈ publishedBaselines policy { c with session := t.session }) :
    Keeps policy resume (fun _ o' => o'.world.saved = o.world.saved ∧
      ∀ b ∈ baselines, .recorded b true ∈ o'.milestones) (recordEach baselines) o := by
  induction baselines generalizing o with
  | nil => exact Prog.ensures_pure_alone ⟨rfl, fun _ hb => absurd hb List.not_mem_nil⟩
  | cons b baselines ih =>
    have hfollows : ∀ reply, ∀ m ∈ (Action.record b).milestone? reply, m.Follows policy o.milestones := by
      intro reply m hm
      cases hm
      exact ⟨c, artifact, t, hdelivered, ht, hbaselines b List.mem_cons_self⟩
    refine Prog.ensures_bind (Prog.Ensures.weaken (keeps_perform (fun _ => Action.noConfusion) hfollows)
      fun _ o₁ hlater₁ _ ho₁ => ?_)
    obtain ⟨hsaved₁, hms₁⟩ := ho₁
    refine Prog.Ensures.weaken (ih (hlater₁.subset hdelivered)
      fun b' hb' => hbaselines b' (List.mem_cons_of_mem _ hb')) fun _ o₂ hlater₂ _ ho₂ => ?_
    refine ⟨ho₂.1.trans hsaved₁, fun b' hb' => ?_⟩
    rcases List.mem_cons.mp hb' with rfl | hrest
    · refine hlater₂.subset ?_
      rw [hms₁]
      exact List.mem_append_right _ (List.mem_singleton_self _)
    · exact ho₂.2 b' hrest

include h guard in
theorem keeps_published (hrecords : policy.Records) (reply : Except PortError Unit)
    (hsaved : o.world.saved = c) (hpublishing : Publishing c.session)
    (hdelivered : reply.isOk = true → .delivered c ∈ o.milestones) :
    Keeps policy resume Saved (published policy c reply) o := by
  unfold published
  split
  · refine Prog.ensures_bind (Prog.Ensures.weaken keeps_raised fun t o₁ _ _ ht => ?_)
    obtain ⟨ht, rfl⟩ := ht
    have ht : step h guard c.session (.reportPublicationFailed _) = .ok t := ht
    exact keeps_step [] hsaved hpublishing ht fun _ => Command.noConfusion
  · exact Prog.ensures_throw
  · refine Prog.ensures_bind (Prog.Ensures.weaken keeps_raised fun t o₁ _ _ ht => ?_)
    obtain ⟨ht, rfl⟩ := ht
    refine Prog.ensures_bind (Prog.Ensures.weaken (keeps_recordEach (hdelivered rfl) ht fun _ hb => hb)
      fun _ o₂ _ _ ho₂ => ?_)
    obtain ⟨hsaved₂, hrecorded⟩ := ho₂
    have ht' : step h guard c.session (.reportPublished none) = .ok t := ht
    refine keeps_saved [] (hsaved₂.trans hsaved) (step_publishing hpublishing ht') fun _ _ => ?_
    intro hdone snapshot hsnapshot scope hscope hcomplete
    obtain ⟨b, hb, hscope⟩ := publishedBaselines_complete hrecords hdone hsnapshot hscope hcomplete
    exact ⟨b, hrecorded b hb, hscope⟩

include h guard in
/-- A report that owes nothing may be acknowledged. -/
theorem keeps_acknowledged (hsaved : o.world.saved = c) (hpublishing : Publishing c.session)
    (hsink : resume.sink = false) : Keeps policy resume Saved (acknowledged c) o := by
  refine Prog.ensures_bind (Prog.Ensures.weaken keeps_raised fun t o₁ _ _ ht => ?_)
  obtain ⟨ht, rfl⟩ := ht
  have ht' : step h guard c.session (.reportPublished none) = .ok t := ht
  refine keeps_saved [] hsaved (step_publishing hpublishing ht') fun hchanged hallowed => ?_
  have howes : ¬ Owes c := hallowed.resolve_left (by rw [hsink]; exact Bool.false_ne_true)
  intro hdone snapshot hsnapshot scope hscope hcomplete
  obtain ⟨-, ⟨-, rfl⟩ | ⟨hpending, rfl⟩⟩ := reportPublished_cases ht
  · exact absurd rfl hchanged
  · exact absurd ⟨hpending, hdone, snapshot, hsnapshot, scope, hscope, hcomplete⟩ howes

include h guard in
theorem keeps_publishReport (hrecords : policy.Records) (hsaved : o.world.saved = c)
    (hpublishing : Publishing c.session) :
    Keeps policy resume Saved (publishReport policy resume c) o := by
  refine Prog.ensures_bind (Prog.Ensures.weaken keeps_raised fun _ o₁ _ _ ho₁ => ?_)
  obtain ⟨-, rfl⟩ := ho₁
  split
  · have hfollows : ∀ reply, ∀ m ∈ (Action.publish c).milestone? reply, m.Follows policy o₁.milestones := by
      intro reply m hm
      cases reply with
      | ok a =>
        cases hm
        trivial
      | error e => exact absurd hm (Option.not_mem_none m)
    refine Prog.ensures_bind (Prog.Ensures.weaken (keeps_attempt (fun _ => Action.noConfusion) hfollows)
      fun reply o₂ _ _ ho₂ => ?_)
    refine keeps_published h guard hrecords reply (ho₂.1.trans hsaved) hpublishing fun hok => ?_
    have hnoted : (Action.publish c).milestone? reply = some (.delivered c) := if_pos hok
    rw [ho₂.2, hnoted]
    exact List.mem_append_right _ (List.mem_singleton_self _)
  · rename_i hsink
    exact keeps_acknowledged h guard hsaved hpublishing (Bool.eq_false_iff.mpr hsink)

end Commands

theorem keeps_runEffect (hrecords : policy.Records) (effect : SessionEffect) (hsaved : o.world.saved = c)
    (hpublishing : Publishing c.session) :
    Keeps policy resume Saved (runEffect h guard policy str resume c effect) o := by
  cases effect with
  | runTriage =>
    refine Prog.ensures_bind (Prog.Ensures.weaken (keeps_perform (fun _ => Action.noConfusion)
      (follows_none fun _ => rfl)) fun verdict o₁ _ _ ho₁ => ?_)
    refine Prog.ensures_bind (Prog.Ensures.weaken keeps_raised fun t o₂ _ _ ht => ?_)
    obtain ⟨ht, rfl⟩ := ht
    have ht : step h guard c.session (.triageDecision _) = .ok t := ht
    exact keeps_step t.effects (ho₁.1.trans hsaved) hpublishing ht fun _ => Command.noConfusion
  | submitExperiments experiments => exact keeps_batch h guard [] experiments hsaved
  | runReasoner =>
    refine Prog.ensures_bind (Prog.Ensures.weaken (keeps_attempt (fun _ => Action.noConfusion)
      (follows_none fun _ => rfl)) fun reply o₁ _ _ ho₁ => ?_)
    unfold analyzed
    split
    · exact keeps_failed h guard (ho₁.1.trans hsaved) hpublishing
    · exact Prog.ensures_throw
    · refine Prog.ensures_bind (Prog.Ensures.weaken keeps_raised fun t o₂ _ _ ht => ?_)
      obtain ⟨ht, rfl⟩ := ht
      have ht : step h guard c.session (.analysisDecision _) = .ok t := ht
      exact keeps_step t.effects (ho₁.1.trans hsaved) hpublishing ht fun _ => Command.noConfusion
  | publishReport => exact keeps_publishReport h guard hrecords hsaved hpublishing
  | createChildSessions => exact Prog.ensures_throw

/-- The loop, wherever it is stopped. -/
theorem keeps_drive (hrecords : policy.Records) (left : ℕ) (effects : List SessionEffect)
    (hsaved : o.world.saved = c) (hpublishing : Publishing c.session) :
    Keeps policy resume (fun _ _ => True) (drive h guard policy str resume left c effects) o := by
  induction left generalizing c effects o with
  | zero =>
    cases effects with
    | nil => exact Prog.ensures_pure_alone trivial
    | cons e effects => exact Prog.ensures_throw
  | succ left ih =>
    cases effects with
    | nil => exact Prog.ensures_pure_alone trivial
    | cons e effects =>
      rw [drive]
      split
      · exact Prog.ensures_pure_alone trivial
      · refine Prog.ensures_bind (Prog.Ensures.weaken keeps_expired fun late o₁ _ _ hsaved₁ => ?_)
        split
        · exact Prog.ensures_pure_alone trivial
        · refine Prog.ensures_bind (Prog.Ensures.weaken
            (keeps_runEffect hrecords e (hsaved₁.trans hsaved) hpublishing) fun r o₂ _ hinv hr => ?_)
          have hpublishing₂ : Publishing r.1.session := hr ▸ hinv.1
          exact ih _ hr hpublishing₂

theorem Lives.keeps (hrecords : policy.Records) (hlives : Lives Acknowledges h policy o o')
    (ho : (advancing policy).Inv o) : (advancing policy).Inv o' := by
  obtain ⟨guard, str, resume, p, hrun⟩ := hlives
  exact (Prog.holds_alone ho (keeps_drive hrecords 100 _ rfl ho.1) hrun).1

theorem lives_keeps (hrecords : policy.Records) {s₀ : Stored} (hcreated : Created h s₀.session)
    (hlives : Relation.ReflTransGen (Lives Acknowledges h policy) ⟨⟨s₀, []⟩, [.stored s₀]⟩ o) :
    (advancing policy).Inv o := by
  induction hlives with
  | refl =>
    refine ⟨created_publishing hcreated, advances_nil.snoc fun hdelivered => ?_⟩
    exact absurd (delivered_published hdelivered) (created_not_published hcreated)
  | tail _ hlives ih => exact hlives.keeps hrecords ih

end Keeps

end Runner

/-! ### Both drivers -/

/-- The baselines of a delivered diagnosis advance, of a local session whose reports only a driver
with a sink acknowledges, and of any coordinators. -/
theorem baselines_advance (h : Hashes) (policy : TriagePolicy) (hrecords : policy.Records) (s₀ : Stored)
    (hcreated : Created h s₀.session) :
    (∀ o, Relation.ReflTransGen (Runner.Lives Runner.Acknowledges h policy) ⟨⟨s₀, []⟩, [.stored s₀]⟩ o →
      Advances policy o.milestones) ∧
    ∀ (guard : ExperimentGuardPolicy) (childId : AnalysisSession → KernelId → String) (depth : ℕ)
      (callbacks : List Callback) (final : World) (programs : List Running),
      Relation.ReflTransGen (Prog.Step Does) (⟨s₀, []⟩, callbacks.mapIdx fun i c =>
        (c.run h guard policy childId i depth).run) (final, programs) →
      Advances policy (.stored s₀ :: milestones final.log) := by
  refine ⟨fun o hlives => (Runner.lives_keeps hrecords hcreated hlives).2, ?_⟩
  intro guard childId depth callbacks final programs hrun
  exact (coordinators_legal hrun).1.advances hrecords (created_publishing hcreated)
    (created_not_published hcreated)

def knownBaselines : Baselines := fun scope =>
  some ⟨scope, ["vectorAdd|race-condition"], "r0", ⟨"2026-01-02", by decide +kernel⟩⟩

def knownVerdict : TriageVerdict :=
  decideTriage (fun _ _ => false) recordingPolicy knownBaselines
    { raceSession with
      unit := vectorAdd
      evidence := { EvidenceBundle.empty with sanitizer := [racecheckFinding] } }

def coveredScope : ScopeTriageSnapshot where
  scope := ⟨"t1", "racecheck"⟩
  completeness := .complete
  baselineVerdict := .unchanged
  observedKeys := []
  newKeys := []
  resolvedKeys := []
  unchangedKeys := ["vectorAdd|race-condition"]

theorem knownVerdict_eq : knownVerdict =
    ⟨⟨.finish, "all findings are unchanged since the last complete baseline"⟩,
      ⟨[coveredScope], .unknown, [], List.nodup_singleton _⟩⟩ := rfl

open Runner in
/-- A session of racecheck whose report is delivered, and its one baseline recorded. -/
theorem baselines_advance_recorded : ∃ s₀ o, Advances recordingPolicy o.milestones ∧
    Relation.ReflTransGen (Runner.Lives Runner.Acknowledges racecheckDigest recordingPolicy)
      ⟨⟨s₀, []⟩, [.stored s₀]⟩ o ∧
    o.world.saved.session.delivered = true ∧ ∃ b, .recorded b true ∈ o.milestones := by
  obtain ⟨t, ht⟩ : ∃ t, createSession racecheckDigest "s1" vectorAdd SessionBudget.default
      InitialCampaignPolicy.sanitizerOnly [] = .ok t := ⟨_, rfl⟩
  obtain ⟨o, hlives, hdelivered, hrecorded⟩ : ∃ o : Course,
      Runner.Lives Acknowledges racecheckDigest recordingPolicy
        ⟨⟨⟨t.session, none, 0⟩, []⟩, [.stored ⟨t.session, none, 0⟩]⟩ o ∧
      o.world.saved.session.delivered = true ∧ ∃ b, .recorded b true ∈ o.milestones := by
    cases ht
    refine ⟨_, ⟨.default, fun _ => "", ⟨none, true⟩, _,
      .head (.act ((@Does.execute _ _ (.ok (.sanitizer racecheckFinding))).passes trivial)) <|
      .head (.act ((@Does.save _ _ (.ok ())).passes (Or.inl rfl))) <|
      .head (.act ((@Does.decide _ _ (.ok knownVerdict)).passes trivial)) <|
      .head (.act ((@Does.save _ _ (.ok ())).passes (Or.inl rfl))) <|
      .head (.act ((@Does.publish _ _ (.ok ())).passes trivial)) <|
      .head (.act ((@Does.record _ _ (.ok ())).passes trivial)) <|
      .head (.act ((@Does.save _ _ (.ok ())).passes (Or.inl rfl))) .refl⟩, ?_, ?_⟩
    · rfl
    · exact ⟨_, List.mem_append_left _ (List.mem_append_right _ (List.mem_singleton_self _))⟩
  have hadvance := baselines_advance racecheckDigest recordingPolicy ⟨rfl, rfl⟩ ⟨t.session, none, 0⟩
    (.session ht)
  exact ⟨_, o, hadvance.1 o (.single hlives), .single hlives, hdelivered, hrecorded⟩

open Runner in
/-- Without a sink the report is acknowledged, and no baseline is recorded. -/
theorem not_baselines_advance_without_sink : ¬ ∀ (h : Hashes) (policy : TriagePolicy) (s₀ : Stored)
    (o : Course), policy.Records → Created h s₀.session →
    Relation.ReflTransGen (Lives Unrestricted h policy) ⟨⟨s₀, []⟩, [.stored s₀]⟩ o →
    Advances policy o.milestones := by
  intro hall
  obtain ⟨t, ht⟩ : ∃ t, createSession racecheckDigest "s1" vectorAdd SessionBudget.default
      InitialCampaignPolicy.sanitizerOnly [] = .ok t := ⟨_, rfl⟩
  obtain ⟨o, s₁, s₂, s₃, hlives, hms, hsnapshot, hdelivered⟩ : ∃ (o : Course) (s₁ s₂ s₃ : Stored),
      Lives Unrestricted racecheckDigest recordingPolicy
        ⟨⟨⟨t.session, none, 0⟩, []⟩, [.stored ⟨t.session, none, 0⟩]⟩ o ∧
      o.milestones = [.stored ⟨t.session, none, 0⟩, .stored s₁, .stored s₂] ++ [.stored s₃] ∧
      s₃.snapshot = some knownVerdict.snapshot ∧ s₃.session.delivered = true := by
    cases ht
    refine ⟨_, _, _, _, ⟨.default, fun _ => "", ⟨none, false⟩, _,
      .head (.act ((@Does.execute _ _ (.ok (.sanitizer racecheckFinding))).passes trivial)) <|
      .head (.act ((@Does.save _ _ (.ok ())).passes trivial)) <|
      .head (.act ((@Does.decide _ _ (.ok knownVerdict)).passes trivial)) <|
      .head (.act ((@Does.save _ _ (.ok ())).passes trivial)) <|
      .head (.act ((@Does.save _ _ (.ok ())).passes trivial)) .refl⟩, rfl, rfl, rfl⟩
  have hfollows := hall racecheckDigest recordingPolicy ⟨t.session, none, 0⟩ o ⟨rfl, rfl⟩ (.session ht)
    (.single hlives) _ _ _ hms
  rw [knownVerdict_eq] at hsnapshot
  obtain ⟨b, hb, -⟩ := hfollows hdelivered _ hsnapshot coveredScope (List.mem_singleton_self _) rfl
  simp at hb

end CuTracer.Service
