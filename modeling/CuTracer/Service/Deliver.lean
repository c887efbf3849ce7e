import CuTracer.Service.Lifecycle
import CuTracer.Service.ResultWire

/-! The delivery of results. However the results of a wave of experiments are
ordered and repeated, the session ends with the same experiments, the same status
and one continuation. -/

namespace CuTracer.Service

/-- Deliver results one after another; the effects of each. -/
def deliver (s : AnalysisSession) :
    List ExperimentResult → Except ServiceError (AnalysisSession × List (List SessionEffect))
  | [] => .ok (s, [])
  | r :: rs => do
    let t ← recordExperimentResult s r
    let (s', effects) ← deliver t.session rs
    return (s', t.effects :: effects)

structure Answers (spec : ExperimentSpec) (r : ExperimentResult) : Prop where
  id : r.experimentId = spec.experimentId
  valid : validateResultAgainstSpec spec r = .ok ()

structure Held (s : AnalysisSession) (r : ExperimentResult) : Prop where
  completed : r.experimentId ∈ s.completedExperimentIds
  evidence : r ∈ s.evidence.results

structure Answered (s : AnalysisSession) (wave : List (ExperimentSpec × ExperimentResult)) :
    Prop where
  specs : wave.map Prod.fst = s.pendingExperiments
  answers : ∀ p ∈ wave, Answers p.1 p.2

/-- Every answer arrives at least once, and nothing else does but what was accepted before. -/
structure Delivery (s : AnalysisSession) (answers rs : List ExperimentResult) : Prop where
  all : ∀ r ∈ answers, r ∈ rs
  only : ∀ r ∈ rs, r ∈ answers ∨ Held s r

variable {h : Hashes} {guard : ExperimentGuardPolicy} {s s' : AnalysisSession}
  {spec : ExperimentSpec} {r : ExperimentResult}

/-! ### Checks that pass -/

theorem Core.indexes (hcore : Core h s) : validateSessionResultIndexes s = .ok () := by
  have hoverlap : s.pendingExperimentIds.filter s.completedExperimentIds.contains = [] := by
    refine List.filter_eq_nil_iff.mpr fun id hid hc => ?_
    exact hcore.disjoint id hid (List.contains_iff_mem.mp hc)
  have hforM : ∀ ids : List String, (∀ id ∈ ids, evidenceCount s id = 1) →
      (ids.forM fun id => rejectIf (evidenceCount s id ≠ 1) "session_state_corrupt"
        "completed experiment %s has %d evidence records"
        [id, toString (evidenceCount s id)]) = .ok () := by
    intro ids
    induction ids with
    | nil => exact fun _ => rfl
    | cons id ids ih =>
      intro hone
      show (do
        rejectIf (evidenceCount s id ≠ 1) "session_state_corrupt"
          "completed experiment %s has %d evidence records" [id, toString (evidenceCount s id)]
        ids.forM _) = _
      rw [hone id List.mem_cons_self]
      exact ih fun id' hid' => hone id' (List.mem_cons_of_mem _ hid')
  unfold validateSessionResultIndexes
  rw [decide_eq_true hcore.pending_nodup, decide_eq_true hcore.completed_nodup]
  dsimp only
  rw [hoverlap]
  exact hforM _ hcore.evidence

theorem WorkUnit.same_refl (unit : WorkUnit) : unit.same unit = true := by
  have hkernel : sameKernel unit.kernel unit.kernel = true := by
    cases unit.kernel with
    | none => rfl
    | some kernel => simp [sameKernel, KernelId.same]
  simp [WorkUnit.same, hkernel]

theorem InContext.valid (hcontext : InContext s spec) : validateSpecContext s spec = .ok () := by
  unfold validateSpecContext
  rw [hcontext.unit, WorkUnit.same_refl]
  cases hphase : spec.phase with
  | initial =>
    obtain ⟨hstatus, hspec, hround⟩ := hcontext.initial hphase
    simp only [hcontext.sessionId, hstatus, hspec, hround]
    simp [rejectIf, bind, Except.bind]
  | followup =>
    obtain ⟨hstatus, hspec, hround⟩ := hcontext.followup hphase
    have hbound : ¬ s.roundIndex < 1 := Nat.not_lt.mpr hround
    simp only [hcontext.sessionId, hstatus, hspec, hbound]
    simp [rejectIf, bind, Except.bind]

theorem filter_pending (hnodup : s.pendingExperimentIds.Nodup)
    (hmem : spec ∈ s.pendingExperiments) :
    (s.pendingExperiments.filter fun s => s.experimentId = spec.experimentId) = [spec] := by
  have hperm := (perm_cons_others hnodup hmem).filter fun s => s.experimentId = spec.experimentId
  rw [List.filter_cons, if_pos (by simp), List.filter_filter] at hperm
  have hnone : (s.pendingExperiments.filter fun s =>
      decide (s.experimentId = spec.experimentId) &&
        decide (s.experimentId ≠ spec.experimentId)) = [] :=
    List.filter_eq_nil_iff.mpr fun s _ => by simp
  rw [hnone] at hperm
  exact List.perm_singleton.mp hperm

/-! ### One delivery -/

theorem record_answer (hinv : Inv h s) (hmem : spec ∈ s.pendingExperiments) (hr : Answers spec r) :
    recordExperimentResult s r = continueSession (acceptResult s spec r) spec.phase := by
  have hpending : r.experimentId ∈ s.pendingExperimentIds := by
    rw [hr.id]
    exact List.mem_map_of_mem hmem
  have hfilter : (s.pendingExperiments.filter fun s => s.experimentId = r.experimentId) = [spec] := by
    rw [hr.id]
    exact filter_pending hinv.pending_nodup hmem
  unfold recordExperimentResult
  rw [hinv.toCore.indexes]
  simp only [bind, Except.bind]
  rw [if_neg (hinv.disjoint _ hpending), hfilter]
  simp only [(hinv.context spec hmem).valid, hr.valid]

theorem eq_of_countP_one {α : Type} {p : α → Bool} {xs : List α} {a b : α}
    (hone : xs.countP p = 1) (ha : a ∈ xs) (hb : b ∈ xs) (hpa : p a = true) (hpb : p b = true) :
    a = b := by
  rw [List.countP_eq_length_filter] at hone
  obtain ⟨x, hx⟩ := List.length_eq_one_iff.mp hone
  have hmem : ∀ c, c ∈ xs → p c = true → c = x := fun c hc hpc =>
    List.mem_singleton.mp (hx ▸ List.mem_filter.mpr ⟨hc, hpc⟩)
  rw [hmem a ha hpa, hmem b hb hpb]

/-- The evidence of a completed experiment, as it is looked up. -/
theorem Core.find_evidence (hcore : Core h s) {id : String}
    (hid : id ∈ s.completedExperimentIds) : ∃ accepted ∈ s.evidence.results,
      accepted.experimentId = id ∧
      (s.evidence.results.find? fun r => r.experimentId = id) = some accepted := by
  obtain ⟨r, hr, hrid⟩ := exists_evidence (hcore.evidence id hid)
  cases hfind : s.evidence.results.find? fun r => r.experimentId = id with
  | none => exact absurd (List.find?_eq_none.mp hfind r hr) (by simp [hrid])
  | some accepted =>
    have hid := List.find?_some hfind
    exact ⟨accepted, List.mem_of_find?_eq_some hfind, of_decide_eq_true hid, rfl⟩

/-- A repeated delivery changes nothing. -/
theorem record_held (hcore : Core h s) (hr : Held s r) :
    recordExperimentResult s r = .ok ⟨s, []⟩ := by
  obtain ⟨accepted, hmem, hid, hfind⟩ := hcore.find_evidence hr.completed
  have heq : accepted = r := eq_of_countP_one (hcore.evidence _ hr.completed) hmem hr.evidence
    (decide_eq_true hid) (decide_eq_true rfl)
  unfold recordExperimentResult
  rw [hcore.indexes]
  simp only [bind, Except.bind]
  rw [if_pos hr.completed, hfind]
  simp only [heq, if_true]
  rfl

theorem record_conflict (hcore : Core h s) (hid : r.experimentId ∈ s.completedExperimentIds)
    (hnew : r ∉ s.evidence.results) : recordExperimentResult s r =
      .error (.rejected "duplicate_conflict"
        "experiment %s already completed with a different payload" [r.experimentId]) := by
  obtain ⟨accepted, hmem, -, hfind⟩ := hcore.find_evidence hid
  have hne : accepted ≠ r := fun heq => hnew (heq ▸ hmem)
  unfold recordExperimentResult
  rw [hcore.indexes]
  simp only [bind, Except.bind]
  rw [if_pos hid, hfind]
  simp only [hne, if_false]

theorem record_unknown (hcore : Core h s) (hcompleted : r.experimentId ∉ s.completedExperimentIds)
    (hpending : r.experimentId ∉ s.pendingExperimentIds) : recordExperimentResult s r =
      .error (.rejected "experiment_not_pending" "unexpected experiment result: %s"
        [r.experimentId]) := by
  have hfilter : (s.pendingExperiments.filter fun s => s.experimentId = r.experimentId) = [] := by
    refine List.filter_eq_nil_iff.mpr fun spec hspec heq => hpending ?_
    rw [← of_decide_eq_true heq]
    exact List.mem_map_of_mem hspec
  unfold recordExperimentResult
  rw [hcore.indexes]
  simp only [bind, Except.bind]
  rw [if_neg hcompleted, hfilter]

/-! ### The end of a wave -/

/-- A discovery that found no kernels to analyze. -/
def undiscovered : ExperimentResult → Bool
  | .discovery r => r.outcome ≠ .discovered
  | _ => false

/-- The status and the effects that follow the last result. -/
def waveEnd (s : AnalysisSession) (answers : List ExperimentResult) :
    SessionStatus × List SessionEffect :=
  if s.discoveryPlan.isSome then
    if (s.evidence.results ++ answers).any undiscovered then (.failed, [])
    else (.waitingChildren, [.createChildSessions])
  else if s.status = .waitingInitial then (.waitingTriage, [.runTriage])
  else (.waitingReasoner, [.runReasoner])

theorem any_undiscovered (e : EvidenceBundle) :
    e.results.any undiscovered = e.discovery.any fun r => r.outcome ≠ .discovered := by
  have hnone : ∀ {α : Type} (f : α → ExperimentResult) (xs : List α),
      (∀ x, undiscovered (f x) = false) → (xs.map f).any undiscovered = false := by
    intro α f xs hf
    rw [List.any_map, List.any_eq_false]
    exact fun x _ => by simp [hf]
  simp only [EvidenceBundle.results, List.any_append]
  rw [hnone .sanitizer _ fun _ => rfl, hnone .stress _ fun _ => rfl, hnone .trace _ fun _ => rfl,
    hnone .reduction _ fun _ => rfl, List.any_map]
  simp only [Bool.or_false]
  rfl

theorem continueSession_last (hinv : Inv h s) (hlife : Lifecycle s) (hacc : Accepted s r spec)
    (hlast : (acceptResult s spec r).pendingExperiments = []) :
    ∃ reason, continueSession (acceptResult s spec r) spec.phase =
      .ok ⟨{ acceptResult s spec r with
        status := (waveEnd s [r]).1, terminationReason := reason }, (waveEnd s [r]).2⟩ := by
  have hwaits := waits_of_context hacc.context
  have hany : (s.evidence.results ++ [r]).any undiscovered =
      (acceptResult s spec r).evidence.discovery.any fun r => r.outcome ≠ .discovered := by
    rw [← any_undiscovered]
    exact (results_add s.evidence r).symm.any_eq
  unfold continueSession waveEnd
  rw [if_neg (not_not.mpr hlast), hany]
  by_cases hplan : s.discoveryPlan.isSome
  · have hdiscovering := hlife.discovering hplan
    have hwait : s.status = .waitingInitial := by
      rcases hwaits with ⟨-, hwait⟩ | ⟨-, hwait⟩
      · exact hwait
      · exact absurd hwait hdiscovering.not_followed
    have honce : (acceptResult s spec r).evidence.discovery.length = 1 := by
      have hcount := discoveries_accept hinv.pending_nodup hacc
      rw [hdiscovering.once hwait, discoveries, hlast] at hcount
      simpa using hcount
    obtain ⟨d, hd⟩ := List.length_eq_one_iff.mp honce
    rw [if_pos (show (acceptResult s spec r).discoveryPlan.isSome from hplan), if_pos hplan, hd]
    by_cases hout : d.outcome = .discovered
    · exact ⟨(acceptResult s spec r).terminationReason, by simp [hout]⟩
    · exact ⟨_, by simp only [hout, ne_eq, not_false_eq_true, if_true, List.any_cons, decide_true,
        Bool.true_or]; rfl⟩
  · rw [if_neg (show ¬ (acceptResult s spec r).discoveryPlan.isSome from hplan), if_neg hplan]
    refine ⟨(acceptResult s spec r).terminationReason, ?_⟩
    rcases hwaits with ⟨hphase, hwait⟩ | ⟨hphase, hwait⟩
    · rw [hphase, hwait]
      rfl
    · rw [hphase, hwait]
      rfl

/-! ### A wave -/

structure WaveOver (s : AnalysisSession) (wave : List (ExperimentSpec × ExperimentResult))
    (s' : AnalysisSession) : Prop where
  status : s'.status = (waveEnd s (wave.map Prod.snd)).1
  pending : s'.pendingExperiments = []
  completed : s'.completedExperimentIds.Perm
    (s.completedExperimentIds ++ wave.map fun p => p.2.experimentId)
  evidence : s'.evidence.results.Perm (s.evidence.results ++ wave.map Prod.snd)
  history : s'.experimentHistory.Perm
    (s.experimentHistory ++ wave.map fun p => experimentRecord p.1 p.2)

/-- The effects come with the last answer that is new, and with no other delivery. -/
def AtLastAnswer (answers : List ExperimentResult) (effects : List SessionEffect)
    (rs : List ExperimentResult) (delivered : List (List SessionEffect)) : Prop :=
  ∃ before last after, rs = before ++ last :: after ∧ last ∈ answers ∧ last ∉ before ∧
    (∀ r ∈ answers, r = last ∨ r ∈ before) ∧
    delivered = before.map (fun _ => []) ++ effects :: after.map fun _ => []

theorem held_accept (s : AnalysisSession) (spec : ExperimentSpec) (r : ExperimentResult) :
    Held (acceptResult s spec r) r where
  completed := List.mem_append_right _ (List.mem_singleton_self _)
  evidence := (results_add s.evidence r).mem_iff.mpr
    (List.mem_append_right _ (List.mem_singleton_self _))

theorem Held.accept {x : ExperimentResult} (hx : Held s x) (spec : ExperimentSpec)
    (r : ExperimentResult) : Held (acceptResult s spec r) x where
  completed := List.mem_append_left _ hx.completed
  evidence := (results_add s.evidence r).mem_iff.mpr (List.mem_append_left _ hx.evidence)

theorem deliver_cons {t : Transition} {rs : List ExperimentResult}
    {effects : List (List SessionEffect)} (ht : recordExperimentResult s r = .ok t)
    (hrs : deliver t.session rs = .ok (s', effects)) :
    deliver s (r :: rs) = .ok (s', t.effects :: effects) := by
  simp only [deliver, ht, bind, Except.bind, hrs]
  rfl

theorem deliver_held (hcore : Core h s) {rs : List ExperimentResult} (hrs : ∀ r ∈ rs, Held s r) :
    deliver s rs = .ok (s, rs.map fun _ => []) := by
  induction rs with
  | nil => rfl
  | cons r rs ih =>
    exact deliver_cons (record_held hcore (hrs r List.mem_cons_self))
      (ih fun x hx => hrs x (List.mem_cons_of_mem r hx))

section Step

variable {wave : List (ExperimentSpec × ExperimentResult)} {p : ExperimentSpec × ExperimentResult}
  {rs : List ExperimentResult}

/-- The answers that are left after that of `p`. -/
def leftOver (wave : List (ExperimentSpec × ExperimentResult))
    (p : ExperimentSpec × ExperimentResult) : List (ExperimentSpec × ExperimentResult) :=
  wave.filter fun q => q.1.experimentId ≠ p.1.experimentId

theorem Answered.perm (hwave : Answered s wave) (hnodup : s.pendingExperimentIds.Nodup)
    (hp : p ∈ wave) : wave.Perm (p :: leftOver wave p) := by
  have hids : (wave.map fun q => q.1.experimentId).Nodup := by
    rw [AnalysisSession.pendingExperimentIds, ← hwave.specs, List.map_map] at hnodup
    exact hnodup
  exact perm_cons_others hids hp

theorem Answered.others (hwave : Answered s wave) (hp : p ∈ wave) :
    Answered (acceptResult s p.1 p.2) (leftOver wave p) where
  specs := by
    show _ = s.pendingExperiments.filter _
    rw [← hwave.specs, List.filter_map, (hwave.answers p hp).id]
    rfl
  answers q hq := hwave.answers q (List.mem_of_mem_filter hq)

theorem Answered.accepted (hinv : Inv h s) (hwave : Answered s wave) (hp : p ∈ wave) :
    Accepted s p.2 p.1 := by
  have hpending : p.1 ∈ s.pendingExperiments := by
    rw [← hwave.specs]
    exact List.mem_map_of_mem hp
  refine ⟨hpending, (hwave.answers p hp).id.symm, ?_, (hinv.context _ hpending).valid,
    (hwave.answers p hp).valid⟩
  rw [(hwave.answers p hp).id]
  exact hinv.disjoint _ (List.mem_map_of_mem hpending)

theorem Answered.not_held (hinv : Inv h s) (hwave : Answered s wave)
    (hr : r ∈ wave.map Prod.snd) : ¬ Held s r := by
  obtain ⟨p, hp, rfl⟩ := List.mem_map.mp hr
  exact fun hheld => (hwave.accepted hinv hp).new hheld.completed

theorem mem_leftOver_ne (hwave : Answered s wave) (hp : p ∈ wave) {x : ExperimentResult}
    (hx : x ∈ (leftOver wave p).map Prod.snd) : x ≠ p.2 := by
  obtain ⟨q, hq, rfl⟩ := List.mem_map.mp hx
  obtain ⟨hmem, hne⟩ := List.mem_filter.mp hq
  intro heq
  refine of_decide_eq_true hne ?_
  rw [← (hwave.answers q hmem).id, heq, (hwave.answers p hp).id]

/-- Every answer is that of `p` or left. -/
theorem mem_answers (hinv : Inv h s) (hwave : Answered s wave) (hp : p ∈ wave)
    {x : ExperimentResult} :
    x ∈ wave.map Prod.snd ↔ x = p.2 ∨ x ∈ (leftOver wave p).map Prod.snd := by
  rw [((hwave.perm hinv.pending_nodup hp).map Prod.snd).mem_iff, List.map_cons, List.mem_cons]

theorem Delivery.others (hinv : Inv h s) (hwave : Answered s wave) (hp : p ∈ wave)
    (hrs : Delivery s (wave.map Prod.snd) (p.2 :: rs)) :
    Delivery (acceptResult s p.1 p.2) ((leftOver wave p).map Prod.snd) rs where
  all x hx := by
    rcases List.mem_cons.mp (hrs.all x ((mem_answers hinv hwave hp).mpr (Or.inr hx))) with heq | hmem
    · exact absurd heq (mem_leftOver_ne hwave hp hx)
    · exact hmem
  only x hx := by
    rcases hrs.only x (List.mem_cons_of_mem _ hx) with hmem | hheld
    · rcases (mem_answers hinv hwave hp).mp hmem with rfl | hleft
      · exact Or.inr (held_accept s p.1 p.2)
      · exact Or.inl hleft
    · exact Or.inr (hheld.accept p.1 p.2)

/-- What is left leads where the whole wave leads. -/
theorem waveEnd_leftOver (hinv : Inv h s) (hwave : Answered s wave) (hp : p ∈ wave) :
    waveEnd (acceptResult s p.1 p.2) ((leftOver wave p).map Prod.snd) =
      waveEnd s (wave.map Prod.snd) := by
  have hany : ((acceptResult s p.1 p.2).evidence.results ++
      (leftOver wave p).map Prod.snd).any undiscovered =
        (s.evidence.results ++ wave.map Prod.snd).any undiscovered := by
    refine List.Perm.any_eq ?_
    have hleft := (results_add s.evidence p.2).append_right ((leftOver wave p).map Prod.snd)
    have hright := ((hwave.perm hinv.pending_nodup hp).map Prod.snd).append_left s.evidence.results
    refine hleft.trans (List.Perm.trans ?_ hright.symm)
    rw [List.append_assoc]
    rfl
  unfold waveEnd
  rw [hany]
  rfl

theorem WaveOver.others (hinv : Inv h s) (hwave : Answered s wave) (hp : p ∈ wave)
    (hover : WaveOver (acceptResult s p.1 p.2) (leftOver wave p) s') : WaveOver s wave s' := by
  have hperm := hwave.perm hinv.pending_nodup hp
  have hcons : ∀ {α : Type} (f : ExperimentSpec × ExperimentResult → α) (xs : List α),
      ((xs ++ [f p]) ++ (leftOver wave p).map f).Perm (xs ++ wave.map f) := by
    intro α f xs
    rw [List.append_assoc]
    exact ((hperm.map f).symm).append_left xs
  refine ⟨?_, hover.pending, ?_, ?_, ?_⟩
  · rw [hover.status, waveEnd_leftOver hinv hwave hp]
  · exact hover.completed.trans (hcons (fun q => q.2.experimentId) _)
  · refine hover.evidence.trans (((results_add s.evidence p.2).append_right _).trans ?_)
    exact hcons Prod.snd _
  · exact hover.history.trans (hcons (fun q => experimentRecord q.1 q.2) _)

end Step

/-- Every delivery of a wave ends the same way, with its effects at the last answer. -/
theorem deliver_wave {wave : List (ExperimentSpec × ExperimentResult)}
    {rs : List ExperimentResult} (hinv : Inv h s) (hlife : Lifecycle s)
    (hpending : s.pendingExperiments ≠ []) (hwave : Answered s wave)
    (hrs : Delivery s (wave.map Prod.snd) rs) :
    ∃ final delivered, deliver s rs = .ok (final, delivered) ∧ WaveOver s wave final ∧
      AtLastAnswer (wave.map Prod.snd) (waveEnd s (wave.map Prod.snd)).2 rs delivered := by
  induction rs generalizing s wave with
  | nil =>
    have hnil : wave = [] := by
      refine List.eq_nil_iff_forall_not_mem.mpr fun p hp => ?_
      exact nomatch hrs.all p.2 (List.mem_map_of_mem hp)
    rw [← hwave.specs, hnil] at hpending
    exact absurd rfl hpending
  | cons r rs ih =>
    rcases hrs.only r List.mem_cons_self with hanswer | hheld
    · obtain ⟨p, hp, rfl⟩ := List.mem_map.mp hanswer
      have hacc := hwave.accepted hinv hp
      have hrecord := record_answer hinv hacc.pending (hwave.answers p hp)
      have hwave' := hwave.others hp
      have hrs' := hrs.others hinv hwave hp
      by_cases hlast : (acceptResult s p.1 p.2).pendingExperiments = []
      · -- the last answer: everything after it is a repetition
        have hnone : leftOver wave p = [] := List.map_eq_nil_iff.mp (hwave'.specs.trans hlast)
        have hsingle : wave.Perm [p] := by
          have hperm := hwave.perm hinv.pending_nodup hp
          rwa [hnone] at hperm
        obtain rfl := List.perm_singleton.mp hsingle
        obtain ⟨reason, hcontinue⟩ := continueSession_last hinv hlife hacc hlast
        rw [hcontinue] at hrecord
        have hinv' := experimentResult_inv hinv hrecord
        have hafter : ∀ x ∈ rs, Held (acceptResult s p.1 p.2) x := by
          intro x hx
          rcases hrs'.only x hx with hmem | hheld
          · rw [hnone] at hmem
            exact nomatch hmem
          · exact hheld
        refine ⟨_, _, deliver_cons hrecord (deliver_held hinv'.toCore fun x hx =>
          ⟨(hafter x hx).completed, (hafter x hx).evidence⟩), ⟨rfl, hlast, List.Perm.refl _,
            results_add s.evidence p.2, List.Perm.refl _⟩, [], p.2, rs, rfl,
            List.mem_singleton_self _, List.not_mem_nil, fun x hx => ?_, rfl⟩
        exact Or.inl (List.mem_singleton.mp hx)
      · -- others are left: the session waits on
        have hcontinue : continueSession (acceptResult s p.1 p.2) p.1.phase =
            .ok ⟨acceptResult s p.1 p.2, []⟩ := if_pos hlast
        rw [hcontinue] at hrecord
        have hinv' := experimentResult_inv hinv hrecord
        have hlife' := experimentResult_lifecycle hlife hrecord
        obtain ⟨final, delivered, hdeliver, hover, before, last, after, rfl, hmem, hnew, hall, rfl⟩ :=
          ih hinv' hlife' hlast hwave' hrs'
        refine ⟨final, _, deliver_cons hrecord hdeliver, hover.others hinv hwave hp,
          p.2 :: before, last, after, rfl, ?_, ?_, ?_, ?_⟩
        · exact (mem_answers hinv hwave hp).mpr (Or.inr hmem)
        · intro hbefore
          rcases List.mem_cons.mp hbefore with heq | hbefore
          · exact mem_leftOver_ne hwave hp hmem heq
          · exact hnew hbefore
        · intro x hx
          rcases (mem_answers hinv hwave hp).mp hx with rfl | hleft
          · exact Or.inr List.mem_cons_self
          · exact (hall x hleft).imp_right (List.mem_cons_of_mem _)
        · rw [waveEnd_leftOver hinv hwave hp]
          rfl
    · have hrs' : Delivery s (wave.map Prod.snd) rs := by
        refine ⟨fun x hx => ?_, fun x hx => hrs.only x (List.mem_cons_of_mem _ hx)⟩
        rcases List.mem_cons.mp (hrs.all x hx) with rfl | hmem
        · exact absurd hheld (hwave.not_held hinv hx)
        · exact hmem
      obtain ⟨final, delivered, hdeliver, hover, before, last, after, rfl, hmem, hnew, hall, rfl⟩ :=
        ih hinv hlife hpending hwave hrs'
      refine ⟨final, _, deliver_cons (record_held hinv.toCore hheld) hdeliver, hover,
        r :: before, last, after, rfl, hmem, ?_, ?_, rfl⟩
      · intro hbefore
        rcases List.mem_cons.mp hbefore with rfl | hbefore
        · exact hwave.not_held hinv hmem hheld
        · exact hnew hbefore
      · exact fun x hx => (hall x hx).imp_right (List.mem_cons_of_mem _)

/-- Results are delivered exactly once, in whatever order they come. -/
theorem delivery_exactly_once (h : Hashes) (hideal : h.Ideal) (guard : ExperimentGuardPolicy)
    (s : AnalysisSession) (hs : Reachable h guard s) :
    (∀ wave rs, s.status.WaitsForExperiments → Answered s wave →
      Delivery s (wave.map Prod.snd) rs →
      ∃ final delivered, deliver s rs = .ok (final, delivered) ∧ WaveOver s wave final ∧
        AtLastAnswer (wave.map Prod.snd) (waveEnd s (wave.map Prod.snd)).2 rs delivered) ∧
    (∀ r : ExperimentResult, r.experimentId ∈ s.completedExperimentIds →
      r ∉ s.evidence.results → recordExperimentResult s r =
        .error (.rejected "duplicate_conflict"
          "experiment %s already completed with a different payload" [r.experimentId])) ∧
    ∀ r : ExperimentResult, r.experimentId ∉ s.completedExperimentIds →
      r.experimentId ∉ s.pendingExperimentIds → recordExperimentResult s r =
        .error (.rejected "experiment_not_pending" "unexpected experiment result: %s"
          [r.experimentId]) := by
  have hinv := reachable_inv hideal hs
  refine ⟨fun wave rs hwait hwave hrs => ?_, fun r => record_conflict hinv.toCore,
    fun r => record_unknown hinv.toCore⟩
  exact deliver_wave hinv (reachable_lifecycle hs) (hinv.pending.mpr hwait) hwave hrs

theorem racecheck_delivered_twice : ∃ s final delivered,
    Reachable racecheckDigest .default s ∧
    deliver s [.sanitizer racecheckFinding, .sanitizer racecheckFinding] =
      .ok (final, delivered) ∧ final.status = .waitingTriage := by
  obtain ⟨t, ht⟩ : ∃ t, createSession racecheckDigest "s1" vectorAdd SessionBudget.default
      InitialCampaignPolicy.sanitizerOnly [] = .ok t := ⟨_, rfl⟩
  have hs : Reachable racecheckDigest .default t.session := .session ht
  have hwave : Answered t.session [(initialSanitizer racecheckDigest "s1" vectorAdd "racecheck",
      .sanitizer racecheckFinding)] := by
    cases ht
    exact ⟨rfl, fun p hp => List.mem_singleton.mp hp ▸ ⟨rfl, rfl⟩⟩
  obtain ⟨hdeliver, -⟩ := delivery_exactly_once racecheckDigest racecheckDigest_ideal .default
    t.session hs
  obtain ⟨final, delivered, hrs, hover, -⟩ := hdeliver _
    [.sanitizer racecheckFinding, .sanitizer racecheckFinding]
    (Or.inl (by obtain rfl := Except.ok.inj ht; rfl)) hwave
    ⟨fun x hx => List.mem_cons_of_mem _ hx, fun x hx => Or.inl (by simpa using hx)⟩
  refine ⟨t.session, final, delivered, hs, hrs, hover.status.trans ?_⟩
  cases ht
  rfl

def noKernels : KernelDiscoveryResult where
  experimentId := "s1-kernel-discovery"
  executionStatus := .failed
  outcome := .noKernels
  provenance := ⟨"r1", "sm_90", none, "", ""⟩
  discovery := none
  manifestArtifact := none
  durationS := 0
  error := some "no kernels"

/-- A wave of a discovery session can end without a continuation. -/
theorem discovery_without_continuation : ∃ s wave final,
    noKernels.postInit = .ok noKernels ∧ Reachable racecheckDigest .default s ∧ s.status.WaitsForExperiments ∧ Answered s wave ∧
    Delivery s (wave.map Prod.snd) [.discovery noKernels] ∧
    deliver s [.discovery noKernels] = .ok (final, [[]]) ∧ final.status = .failed := by
  let unit : WorkUnit := { vectorAdd with kernel := none }
  obtain ⟨t, ht⟩ : ∃ t, createDiscoverySession racecheckDigest "s1" unit SessionBudget.default
      InitialCampaignPolicy.sanitizerOnly 4 = .ok t := ⟨_, rfl⟩
  refine ⟨t.session, [(discoveryExperiment "s1" unit ⟨4⟩, .discovery noKernels)], ?_⟩
  have hs : Reachable racecheckDigest .default t.session := .discovery ht
  cases ht
  exact ⟨_, rfl, hs, Or.inl rfl, ⟨rfl, fun p hp => List.mem_singleton.mp hp ▸ ⟨rfl, rfl⟩⟩,
    ⟨fun x hx => hx, fun x hx => Or.inl hx⟩, rfl, rfl⟩

end CuTracer.Service
