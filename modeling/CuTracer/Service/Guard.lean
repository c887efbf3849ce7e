import CuTracer.Library.Fallible
import CuTracer.Service.Identity
import Mathlib.Data.List.Nodup

/-! The follow-up experiments that the guard lets through are new: their
identifiers differ from one another, and their fingerprints from one another and
from those of the session. -/

namespace CuTracer.Service

theorem make_ok {spec spec' : ExperimentSpec} (h : ExperimentSpec.make spec = .ok spec') :
    spec' = spec := by
  obtain ⟨-, -, h⟩ := bind_ok h
  exact (Except.ok.inj h).symm

theorem make_inl {spec spec' : ExperimentSpec}
    (h : (ExperimentSpec.make spec).map (Sum.inl : ExperimentSpec → ExperimentSpec ⊕ String) = .ok (.inl spec')) :
    spec' = spec := by
  obtain ⟨spec₁, hmake, heq⟩ := map_ok h
  rw [← Sum.inl.inj heq]
  exact make_ok hmake

namespace ExperimentGuardPolicy

variable {policy : ExperimentGuardPolicy} {h : Hashes} {session : AnalysisSession}
  {config : Option TriggeringDelayConfig}

/-- A spec for the next round of the session. -/
structure ForNextRound (session : AnalysisSession) (spec : ExperimentSpec) : Prop where
  sessionId : spec.sessionId = session.sessionId
  unit : spec.unit = session.unit
  phase : spec.phase = .followup
  roundIndex : spec.roundIndex = session.roundIndex + 1
  kind : spec.kind ≠ .kernelDiscovery

def requestId (h : Hashes) (session : AnalysisSession) (kind : ExperimentKind) (index : ℕ)
    (discriminator : String) : String :=
  experimentId h session.sessionId .followup (session.roundIndex + 1) kind
    (toString index ++ ":" ++ discriminator)

theorem requestId_inj (hideal : h.Ideal) {kind kind' : ExperimentKind} {i j : ℕ} {d d' : String}
    (heq : requestId h session kind i d = requestId h session kind' j d') : i = j := by
  obtain ⟨-, -, -, hd⟩ := experimentId_inj hideal heq
  exact toString_nat_inj (colon_inj (colon_notMem_nat i) (colon_notMem_nat j) hd).1

theorem buildSpec_inl {request : ExperimentRequest} {index : ℕ} {d : String}
    {options : Option TraceOptions} {spec : ExperimentSpec}
    (hbuild : policy.buildSpec h session request config index d options = .ok (.inl spec)) :
    ForNextRound session spec ∧ spec.experimentId = requestId h session request.kind index d := by
  unfold buildSpec at hbuild
  have hcommon : ∀ discovery tool stress trace reduction,
      request.kind ≠ .kernelDiscovery →
      spec = { common h session request index d with
        discovery := discovery, sanitizerTool := tool, stress := stress, trace := trace,
        reduction := reduction } →
      ForNextRound session spec ∧ spec.experimentId = requestId h session request.kind index d := by
    rintro discovery tool stress trace reduction hkind rfl
    exact ⟨⟨rfl, rfl, rfl, rfl, hkind⟩, rfl⟩
  split at hbuild
  · rename_i hkind
    exact hcommon _ _ _ _ _ (by simp [hkind]) (make_inl hbuild)
  · rename_i hkind
    split at hbuild
    · exact nomatch hbuild
    · exact hcommon _ _ _ _ _ (by simp [hkind]) (make_inl hbuild)
  · rename_i hkind
    split at hbuild
    · exact nomatch hbuild
    · exact hcommon _ _ _ _ _ (by simp [hkind]) (make_inl hbuild)
  · rename_i hkind
    split at hbuild
    · exact nomatch hbuild
    · exact hcommon _ _ _ _ _ (by simp [hkind]) (make_inl hbuild)
  · rename_i hkind
    unfold buildReduceSpec at hbuild
    split at hbuild
    · split at hbuild
      · exact nomatch hbuild
      · obtain ⟨spec₁, hmake, heq⟩ := bind_ok hbuild
        cases heq
        exact hcommon _ _ _ _ _ (by simp [hkind]) (make_ok hmake)
    · exact nomatch hbuild
  · exact nomatch hbuild

/-- The invariant of the loop over requests, before the one at index `n`. -/
structure Wave (h : Hashes) (session : AnalysisSession) (n : ℕ) (acc : GuardedExperiments) :
    Prop where
  length : acc.fingerprints.length = acc.experiments.length
  prints_nodup : acc.fingerprints.Nodup
  prints_new : ∀ print ∈ acc.fingerprints, print ∉ session.experimentFingerprints
  next : ∀ spec ∈ acc.experiments, ForNextRound session spec
  named : ∀ spec ∈ acc.experiments, ∃ kind i d, i < n ∧
    spec.experimentId = requestId h session kind i d
  ids_nodup : (acc.experiments.map ExperimentSpec.experimentId).Nodup

theorem Wave.mono {n m : ℕ} {acc acc' : GuardedExperiments} (hw : Wave h session n acc)
    (hnm : n ≤ m) (hexperiments : acc'.experiments = acc.experiments)
    (hprints : acc'.fingerprints = acc.fingerprints) : Wave h session m acc' := by
  refine ⟨?_, ?_, ?_, ?_, ?_, ?_⟩
  · rw [hprints, hexperiments]
    exact hw.length
  · rw [hprints]
    exact hw.prints_nodup
  · rw [hprints]
    exact hw.prints_new
  · rw [hexperiments]
    exact hw.next
  · rw [hexperiments]
    intro spec hspec
    obtain ⟨kind, i, d, hi, hid⟩ := hw.named spec hspec
    exact ⟨kind, i, d, Nat.lt_of_lt_of_le hi hnm, hid⟩
  · rw [hexperiments]
    exact hw.ids_nodup

theorem Wave.add {n : ℕ} {acc : GuardedExperiments} {spec : ExperimentSpec} {print : String}
    {kind : ExperimentKind} {d : String} (hideal : h.Ideal) (hw : Wave h session n acc)
    (hspec : ForNextRound session spec)
    (hid : spec.experimentId = requestId h session kind n d)
    (hnew : print ∉ session.experimentFingerprints) (hnew' : print ∉ acc.fingerprints) :
    Wave h session (n + 1) { acc with
      experiments := acc.experiments ++ [spec], fingerprints := acc.fingerprints ++ [print] } where
  length := by simp [hw.length]
  prints_nodup := hw.prints_nodup.append (List.nodup_singleton _) (by simpa using hnew')
  prints_new p hp := by
    rcases List.mem_append.mp hp with hp | hp
    · exact hw.prints_new p hp
    · rw [List.mem_singleton.mp hp]
      exact hnew
  next s hs := by
    rcases List.mem_append.mp hs with hs | hs
    · exact hw.next s hs
    · rw [List.mem_singleton.mp hs]
      exact hspec
  named s hs := by
    rcases List.mem_append.mp hs with hs | hs
    · obtain ⟨kind, i, d, hi, hid⟩ := hw.named s hs
      exact ⟨kind, i, d, Nat.lt_succ_of_lt hi, hid⟩
    · rw [List.mem_singleton.mp hs]
      exact ⟨kind, n, d, Nat.lt_succ_self n, hid⟩
  ids_nodup := by
    rw [List.map_append, List.map_singleton]
    refine hw.ids_nodup.append (List.nodup_singleton _) ?_
    rw [List.disjoint_singleton]
    intro hmem
    obtain ⟨s, hs, hsid⟩ := List.mem_map.mp hmem
    obtain ⟨kind', i, d', hi, hid'⟩ := hw.named s hs
    rw [hid, hid'] at hsid
    exact absurd (requestId_inj hideal hsid) (by omega)

theorem consider_wave {n : ℕ} {acc acc' : GuardedExperiments} {request : ExperimentRequest}
    (hideal : h.Ideal) (hw : Wave h session n acc)
    (hstep : policy.consider h session config acc (request, n) = .ok acc') :
    Wave h session (n + 1) acc' := by
  unfold consider at hstep
  split at hstep
  · cases hstep
    exact hw.mono (Nat.le_succ n) rfl rfl
  · rename_i discriminator traceOptions note _
    have hw' : Wave h session n { acc with notes := acc.notes ++ note.toList } :=
      hw.mono (Nat.le_refl n) rfl rfl
    dsimp only at hstep
    split at hstep
    · cases hstep
      exact hw.mono (Nat.le_succ n) rfl rfl
    · rename_i hprint
      obtain ⟨built, hbuild, hstep⟩ := bind_ok hstep
      cases built with
      | inr rejection =>
        cases hstep
        exact hw.mono (Nat.le_succ n) rfl rfl
      | inl spec =>
        cases hstep
        obtain ⟨hnext, hid⟩ := buildSpec_inl hbuild
        obtain ⟨hnew, hnew'⟩ := not_or.mp hprint
        exact hw'.add hideal hnext hid hnew hnew'

theorem expand_wave {requests : List ExperimentRequest} {guarded : GuardedExperiments}
    (hideal : h.Ideal) (hexpand : policy.expand h session requests = .ok guarded) :
    ∃ n, Wave h session n guarded := by
  have hloop : ∀ (xs : List ExperimentRequest) (k : ℕ) (acc : GuardedExperiments),
      Wave h session k acc →
      (xs.zipIdx k).foldlM (policy.consider h session session.evidence.triggeringConfig) acc =
        .ok guarded → ∃ n, Wave h session n guarded := by
    intro xs
    induction xs with
    | nil =>
      intro k acc hw hfold
      cases hfold
      exact ⟨k, hw⟩
    | cons x xs ih =>
      intro k acc hw hfold
      rw [List.zipIdx_cons, List.foldlM_cons] at hfold
      obtain ⟨acc', hstep, hrest⟩ := bind_ok hfold
      exact ih (k + 1) acc' (consider_wave hideal hw hstep) hrest
  refine hloop _ 0 _ ?_ hexpand
  constructor <;> simp

end ExperimentGuardPolicy

end CuTracer.Service
