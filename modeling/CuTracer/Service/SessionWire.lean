import CuTracer.Service.FileStore
import CuTracer.Service.ResultWire

/-! The document of a session: how it is written, and how it is read back. A session is read back as
it was, but under the current schema version, and for outcomes of reductions that are written no longer. -/

namespace CuTracer.Service

open Wire

def SessionStatus.fromWire : Wire → Decoding SessionStatus :=
  asMember [.waitingChildren, .waitingInitial, .waitingTriage, .waitingReasoner, .waitingFollowup,
    .completed, .inconclusive, .failed] value

def ReportPublicationStatus.fromWire : Wire → Decoding ReportPublicationStatus :=
  asMember [.notReady, .pending, .published, .failed] value

@[simp] theorem sessionStatus_fromWire (status : SessionStatus) :
    SessionStatus.fromWire (.str status.value) = .ok status := by
  cases status <;> exact asMember_value rfl

@[simp] theorem reportPublicationStatus_fromWire (status : ReportPublicationStatus) :
    ReportPublicationStatus.fromWire (.str status.value) = .ok status := by
  cases status <;> exact asMember_value rfl

/-! ### Evidence -/

namespace EvidenceBundle

variable (float : ℚ → ℚ)

def toWire (e : EvidenceBundle) : Wire :=
  .obj [("discovery", .arr (e.discovery.map KernelDiscoveryResult.toWire)),
    ("sanitizer", .arr (e.sanitizer.map SanitizerSweepResult.toWire)),
    ("stress", .arr (e.stress.map (StressTestResult.toWire float))),
    ("traces", .arr (e.traces.map TraceExperimentResult.toWire)),
    ("reductions", .arr (e.reductions.map ReduceExperimentResult.toWire))]

def fromWire (d : Wire) : Decoding EvidenceBundle := do
  return { discovery := ← d.getOr "discovery" [] (asList (KernelDiscoveryResult.fromWire float))
           sanitizer := ← d.getOr "sanitizer" [] (asList (SanitizerSweepResult.fromWire float))
           stress := ← d.getOr "stress" [] (asList (StressTestResult.fromWire float))
           traces := ← d.getOr "traces" [] (asList (TraceExperimentResult.fromWire float))
           reductions := ← d.getOr "reductions" [] (asList (ReduceExperimentResult.fromWire float)) }

/-- What the constructors of the results have made. -/
def Constructed (e : EvidenceBundle) : Prop := ∀ r ∈ e.results, r.Constructed float

def current (e : EvidenceBundle) : EvidenceBundle :=
  { e with reductions := e.reductions.map fun r => { r with outcome := r.outcome.current } }

variable {float} {e : EvidenceBundle}

theorem fromWire_toWire (h : e.Constructed float) : fromWire float (e.toWire float) = .ok e.current := by
  have hdiscovery : asList (KernelDiscoveryResult.fromWire float)
      (.arr (e.discovery.map KernelDiscoveryResult.toWire)) = .ok e.discovery :=
    asList_map fun r hr => r.fromWire_toWire float (h (.discovery r) (by simp [results, hr]))
  have hsanitizer : asList (SanitizerSweepResult.fromWire float)
      (.arr (e.sanitizer.map SanitizerSweepResult.toWire)) = .ok e.sanitizer :=
    asList_map fun r _ => r.fromWire_toWire float
  have hstress : asList (StressTestResult.fromWire float)
      (.arr (e.stress.map (StressTestResult.toWire float))) = .ok e.stress :=
    asList_map fun r hr => r.fromWire_toWire (h (.stress r) (by simp [results, hr]))
  have htraces : asList (TraceExperimentResult.fromWire float)
      (.arr (e.traces.map TraceExperimentResult.toWire)) = .ok e.traces :=
    asList_map fun r hr => r.fromWire_toWire float (h (.trace r) (by simp [results, hr]))
  have hreductions : asList (ReduceExperimentResult.fromWire float)
      (.arr (e.reductions.map ReduceExperimentResult.toWire)) = .ok e.current.reductions :=
    asList_map_to fun r hr => r.fromWire_toWire (h (.reduction r) (by simp [results, hr]))
  simp [fromWire, toWire, hdiscovery, hsanitizer, hstress, htraces, hreductions, current]

end EvidenceBundle

namespace FileStore

/-! ### Sessions -/

/-- The rest of an `AnalysisSession`: what its other fields hold is a `κ`. -/
structure SessionRest (κ : Type) where
  schemaVersion : ℤ
  evidence : EvidenceBundle
  parts : κ

def ownKeys : List String :=
  ["schema_version", "session_id", "status", "evidence", "report_publication", "state_revision"]

/-- The other fields, as the constructors of their classes make them: whatever `to_dict` writes of
them, `from_dict` reads back. -/
structure Parts (κ : Type) where
  fields : κ → List (String × Wire)
  read : Wire → Decoding κ
  read_fields : ∀ k own, (∀ field ∈ own, field.1 ∈ ownKeys) → read (.obj (own ++ fields k)) = .ok k

variable {κ : Type} (float : ℚ → ℚ) (parts : Parts κ)

/-- `AnalysisSession.to_dict`. -/
def Session.toDict (s : Session (SessionRest κ)) : Wire :=
  .obj ([("schema_version", .int s.rest.schemaVersion), ("session_id", .str s.sessionId),
    ("status", .str s.status.value), ("evidence", s.rest.evidence.toWire float),
    ("report_publication", .str s.reportPublication.value), ("state_revision", .int s.stateRevision)] ++
      parts.fields s.rest.parts)

/-- `AnalysisSession.from_dict`. -/
def Session.fromDict (d : Wire) : Decoding (Session (SessionRest κ)) := do
  let version ← d.getOr "schema_version" 3 asInt
  reject (version < 3) ("unsupported AnalysisSession schema_version: " ++ toString version)
  let status ← d.item "status" SessionStatus.fromWire
  let publication ← d.nullable "report_publication" ReportPublicationStatus.fromWire
  return { sessionId := ← d.item "session_id" asStr
           status
           reportPublication := publication.getD
             (if status = .completed ∨ status = .inconclusive then .published else .notReady)
           stateRevision := ← d.getOr "state_revision" 0 asInt
           rest := { schemaVersion := max version 7
                     evidence := ← d.getOr "evidence" .empty (EvidenceBundle.fromWire float)
                     parts := ← parts.read d } }

/-- A session in the store is the document of it; `describe` is the text of what is raised. -/
def sessionCodec (describe : WireError → String) : Codec (SessionRest κ) Wire where
  toDict := Session.toDict float parts
  fromDict d := (Session.fromDict float parts d).mapError describe

/-- A session as it is read back. -/
def Session.current (s : Session (SessionRest κ)) : Session (SessionRest κ) :=
  { s with rest :=
    { s.rest with schemaVersion := max s.rest.schemaVersion 7, evidence := s.rest.evidence.current } }

variable {float} {parts} {s : Session (SessionRest κ)}

theorem Session.fromDict_toDict (h : s.rest.evidence.Constructed float) (hversion : 3 ≤ s.rest.schemaVersion) :
    fromDict float parts (toDict float parts s) = .ok s.current := by
  have hparts := parts.read_fields s.rest.parts
    [("schema_version", .int s.rest.schemaVersion), ("session_id", .str s.sessionId),
      ("status", .str s.status.value), ("evidence", s.rest.evidence.toWire float),
      ("report_publication", .str s.reportPublication.value), ("state_revision", .int s.stateRevision)]
    (by simp [ownKeys])
  have hsupported : decide (s.rest.schemaVersion < 3) = false := by simpa using hversion
  have hpublication : asOption ReportPublicationStatus.fromWire (.str s.reportPublication.value) =
      .ok (some s.reportPublication) := by
    simp [asOption]
  simp only [List.cons_append, List.nil_append] at hparts
  simp [fromDict, toDict, hparts, hpublication, hsupported,
    EvidenceBundle.fromWire_toWire h, current]

/-- A schema version before the third is refused. -/
theorem Session.version_of_fromDict {s' : Session (SessionRest κ)}
    (h : fromDict float parts (toDict float parts s) = .ok s') : 3 ≤ s.rest.schemaVersion := by
  simp only [fromDict, toDict, List.cons_append, getOr_cons, if_true, asInt_int, ok_bind] at h
  simpa using (passed h).1

/-- What is decoded is the session as it is read back. -/
theorem sessionCodec_current {describe : WireError → String} {s' : Session (SessionRest κ)}
    (h : (sessionCodec float parts describe).fromDict ((sessionCodec float parts describe).toDict s) = .ok s')
    (hconstructed : s.rest.evidence.Constructed float) : s' = s.current := by
  change (Session.fromDict float parts (Session.toDict float parts s)).mapError describe = .ok s' at h
  cases hread : Session.fromDict float parts (Session.toDict float parts s) with
  | error e => rw [hread] at h; cases h
  | ok s'' =>
    rw [Session.fromDict_toDict hconstructed (Session.version_of_fromDict hread)] at h
    exact (Except.ok.inj h).symm

end FileStore

end CuTracer.Service
