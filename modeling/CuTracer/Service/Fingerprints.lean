import CuTracer.Service.Coverage
import CuTracer.Service.Guard

/-! One key for planning and guarding. The fingerprint that the guard derives from a request
is the one that is derived from the spec it builds, so that a request repeats a planned
experiment exactly when the keys are equal. Two trace requests of one kind that resolve to
the same trace have one key; of two kinds they have two, as the kind is part of the key. -/

namespace CuTracer.Service

/-! ### Effective traces -/

/-- What `artifact_identity` shows of an artifact: its content where that is known. -/
inductive TraceArtifact where
  | content (sha256 : String) (sizeBytes : ℤ)
  | place (uri : String)

def TraceArtifact.json : TraceArtifact → String
  | .content sha size =>
    JsonText.object [("sha256", JsonText.string sha), ("size_bytes", toString size)]
  | .place uri => JsonText.object [("uri", JsonText.string uri)]

def ArtifactRef.traceArtifact (artifact : ArtifactRef) : TraceArtifact :=
  match artifact.sha256, artifact.sizeBytes with
  | some sha, some size => .content sha size
  | _, _ => .place artifact.uri

theorem ArtifactRef.identityJson_eq (artifact : ArtifactRef) :
    artifact.identityJson = artifact.traceArtifact.json := by
  unfold ArtifactRef.traceArtifact ArtifactRef.identityJson
  cases artifact.sha256 <;> cases artifact.sizeBytes <;> rfl

theorem optional_identityJson (artifact : Option ArtifactRef) :
    JsonText.optional ArtifactRef.identityJson artifact =
      JsonText.optional TraceArtifact.json (artifact.map ArtifactRef.traceArtifact) := by
  cases artifact with
  | none => rfl
  | some artifact => exact artifact.identityJson_eq

/-- The same kernel, selector, config artifact and instrument modes; a selector without a kernel
means the work unit's. -/
structure SameTrace (unit : WorkUnit) (a b : TraceOptions) : Prop where
  kernel : sameKernel (a.selector.kernel.or unit.kernel) (b.selector.kernel.or unit.kernel) = true
  selector : { a.selector with kernel := none } = { b.selector with kernel := none }
  artifact : a.configArtifact.map ArtifactRef.traceArtifact =
    b.configArtifact.map ArtifactRef.traceArtifact
  modes : a.effectiveInstrumentModes = b.effectiveInstrumentModes

/-- Normalised modes are not the primary mode alone, and normalising them again changes nothing. -/
theorem traceInstrumentModes_ok {primary : ExperimentKind} {modes normalized : List String}
    (h : traceInstrumentModes primary modes = .ok normalized) :
    normalized ≠ [primary.value] ∧ traceInstrumentModes primary normalized = .ok normalized := by
  unfold traceInstrumentModes at h
  dsimp only at h
  split_ifs at h with hallowed hempty hprimary hsingle
  · cases h
    exact ⟨by simp, rfl⟩
  · cases h
    exact ⟨by simp, rfl⟩
  · cases h
    refine ⟨hsingle, ?_⟩
    simp only [Bool.not_eq_true', Bool.not_eq_false] at hallowed hprimary
    have hmem : primary.value ∈ ["reg_trace", "mem_value_trace", "tma_trace"].filter modes.contains := by
      refine List.mem_filter.mpr ⟨?_, hprimary⟩
      have := List.all_eq_true.mp hallowed primary.value (List.contains_iff_mem.mp hprimary)
      exact List.contains_iff_mem.mp this
    have hfilter : ["reg_trace", "mem_value_trace", "tma_trace"].filter
        (["reg_trace", "mem_value_trace", "tma_trace"].filter modes.contains).contains =
        ["reg_trace", "mem_value_trace", "tma_trace"].filter modes.contains := by
      apply List.filter_congr
      intro mode hmode
      rw [Bool.eq_iff_iff, List.contains_iff_mem, List.mem_filter]
      exact and_iff_right hmode
    unfold traceInstrumentModes
    dsimp only
    rw [hfilter, if_neg, if_neg, if_neg, if_neg hsingle]
    · rw [List.contains_iff_mem.mpr hmem]
      exact Bool.false_ne_true
    · simpa using List.ne_nil_of_mem hmem
    · simp only [Bool.not_eq_true', Bool.not_eq_false]
      rw [List.all_eq_true]
      intro mode hmode
      exact List.contains_iff_mem.mpr (List.mem_filter.mp hmode).1

theorem effectiveInstrumentModes_make {mode : ExperimentKind} {limit : ℤ} {selector : TraceSelector}
    {artifact : Option ArtifactRef} {modes : List String} {options : TraceOptions}
    (h : TraceOptions.make mode limit selector artifact modes = .ok options) :
    options.instrumentModes ≠ [mode.value] ∧
      options.effectiveInstrumentModes =
        if options.instrumentModes = [] then [mode.value] else options.instrumentModes := by
  obtain ⟨normalized, hmodes, h⟩ := bind_ok h
  obtain ⟨hsingle, hagain⟩ := traceInstrumentModes_ok hmodes
  split_ifs at h
  cases h
  refine ⟨hsingle, ?_⟩
  unfold TraceOptions.effectiveInstrumentModes
  dsimp only
  rw [hagain]
  cases normalized <;> rfl

/-- Where both explicit offsets and a config are selected, the offsets are traced. -/
def TraceSelector.effective (selector : TraceSelector) : TraceSelector :=
  if !selector.pcOffsets.isEmpty && selector.configSource.isSome then
    { selector with configSource := none }
  else selector

theorem TraceSelector.effective_kernel (selector : TraceSelector) :
    selector.effective.kernel = selector.kernel := by
  unfold TraceSelector.effective
  split_ifs <;> rfl

/-- A trace request that resolves names the work unit's kernel or none. -/
theorem resolveTraceOptions_inv {session : AnalysisSession} {request : ExperimentRequest} {limit : ℤ}
    {options : TraceOptions} {note : Option String}
    (h : resolveTraceOptions session request limit = .ok (options, note)) :
    ∃ artifact, pinned session.unit.kernel = true ∧
      ((request.traceSelector.getD TraceSelector.default).kernel.isSome →
        sameKernel (request.traceSelector.getD TraceSelector.default).kernel session.unit.kernel) ∧
      TraceOptions.make request.kind limit
        (request.traceSelector.getD TraceSelector.default).effective artifact request.instrumentModes =
          .ok options := by
  unfold resolveTraceOptions at h
  by_cases hpinned : (!pinned session.unit.kernel) = true
  · rw [if_pos hpinned] at h
    cases h
  rw [if_neg hpinned] at h
  dsimp only at h
  by_cases hkernel : ((request.traceSelector.getD TraceSelector.default).kernel.isSome &&
      !sameKernel (request.traceSelector.getD TraceSelector.default).kernel session.unit.kernel) = true
  · rw [if_pos hkernel] at h
    cases h
  rw [if_neg hkernel] at h
  have hkernel' : (request.traceSelector.getD TraceSelector.default).kernel.isSome →
      sameKernel (request.traceSelector.getD TraceSelector.default).kernel session.unit.kernel := by
    intro hsome
    simpa [hsome] using hkernel
  have hmade : ∃ artifact, TraceOptions.make request.kind limit
      (request.traceSelector.getD TraceSelector.default).effective artifact request.instrumentModes =
        .ok options := by
    unfold TraceSelector.effective
    split_ifs at h ⊢ with hboth
    · obtain ⟨artifact, -, h⟩ := bind_ok h
      obtain ⟨made, hmake, h⟩ := bind_ok h
      exact ⟨artifact, (Prod.mk.inj (Except.ok.inj h)).1 ▸ hmake⟩
    · split at h
      · obtain ⟨artifact, -, h⟩ := bind_ok h
        obtain ⟨made, hmake, h⟩ := bind_ok h
        exact ⟨artifact, (Prod.mk.inj (Except.ok.inj h)).1 ▸ hmake⟩
      · obtain ⟨artifact, -, h⟩ := bind_ok h
        obtain ⟨made, hmake, h⟩ := bind_ok h
        exact ⟨artifact, (Prod.mk.inj (Except.ok.inj h)).1 ▸ hmake⟩
  obtain ⟨artifact, hmake⟩ := hmade
  exact ⟨artifact, by simpa using hpinned, hkernel', hmake⟩

theorem make_fields {mode : ExperimentKind} {limit : ℤ} {selector : TraceSelector}
    {artifact : Option ArtifactRef} {modes : List String} {options : TraceOptions}
    (h : TraceOptions.make mode limit selector artifact modes = .ok options) :
    options.mode = mode ∧ options.selector = selector := by
  obtain ⟨normalized, -, h⟩ := bind_ok h
  split_ifs at h
  cases h
  exact ⟨rfl, rfl⟩

/-- The selector that is hashed: the work unit's kernel is left out. -/
theorem hashed_selector {session : AnalysisSession} {request : ExperimentRequest} {limit : ℤ}
    {options : TraceOptions} {note : Option String}
    (h : resolveTraceOptions session request limit = .ok (options, note)) :
    (if sameKernel options.selector.kernel session.unit.kernel then
      { options.selector with kernel := none } else options.selector) =
        { options.selector with kernel := none } := by
  obtain ⟨artifact, -, hkernel, hmake⟩ := resolveTraceOptions_inv h
  obtain ⟨-, hselector⟩ := make_fields hmake
  split_ifs with hsame
  · rfl
  · have hnone : options.selector.kernel = none := by
      rw [← Option.not_isSome_iff_eq_none]
      intro hsome
      rw [hselector, TraceSelector.effective_kernel] at hsome hsame
      exact hsame (hkernel hsome)
    cases hs : options.selector
    rw [hs] at hnone
    dsimp only at hnone
    rw [hnone]

/-- Requests of one kind that resolve to the same trace have the same discriminator. -/
theorem traceOptionsDiscriminator_eq (h : Hashes) {session : AnalysisSession}
    {a b : ExperimentRequest} {limit : ℤ} {oa ob : TraceOptions} {na nb : Option String}
    (ha : resolveTraceOptions session a limit = .ok (oa, na))
    (hb : resolveTraceOptions session b limit = .ok (ob, nb)) (hkind : a.kind = b.kind)
    (hsame : SameTrace session.unit oa ob) :
    traceOptionsDiscriminator h oa session.unit = traceOptionsDiscriminator h ob session.unit := by
  obtain ⟨artifactA, -, -, hmakeA⟩ := resolveTraceOptions_inv ha
  obtain ⟨artifactB, -, -, hmakeB⟩ := resolveTraceOptions_inv hb
  obtain ⟨hsingleA, heffA⟩ := effectiveInstrumentModes_make hmakeA
  obtain ⟨hsingleB, heffB⟩ := effectiveInstrumentModes_make hmakeB
  have hmodes : oa.instrumentModes = ob.instrumentModes := by
    have heff := hsame.modes
    rw [heffA, heffB, ← hkind] at heff
    rw [← hkind] at hsingleB
    split_ifs at heff with hA hB hB
    · rw [hA, hB]
    · exact absurd heff.symm hsingleB
    · exact absurd heff hsingleA
    · exact heff
  have hisNone : oa.configArtifact.isNone = ob.configArtifact.isNone := by
    have := congrArg Option.isNone hsame.artifact
    rwa [Option.isNone_map, Option.isNone_map] at this
  have hjson : JsonText.optional ArtifactRef.identityJson oa.configArtifact =
      JsonText.optional ArtifactRef.identityJson ob.configArtifact := by
    rw [optional_identityJson, optional_identityJson, hsame.artifact]
  unfold traceOptionsDiscriminator
  rw [hashed_selector ha, hashed_selector hb, hsame.selector, hisNone, hmodes, hjson, hsame.modes]

/-! ### Requests and specs -/

namespace ExperimentGuardPolicy

variable {policy : ExperimentGuardPolicy} {h : Hashes} {session : AnalysisSession}

/-- The spec is what the request at an index is built into. -/
def Emits (policy : ExperimentGuardPolicy) (h : Hashes) (session : AnalysisSession)
    (source : ExperimentRequest × ℕ) (spec : ExperimentSpec) : Prop :=
  ∃ discriminator options note,
    policy.discriminate h session session.evidence.triggeringConfig source.1 =
        .ok (discriminator, options, note) ∧
      policy.buildSpec h session source.1 session.evidence.triggeringConfig source.2 discriminator
        options = .ok (.inl spec)

theorem discriminate_trace {config : Option TriggeringDelayConfig} {request : ExperimentRequest}
    {discriminator : String} {options : Option TraceOptions} {note : Option String}
    (htrace : request.kind = .regTrace ∨ request.kind = .memValueTrace)
    (hd : policy.discriminate h session config request = .ok (discriminator, options, note)) :
    ∃ resolved, resolveTraceOptions session request policy.defaultTraceSizeLimitMb =
        .ok (resolved, note) ∧ options = some resolved ∧
      discriminator = traceOptionsDiscriminator h resolved session.unit := by
  have hread : (resolveTraceOptions session request policy.defaultTraceSizeLimitMb >>= fun r =>
      Except.ok (traceOptionsDiscriminator h r.1 session.unit, some r.1, r.2)) =
        Except.ok (discriminator, options, note) := by
    unfold discriminate at hd
    rcases htrace with hkind | hkind <;> rwa [hkind] at hd
  obtain ⟨⟨resolved, note'⟩, hresolve, hread⟩ := bind_ok hread
  obtain ⟨rfl, rfl, rfl⟩ : _ ∧ _ ∧ _ := by simpa using Except.ok.inj hread
  exact ⟨resolved, hresolve, rfl, rfl⟩

/-- Both derivations of the fingerprint give the same key. -/
theorem fingerprint_of_emits {source : ExperimentRequest × ℕ} {spec : ExperimentSpec}
    {discriminator : String} {options : Option TraceOptions} {note : Option String}
    (hd : policy.discriminate h session session.evidence.triggeringConfig source.1 =
      .ok (discriminator, options, note))
    (hbuild : policy.buildSpec h session source.1 session.evidence.triggeringConfig source.2
      discriminator options = .ok (.inl spec)) :
    experimentSpecFingerprint h spec = fingerprint source.1.kind discriminator := by
  obtain ⟨request, index⟩ := source
  dsimp only at hd hbuild ⊢
  have htraces : ∀ kind, request.kind = kind → kind = .regTrace ∨ kind = .memValueTrace →
      (∃ resolved, options = some resolved ∧
        discriminator = traceOptionsDiscriminator h resolved session.unit) := by
    rintro kind rfl htrace
    obtain ⟨resolved, -, hoptions, hdiscriminator⟩ := discriminate_trace htrace hd
    exact ⟨resolved, hoptions, hdiscriminator⟩
  unfold buildSpec at hbuild
  unfold discriminate at hd
  cases hkind : request.kind with
  | computeSanitizer =>
    rw [hkind] at hbuild hd
    obtain rfl := make_inl hbuild
    obtain ⟨rfl, -⟩ : _ ∧ _ := by simpa using Except.ok.inj hd
    simp [experimentSpecFingerprint, common, requestDiscriminator, hkind]
  | randomDelayStress =>
    rw [hkind] at hbuild hd
    dsimp only at hbuild
    split_ifs at hbuild
    · cases hbuild
    obtain rfl := make_inl hbuild
    obtain ⟨rfl, -⟩ : _ ∧ _ := by simpa using Except.ok.inj hd
    simp [experimentSpecFingerprint, common, requestDiscriminator, hkind]
  | regTrace =>
    obtain ⟨resolved, rfl, rfl⟩ := htraces _ hkind (.inl rfl)
    rw [hkind] at hbuild
    obtain rfl := make_inl hbuild
    simp [experimentSpecFingerprint, common, hkind]
  | memValueTrace =>
    obtain ⟨resolved, rfl, rfl⟩ := htraces _ hkind (.inr rfl)
    rw [hkind] at hbuild
    obtain rfl := make_inl hbuild
    simp [experimentSpecFingerprint, common, hkind]
  | reduceDelayConfig =>
    rw [hkind] at hbuild hd
    dsimp only at hbuild
    unfold buildReduceSpec at hbuild
    split at hbuild
    · rename_i config oracle hconfig horacle
      split at hbuild
      · cases hbuild
      obtain ⟨made, hmake, heq⟩ := bind_ok hbuild
      cases heq
      obtain rfl := make_ok hmake
      obtain ⟨rfl, -⟩ : _ ∧ _ := by simpa using Except.ok.inj hd
      simp [experimentSpecFingerprint, common, requestDiscriminator, hkind, hconfig]
    · cases hbuild
  | kernelDiscovery =>
    rw [hkind] at hbuild
    cases hbuild

/-- The loop over the requests: what was emitted, and for which of them. -/
structure Emitted (policy : ExperimentGuardPolicy) (h : Hashes) (session : AnalysisSession)
    (seen : List (ExperimentRequest × ℕ)) (acc : GuardedExperiments) : Prop where
  prints : acc.experiments.map (experimentSpecFingerprint h) = acc.fingerprints
  nodup : acc.fingerprints.Nodup
  fresh : ∀ print ∈ acc.fingerprints, print ∉ session.experimentFingerprints
  sources : ∃ sources, sources.Sublist seen ∧
    List.Forall₂ (Emits policy h session) sources acc.experiments

theorem Emitted.skip {seen : List (ExperimentRequest × ℕ)} {acc acc' : GuardedExperiments}
    (he : Emitted policy h session seen acc) (source : ExperimentRequest × ℕ)
    (hexperiments : acc'.experiments = acc.experiments)
    (hprints : acc'.fingerprints = acc.fingerprints) :
    Emitted policy h session (seen ++ [source]) acc' := by
  obtain ⟨sources, hsub, hemits⟩ := he.sources
  refine ⟨?_, ?_, ?_, sources, hsub.trans (List.sublist_append_left _ _), ?_⟩
  · rw [hexperiments, hprints, he.prints]
  · rw [hprints]
    exact he.nodup
  · rw [hprints]
    exact he.fresh
  · rwa [hexperiments]

theorem Emitted.consider {seen : List (ExperimentRequest × ℕ)} {acc acc' : GuardedExperiments}
    (he : Emitted policy h session seen acc) {source : ExperimentRequest × ℕ}
    (hstep : policy.consider h session session.evidence.triggeringConfig acc source = .ok acc') :
    Emitted policy h session (seen ++ [source]) acc' := by
  unfold ExperimentGuardPolicy.consider at hstep
  split at hstep
  · cases hstep
    exact he.skip source rfl rfl
  · rename_i discriminator options note hd
    dsimp only at hstep
    split at hstep
    · cases hstep
      exact he.skip source rfl rfl
    · rename_i hprint
      obtain ⟨hnew, hnew'⟩ := not_or.mp hprint
      obtain ⟨built, hbuild, hstep⟩ := bind_ok hstep
      cases built with
      | inr rejection =>
        cases hstep
        exact he.skip source rfl rfl
      | inl spec =>
        cases hstep
        obtain ⟨sources, hsub, hemits⟩ := he.sources
        refine ⟨?_, ?_, ?_, sources ++ [source], hsub.append (List.Sublist.refl _), ?_⟩
        · rw [List.map_append, List.map_singleton, fingerprint_of_emits hd hbuild, he.prints]
        · exact he.nodup.append (List.nodup_singleton _) (by simpa using hnew')
        · intro print hmem
          rcases List.mem_append.mp hmem with hmem | hmem
          · exact he.fresh print hmem
          · rw [List.mem_singleton.mp hmem]
            exact hnew
        · exact List.rel_append hemits (.cons ⟨_, _, _, hd, hbuild⟩ .nil)

theorem Emitted.run {xs seen : List (ExperimentRequest × ℕ)} {acc guarded : GuardedExperiments}
    (he : Emitted policy h session seen acc)
    (hrun : xs.foldlM (policy.consider h session session.evidence.triggeringConfig) acc =
      .ok guarded) : Emitted policy h session (seen ++ xs) guarded := by
  induction xs generalizing seen acc with
  | nil =>
    cases hrun
    rwa [List.append_nil]
  | cons x xs ih =>
    rw [List.foldlM_cons] at hrun
    obtain ⟨acc', hstep, hrest⟩ := bind_ok hrun
    have hnext := ih (he.consider hstep) hrest
    rwa [List.append_assoc, List.singleton_append] at hnext

/-- The options that two trace requests resolve to are of one effective trace. -/
def ResolveSame (policy : ExperimentGuardPolicy) (session : AnalysisSession)
    (a b : ExperimentRequest) : Prop :=
  (a.kind = .regTrace ∨ a.kind = .memValueTrace) ∧ (b.kind = .regTrace ∨ b.kind = .memValueTrace) ∧
    ∃ oa na ob nb, resolveTraceOptions session a policy.defaultTraceSizeLimitMb = .ok (oa, na) ∧
      resolveTraceOptions session b policy.defaultTraceSizeLimitMb = .ok (ob, nb) ∧
      SameTrace session.unit oa ob

theorem fingerprint_of_resolveSame {a b : ExperimentRequest × ℕ} {sa sb : ExperimentSpec}
    (ha : Emits policy h session a sa) (hb : Emits policy h session b sb)
    (hkind : a.1.kind = b.1.kind) (hsame : ResolveSame policy session a.1 b.1) :
    experimentSpecFingerprint h sa = experimentSpecFingerprint h sb := by
  obtain ⟨da, ta, na, hda, hbuildA⟩ := ha
  obtain ⟨db, tb, nb, hdb, hbuildB⟩ := hb
  obtain ⟨htraceA, htraceB, oa, na', ob, nb', hoa, hob, hequal⟩ := hsame
  rw [fingerprint_of_emits hda hbuildA, fingerprint_of_emits hdb hbuildB]
  obtain ⟨ra, hra, -, rfl⟩ := discriminate_trace htraceA hda
  obtain ⟨rb, hrb, -, rfl⟩ := discriminate_trace htraceB hdb
  obtain rfl : ra = oa := (Prod.mk.inj (Except.ok.inj (hra.symm.trans hoa))).1
  obtain rfl : rb = ob := (Prod.mk.inj (Except.ok.inj (hrb.symm.trans hob))).1
  rw [hkind, traceOptionsDiscriminator_eq h hoa hob hkind hequal]

/-- Of things with different labels, no two are related by what makes labels equal. -/
theorem pairwise_of_labels {α β γ : Type} {R : α → β → Prop} {S : α → α → Prop} {label : β → γ}
    {xs : List α} {ys : List β} (hrel : List.Forall₂ R xs ys) (hnodup : (ys.map label).Nodup)
    (hsame : ∀ x x' y y', R x y → R x' y' → S x x' → label y = label y') :
    xs.Pairwise fun x x' => ¬S x x' := by
  induction hrel with
  | nil => exact .nil
  | @cons x y xs ys hxy hrest ih =>
    rw [List.map_cons, List.nodup_cons] at hnodup
    refine .cons (fun x' hx' hS => ?_) (ih hnodup.2)
    obtain ⟨y', hy', hxy'⟩ := forall₂_mem_right hrest.flip hx'
    exact hnodup.1 (List.mem_map.mpr ⟨y', hy', (hsame x x' y y' hxy hxy' hS).symm⟩)

/-- Every emitted spec has the fingerprint at its index, all fingerprints are new, and of the
requests that the specs come from no two of one kind resolve to the same effective trace. -/
theorem expand_fingerprints (policy : ExperimentGuardPolicy) (h : Hashes) (session : AnalysisSession)
    (requests : List ExperimentRequest) (guarded : GuardedExperiments)
    (hexpand : policy.expand h session requests = .ok guarded) :
    guarded.experiments.map (experimentSpecFingerprint h) = guarded.fingerprints ∧
      guarded.fingerprints.Nodup ∧
      (∀ print ∈ guarded.fingerprints, print ∉ session.experimentFingerprints) ∧
      (∃ sources, sources.Sublist (policy.requested session requests).zipIdx ∧
        List.Forall₂ (Emits policy h session) sources guarded.experiments) ∧
      ∀ sources, List.Forall₂ (Emits policy h session) sources guarded.experiments →
        sources.Pairwise fun a b => ¬(a.1.kind = b.1.kind ∧ ResolveSame policy session a.1 b.1) := by
  have hstart : Emitted policy h session [] ⟨[], [], [], []⟩ :=
    ⟨rfl, List.nodup_nil, nofun, [], .slnil, .nil⟩
  have hrun := hstart.run hexpand
  refine ⟨hrun.prints, hrun.nodup, hrun.fresh, hrun.sources, fun sources hemits => ?_⟩
  exact pairwise_of_labels hemits (hrun.prints ▸ hrun.nodup) fun a b sa sb ha hb hab =>
    fingerprint_of_resolveSame ha hb hab.1 hab.2

def pinnedSession : AnalysisSession :=
  { raceSession with unit := { raceUnit with kernel := some ⟨"add_kernel", "9f3c", none⟩ } }

/-- A trace of registers and memory values in one run. -/
def bothModes (kind : ExperimentKind) : ExperimentRequest :=
  ⟨kind, "registers and values of one execution", none, ["reg_trace", "mem_value_trace"]⟩

def plainHashes : Hashes := ⟨id, id⟩

/-- Two trace requests and the first one again, which become two specs. -/
theorem expand_fingerprints_pinned :
    ∃ guarded, default.expand plainHashes pinnedSession
        [bothModes .regTrace, bothModes .memValueTrace, bothModes .regTrace] = .ok guarded ∧
      guarded.experiments.length = 2 ∧ guarded.fingerprints.Nodup ∧
      guarded.experiments.map (experimentSpecFingerprint plainHashes) = guarded.fingerprints := by
  have hcount : (default.expand plainHashes pinnedSession
      [bothModes .regTrace, bothModes .memValueTrace, bothModes .regTrace]).toOption.map
        (fun guarded => guarded.experiments.length) = some 2 := by decide +kernel
  obtain ⟨guarded, hsome, hlength⟩ := Option.map_eq_some_iff.mp hcount
  have hexpand := toOption_eq_some.mp hsome
  obtain ⟨hprints, hnodup, -⟩ := expand_fingerprints default plainHashes pinnedSession _ guarded hexpand
  exact ⟨guarded, hexpand, hlength, hnodup, hprints⟩

/-- A register trace and a memory value trace that both record registers and values are one
effective trace and two specs: the kind is part of the key. -/
theorem same_trace_of_two_kinds :
    ¬∀ (policy : ExperimentGuardPolicy) (h : Hashes) (session : AnalysisSession)
      (requests : List ExperimentRequest) (guarded : GuardedExperiments),
      policy.expand h session requests = .ok guarded →
        ∀ sources, List.Forall₂ (Emits policy h session) sources guarded.experiments →
          sources.Pairwise fun a b => ¬ResolveSame policy session a.1 b.1 := by
  intro hclaim
  have hpairs := hclaim default plainHashes pinnedSession
    [bothModes .regTrace, bothModes .memValueTrace] _ rfl
    [(bothModes .regTrace, 0), (bothModes .memValueTrace, 1)]
    (.cons ⟨_, _, _, rfl, rfl⟩ (.cons ⟨_, _, _, rfl, rfl⟩ .nil))
  have hsame : ResolveSame default pinnedSession (bothModes .regTrace) (bothModes .memValueTrace) :=
    ⟨.inl rfl, .inr rfl, _, _, _, _, rfl, rfl, ⟨rfl, rfl, rfl, rfl⟩⟩
  exact List.rel_of_pairwise_cons hpairs (List.mem_singleton_self _) hsame

end ExperimentGuardPolicy

end CuTracer.Service
