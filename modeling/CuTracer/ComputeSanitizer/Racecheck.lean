import CuTracer.ComputeSanitizer.Parser

/-! The racecheck parser a line at a time: what a line is, what it does to the block that is open, and
that a diagnostic stays. -/

namespace CuTracer.ComputeSanitizer

open Regex

/-! ### Lines -/

/-- The lines of the tool, without what is before them. -/
def sanitizerBodies (text : Text) : List Text := (splitLines text).filterMap sanitizerBody

def isRace (body : Text) : Bool := contains "Race reported between" body

def isBrokenConflict (body : Text) : Bool := startsWith "and " body && contains " access " body

/-- What a line is, whatever block is open. -/
inductive LineKind (u : CharTable) where
  | internalError
  | summary (m : Option (Match (summaryRe u)))
  | truncation
  | invalid (m : Match (invalidAccessRe u))
  | header (m : Match (headerRe u))
  | other

section Lines

variable (u : CharTable)

def lineKind (body : Text) : LineKind u :=
  if isInternalToolError body then .internalError
  else if contains "RACECHECK SUMMARY:" body then .summary ((summaryRe u).fullMatch body)
  else if startsWith "Warning: Maximum number of hazards reached" body then .truncation
  else
    match (invalidAccessRe u).matchStart body with
    | some m => .invalid m
    | none =>
      match (headerRe u).matchStart body with
      | some m => .header m
      | none => .other

def isInvalidAccess (body : Text) : Bool := ((invalidAccessRe u).matchStart body).isSome

structure IsConflict (body : Text) : Prop where
  kind : lineKind u body = .other
  no_race : isRace body = false
  reads : ((conflictRe u).matchStart body).isSome

/-- A line without a place of its own, which may stand before a site. -/
structure IsPlain (body : Text) : Prop where
  kind : lineKind u body = .other
  no_site : (invalidSiteRe u).matchStart body = none

structure IsSite (body : Text) : Prop where
  kind : lineKind u body = .other
  reads : ((invalidSiteRe u).matchStart body).isSome

end Lines

variable {u : CharTable}

theorem lineKind_spec (body : Text) :
    match lineKind u body with
    | .internalError => isInternalToolError body = true
    | .summary m => (summaryRe u).fullMatch body = m
    | .truncation => startsWith "Warning: Maximum number of hazards reached" body = true
    | .invalid m => (invalidAccessRe u).matchStart body = some m
    | .header m => (invalidAccessRe u).matchStart body = none ∧ (headerRe u).matchStart body = some m
    | .other => (invalidAccessRe u).matchStart body = none ∧ (headerRe u).matchStart body = none := by
  unfold lineKind
  by_cases hinternal : isInternalToolError body
  · simp [hinternal]
  by_cases hsummary : contains "RACECHECK SUMMARY:" body
  · simp [hinternal, hsummary]
  by_cases htruncation : startsWith "Warning: Maximum number of hazards reached" body
  · simp [hinternal, hsummary, htruncation]
  cases hinvalid : (invalidAccessRe u).matchStart body with
  | some m => simp [hinternal, hsummary, htruncation]
  | none => cases hheader : (headerRe u).matchStart body <;> simp [hinternal, hsummary, htruncation]

theorem lineKind_other {body : Text} (h : lineKind u body = .other) :
    (headerRe u).matchStart body = none := by
  have hspec := lineKind_spec (u := u) body
  rw [h] at hspec
  exact hspec.2

/-! ### A line at a time -/

theorem total_captured : "total" ∈ (summaryRe u).captures := by simp [summaryRe, chain, captures]

theorem errors_captured : "errors" ∈ (summaryRe u).captures := by simp [summaryRe, chain, captures]

theorem warnings_captured : "warnings" ∈ (summaryRe u).captures := by simp [summaryRe, chain, captures]

def summaryOf (m : Match (summaryRe u)) (body : Text) : RacecheckSummary where
  totalHazards := u.int (m.get "total" total_captured)
  errors := u.int (m.get "errors" errors_captured)
  warnings := u.int (m.get "warnings" warnings_captured)
  raw := body

namespace RacecheckParser

/-- `consume` of a line of the tool. -/
def consumeBody (p : RacecheckParser u) (body : Text) : RacecheckParser u :=
  if isInternalToolError body then p.flush.diagnose .internalToolError
  else
    match p.consumeSummary body with
    | some p => p
    | none =>
      match p.consumeAuxiliaryBlock body with
      | (p, true) => p
      | (p, false) => p.consumeFinding body

theorem foldl_consume (p : RacecheckParser u) (lines : List Text) :
    lines.foldl consume p = (lines.filterMap sanitizerBody).foldl consumeBody p := by
  induction lines generalizing p with
  | nil => rfl
  | cons line lines ih =>
    rw [List.foldl_cons, ih, List.filterMap_cons, consume]
    cases sanitizerBody line with
    | none => rfl
    | some body => rfl

@[simp] theorem flush_flush (p : RacecheckParser u) : p.flush.flush = p.flush := rfl

theorem flush_lookahead (p : RacecheckParser u) (n : ℕ) :
    flush { p with invalidLookahead := n } = p.flush := by
  unfold flush flushHeader flushInvalid
  cases p.header with
  | none => cases p.pendingInvalid <;> rfl
  | some header =>
    by_cases hconflicts : p.conflicts.isEmpty
    · cases hpending : p.pendingInvalid <;> simp [hconflicts, hpending, diagnose]
    · cases p.pendingInvalid <;> simp [hconflicts]

/-- A line of no kind, in the block that is open. -/
def consumeOther (p : RacecheckParser u) (body : Text) : RacecheckParser u :=
  match p.pendingInvalid with
  | none => p.consumeFinding body
  | some m =>
    match p.consumePending m body with
    | (p, true) => p
    | (p, false) => p.consumeFinding body

/-- What a line does, by its kind. All kinds but one close the block that is open. -/
theorem consumeBody_eq (p : RacecheckParser u) (body : Text) :
    p.consumeBody body =
      match lineKind u body with
      | .internalError => p.flush.diagnose .internalToolError
      | .summary (some m) =>
        { p.flush with
          summaryMarkers := p.flush.summaryMarkers + 1
          summary := some (summaryOf m body) }
      | .summary none =>
        diagnose { p.flush with summaryMarkers := p.flush.summaryMarkers + 1 } .malformedSummary
      | .truncation => { p.flush with outputTruncated := true }
      | .invalid m => { p.flush with pendingInvalid := some m, rawLines := [body] }
      | .header m => { p.flush with header := some m, rawLines := [body] }
      | .other => p.consumeOther body := by
  unfold consumeBody lineKind consumeSummary consumeAuxiliaryBlock
  by_cases hinternal : isInternalToolError body
  · simp [hinternal]
  by_cases hsummary : contains "RACECHECK SUMMARY:" body
  · cases (summaryRe u).fullMatch body <;> simp [hinternal, hsummary, summaryOf]
  by_cases htruncation : startsWith "Warning: Maximum number of hazards reached" body
  · simp [hinternal, hsummary, htruncation]
  cases (invalidAccessRe u).matchStart body with
  | some m => simp [hinternal, hsummary, htruncation]
  | none =>
    cases hheader : (headerRe u).matchStart body with
    | some m =>
      -- before a site, the header first closes the block
      cases p.pendingInvalid <;>
        simp [hinternal, hsummary, htruncation, hheader, consumePending, consumeFinding]
    | none =>
      cases hpending : p.pendingInvalid <;> simp [hinternal, hsummary, htruncation, hpending, consumeOther]

/-- A line that closes the block that is open closes it first. -/
theorem consumeBody_flush (p : RacecheckParser u) {body : Text} (h : lineKind u body ≠ .other) :
    p.consumeBody body = p.flush.consumeBody body := by
  rw [consumeBody_eq, consumeBody_eq]
  cases hkind : lineKind u body with
  | summary m => cases m <;> rfl
  | other => exact absurd hkind h
  | _ => rfl

/-! ### Diagnostics stay -/

theorem subset_diagnose (p : RacecheckParser u) (issue : RacecheckParseDiagnostic) :
    p.diagnostics ⊆ (p.diagnose issue).diagnostics := by
  intro d hd
  change d ∈ ComputeSanitizer.diagnose p.diagnostics issue
  unfold ComputeSanitizer.diagnose
  split_ifs
  · exact hd
  · exact List.mem_append_left _ hd

theorem mem_diagnose (p : RacecheckParser u) (issue : RacecheckParseDiagnostic) :
    issue ∈ (p.diagnose issue).diagnostics := by
  change issue ∈ ComputeSanitizer.diagnose p.diagnostics issue
  unfold ComputeSanitizer.diagnose
  split_ifs with h
  · exact h
  · exact List.mem_append_right _ List.mem_cons_self

theorem diagnostics_flush (p : RacecheckParser u) : p.flush.diagnostics = p.flushHeader.diagnostics := by
  change p.flushHeader.flushInvalid.diagnostics = _
  unfold flushInvalid
  cases p.flushHeader.pendingInvalid <;> rfl

theorem subset_flush (p : RacecheckParser u) : p.diagnostics ⊆ p.flush.diagnostics := by
  rw [diagnostics_flush]
  unfold flushHeader
  cases p.header with
  | none => exact List.Subset.refl _
  | some m =>
    dsimp only
    split_ifs
    · exact subset_diagnose p _
    · exact List.Subset.refl _

theorem subset_consumeFinding (p : RacecheckParser u) (body : Text) :
    p.diagnostics ⊆ (p.consumeFinding body).diagnostics := by
  unfold consumeFinding
  cases (headerRe u).matchStart body with
  | some m => exact p.subset_flush
  | none =>
    dsimp only
    split_ifs
    · exact List.Subset.trans p.subset_flush (subset_diagnose _ _)
    · exact List.Subset.refl _
    · cases (conflictRe u).matchStart body with
      | some m => exact List.Subset.refl _
      | none => exact List.Subset.trans (subset_diagnose p _) (subset_flush _)
    · cases (conflictRe u).matchStart body with
      | some m => exact List.Subset.refl _
      | none => exact p.subset_flush

theorem subset_consumeOther (p : RacecheckParser u) (body : Text) :
    p.diagnostics ⊆ (p.consumeOther body).diagnostics := by
  unfold consumeOther
  cases p.pendingInvalid with
  | none => exact p.subset_consumeFinding body
  | some m =>
    unfold consumePending
    split_ifs
    · exact List.Subset.trans p.subset_flush (subset_consumeFinding _ body)
    · cases (invalidSiteRe u).matchStart body with
      | some site => exact List.Subset.refl _
      | none =>
        dsimp only
        split_ifs
        · exact List.Subset.refl _
        · exact List.Subset.trans (subset_flush { p with invalidLookahead := p.invalidLookahead + 1 })
            (subset_consumeFinding _ body)

theorem subset_consumeBody (p : RacecheckParser u) (body : Text) :
    p.diagnostics ⊆ (p.consumeBody body).diagnostics := by
  rw [consumeBody_eq]
  cases lineKind u body with
  | internalError => exact List.Subset.trans p.subset_flush (subset_diagnose _ _)
  | summary m =>
    cases m with
    | none =>
      exact List.Subset.trans p.subset_flush
        (subset_diagnose { p.flush with summaryMarkers := p.flush.summaryMarkers + 1 } _)
    | some m => exact p.subset_flush
  | truncation => exact p.subset_flush
  | invalid m => exact p.subset_flush
  | header m => exact p.subset_flush
  | other => exact p.subset_consumeOther body

theorem subset_foldl (p : RacecheckParser u) (bodies : List Text) :
    p.diagnostics ⊆ (bodies.foldl consumeBody p).diagnostics := by
  induction bodies generalizing p with
  | nil => exact List.Subset.refl _
  | cons body bodies ih => exact List.Subset.trans (p.subset_consumeBody body) (ih _)

variable {p : RacecheckParser u}

/-- What has been diagnosed shows at the end. -/
theorem diagnosed {issue : RacecheckParseDiagnostic} (h : issue ∈ p.diagnostics)
    (bodies : List Text) : (bodies.foldl consumeBody p).flush.diagnostics ≠ [] :=
  List.ne_nil_of_mem (subset_flush _ (p.subset_foldl bodies h))

/-! ### Open blocks -/

structure Idle (p : RacecheckParser u) : Prop where
  header : p.header = none
  conflicts : p.conflicts = []
  rawLines : p.rawLines = []
  pendingInvalid : p.pendingInvalid = none
  invalidLookahead : p.invalidLookahead = 0

theorem idle_flush (p : RacecheckParser u) : p.flush.Idle := ⟨rfl, rfl, rfl, rfl, rfl⟩

theorem Idle.flush (h : p.Idle) : p.flush = p := by
  obtain ⟨hheader, hconflicts, hrawLines, hpending, hlookahead⟩ := h
  unfold RacecheckParser.flush flushHeader
  simp only [hheader, flushInvalid, hpending]
  cases p
  simp_all

/-- A race is open, with the conflicts that have been read. -/
def opened (p : RacecheckParser u) (m : Match (headerRe u)) (header : Text) (conflicts : List Text) :
    RacecheckParser u :=
  { p with
    header := some m
    conflicts := conflicts.filterMap (conflictRe u).matchStart
    rawLines := header :: conflicts }

/-- An invalid access awaits its site, past the lines that have been read. -/
def awaiting (p : RacecheckParser u) (m : Match (invalidAccessRe u)) (header : Text)
    (others : List Text) : RacecheckParser u :=
  { p with
    pendingInvalid := some m
    rawLines := header :: others
    invalidLookahead := others.length }

section Open

variable {p : RacecheckParser u} {body header : Text} {conflicts others : List Text}

theorem consume_header {m : Match (headerRe u)} (hp : p.Idle) (h : lineKind u header = .header m) :
    p.consumeBody header = p.opened m header [] := by
  rw [consumeBody_eq, h]
  simp only [hp.flush, opened, List.filterMap_nil, ← hp.conflicts]

theorem consume_invalid {m : Match (invalidAccessRe u)} (hp : p.Idle)
    (h : lineKind u header = .invalid m) : p.consumeBody header = p.awaiting m header [] := by
  rw [consumeBody_eq, h]
  simp only [hp.flush, awaiting, List.length_nil, ← hp.invalidLookahead]

/-- With nothing open a line of no kind is passed over, unless it mentions a race. -/
theorem consume_closed (hheader : p.header = none) (hpending : p.pendingInvalid = none)
    (h : lineKind u body = .other) :
    p.consumeBody body = if isRace body then p.flush.diagnose .unparsedFinding else p := by
  rw [consumeBody_eq, h]
  simp only [consumeOther, hpending, consumeFinding, lineKind_other h, hheader, Option.isNone_none, if_true]
  rfl

theorem consume_idle (hp : p.Idle) (h : lineKind u body = .other) :
    p.consumeBody body = if isRace body then p.diagnose .unparsedFinding else p := by
  rw [consume_closed hp.header hp.pendingInvalid h, hp.flush]

/-! #### Races -/

variable {m : Match (headerRe u)}

theorem flush_opened (hp : p.Idle) :
    (p.opened m header conflicts).flush =
      if (conflicts.filterMap (conflictRe u).matchStart).isEmpty then p.diagnose .incompleteFinding
      else { p with findings := p.findings ++
        [buildFinding u m (conflicts.filterMap (conflictRe u).matchStart) (header :: conflicts)] } := by
  obtain ⟨hheader, hconflicts, hrawLines, hpending, hlookahead⟩ := hp
  unfold flush flushHeader opened
  dsimp only
  split_ifs with hempty
  · simp [flushInvalid, diagnose, hpending, ← hheader, ← hconflicts, ← hrawLines, ← hlookahead]
  · simp [flushInvalid, hpending, ← hheader, ← hconflicts, ← hrawLines, ← hlookahead]

theorem consume_conflict (hp : p.Idle) (h : IsConflict u body) :
    (p.opened m header conflicts).consumeBody body = p.opened m header (conflicts ++ [body]) := by
  obtain ⟨found, hfound⟩ := Option.isSome_iff_exists.mp h.reads
  have hrace : contains "Race reported between" body = false := h.no_race
  rw [consumeBody_eq, h.kind]
  simp [consumeOther, hp.pendingInvalid, consumeFinding, lineKind_other h.kind, hrace, hfound, opened]

theorem consume_race (hp : p.Idle) (hkind : lineKind u body = .other) (hrace : isRace body = true) :
    (p.opened m header conflicts).consumeBody body =
      (p.opened m header conflicts).flush.diagnose .unparsedFinding := by
  have hpending : (p.opened m header conflicts).pendingInvalid = none := hp.pendingInvalid
  have hcontains : contains "Race reported between" body = true := hrace
  rw [consumeBody_eq, hkind]
  simp only [consumeOther, hpending, consumeFinding, lineKind_other hkind, hcontains, if_true]

/-- A line of no kind that is no conflict closes a race. -/
theorem consume_opened (hp : p.Idle) (hkind : lineKind u body = .other) (hrace : isRace body = false)
    (hconflict : (conflictRe u).matchStart body = none) :
    (p.opened m header conflicts).consumeBody body =
      if isBrokenConflict body then ((p.opened m header conflicts).diagnose .unparsedFinding).flush
      else (p.opened m header conflicts).flush := by
  have hpending : (p.opened m header conflicts).pendingInvalid = none := hp.pendingInvalid
  have hopen : (p.opened m header conflicts).header.isNone = false := rfl
  have hcontains : contains "Race reported between" body = false := hrace
  rw [consumeBody_eq, hkind]
  simp only [consumeOther, hpending, consumeFinding, lineKind_other hkind, hopen, hconflict, hcontains,
    Bool.false_eq_true, if_false]
  unfold isBrokenConflict
  by_cases hbroken : startsWith "and " body && contains " access " body
  · rw [if_pos hbroken, if_pos hbroken]
  · rw [if_neg hbroken, if_neg hbroken]

/-! #### Invalid accesses -/

variable {m : Match (invalidAccessRe u)}

theorem flush_awaiting (hp : p.Idle) :
    (p.awaiting m header others).flush =
      { p with invalidAccesses := p.invalidAccesses ++ [buildInvalidAccess u m none (header :: others)] } := by
  obtain ⟨hheader, hconflicts, hrawLines, hpending, hlookahead⟩ := hp
  unfold flush flushHeader awaiting
  simp only [hheader, flushInvalid]
  simp [← hconflicts, ← hrawLines, ← hpending, ← hlookahead]

theorem consume_plain (h : IsPlain u body) (hlength : others.length < siteLookahead) :
    (p.awaiting m header others).consumeBody body = p.awaiting m header (others ++ [body]) := by
  have hpending : (p.awaiting m header others).pendingInvalid = some m := rfl
  have hlookahead : (p.awaiting m header others).invalidLookahead + 1 ≤ siteLookahead := hlength
  rw [consumeBody_eq, h.kind]
  simp only [consumeOther, hpending, consumePending, lineKind_other h.kind, h.no_site, hlookahead]
  simp [awaiting]

/-- Past the lines that may stand before a site, the next one closes the block. -/
theorem consume_awaiting (h : IsPlain u body) (hlength : others.length = siteLookahead) :
    (p.awaiting m header others).consumeBody body =
      (p.awaiting m header others).flush.consumeBody body := by
  have hpending : (p.awaiting m header others).pendingInvalid = some m := rfl
  have hlookahead : ¬(p.awaiting m header others).invalidLookahead + 1 ≤ siteLookahead := by
    change ¬others.length + 1 ≤ siteLookahead
    omega
  have hclosed : (p.awaiting m header others).flush.pendingInvalid = none := rfl
  rw [consumeBody_eq, consumeBody_eq, h.kind]
  simp only [consumeOther, hpending, hclosed, consumePending, lineKind_other h.kind, h.no_site, hlookahead,
    Option.isSome_none, Bool.false_eq_true, if_false]
  exact congrArg (consumeFinding · body) (flush_lookahead (p.awaiting m header others) _)

theorem consume_site (hp : p.Idle) (h : lineKind u body = .other) {site : Match (invalidSiteRe u)}
    (hsite : (invalidSiteRe u).matchStart body = some site) :
    (p.awaiting m header others).consumeBody body =
      { p with
        invalidAccesses := p.invalidAccesses ++
          [buildInvalidAccess u m (some site) (header :: others ++ [body])]
        invalidLookahead := others.length } := by
  have hpending : (p.awaiting m header others).pendingInvalid = some m := rfl
  rw [consumeBody_eq, h]
  simp only [consumeOther, hpending, consumePending, lineKind_other h, hsite]
  simp [awaiting, hp.rawLines, hp.pendingInvalid]

end Open

/-- Conflicts after the header are read into the race. -/
theorem foldl_conflicts (hp : p.Idle) {m : Match (headerRe u)} {header : Text} (before : List Text)
    {conflicts : List Text} (h : ∀ line ∈ conflicts, IsConflict u line) :
    conflicts.foldl consumeBody (p.opened m header before) = p.opened m header (before ++ conflicts) := by
  induction conflicts generalizing before with
  | nil => rw [List.append_nil, List.foldl_nil]
  | cons line conflicts ih =>
    obtain ⟨hline, hconflicts⟩ := List.forall_mem_cons.mp h
    rw [List.foldl_cons, consume_conflict hp hline, ih _ hconflicts, List.append_assoc, List.singleton_append]

/-- Lines that may stand before a site are kept. -/
theorem foldl_others (p : RacecheckParser u) (m : Match (invalidAccessRe u)) (header : Text)
    (before : List Text) {others : List Text} (h : ∀ line ∈ others, IsPlain u line)
    (hlength : before.length + others.length ≤ siteLookahead) :
    others.foldl consumeBody (p.awaiting m header before) = p.awaiting m header (before ++ others) := by
  induction others generalizing before with
  | nil => rw [List.append_nil, List.foldl_nil]
  | cons line others ih =>
    obtain ⟨hline, hothers⟩ := List.forall_mem_cons.mp h
    rw [List.length_cons] at hlength
    rw [List.foldl_cons, consume_plain hline (by omega),
      ih _ hothers (by rw [List.length_append, List.length_singleton]; omega), List.append_assoc,
      List.singleton_append]

/-- The lines counted before a site do not matter after it. -/
theorem foldl_lookahead (hp : p.Idle) (n : ℕ) (bodies : List Text) :
    (bodies.foldl consumeBody { p with invalidLookahead := n }).flush =
      (bodies.foldl consumeBody p).flush := by
  induction bodies with
  | nil => exact flush_lookahead p n
  | cons body bodies ih =>
    rw [List.foldl_cons, List.foldl_cons]
    by_cases hkind : lineKind u body = .other
    · have hpassed : consumeBody { p with invalidLookahead := n } body =
          if isRace body then flush { p with invalidLookahead := n } |>.diagnose .unparsedFinding
          else { p with invalidLookahead := n } :=
        consume_closed hp.header hp.pendingInvalid hkind
      rw [hpassed, consume_idle hp hkind, flush_lookahead p n, hp.flush]
      split_ifs
      · rfl
      · exact ih
    · rw [consumeBody_flush _ hkind, flush_lookahead p n, ← consumeBody_flush p hkind]

/-- A block that the next line closes may as well be closed before it. -/
theorem foldl_flush {bodies : List Text}
    (h : ∀ line ∈ bodies.head?, p.consumeBody line = p.flush.consumeBody line) :
    (bodies.foldl consumeBody p).flush = (bodies.foldl consumeBody p.flush).flush := by
  cases bodies with
  | nil => rfl
  | cons line bodies => rw [List.foldl_cons, List.foldl_cons, h line rfl]

end RacecheckParser

end CuTracer.ComputeSanitizer
