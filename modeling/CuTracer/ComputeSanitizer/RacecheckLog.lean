import CuTracer.ComputeSanitizer.Racecheck

/-! The logs of racecheck. A log of whole blocks is read block by block and without a diagnostic, and a
log without a diagnostic is such a log. -/

namespace CuTracer.ComputeSanitizer

open Regex

variable {u : CharTable}

/-! ### Whole blocks -/

/-- A race: a header, and one or more conflicts. -/
structure RaceBlock (u : CharTable) where
  header : Text
  found : Match (headerRe u)
  conflicts : List Text
  header_kind : lineKind u header = .header found
  conflicts_ne : conflicts ≠ []
  conflicts_conflict : ∀ line ∈ conflicts, IsConflict u line

/-- An invalid access: a header, a few other lines, and the site if there is one. -/
structure InvalidBlock (u : CharTable) where
  header : Text
  found : Match (invalidAccessRe u)
  others : List Text
  site : Option Text
  header_kind : lineKind u header = .invalid found
  others_le : others.length ≤ siteLookahead
  others_plain : ∀ line ∈ others, IsPlain u line
  site_site : ∀ line ∈ site, IsSite u line

namespace RaceBlock

def lines (b : RaceBlock u) : List Text := b.header :: b.conflicts

def finding (b : RaceBlock u) : RacecheckFinding :=
  buildFinding u b.found (b.conflicts.filterMap (conflictRe u).matchStart) b.lines

/-- A line after a race closes it, without being a conflict that is not read. -/
def ClosedBy (line : Text) : Prop :=
  lineKind u line = .other → (conflictRe u).matchStart line = none ∧ isBrokenConflict line = false

end RaceBlock

namespace InvalidBlock

def lines (b : InvalidBlock u) : List Text := b.header :: (b.others ++ b.site.toList)

def access (b : InvalidBlock u) : RacecheckInvalidAccess :=
  buildInvalidAccess u b.found (b.site.bind (invalidSiteRe u).matchStart) b.lines

/-- A line after an invalid access does not belong to it. -/
def ClosedBy (b : InvalidBlock u) (line : Text) : Prop :=
  b.site = none → lineKind u line = .other →
    b.others.length = siteLookahead ∧ (invalidSiteRe u).matchStart line = none

end InvalidBlock

structure Account where
  findings : List RacecheckFinding
  invalidAccesses : List RacecheckInvalidAccess
  summaries : List RacecheckSummary
  outputTruncated : Bool

variable (u) in
/-- A log of whole blocks, with lines of no kind between them. -/
inductive Log : List Text → Account → Prop where
  | nil : Log [] ⟨[], [], [], false⟩
  | other {body : Text} {bodies : List Text} {a : Account} (kind : lineKind u body = .other)
      (no_race : isRace body = false) (rest : Log bodies a) : Log (body :: bodies) a
  | truncation {body : Text} {bodies : List Text} {a : Account} (kind : lineKind u body = .truncation)
      (rest : Log bodies a) : Log (body :: bodies) { a with outputTruncated := true }
  | summary {body : Text} {bodies : List Text} {a : Account} {m : Match (summaryRe u)}
      (kind : lineKind u body = .summary (some m)) (rest : Log bodies a) :
      Log (body :: bodies) { a with summaries := summaryOf m body :: a.summaries }
  | race (block : RaceBlock u) {bodies : List Text} {a : Account}
      (closed : ∀ line ∈ bodies.head?, RaceBlock.ClosedBy (u := u) line) (rest : Log bodies a) :
      Log (block.lines ++ bodies) { a with findings := block.finding :: a.findings }
  | invalid (block : InvalidBlock u) {bodies : List Text} {a : Account}
      (closed : ∀ line ∈ bodies.head?, block.ClosedBy line) (rest : Log bodies a) :
      Log (block.lines ++ bodies) { a with invalidAccesses := block.access :: a.invalidAccesses }

/-! ### Reading whole blocks -/

namespace RacecheckParser

def add (p : RacecheckParser u) (a : Account) : RacecheckParser u :=
  { p with
    findings := p.findings ++ a.findings
    invalidAccesses := p.invalidAccesses ++ a.invalidAccesses
    summary := a.summaries.getLast?.or p.summary
    summaryMarkers := p.summaryMarkers + a.summaries.length
    outputTruncated := p.outputTruncated || a.outputTruncated }

/-- A whole race closes into its finding. -/
theorem run_race {p : RacecheckParser u} (hp : p.Idle) (block : RaceBlock u) {bodies : List Text}
    (closed : ∀ line ∈ bodies.head?, RaceBlock.ClosedBy (u := u) line) :
    ((block.lines ++ bodies).foldl consumeBody p).flush =
      (bodies.foldl consumeBody { p with findings := p.findings ++ [block.finding] }).flush := by
  have hread : (block.conflicts.filterMap (conflictRe u).matchStart).isEmpty = false := by
    obtain ⟨line, hline⟩ := List.exists_mem_of_ne_nil _ block.conflicts_ne
    obtain ⟨m, hm⟩ := Option.isSome_iff_exists.mp (block.conflicts_conflict line hline).reads
    have hmem : m ∈ block.conflicts.filterMap (conflictRe u).matchStart :=
      List.mem_filterMap.mpr ⟨line, hline, hm⟩
    simpa using List.ne_nil_of_mem hmem
  have hflush : (p.opened block.found block.header block.conflicts).flush =
      { p with findings := p.findings ++ [block.finding] } := by
    rw [flush_opened hp, hread]
    rfl
  rw [RaceBlock.lines, List.cons_append, List.foldl_cons, consume_header hp block.header_kind,
    List.foldl_append, foldl_conflicts hp [] block.conflicts_conflict, List.nil_append, foldl_flush, hflush]
  intro line hline
  by_cases hkind : lineKind u line = .other
  · obtain ⟨hconflict, hbroken⟩ := closed line hline hkind
    rw [consume_idle (idle_flush _) hkind]
    by_cases hrace : isRace line
    · rw [consume_race hp hkind hrace, hrace, if_pos rfl]
    · rw [Bool.not_eq_true] at hrace
      rw [consume_opened hp hkind hrace hconflict, hbroken, hrace]
      rfl
  · exact consumeBody_flush _ hkind

/-- A whole invalid access is read with its site. -/
theorem run_invalid {p : RacecheckParser u} (hp : p.Idle) (block : InvalidBlock u) {bodies : List Text}
    (closed : ∀ line ∈ bodies.head?, block.ClosedBy line) :
    ((block.lines ++ bodies).foldl consumeBody p).flush =
      (bodies.foldl consumeBody { p with invalidAccesses := p.invalidAccesses ++ [block.access] }).flush := by
  have hothers := foldl_others p block.found block.header [] block.others_plain
    (by simpa using block.others_le)
  rw [InvalidBlock.lines, List.cons_append, List.foldl_cons, consume_invalid hp block.header_kind,
    List.foldl_append, List.foldl_append, hothers, List.nil_append]
  cases hsite : block.site with
  | none =>
    have hflush : (p.awaiting block.found block.header block.others).flush =
        { p with invalidAccesses := p.invalidAccesses ++ [block.access] } := by
      rw [flush_awaiting hp]
      simp [InvalidBlock.access, InvalidBlock.lines, hsite]
    rw [Option.toList_none, List.foldl_nil, foldl_flush, hflush]
    intro line hline
    by_cases hkind : lineKind u line = .other
    · obtain ⟨hlength, hno⟩ := closed line hline hsite hkind
      exact consume_awaiting ⟨hkind, hno⟩ hlength
    · exact consumeBody_flush _ hkind
  | some line =>
    have hline := block.site_site line hsite
    obtain ⟨site, hfound⟩ := Option.isSome_iff_exists.mp hline.reads
    have hclosed : Idle { p with invalidAccesses := p.invalidAccesses ++ [block.access] } :=
      { hp with }
    have haccess : buildInvalidAccess u block.found (some site) (block.header :: block.others ++ [line]) =
        block.access := by
      simp [InvalidBlock.access, InvalidBlock.lines, hsite, hfound]
    rw [Option.toList_some, List.foldl_cons, List.foldl_nil, consume_site hp hline.kind hfound, haccess]
    exact foldl_lookahead hclosed _ bodies

theorem run_log {bodies : List Text} {a : Account} (h : Log u bodies a) {p : RacecheckParser u}
    (hp : p.Idle) : (bodies.foldl consumeBody p).flush = p.add a := by
  induction h generalizing p with
  | nil => simp [add, hp.flush]
  | @other body bodies a kind no_race rest ih =>
    rw [List.foldl_cons, consume_idle hp kind, no_race]
    exact ih hp
  | @truncation body bodies a kind rest ih =>
    have hclosed : Idle { p with outputTruncated := true } :=
      { hp with }
    rw [List.foldl_cons, consumeBody_eq, kind, hp.flush]
    rw [ih hclosed]
    simp [add]
  | @summary body bodies a m kind rest ih =>
    have hclosed : Idle { p with
        summaryMarkers := p.summaryMarkers + 1
        summary := some (summaryOf m body) } :=
      { hp with }
    rw [List.foldl_cons, consumeBody_eq, kind, hp.flush]
    rw [ih hclosed]
    have hcount : p.summaryMarkers + 1 + a.summaries.length = p.summaryMarkers + (a.summaries.length + 1) := by
      omega
    cases hlast : a.summaries.getLast? <;> simp [add, hlast, List.getLast?_cons, hcount]
  | @race block bodies a closed rest ih =>
    have hclosed : Idle { p with findings := p.findings ++ [block.finding] } :=
      { hp with }
    rw [run_race hp block closed, ih hclosed]
    simp [add]
  | @invalid block bodies a closed rest ih =>
    have hclosed : Idle { p with invalidAccesses := p.invalidAccesses ++ [block.access] } :=
      { hp with }
    rw [run_invalid hp block closed, ih hclosed]
    simp [add]

end RacecheckParser

/-! ### Logs without a diagnostic -/

/-- The longest beginning with a property, or one of a given length. -/
theorem exists_beginning {α : Type} (P : α → Prop) (n : ℕ) (xs : List α) :
    ∃ before rest, xs = before ++ rest ∧ before.length ≤ n ∧ (∀ x ∈ before, P x) ∧
      (before.length < n → ∀ x ∈ rest.head?, ¬P x) := by
  induction xs generalizing n with
  | nil => exact ⟨[], [], rfl, Nat.zero_le n, nofun, fun _ _ hx => by cases hx⟩
  | cons x xs ih =>
    cases n with
    | zero => exact ⟨[], x :: xs, rfl, le_rfl, nofun, nofun⟩
    | succ n =>
      by_cases hx : P x
      · obtain ⟨before, rest, rfl, hlength, hbefore, hrest⟩ := ih n
        exact ⟨x :: before, rest, rfl, Nat.succ_le_succ hlength, List.forall_mem_cons.mpr ⟨hx, hbefore⟩,
          fun hlt => hrest (Nat.lt_of_succ_lt_succ hlt)⟩
      · refine ⟨[], x :: xs, rfl, Nat.zero_le _, nofun, ?_⟩
        rintro - y hy
        cases hy
        exact hx

namespace RacecheckParser

section Quiet

variable {p : RacecheckParser u} {bodies : List Text}

/-- A race with no conflict is diagnosed when it closes. -/
theorem conflicts_of_quiet (hp : p.Idle) {m : Match (headerRe u)} {header : Text}
    (hhead : ∀ line ∈ bodies.head?, ¬IsConflict u line)
    (h : (bodies.foldl consumeBody (p.opened m header [])).flush.diagnostics = []) : False := by
  have hmem : .incompleteFinding ∈ (p.opened m header []).flush.diagnostics := by
    rw [flush_opened hp]
    exact mem_diagnose p _
  cases bodies with
  | nil => exact List.ne_nil_of_mem hmem h
  | cons line bodies =>
    have hline := hhead line rfl
    have hissue : ∃ issue, issue ∈ ((p.opened m header []).consumeBody line).diagnostics := by
      by_cases hkind : lineKind u line = .other
      · by_cases hrace : isRace line
        · rw [consume_race hp hkind hrace]
          exact ⟨_, mem_diagnose _ _⟩
        · rw [Bool.not_eq_true] at hrace
          have hconflict : (conflictRe u).matchStart line = none := by
            by_contra hsome
            exact hline ⟨hkind, hrace, Option.ne_none_iff_isSome.mp hsome⟩
          rw [consume_opened hp hkind hrace hconflict]
          split_ifs
          · exact ⟨_, subset_flush _ (mem_diagnose _ _)⟩
          · exact ⟨_, hmem⟩
      · rw [consumeBody_flush _ hkind]
        exact ⟨_, subset_consumeBody _ _ hmem⟩
    obtain ⟨issue, hissue⟩ := hissue
    exact diagnosed hissue bodies h

/-- What follows a race closes it. -/
theorem closed_of_quiet (hp : p.Idle) {m : Match (headerRe u)} {header : Text} {conflicts : List Text}
    (hhead : ∀ line ∈ bodies.head?, ¬IsConflict u line)
    (h : (bodies.foldl consumeBody (p.opened m header conflicts)).flush.diagnostics = []) :
    ∀ line ∈ bodies.head?, RaceBlock.ClosedBy (u := u) line := by
  cases bodies with
  | nil => exact nofun
  | cons line bodies =>
    rintro _ ⟨⟩ hkind
    have hline := hhead line rfl
    have hrace : isRace line = false := by
      by_contra hrace
      rw [List.foldl_cons, consume_race hp hkind (Bool.not_eq_false _ ▸ hrace)] at h
      exact diagnosed (mem_diagnose _ _) bodies h
    have hconflict : (conflictRe u).matchStart line = none := by
      by_contra hsome
      exact hline ⟨hkind, hrace, Option.ne_none_iff_isSome.mp hsome⟩
    refine ⟨hconflict, ?_⟩
    by_contra hbroken
    rw [List.foldl_cons, consume_opened hp hkind hrace hconflict, if_pos (Bool.not_eq_false _ ▸ hbroken)] at h
    exact diagnosed (subset_flush _ (mem_diagnose _ _)) bodies h

/-- A log that nothing is diagnosed of is one of whole blocks. -/
theorem log_of_quiet (hp : p.Idle) (h : (bodies.foldl consumeBody p).flush.diagnostics = []) :
    ∃ a, Log u bodies a := by
  induction hlength : bodies.length using Nat.strong_induction_on generalizing bodies p with
  | _ n ih =>
    cases bodies with
    | nil => exact ⟨_, .nil⟩
    | cons line bodies =>
      subst hlength
      have hlt : bodies.length < (line :: bodies).length := Nat.lt_succ_self _
      rw [List.foldl_cons] at h
      cases hkind : lineKind u line with
      | internalError =>
        rw [consumeBody_eq, hkind] at h
        exact absurd h (diagnosed (mem_diagnose _ _) bodies)
      | summary m =>
        rw [consumeBody_eq, hkind, hp.flush] at h
        cases m with
        | none => exact absurd h (diagnosed (mem_diagnose _ _) bodies)
        | some m =>
          have hclosed : Idle { p with
              summaryMarkers := p.summaryMarkers + 1
              summary := some (summaryOf m line) } :=
            { hp with }
          obtain ⟨a, ha⟩ := ih _ hlt hclosed h rfl
          exact ⟨_, .summary hkind ha⟩
      | truncation =>
        rw [consumeBody_eq, hkind, hp.flush] at h
        have hclosed : Idle { p with outputTruncated := true } :=
          { hp with }
        obtain ⟨a, ha⟩ := ih _ hlt hclosed h rfl
        exact ⟨_, .truncation hkind ha⟩
      | other =>
        rw [consume_idle hp hkind] at h
        split_ifs at h with hrace
        · exact absurd h (diagnosed (mem_diagnose _ _) bodies)
        · obtain ⟨a, ha⟩ := ih _ hlt hp h rfl
          exact ⟨a, .other hkind (Bool.not_eq_true _ ▸ hrace) ha⟩
      | header m =>
        rw [consume_header hp hkind] at h
        obtain ⟨conflicts, rest, rfl, -, hconflicts, hrest⟩ :=
          exists_beginning (IsConflict u) (bodies.length + 1) bodies
        have hhead : ∀ line ∈ rest.head?, ¬IsConflict u line :=
          hrest (by rw [List.length_append]; omega)
        have hread := h
        rw [List.foldl_append, foldl_conflicts hp [] hconflicts, List.nil_append] at hread
        have hne : conflicts ≠ [] := by
          rintro rfl
          exact conflicts_of_quiet hp hhead hread
        have hclosed := closed_of_quiet hp hhead hread
        let block : RaceBlock u := ⟨line, m, conflicts, hkind, hne, hconflicts⟩
        have hrun := run_race hp block hclosed
        change (List.foldl consumeBody p (line :: (conflicts ++ rest))).flush = _ at hrun
        rw [List.foldl_cons, consume_header hp hkind] at hrun
        rw [hrun] at h
        have hidle : Idle { p with findings := p.findings ++ [block.finding] } :=
          { hp with }
        obtain ⟨a, ha⟩ := ih rest.length (by rw [List.length_cons, List.length_append]; omega) hidle h rfl
        exact ⟨_, .race block hclosed ha⟩
      | invalid m =>
        obtain ⟨others, rest, rfl, hothers_le, hothers, hrest⟩ :=
          exists_beginning (IsPlain u) siteLookahead bodies
        have hlog : ∀ (block : InvalidBlock u) (rest' : List Text),
            block.lines ++ rest' = line :: (others ++ rest) →
            (∀ line ∈ rest'.head?, block.ClosedBy line) →
            rest'.length < (line :: (others ++ rest)).length → ∃ a, Log u (line :: (others ++ rest)) a := by
          intro block rest' hlines hclosed hshorter
          have hrun := run_invalid hp block hclosed
          rw [hlines, List.foldl_cons] at hrun
          rw [hrun] at h
          have hidle : Idle { p with invalidAccesses := p.invalidAccesses ++ [block.access] } :=
            { hp with }
          obtain ⟨a, ha⟩ := ih rest'.length hshorter hidle h rfl
          have hlog := Log.invalid block hclosed ha
          rw [hlines] at hlog
          exact ⟨_, hlog⟩
        by_cases hsite : ∃ line ∈ rest.head?, IsSite u line
        · obtain ⟨site, hhead, hsite⟩ := hsite
          obtain ⟨rest', rfl⟩ : ∃ rest', rest = site :: rest' := List.head?_eq_some_iff.mp hhead
          refine hlog ⟨line, m, others, some site, hkind, hothers_le, hothers, ?_⟩ rest' ?_ ?_ ?_
          · rintro _ ⟨⟩
            exact hsite
          · simp [InvalidBlock.lines]
          · exact fun _ _ hnone => by cases hnone
          · rw [List.length_cons, List.length_append, List.length_cons]
            omega
        · refine hlog ⟨line, m, others, none, hkind, hothers_le, hothers, nofun⟩ rest ?_ ?_ ?_
          · simp [InvalidBlock.lines]
          · intro next hnext _ hother
            have hno : (invalidSiteRe u).matchStart next = none := by
              by_contra hsome
              exact hsite ⟨next, hnext, hother, Option.ne_none_iff_isSome.mp hsome⟩
            refine ⟨?_, hno⟩
            by_contra hne
            exact hrest (lt_of_le_of_ne hothers_le hne) next hnext ⟨hother, hno⟩
          · rw [List.length_cons, List.length_append]
            omega

end Quiet

end RacecheckParser

/-! ### Results -/

structure RacecheckSummary.Consistent (s : RacecheckSummary) (findings : List RacecheckFinding)
    (invalidAccesses : List RacecheckInvalidAccess) : Prop where
  total : s.totalHazards = 0 ↔ s.errors = 0 ∧ s.warnings = 0
  reported : s.totalHazards = 0 ↔ findings = [] ∧ invalidAccesses = []
  errors : (∃ f ∈ findings, f.severity = .error) → 0 < s.errors
  warnings : (∃ f ∈ findings, f.severity = .warning) → 0 < s.warnings

theorem summaryConsistencyDiagnostics_eq_nil {s : RacecheckSummary} {findings : List RacecheckFinding}
    {invalidAccesses : List RacecheckInvalidAccess} :
    summaryConsistencyDiagnostics s findings invalidAccesses = [] ↔
      s.Consistent findings invalidAccesses := by
  have hform : summaryConsistencyDiagnostics s findings invalidAccesses = [] ↔
      (decide (s.totalHazards = 0) = (decide (s.errors = 0) && decide (s.warnings = 0)) ∧
        (((¬s.totalHazards = 0 ∨ ¬s.errors = 0 ∨ ¬s.warnings = 0 → findings = [] → ¬invalidAccesses = []) ∧
            (s.totalHazards = 0 → s.errors = 0 → s.warnings = 0 → findings = [] ∧ invalidAccesses = [])) ∧
          ∀ f ∈ findings, f.severity = .error → ¬s.errors = 0) ∧
        ∀ f ∈ findings, f.severity = .warning → ¬s.warnings = 0) := by
    unfold summaryConsistencyDiagnostics
    simp
  rw [hform, ← Bool.decide_and, decide_eq_decide]
  constructor
  · rintro ⟨htotal, ⟨⟨hmissing, hunexpected⟩, herrors⟩, hwarnings⟩
    refine ⟨htotal, ⟨?_, ?_⟩, ?_, ?_⟩
    · intro hzero
      exact hunexpected hzero (htotal.mp hzero).1 (htotal.mp hzero).2
    · rintro ⟨hfindings, hinvalid⟩
      by_contra hpos
      exact hmissing (.inl hpos) hfindings hinvalid
    · rintro ⟨f, hf, hseverity⟩
      exact Nat.pos_of_ne_zero (herrors f hf hseverity)
    · rintro ⟨f, hf, hseverity⟩
      exact Nat.pos_of_ne_zero (hwarnings f hf hseverity)
  · intro h
    refine ⟨h.total, ⟨⟨?_, ?_⟩, ?_⟩, ?_⟩
    · intro hpos hfindings hinvalid
      have hzero := h.reported.mpr ⟨hfindings, hinvalid⟩
      obtain ⟨herrors, hwarnings⟩ := h.total.mp hzero
      simp [hzero, herrors, hwarnings] at hpos
    · exact fun hzero _ _ => h.reported.mp hzero
    · exact fun f hf hseverity => (h.errors ⟨f, hf, hseverity⟩).ne'
    · exact fun f hf hseverity => (h.warnings ⟨f, hf, hseverity⟩).ne'

/-- A log of whole blocks and one summary, which agrees with them. -/
structure WellFormed (u : CharTable) (bodies : List Text) (a : Account) (summary : RacecheckSummary) :
    Prop where
  log : Log u bodies a
  summaries : a.summaries = [summary]
  consistent : summary.Consistent a.findings a.invalidAccesses

theorem parseRacecheckLog_eq (text : Text) :
    parseRacecheckLog u text =
      ((sanitizerBodies text).foldl RacecheckParser.consumeBody ({} : RacecheckParser u)).flush.finish := by
  rw [parseRacecheckLog, RacecheckParser.foldl_consume]
  rfl

theorem RacecheckParser.idle_new : Idle ({} : RacecheckParser u) := ⟨rfl, rfl, rfl, rfl, rfl⟩

/-- A well-formed log is read as what it says. -/
theorem parse_wellFormed {text : Text} {a : Account} {summary : RacecheckSummary}
    (h : WellFormed u (sanitizerBodies text) a summary) :
    parseRacecheckLog u text = ⟨a.findings, some summary, [], a.outputTruncated, a.invalidAccesses⟩ := by
  rw [parseRacecheckLog_eq, RacecheckParser.run_log h.log RacecheckParser.idle_new]
  obtain ⟨findings, invalidAccesses, summaries, truncated⟩ := a
  obtain rfl : summaries = [summary] := h.summaries
  have hconsistent : summaryConsistencyDiagnostics summary findings invalidAccesses = [] :=
    summaryConsistencyDiagnostics_eq_nil.mpr h.consistent
  simp [RacecheckParser.finish, RacecheckParser.add, RacecheckParser.flush, RacecheckParser.flushHeader,
    RacecheckParser.flushInvalid, RacecheckParser.diagnoseMarkers, hconsistent]

theorem RacecheckParser.finish_quiet {p : RacecheckParser u} (h : p.finish.diagnostics = []) :
    p.flush.diagnostics = [] ∧ p.flush.summaryMarkers = 1 ∧
      ∀ s ∈ p.flush.summary, s.Consistent p.flush.findings p.flush.invalidAccesses := by
  have hmarked : p.flush.diagnoseMarkers.diagnostics = [] ∧
      ∀ s ∈ p.flush.diagnoseMarkers.summary, s.Consistent p.flush.diagnoseMarkers.findings
        p.flush.diagnoseMarkers.invalidAccesses := by
    unfold finish at h
    cases hsummary : p.flush.diagnoseMarkers.summary with
    | none =>
      simp only [hsummary] at h
      exact ⟨h, nofun⟩
    | some s =>
      simp only [hsummary, foldl_diagnose] at h
      have hissues := eq_nil_of_foldl_diagnose h
      rw [hissues] at h
      refine ⟨h, ?_⟩
      rintro _ ⟨⟩
      exact summaryConsistencyDiagnostics_eq_nil.mp hissues
  have hone : p.flush.summaryMarkers = 1 := by
    by_contra hne
    have hdiagnosed : p.flush.diagnoseMarkers.diagnostics ≠ [] := by
      unfold diagnoseMarkers
      split_ifs
      · exact List.ne_nil_of_mem (mem_diagnose _ _)
      · exact List.ne_nil_of_mem (mem_diagnose _ _)
      · omega
    exact hdiagnosed hmarked.1
  have hsame : p.flush.diagnoseMarkers = p.flush := by
    unfold diagnoseMarkers
    rw [hone]
    rfl
  rw [hsame] at hmarked
  exact ⟨hmarked.1, hone, hmarked.2⟩

/-- A log that is read without a diagnostic is well formed. -/
theorem wellFormed_of_parse {text : Text} (h : (parseRacecheckLog u text).diagnostics = []) :
    ∃ a summary, WellFormed u (sanitizerBodies text) a summary := by
  rw [parseRacecheckLog_eq] at h
  obtain ⟨hquiet, hone, hconsistent⟩ := RacecheckParser.finish_quiet h
  rw [RacecheckParser.flush_flush] at hquiet hone hconsistent
  obtain ⟨a, ha⟩ := RacecheckParser.log_of_quiet RacecheckParser.idle_new hquiet
  rw [RacecheckParser.run_log ha RacecheckParser.idle_new] at hone hconsistent
  have hlength : a.summaries.length = 1 := by simpa [RacecheckParser.add] using hone
  obtain ⟨summary, hsummary⟩ := List.length_eq_one_iff.mp hlength
  refine ⟨a, summary, ha, hsummary, ?_⟩
  simpa [RacecheckParser.add, hsummary] using hconsistent

end CuTracer.ComputeSanitizer
