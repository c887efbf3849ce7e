import CuTracer.ComputeSanitizer.RacecheckLog
import Mathlib.Data.List.Forall2

/-! The reports of a racecheck log. They are lost only where a line that mentions a race, but is not the
header of one, is taken for another part of a log of whole blocks. -/

namespace CuTracer.ComputeSanitizer

open Regex

variable {u : CharTable}

/-! ### Headers -/

section Reports

variable (u)

def startsRace (body : Text) : Bool := isRace body && !isInvalidAccess u body

/-- A line that mentions a race, but is the header of nothing. -/
def isUnread (body : Text) : Bool := startsRace u body && ((headerRe u).matchStart body).isNone

/-- A line is the header of a block that is read as a finding. -/
def StartsFinding (body : Text) (finding : RacecheckFinding) : Prop :=
  ∃ block : RaceBlock u, block.header = body ∧ block.finding = finding

/-- A line is the header of a block that is read as an invalid access. -/
def StartsAccess (body : Text) (access : RacecheckInvalidAccess) : Prop :=
  ∃ block : InvalidBlock u, block.header = body ∧ block.access = access

/-- Every line that is to start a report starts exactly one, in the order of the log, or something is
diagnosed. -/
def Keeps (text : Text) : Prop :=
  (parseRacecheckLog u text).diagnostics ≠ [] ∨
    List.Forall₂ (StartsFinding u) ((sanitizerBodies text).filter (startsRace u))
        (parseRacecheckLog u text).findings ∧
      List.Forall₂ (StartsAccess u) ((sanitizerBodies text).filter (isInvalidAccess u))
        (parseRacecheckLog u text).invalidAccesses

/-- A log of whole blocks in which a line that mentions a race is the header of nothing: it stands where
the site of an invalid access is awaited, or begins as the line of a truncated output. -/
def Swallows (text : Text) : Prop :=
  (∃ a summary, WellFormed u (sanitizerBodies text) a summary) ∧
    ∃ body ∈ sanitizerBodies text, isUnread u body = true

end Reports

/-! #### What a line begins with -/

theorem contains_append (s : String) (before after : Text) :
    contains s (before ++ (s.toList ++ after)) = true := by
  refine List.any_eq_true.mpr ⟨s.toList ++ after, ?_, ?_⟩
  · exact (List.mem_tails _ _).mpr (List.suffix_append before _)
  · exact List.isPrefixOf_iff_prefix.mpr (List.prefix_append _ _)

variable {body : Text}

theorem prefix_of_header (h : ((headerRe u).matchStart body).isSome) :
    "Error: Race reported between ".toList <+: body ∨ "Warning: Race reported between ".toList <+: body := by
  obtain ⟨a, ha⟩ := run_of_matchWhere h
  rw [headerRe, chain_cons, run, run, run, Option.or_eq_some_iff] at ha
  -- the level is read first, and either is followed by the same text
  rcases ha with ha | ⟨-, ha⟩
  · obtain ⟨rest, rfl, ha⟩ := run_text ha
    rw [chain_cons, run] at ha
    obtain ⟨rest, rfl, -⟩ := run_text ha
    exact .inl ⟨rest, by simp⟩
  · obtain ⟨rest, rfl, ha⟩ := run_text ha
    rw [chain_cons, run] at ha
    obtain ⟨rest, rfl, -⟩ := run_text ha
    exact .inr ⟨rest, by simp⟩

theorem prefix_of_invalid (h : isInvalidAccess u body = true) :
    "Potential invalid __shared__ ".toList <+: body := prefix_of_match h

theorem prefix_of_summary (h : ((summaryRe u).fullMatch body).isSome) :
    "RACECHECK SUMMARY: ".toList <+: body := prefix_of_match h

theorem isRace_of_header (h : ((headerRe u).matchStart body).isSome) : isRace body = true := by
  rcases prefix_of_header h with ⟨rest, rfl⟩ | ⟨rest, rfl⟩
  · exact contains_append "Race reported between" "Error: ".toList (" ".toList ++ rest)
  · exact contains_append "Race reported between" "Warning: ".toList (" ".toList ++ rest)

/-- A line that is the header of nothing. -/
structure IsSilent (u : CharTable) (body : Text) : Prop where
  no_invalid : isInvalidAccess u body = false
  no_header : (headerRe u).matchStart body = none

/-- A line that begins otherwise than every header is silent. -/
theorem silent_of_prefix {s : String} (h : s.toList <+: body)
    (hinvalid : ¬(s.toList <+: "Potential invalid __shared__ ".toList ∨
      "Potential invalid __shared__ ".toList <+: s.toList))
    (herror : ¬(s.toList <+: "Error: Race reported between ".toList ∨
      "Error: Race reported between ".toList <+: s.toList))
    (hwarning : ¬(s.toList <+: "Warning: Race reported between ".toList ∨
      "Warning: Race reported between ".toList <+: s.toList)) :
    IsSilent u body where
  no_invalid := by
    by_contra hsome
    exact hinvalid (List.prefix_or_prefix_of_prefix h (prefix_of_invalid (Bool.not_eq_false _ ▸ hsome)))
  no_header := by
    by_contra hsome
    rcases prefix_of_header (Option.ne_none_iff_isSome.mp hsome) with hbegin | hbegin
    · exact herror (List.prefix_or_prefix_of_prefix h hbegin)
    · exact hwarning (List.prefix_or_prefix_of_prefix h hbegin)

theorem silent_truncation (h : lineKind u body = .truncation) : IsSilent u body := by
  have hbegin := lineKind_spec (u := u) body
  rw [h] at hbegin
  exact silent_of_prefix (List.isPrefixOf_iff_prefix.mp hbegin) (by decide) (by decide) (by decide)

theorem silent_summary {m : Match (summaryRe u)} (h : lineKind u body = .summary (some m)) :
    IsSilent u body := by
  have hmatch := lineKind_spec (u := u) body
  rw [h] at hmatch
  exact silent_of_prefix (prefix_of_summary (Option.isSome_of_eq_some hmatch)) (by decide) (by decide)
    (by decide)

theorem silent_other (h : lineKind u body = .other) : IsSilent u body := by
  have hspec := lineKind_spec (u := u) body
  rw [h] at hspec
  exact ⟨Option.isSome_eq_false_iff.mpr (Option.isNone_iff_eq_none.mpr hspec.1), hspec.2⟩

theorem IsSilent.startsRace (h : IsSilent u body) (hread : isUnread u body = false) :
    startsRace u body = false := by
  simpa [isUnread, h.no_header] using hread

/-! #### Blocks and their headers -/

theorem RaceBlock.startsRace_lines (block : RaceBlock u) :
    block.lines.filter (startsRace u) = [block.header] := by
  have hspec := lineKind_spec (u := u) block.header
  rw [block.header_kind] at hspec
  have hheader : startsRace u block.header = true := by
    simp [startsRace, isInvalidAccess, hspec.1, isRace_of_header (Option.isSome_of_eq_some hspec.2)]
  have hconflicts : block.conflicts.filter (startsRace u) = [] := by
    refine List.filter_eq_nil_iff.mpr fun line hline => ?_
    simp [startsRace, (block.conflicts_conflict line hline).no_race]
  rw [RaceBlock.lines, List.filter_cons_of_pos hheader, hconflicts]

theorem RaceBlock.isInvalidAccess_lines (block : RaceBlock u) :
    block.lines.filter (isInvalidAccess u) = [] := by
  have hspec := lineKind_spec (u := u) block.header
  rw [block.header_kind] at hspec
  have hheader : ¬isInvalidAccess u block.header = true := by simp [isInvalidAccess, hspec.1]
  rw [RaceBlock.lines, List.filter_cons_of_neg hheader]
  refine List.filter_eq_nil_iff.mpr fun line hline => ?_
  simp [(silent_other (block.conflicts_conflict line hline).kind).no_invalid]

theorem InvalidBlock.silent_rest (block : InvalidBlock u) {line : Text}
    (h : line ∈ block.others ++ block.site.toList) : IsSilent u line := by
  rcases List.mem_append.mp h with hline | hline
  · exact silent_other (block.others_plain line hline).kind
  · exact silent_other (block.site_site line (Option.mem_toList.mp hline)).kind

theorem InvalidBlock.startsRace_lines (block : InvalidBlock u)
    (hread : ∀ line ∈ block.lines, isUnread u line = false) : block.lines.filter (startsRace u) = [] := by
  have hspec := lineKind_spec (u := u) block.header
  rw [block.header_kind] at hspec
  refine List.filter_eq_nil_iff.mpr fun line hline => ?_
  rw [Bool.not_eq_true]
  rcases List.mem_cons.mp hline with rfl | hrest
  · simp [startsRace, isInvalidAccess, hspec]
  · exact (block.silent_rest hrest).startsRace (hread line hline)

theorem InvalidBlock.isInvalidAccess_lines (block : InvalidBlock u) :
    block.lines.filter (isInvalidAccess u) = [block.header] := by
  have hspec := lineKind_spec (u := u) block.header
  rw [block.header_kind] at hspec
  have hheader : isInvalidAccess u block.header = true := by simp [isInvalidAccess, hspec]
  have hrest : (block.others ++ block.site.toList).filter (isInvalidAccess u) = [] := by
    refine List.filter_eq_nil_iff.mpr fun line hline => ?_
    simp [(block.silent_rest hline).no_invalid]
  rw [InvalidBlock.lines, List.filter_cons_of_pos hheader, hrest]

/-- A silent line that is read starts nothing. -/
theorem filter_silent {bodies : List Text} (h : IsSilent u body) (hread : isUnread u body = false) :
    (body :: bodies).filter (startsRace u) = bodies.filter (startsRace u) ∧
      (body :: bodies).filter (isInvalidAccess u) = bodies.filter (isInvalidAccess u) := by
  constructor
  · exact List.filter_cons_of_neg (by simp [h.startsRace hread])
  · exact List.filter_cons_of_neg (by simp [h.no_invalid])

/-- In a log of whole blocks whose races are all read, every report has its own header. -/
theorem Log.starts {bodies : List Text} {a : Account} (h : Log u bodies a)
    (hread : ∀ body ∈ bodies, isUnread u body = false) :
    List.Forall₂ (StartsFinding u) (bodies.filter (startsRace u)) a.findings ∧
      List.Forall₂ (StartsAccess u) (bodies.filter (isInvalidAccess u)) a.invalidAccesses := by
  induction h with
  | nil => exact ⟨.nil, .nil⟩
  | other kind no_race rest ih =>
    obtain ⟨hbody, hbodies⟩ := List.forall_mem_cons.mp hread
    obtain ⟨hraces, hinvalid⟩ := filter_silent (silent_other kind) hbody
    rw [hraces, hinvalid]
    exact ih hbodies
  | truncation kind rest ih =>
    obtain ⟨hbody, hbodies⟩ := List.forall_mem_cons.mp hread
    obtain ⟨hraces, hinvalid⟩ := filter_silent (silent_truncation kind) hbody
    rw [hraces, hinvalid]
    exact ih hbodies
  | summary kind rest ih =>
    obtain ⟨hbody, hbodies⟩ := List.forall_mem_cons.mp hread
    obtain ⟨hraces, hinvalid⟩ := filter_silent (silent_summary kind) hbody
    rw [hraces, hinvalid]
    exact ih hbodies
  | race block closed rest ih =>
    obtain ⟨hraces, hinvalid⟩ := ih fun body hbody => hread body (List.mem_append_right _ hbody)
    rw [List.filter_append, List.filter_append, block.startsRace_lines, block.isInvalidAccess_lines]
    exact ⟨.cons ⟨block, rfl, rfl⟩ hraces, hinvalid⟩
  | invalid block closed rest ih =>
    obtain ⟨hraces, hinvalid⟩ := ih fun body hbody => hread body (List.mem_append_right _ hbody)
    have hlines := block.startsRace_lines fun line hline => hread line (List.mem_append_left _ hline)
    rw [List.filter_append, List.filter_append, hlines, block.isInvalidAccess_lines]
    exact ⟨hraces, .cons ⟨block, rfl, rfl⟩ hinvalid⟩

/-! ### Logs of blocks -/

variable (u) in
inductive Block where
  | race (block : RaceBlock u)
  | invalid (block : InvalidBlock u)

namespace Block

def lines : Block u → List Text
  | race block => block.lines
  | invalid block => block.lines

def finding? : Block u → Option RacecheckFinding
  | race block => some block.finding
  | invalid _ => none

def access? : Block u → Option RacecheckInvalidAccess
  | race _ => none
  | invalid block => some block.access

theorem head_lines (block : Block u) {line : Text} (h : line ∈ block.lines.head?) : lineKind u line ≠ .other := by
  cases block with
  | race block =>
    obtain rfl : block.header = line := Option.some.inj h
    rw [block.header_kind]
    exact nofun
  | invalid block =>
    obtain rfl : block.header = line := Option.some.inj h
    rw [block.header_kind]
    exact nofun

end Block

/-- Blocks before a summary are a log, which says what they are. -/
theorem log_blocks (blocks : List (Block u)) {line : Text} {m : Match (summaryRe u)}
    (h : lineKind u line = .summary (some m)) :
    Log u (blocks.flatMap Block.lines ++ [line])
      ⟨blocks.filterMap Block.finding?, blocks.filterMap Block.access?, [summaryOf m line], false⟩ := by
  induction blocks with
  | nil => exact .summary h .nil
  | cons block blocks ih =>
    have hhead : ∀ next ∈ (blocks.flatMap Block.lines ++ [line]).head?, lineKind u next ≠ .other := by
      cases blocks with
      | nil =>
        rintro _ ⟨⟩ hother
        rw [h] at hother
        cases hother
      | cons next blocks =>
        intro first hfirst
        refine next.head_lines ?_
        cases next <;> exact hfirst
    rw [List.flatMap_cons, List.append_assoc]
    cases block with
    | race block => exact .race block (fun next hnext hother => absurd hother (hhead next hnext)) ih
    | invalid block => exact .invalid block (fun next hnext _ hother => absurd hother (hhead next hnext)) ih

variable (u) in
/-- A log of whole blocks and a summary that agrees with them is read as these blocks. -/
def ReadsBlocks (text : Text) : Prop :=
  ∀ (blocks : List (Block u)) (line : Text) (m : Match (summaryRe u)),
    sanitizerBodies text = blocks.flatMap Block.lines ++ [line] →
    lineKind u line = .summary (some m) →
    (summaryOf m line).Consistent (blocks.filterMap Block.finding?) (blocks.filterMap Block.access?) →
    parseRacecheckLog u text =
      ⟨blocks.filterMap Block.finding?, some (summaryOf m line), [], false, blocks.filterMap Block.access?⟩

theorem readsBlocks (text : Text) : ReadsBlocks u text := by
  intro blocks line m htext hline hconsistent
  have hlog := log_blocks blocks hline
  rw [← htext] at hlog
  exact parse_wellFormed ⟨hlog, rfl, hconsistent⟩

theorem header_of_starts {bodies : List Text} {findings : List RacecheckFinding}
    (h : List.Forall₂ (StartsFinding u) bodies findings) (hbody : body ∈ bodies) :
    ((headerRe u).matchStart body).isNone = false := by
  induction h with
  | nil => cases hbody
  | cons hstarts _ ih =>
    rcases List.mem_cons.mp hbody with rfl | hbody
    · obtain ⟨block, rfl, -⟩ := hstarts
      have hspec := lineKind_spec (u := u) block.header
      rw [block.header_kind] at hspec
      rw [hspec.2]
      rfl
    · exact ih hbody

/-- The parser loses no report but where it takes a line that mentions a race for another part of a
well-formed log. -/
theorem loses_no_report_iff (u : CharTable) (text : Text) :
    Keeps u text ∧ ReadsBlocks u text ↔ ¬Swallows u text := by
  constructor
  · rintro ⟨hkeeps, -⟩ ⟨⟨a, summary, hformed⟩, body, hbody, hunread⟩
    obtain ⟨hraces, hread⟩ := Bool.and_eq_true_iff.mp hunread
    rw [Keeps, parse_wellFormed hformed] at hkeeps
    rcases hkeeps with hkeeps | ⟨hkeeps, -⟩
    · exact hkeeps rfl
    · rw [header_of_starts hkeeps (List.mem_filter.mpr ⟨hbody, hraces⟩)] at hread
      cases hread
  · intro hswallows
    refine ⟨?_, readsBlocks text⟩
    by_cases hquiet : (parseRacecheckLog u text).diagnostics = []
    · obtain ⟨a, summary, hformed⟩ := wellFormed_of_parse hquiet
      have hread : ∀ body ∈ sanitizerBodies text, isUnread u body = false := by
        intro body hbody
        by_contra hunread
        exact hswallows ⟨⟨a, summary, hformed⟩, body, hbody, Bool.not_eq_false _ ▸ hunread⟩
      rw [Keeps, parse_wellFormed hformed]
      exact .inr (hformed.log.starts hread)
    · exact .inl hquiet

/-- A malformed header where a site is awaited. -/
def swallowedLog : Text :=
  ("========= Potential invalid __shared__ read of size 4 bytes\n" ++
    "========= Error: Race reported between an unknown format\n" ++
    "========= RACECHECK SUMMARY: 1 hazard displayed (1 error, 0 warnings)\n").toList

theorem swallowedLog_loses : ¬Keeps .ascii swallowedLog := by
  have hread : (parseRacecheckLog .ascii swallowedLog).diagnostics = [] ∧
      (parseRacecheckLog .ascii swallowedLog).findings.length ≠
        ((sanitizerBodies swallowedLog).filter (startsRace .ascii)).length := by
    delta swallowedLog
    rw [String.toList_append, String.toList_append, String.toList_ofList, String.toList_ofList,
      String.toList_ofList]
    decide +kernel
  rintro (hissue | ⟨hraces, -⟩)
  · exact hissue hread.1
  · exact hread.2 hraces.length_eq.symm

end CuTracer.ComputeSanitizer
