import CuTracer.Service.Checkpoint
import CuTracer.Service.Flock
import CuTracer.Service.SessionWire

/-! The session store is linearizable, with retention: whatever processes call it, and however
their calls interleave, the log of what they did is legal. -/

namespace CuTracer.Service.FileStore

variable {ρ P : Type}

/-! ### The calls -/

section Operations

variable {codec : Codec ρ P} {retention : ℕ → SessionRetentionPolicy} {n : ℕ} {start : Log ρ P}

variable (codec retention n start) in
/-- A call that began at `start` answers as it is to. -/
def Correct {α : Type} (operation : Operation ρ) (p : Program ρ P α) (f : α → Answer ρ) : Prop :=
  Spec codec retention n (At n operation start [] none fun _ => True) p
    (Ends n operation start (AnsweredBy codec start operation f))

theorem create_correct (session : Session ρ) :
    Correct codec retention n start (.create session) (create codec (retention n) n session)
      fun _ => .done := by
  refine Spec.locked lasting_true (fun _ _ => lasting_answered) (fun _ _ _ => answered_unavailable)
    (fun _ _ _ _ => answered_value) fun file hblank => ?_
  unfold key
  simp only [hblank]
  refine Spec.look (.pathExists _) (p := fun found : Bool => found = file.isSome)
    (G := fun _ => Saw start fun m => stored m (sha256Text session.sessionId) = file)
    (lasting_true.and lasting_saw) (fun _ => lasting_saw) ?_ ?_
  · rintro s hlegal hat found t ⟨rfl, rfl⟩
    exact ⟨rfl, by rw [(hat.holding _ rfl).2], hat.fact.2⟩
  · rintro found rfl
    cases file with
    | some entry =>
      refine Spec.throw lasting_saw fun log _ hsaw => ⟨⟨rfl, ?_⟩, fun _ _ _ => rfl⟩
      obtain ⟨m, hstart, hm, hfile⟩ := hsaw
      exact ⟨m, hstart, hm, by simp [hfile]⟩
    | none =>
      exact Spec.writeRecord lasting_saw (fun _ _ _ => answered_unavailable) hblank (.inl ⟨rfl, rfl⟩)
        (fun _ _ => answered_value) fun rec _ => ⟨⟨_, rec, rfl⟩, by rintro _ ⟨⟩⟩

/-- What a file holds is the record of a session that belongs there. -/
theorem Legal.kept_of_saw {log : Log ρ P} {name : String} {session : Session ρ} {rec : Record P}
    (hlegal : Legal codec retention log)
    (hsaw : Saw start (fun m => stored m name = some (session, rec)) log) : Kept codec name session rec := by
  obtain ⟨m, -, ⟨d, rfl⟩, hfile⟩ := hsaw
  exact hlegal.of_append.kept hfile

/-- What the file holds is what its payload is decoded to. -/
structure Holds (codec : Codec ρ P) (sessionId : String) (file : Option (Session ρ × Record P))
    (last : Session ρ) (rec : Record P) (session : Session ρ) : Prop where
  file_eq : file = some (last, rec)
  sessionId : last.sessionId = sessionId
  decoded : codec.fromDict (codec.toDict last) = .ok session
  revision : session.stateRevision = last.stateRevision

/-- A session is read under a lock, or the call is answered. -/
theorem Spec.readSession {α : Type} {operation : Operation ρ} {sessionId : String} {exclusive : Bool}
    {file : Option (Session ρ × Record P)} {f : Except Fault (Session ρ) → Program ρ P α}
    {g : α → Answer ρ} {F : Log ρ P → Prop} (hF : Lasting F) (hblank : blank sessionId = false)
    (hsaw : ∀ log, F log → Saw start (fun m => stored m (sha256Text sessionId) = file) log)
    (hmissing : ∀ log, F log → file = none →
      Answers codec start log [] operation (.error (.notFound sessionId)))
    (hraised : ∀ e, f (.error e) = MonadExcept.throw e)
    (hf : ∀ last rec session, Holds codec sessionId file last rec session → Spec codec retention n
      (At n operation start [] (some ⟨sha256Text sessionId, exclusive, file⟩) F) (f (.ok session))
      (Ends n operation start (AnsweredBy codec start operation g))) :
    Spec codec retention n
      (At n operation start [] (some ⟨sha256Text sessionId, exclusive, file⟩) F)
      (FileStore.readRecord sessionId >>= fun rec => f (sessionOf codec rec))
      (Ends n operation start (AnsweredBy codec start operation g)) := by
  refine Prog.Triple.bindExcept (Spec.readRecord hF hblank) ?_ fun rec => ?_
  · rintro (sessionId' | sessionId' | message | message) s _ ⟨hfound, hat⟩
    · exact hfound.elim
    · obtain ⟨rfl, hnone⟩ := hfound
      exact hat.ends fun hfact => ⟨hmissing _ hfact hnone, fun _ _ _ => rfl⟩
    · exact hfound.elim
    · exact hat.ends fun _ => answered_unavailable
  · refine Prog.Triple.of_pure fun hfound => ?_
    obtain ⟨hid, last, rfl⟩ := hfound
    cases hsession : sessionOf codec rec with
    | error e =>
      obtain ⟨message, rfl⟩ := sessionOf_error hsession
      rw [hraised]
      exact Spec.throw hF fun _ _ _ => answered_unavailable
    | ok session =>
      refine Prog.Triple.learn (At.stable hF)
        (fun s hlegal hat => hlegal.kept_of_saw (hsaw s.log hat.fact)) fun hkept => ?_
      obtain ⟨policy, updatedAtMs, rfl⟩ := hkept.record_eq
      obtain ⟨hdecoded, hrevision⟩ := sessionOf_ok hsession
      exact hf last _ session ⟨rfl, hid, hdecoded, hrevision⟩

theorem load_correct (sessionId : String) :
    Correct codec retention n start (.load sessionId) (load codec n sessionId) .session := by
  refine Spec.locked lasting_true (fun _ _ => lasting_answered) (fun _ _ _ => answered_unavailable)
    (fun _ _ _ _ => answered_value) fun file hblank => ?_
  refine Spec.readSession (f := raised) (lasting_true.and lasting_saw) hblank
    (fun _ hfact => hfact.2) ?_ (fun _ => rfl) ?_
  · rintro log hfact rfl
    exact ⟨rfl, hfact.2⟩
  · rintro last rec session ⟨rfl, hid, hdecoded, hrevision⟩
    refine Spec.pure (lasting_true.and lasting_saw) fun log _ hfact => ⟨⟨rfl, ?_⟩, by rintro _ ⟨⟩⟩
    obtain ⟨m, hstart, hm, hfile⟩ := hfact.2
    exact ⟨m, hstart, hm, last, rec, hfile, hid, hdecoded, hrevision⟩

theorem compareAndSwap_correct (sessionId : String) (expectedRevision : ℤ) (session : Session ρ) :
    Correct codec retention n start (.compareAndSwap sessionId expectedRevision session)
      (compareAndSwap codec (retention n) n sessionId expectedRevision session) fun _ => .done := by
  unfold compareAndSwap
  split_ifs with hid hadvance
  · exact Spec.throw lasting_true fun _ _ _ => answered_value
  · exact Spec.throw lasting_true fun _ _ _ => answered_value
  · rw [not_not] at hid hadvance
    subst hid
    refine Spec.locked lasting_true (fun _ _ => lasting_answered) (fun _ _ _ => answered_unavailable)
      (fun _ _ _ _ => answered_value) fun file hblank => ?_
    refine Spec.readSession (f := fun r => do
      let current ← raised r
      if current.stateRevision ≠ expectedRevision then throw (.conflict session.sessionId)
      else writeRecord codec (retention n) n session) (lasting_true.and lasting_saw) hblank
      (fun _ hfact => hfact.2) ?_ (fun _ => rfl) ?_
    · rintro log hfact rfl
      exact ⟨rfl, hfact.2⟩
    · rintro last rec current ⟨rfl, hid, -, hrevision⟩
      change Spec _ _ _ _ (ite (current.stateRevision ≠ expectedRevision) _ _) _
      by_cases hexpected : current.stateRevision = expectedRevision
      · rw [if_neg (not_not.mpr hexpected)]
        exact Spec.writeRecord (lasting_true.and lasting_saw) (fun _ _ _ => answered_unavailable) hblank
          (.inr ⟨expectedRevision, last, rec, rfl, rfl, hid, hrevision.symm.trans hexpected, hadvance⟩)
          (fun _ _ => answered_value) fun rec _ => ⟨⟨_, rec, rfl⟩, by rintro _ ⟨⟩⟩
      · rw [if_pos hexpected]
        refine Spec.throw (lasting_true.and lasting_saw) fun log _ hfact => ⟨⟨rfl, ?_⟩, fun _ _ _ => rfl⟩
        obtain ⟨m, hstart, hm, hfile⟩ := hfact.2
        exact ⟨m, hstart, hm, last, rec, hfile, hid, fun h => hexpected (hrevision.trans h)⟩

/-! ### Scans -/

variable (codec start) in
/-- The records of some files, which are those of the start if nobody has changed files since. -/
def Scanned (names : List String) : Except Fault (List (Record P)) → Log ρ P → Prop
  | .ok records, log => (∀ rec ∈ records, ∃ name session, Kept codec name session rec) ∧
    (Quiet start log → records = names.filterMap fun name => (stored start name).map Prod.snd)
  | .error (.unavailable _), _ => True
  | _, _ => False

theorem Scanned.lasting {names : List String} {r : Except Fault (List (Record P))} :
    Lasting (Scanned codec start names r) := by
  intro log d h
  revert h
  fun_cases Scanned codec start names r log
  · exact fun h => ⟨h.1, fun hquiet => h.2 hquiet.of_append⟩
  · exact id
  · exact False.elim

theorem Scanned.cons_none {name : String} {names : List String} {log : Log ρ P}
    {r : Except Fault (List (Record P))} (h : Scanned codec start names r log)
    (hnone : Quiet start log → (stored start name).map Prod.snd = none) :
    Scanned codec start (name :: names) r log := by
  rcases r with (_ | _ | _ | _) | records
  · exact h
  · exact h
  · exact h
  · exact h
  · exact ⟨h.1, fun hquiet => by rw [List.filterMap_cons_none (by exact hnone hquiet), h.2 hquiet]⟩

theorem Scanned.cons_some {name : String} {names : List String} {log : Log ρ P} {rec : Record P}
    {records : List (Record P)} (h : Scanned codec start names (.ok records) log)
    (hrec : ∃ name session, Kept codec name session rec)
    (hsome : Quiet start log → (stored start name).map Prod.snd = some rec) :
    Scanned codec start (name :: names) (.ok (rec :: records)) log := by
  refine ⟨?_, fun hquiet => by rw [List.filterMap_cons_some (by exact hsome hquiet), h.2 hquiet]⟩
  simpa [List.forall_mem_cons] using ⟨hrec, h.1⟩

variable (codec) in
/-- A record in a file is of a session that belongs there. -/
def Genuine : Reading P → Prop
  | .record rec => ∃ name session, Kept codec name session rec
  | _ => True

variable (start) in
/-- A file as it is read is a file of the start if nobody has changed files since. -/
def Unchanged (name : String) : Reading P → Log ρ P → Prop
  | .missing, log => Quiet start log → (stored start name).map Prod.snd = none
  | .failed _, _ => True
  | .record rec, log => Quiet start log → (stored start name).map Prod.snd = some rec

theorem Unchanged.lasting {name : String} : ∀ {r : Reading P}, Lasting (Unchanged start name r)
  | .missing => fun _ _ h hquiet => h hquiet.of_append
  | .failed _ => fun _ _ _ => trivial
  | .record _ => fun _ _ h hquiet => h hquiet.of_append

def Scans {α : Type} (n : ℕ) (operation : Operation ρ) (start : Log ρ P) (F : Log ρ P → Prop)
    (R : α → Log ρ P → Prop) (a : α) (s : State ρ P) : Prop :=
  At n operation start [] none (fun log => F log ∧ R a log) s

theorem Spec.scan {operation : Operation ρ} {F : Log ρ P → Prop} (hF : Lasting F)
    (names : List String) : Spec codec retention n (At n operation start [] none F)
      (scan names) (Scans n operation start F (Scanned codec start names)) := by
  induction names generalizing F with
  | nil =>
    exact Prog.Triple.pureExcept (At.stable hF) fun s _ hat =>
      hat.weaken fun hfact => ⟨hfact, by simp, fun _ => rfl⟩
  | cons name names ih =>
    rw [FileStore.scan]
    have hread (r : Reading P) : Lasting fun log => F log ∧ Unchanged start name r log :=
      hF.and Unchanged.lasting
    refine Spec.look (.read name) (p := Genuine codec)
      (G := fun r log => F log ∧ Unchanged start name r log) hF hread ?_ ?_
    · rintro s hlegal hat (_ | message | rec) t hdoes
      · obtain ⟨rfl, hnone⟩ := hdoes
        refine ⟨rfl, trivial, hat.fact, fun h => ?_⟩
        rw [← h.stored hat.call.of_start List.prefix_rfl, hnone]
        rfl
      · exact ⟨hdoes, trivial, hat.fact, trivial⟩
      · obtain ⟨rfl, session, hsome⟩ := hdoes
        refine ⟨rfl, ⟨name, session, hlegal.kept hsome⟩, hat.fact, fun h => ?_⟩
        rw [← h.stored hat.call.of_start List.prefix_rfl, hsome]
        rfl
    · rintro (_ | message | rec) hr
      · refine Prog.Triple.weaken (ih (hread .missing)) (fun _ h => h) fun r s _ hat => ?_
        exact At.weaken hat fun h => ⟨h.1.1, h.2.cons_none h.1.2⟩
      · exact Prog.Triple.throw (At.stable (hread (.failed message))) fun s _ hat =>
          hat.weaken fun h => ⟨h.1, trivial⟩
      · refine Prog.Triple.bindExcept (ih (hread (.record rec))) (fun e s _ hat => ?_) fun records => ?_
        · refine At.weaken hat fun h => ⟨h.1.1, ?_⟩
          cases e <;> exact h.2
        · refine Prog.Triple.pureExcept (At.stable ((hread (.record rec)).and Scanned.lasting))
            fun s _ hat => ?_
          exact hat.weaken fun h => ⟨h.1.1, h.2.cons_some hr h.1.2⟩

def Names (log : Log ρ P) (names : List String) : Prop :=
  names.Nodup ∧ ∀ name, name ∈ names ↔ stored log name ≠ none

theorem Lists.names {log : Log ρ P} {since : ℕ} {names : List String} (h : Lists log since names)
    (hstart : start <+: log) (hsince : start.length ≤ since) (hquiet : Quiet start log) :
    Names start names := by
  have hmoment (m : Log ρ P) (hm : m <+: log) (hlength : since ≤ m.length) (name : String) :
      stored m name = stored start name :=
    hquiet.stored (List.prefix_of_prefix_length_le hstart hm (hsince.trans hlength)) hm
  have hcount (name : String) (hstored : stored start name ≠ none) : names.count name = 1 :=
    (h name).1 fun m hm hlength => (hmoment m hm hlength name).trans_ne hstored
  have hnone (name : String) (hstored : stored start name = none) : name ∉ names :=
    (h name).2 fun m hm hlength => (hmoment m hm hlength name).trans hstored
  refine ⟨List.nodup_iff_count_le_one.mpr fun name => ?_, fun name => ⟨?_, fun hstored => ?_⟩⟩
  · by_cases hstored : stored start name = none
    · rw [List.count_eq_zero_of_not_mem (hnone name hstored)]
      exact Nat.zero_le 1
    · exact (hcount name hstored).le
  · exact fun hmem hstored => hnone name hstored hmem
  · rw [← List.count_pos_iff, hcount name hstored]
    exact Nat.one_pos

variable (codec start) in
/-- What `_record_summaries` returns. -/
def Summaries : Except Fault (List (Record P)) → Log ρ P → Prop
  | .ok records, log => (∀ rec ∈ records, ∃ name session, Kept codec name session rec) ∧
    (Quiet start log → start <+: log ∧ ∃ names, Names start names ∧
      records = names.filterMap fun name => (stored start name).map Prod.snd)
  | .error (.unavailable _), _ => True
  | _, _ => False

theorem Summaries.lasting {r : Except Fault (List (Record P))} : Lasting (Summaries codec start r) := by
  intro log d h
  revert h
  fun_cases Summaries codec start r log
  · rintro ⟨hkept, h⟩
    refine ⟨hkept, fun hquiet => ?_⟩
    obtain ⟨hstart, hrecords⟩ := h hquiet.of_append
    exact ⟨hstart.trans (List.prefix_append _ _), hrecords⟩
  · exact id
  · exact False.elim

theorem Spec.recordSummaries {operation : Operation ρ} :
    Spec codec retention n (At n operation start [] none fun _ => True) recordSummaries
      (Scans n operation start (fun _ => True) (Summaries codec start)) := by
  have hstart : Lasting fun log : Log ρ P => start <+: log :=
    fun _ _ h => h.trans (List.prefix_append _ _)
  have hnames (names : List String) : Lasting fun log : Log ρ P => Quiet start log → Names start names :=
    fun _ _ h hquiet => h hquiet.of_append
  refine Spec.look .opendir (p := fun r => ∀ since, r = .ok since → start.length ≤ since)
    (G := fun _ log => start <+: log) lasting_true (fun _ => hstart) ?_ ?_
  · rintro s hlegal hat (message | since) t hdoes
    · exact ⟨hdoes, by rintro _ ⟨⟩, hat.call.of_start⟩
    · obtain ⟨rfl, rfl⟩ := hdoes
      exact ⟨rfl, by rintro _ ⟨⟩; exact hat.call.of_start.length_le, hat.call.of_start⟩
  · rintro (message | since) hr
    · exact Prog.Triple.throw (At.stable hstart) fun s _ hat => hat.weaken fun _ => ⟨trivial, trivial⟩
    · refine Spec.look (.readdir since) (p := fun _ => True) (G := fun r log => start <+: log ∧ match r with
        | .ok names => Quiet start log → Names start names
        | .error _ => True) hstart ?_ ?_ ?_
      · rintro (message | names)
        · exact hstart.and lasting_true
        · exact hstart.and (hnames names)
      · rintro s hlegal hat (message | names) t hdoes
        · exact ⟨hdoes, trivial, hat.fact, trivial⟩
        · obtain ⟨rfl, hlists⟩ := hdoes
          exact ⟨rfl, trivial, hat.fact, hlists.names hat.fact (hr since rfl)⟩
      · rintro (message | names) -
        · exact Prog.Triple.throw (At.stable (hstart.and lasting_true)) fun s _ hat =>
            hat.weaken fun _ => ⟨trivial, trivial⟩
        · refine Prog.Triple.weaken (Spec.scan (hstart.and (hnames names)) (sortOn id names))
            (fun _ h => h) fun r s _ hat => At.weaken hat ?_
          rintro ⟨⟨hbefore, hnames⟩, hscanned⟩
          refine ⟨trivial, ?_⟩
          rcases r with (_ | _ | _ | _) | records
          · exact hscanned
          · exact hscanned
          · exact hscanned
          · exact hscanned
          · refine ⟨hscanned.1, fun hquiet => ⟨hbefore, _, ?_, hscanned.2 hquiet⟩⟩
            obtain ⟨hnodup, hmem⟩ := hnames hquiet
            exact ⟨(sortOn_perm id names).nodup_iff.mpr hnodup, fun name => mem_sortOn.trans (hmem name)⟩

/-! ### Listing -/

structure Records (codec : Codec ρ P) (log : Log ρ P) (records : List (Record P)) : Prop where
  nodup : (records.map Record.sessionId).Nodup
  mem_iff : ∀ rec, rec ∈ records ↔ ∃ name session, stored log name = some (session, rec)

theorem Names.records {names : List String} (h : Names start names) (hlegal : Legal codec retention start) :
    Records codec start (names.filterMap fun name => (stored start name).map Prod.snd) := by
  have hname {name : String} {rec : Record P} (hrec : (stored start name).map Prod.snd = some rec) :
      name = sha256Text rec.sessionId := by
    obtain ⟨⟨session, rec'⟩, hstored, rfl⟩ := Option.map_eq_some_iff.mp hrec
    obtain ⟨hkey, -, policy, updatedAtMs, rfl⟩ := hlegal.kept hstored
    exact hkey
  constructor
  · rw [List.map_filterMap]
    refine h.1.filterMap fun name name' sessionId hid hid' => ?_
    obtain ⟨rec, hrec, rfl⟩ := Option.map_eq_some_iff.mp hid
    obtain ⟨rec', hrec', heq⟩ := Option.map_eq_some_iff.mp hid'
    rw [hname hrec, hname hrec', heq]
  · intro rec
    rw [List.mem_filterMap]
    constructor
    · rintro ⟨name, -, hrec⟩
      obtain ⟨⟨session, rec'⟩, hstored, rfl⟩ := Option.map_eq_some_iff.mp hrec
      exact ⟨name, session, hstored⟩
    · rintro ⟨name, session, hstored⟩
      exact ⟨name, (h.2 name).mpr (by simp [hstored]), by simp [hstored]⟩

theorem Records.pending {records : List (Record P)} (h : Records codec start records)
    (hlegal : Legal codec retention start) (limit : ℤ) :
    Pending start limit (((sortOn id ((records.filter isPendingRecord).map fun r =>
      toLex (r.updatedAtMs, r.sessionId))).take limit.toNat).map fun entry => (ofLex entry).2) := by
  refine ⟨_, ?_, fun updatedAtMs sessionId => ?_, rfl⟩
  · refine sortOn_increasing ?_
    refine List.Nodup.of_map (fun entry => (ofLex entry).2) ?_
    rw [List.map_map, List.map_map]
    exact h.nodup.sublist (List.filter_sublist.map Record.sessionId)
  · simp only [mem_sortOn, List.mem_map, List.mem_filter, h.mem_iff, toLex_inj, Prod.mk.injEq]
    constructor
    · rintro ⟨rec, ⟨⟨name, session, hstored⟩, hpending⟩, rfl, rfl⟩
      obtain ⟨-, -, policy, updatedAtMs, rfl⟩ := hlegal.kept hstored
      exact ⟨name, session, _, hstored, hpending, rfl, rfl⟩
    · rintro ⟨name, session, rec, hstored, hpending, rfl, rfl⟩
      obtain ⟨-, -, policy, updatedAtMs, rfl⟩ := hlegal.kept hstored
      exact ⟨_, ⟨⟨name, session, hstored⟩, hpending⟩, rfl, rfl⟩

theorem listPending_correct (limit : ℤ) :
    Correct codec retention n start (.listPending limit) (listPending limit) .ids := by
  unfold listPending
  split_ifs with hlimit
  · exact Spec.throw lasting_true fun _ _ _ => answered_value
  · have hlast (r : Except Fault (List (Record P))) :
        Lasting fun log : Log ρ P => True ∧ Summaries codec start r log :=
      lasting_true.and Summaries.lasting
    refine Prog.Triple.bindExcept Spec.recordSummaries (fun e s _ hat => ?_) fun records => ?_
    · refine At.ends hat ?_
      rintro ⟨-, hsummaries⟩
      cases e with
      | unavailable message => exact answered_unavailable
      | _ => exact hsummaries.elim
    · refine Spec.pure (hlast (.ok records)) fun log hlegal hfact => ⟨⟨rfl, fun hquiet => ?_⟩, by rintro _ ⟨⟩⟩
      obtain ⟨⟨d, rfl⟩, names, hnames, rfl⟩ := hfact.2.2 hquiet
      exact (hnames.records hlegal.of_append).pending hlegal.of_append limit

/-! ### Pruning -/

def Removed {α : Type} (count : α → ℕ) : Except Fault α → List (Event ρ P) → Log ρ P → Prop
  | .ok a, changes, _ => changes.length = count a
  | .error (.unavailable _), _, _ => True
  | _, _, _ => False

theorem Removed.lasting {α : Type} {count : α → ℕ} (r : Except Fault α) (changes : List (Event ρ P)) :
    Lasting (Removed count r changes) := by
  intro log d h
  revert h
  fun_cases Removed count r changes log
  · exact id
  · exact id
  · exact False.elim

theorem pruneOne_removed {nowMs : ℤ} {limit : Option ℤ} {sessionId : String}
    {changes : List (Event ρ P)} (hblank : blank sessionId = false) :
    Spec codec retention n (At n (.pruneExpired nowMs limit) start changes none fun _ => True)
      (pruneOne n nowMs sessionId) (Ends n (.pruneExpired nowMs limit) start
        (Removed fun one : Bool => changes.length + one.toNat)) := by
  refine Spec.locked lasting_true Removed.lasting (fun _ _ _ => trivial)
    (fun _ _ h _ => absurd h (by simp [hblank])) fun file _ => ?_
  have hlast : Lasting fun log => True ∧ Saw start (fun m => stored m (sha256Text sessionId) = file) log :=
    lasting_true.and lasting_saw
  refine Prog.Triple.bindLift (Spec.readRecord hlast hblank) fun outcome => ?_
  refine Prog.Triple.of_pure fun hfound => ?_
  rcases outcome with (_ | _ | _ | _) | rec
  · exact hfound.elim
  · exact Spec.pure hlast fun _ _ _ => rfl
  · exact hfound.elim
  · exact Spec.throw hlast fun _ _ _ => trivial
  · dsimp only
    split_ifs with hexpires
    · exact Spec.pure hlast fun _ _ _ => rfl
    · obtain ⟨-, session, rfl⟩ := hfound
      unfold key
      simp only [hblank]
      refine Spec.act (.unlink n _) (At.stable hlast) (R := fun r s => match r with
        | .ok _ => At n (.pruneExpired nowMs limit) start
            (changes ++ [.removed (sha256Text sessionId)]) none (fun _ => True) s
        | .error _ => At n (.pruneExpired nowMs limit) start changes none (fun _ => True) s) ?_ ?_ ?_
      · rintro (message | _)
        · exact At.stable lasting_true
        · exact At.stable lasting_true
      · rintro s hlegal hat (message | _) t hdoes
        · obtain rfl : t = s := hdoes
          exact ⟨hlegal, guarantee_refl n t, hat.call, fun _ h => (nomatch h), trivial⟩
        · obtain ⟨-, rfl⟩ := hdoes
          obtain ⟨hlock, hfile⟩ := hat.holding _ rfl
          refine ⟨legal_snoc.mpr ⟨hlegal, nowMs, limit, start, changes, hat.call, session, rec, hfile,
            not_lt.mp hexpires⟩, guarantee_push fun name hname => ?_, ?_⟩
          · obtain rfl : sha256Text sessionId = name := hname
            exact hlock
          · exact At.push lasting_true (hat.weaken fun _ => trivial) trivial
      · rintro (message | _)
        · exact Spec.throw lasting_true fun _ _ _ => trivial
        · exact Spec.pure lasting_true fun _ _ _ => by simp [Removed]

theorem pruneAll_removed {nowMs : ℤ} {limit : Option ℤ} (entries : List (ℤ ×ₗ String))
    (hblank : ∀ entry ∈ entries, blank (ofLex entry).2 = false) (changes : List (Event ρ P)) :
    Spec codec retention n (At n (.pruneExpired nowMs limit) start changes none fun _ => True)
      (pruneAll n nowMs changes.length entries) (Ends n (.pruneExpired nowMs limit) start
        (Removed fun count : ℕ => count)) := by
  induction entries generalizing changes with
  | nil => exact Spec.pure lasting_true fun _ _ _ => rfl
  | cons entry entries ih =>
    obtain ⟨hentry, hentries⟩ := List.forall_mem_cons.mp hblank
    refine Prog.Triple.bindExcept (pruneOne_removed hentry) ?_ fun one => ?_
    · rintro e s - ⟨changes', hat⟩
      refine hat.ends fun h => ?_
      cases e <;> exact h
    · refine Prog.Triple.exists fun changes' => ?_
      refine Prog.Triple.learn (At.stable (Removed.lasting (.ok one) changes'))
        (fun s _ hat => hat.fact) fun hlength => ?_
      have hcount : changes'.length = changes.length + one.toNat := hlength
      rw [← hcount]
      exact Prog.Triple.weaken (ih hentries changes') (fun s hat => hat.weaken fun _ => trivial)
        fun _ _ _ h => h

theorem pruneExpired_correct (nowMs : ℤ) (limit : Option ℤ) :
    Correct codec retention n start (.pruneExpired nowMs limit)
      (pruneExpired (retention n) n nowMs limit) .removed := by
  unfold pruneExpired
  dsimp only
  split_ifs with hbatch
  · exact Spec.throw lasting_true fun _ _ _ => answered_value
  · refine Prog.Triple.bindExcept Spec.recordSummaries (fun e s _ hat => ?_) fun records => ?_
    · refine At.ends hat ?_
      rintro ⟨-, hsummaries⟩
      cases e with
      | unavailable message => exact answered_unavailable
      | _ => exact hsummaries.elim
    · refine Prog.Triple.learn (At.stable (lasting_true.and Summaries.lasting))
        (fun s _ hat => hat.fact.2.1) fun hkept => ?_
      have hnames : ∀ entry ∈ (sortOn id ((records.map retentionMetadata).filter fun entry =>
          (ofLex entry).1 ≤ nowMs)).take (limit.getD (retention n).pruneBatchSize).toNat,
          blank (ofLex entry).2 = false := by
        intro entry hentry
        obtain ⟨rec, hrec, rfl⟩ := List.mem_map.mp
          (List.mem_of_mem_filter (mem_sortOn.mp (List.mem_of_mem_take hentry)))
        obtain ⟨name, session, -, hblank, policy, updatedAtMs, rfl⟩ := hkept rec hrec
        exact hblank
      have hanswered (r : Except Fault ℕ) {changes : List (Event ρ P)} {log : Log ρ P}
          (h : Removed (fun count : ℕ => count) r changes log) :
          AnsweredBy codec start (.pruneExpired nowMs limit) .removed r changes log := by
        rcases r with (_ | _ | _ | _) | removed
        · exact h.elim
        · exact h.elim
        · exact h.elim
        · exact answered_unavailable
        · exact ⟨h, by rintro _ ⟨⟩⟩
      refine Prog.Triple.bindExcept (Prog.Triple.weaken (pruneAll_removed _ hnames [])
        (fun s hat => At.weaken hat fun _ => trivial) fun _ _ _ h => h) ?_ fun removed => ?_
      · rintro e s - ⟨changes, hat⟩
        exact hat.ends (hanswered (.error e))
      · refine Prog.Triple.exists fun changes => ?_
        have hlast : Lasting (ρ := ρ) (P := P) (Removed (fun count : ℕ => count) (.ok removed) changes) :=
          Removed.lasting _ changes
        split_ifs with hzero
        · refine Spec.look .fsyncDirectory (p := fun _ => True) hlast (fun _ => hlast)
            (fun s _ hat r t hdoes => ⟨hdoes, trivial, hat.fact⟩) fun r _ => ?_
          exact Spec.orUnavailable hlast (fun _ _ _ => answered_unavailable) fun _ _ =>
            Spec.pure hlast fun _ _ h => hanswered (.ok removed) h
        · exact Spec.pure hlast fun _ _ h => hanswered (.ok removed) h

theorem run_correct (operation : Operation ρ) :
    Spec codec retention n (At n operation start [] none fun _ => True)
      (operation.run codec (retention n) n) (Ends n operation start (Answered codec start operation)) := by
  cases operation with
  | create session => exact Spec.answers (create_correct session)
  | load sessionId => exact Spec.answers (load_correct sessionId)
  | compareAndSwap sessionId expectedRevision session =>
    exact Spec.answers (compareAndSwap_correct sessionId expectedRevision session)
  | listPending limit => exact Spec.answers (listPending_correct limit)
  | pruneExpired nowMs limit => exact Spec.answers (pruneExpired_correct nowMs limit)

end Operations

/-! ### Processes -/

section Processes

variable {codec : Codec ρ P} {retention : ℕ → SessionRetentionPolicy} {n : ℕ}

theorem idle_stable : (contract ρ P n).Stable fun s => Idle n s.log := by
  intro s t hst hidle
  obtain ⟨d, hd, hcaller, -⟩ := hst.log
  rw [Idle, hd, own_append, own_of_others hcaller, List.append_nil]
  exact hidle

/-- A process begins each call after the end of the one before. -/
theorem process_correct (operations : List (Operation ρ)) :
    Prog.Triple (fun s : State ρ P => Legal codec retention s.log) (contract ρ P n) Does
      (fun s => Idle n s.log) (process codec (retention n) n operations) fun _ s => Idle n s.log := by
  induction operations with
  | nil => exact Prog.Triple.done idle_stable fun s _ hidle => hidle
  | cons operation operations ih =>
    refine Prog.Triple.bind (R := fun _ s => ∃ start, At n operation start [] none (fun _ => True) s)
      (Prog.Triple.perform idle_stable ?_ ?_) fun _ => ?_
    · rintro _ s t hst ⟨start, hat⟩
      exact ⟨start, At.stable lasting_true s t hst hat⟩
    · rintro s hlegal hidle _ t hdoes
      obtain rfl : t = _ := hdoes
      refine ⟨legal_snoc.mpr ⟨hlegal, hidle⟩, guarantee_push fun _ h => (nomatch h), _,
        ⟨⟨_, rfl⟩, ⟨[], (List.append_nil _).symm, rfl⟩, fun _ h => nomatch h⟩, fun _ h => (nomatch h), trivial⟩
    · refine Prog.Triple.exists fun start => Prog.Triple.bind (run_correct operation) fun outcome => ?_
      refine Prog.Triple.bind (R := fun _ s => Idle n s.log)
        (Prog.Triple.perform (Ends.stable (fun _ _ => lasting_answered) outcome)
          (fun _ => idle_stable) ?_) fun _ => ih
      rintro s hlegal ⟨changes, hat⟩ _ t hdoes
      obtain rfl : t = _ := hdoes
      refine ⟨legal_snoc.mpr ⟨hlegal, operation, start, changes, hat.call, hat.fact⟩,
        guarantee_push fun _ h => (nomatch h), ?_⟩
      intro event hevent
      refine ⟨outcome, ?_⟩
      simpa [State.push, eq_comm] using hevent

end Processes

/-! ### Runs -/

section Runs

variable {codec : Codec ρ P} {retention : ℕ → SessionRetentionPolicy} {log : Log ρ P}

/-- Until a file is removed, its revision is never below one that was stored. -/
theorem Legal.revision_le {name : String} {session : Session ρ} {rec : Record P} {past between : Log ρ P}
    {n : ℕ} (h : Legal codec retention (past ++ ⟨n, .wrote name session rec⟩ :: between))
    (hbetween : ∀ entry ∈ between, entry.event ≠ .removed name) :
    ∃ last rec', stored (past ++ ⟨n, .wrote name session rec⟩ :: between) name = some (last, rec') ∧
      session.stateRevision ≤ last.stateRevision := by
  induction between using List.reverseRecOn with
  | nil => exact ⟨session, rec, by simp [stored_snoc, Event.after], le_rfl⟩
  | append_singleton between entry ih =>
    rw [← List.cons_append, ← List.append_assoc] at h ⊢
    obtain ⟨hlog, hentry⟩ := legal_snoc.mp h
    obtain ⟨last, rec', hlast, hle⟩ := ih hlog fun e he => hbetween e (List.mem_append_left _ he)
    rw [stored_snoc, hlast]
    obtain ⟨m, event⟩ := entry
    cases event with
    | began _ => exact ⟨last, rec', rfl, hle⟩
    | ended _ => exact ⟨last, rec', rfl, hle⟩
    | removed name' =>
      have hne : name' ≠ name := by
        rintro rfl
        exact hbetween _ (List.mem_append_right _ (List.mem_singleton_self _)) rfl
      exact ⟨last, rec', if_neg hne, hle⟩
    | wrote name' session' rec'' =>
      by_cases hname : name' = name
      · subst hname
        obtain ⟨operation, start, -, hwrites, -⟩ := hentry
        refine ⟨session', rec'', if_pos rfl, ?_⟩
        rw [hlast] at hwrites
        rcases hwrites with ⟨-, hnone⟩ | ⟨expected, current, rec₀, -, hfile, -, hcurrent, hadvance⟩
        · cases hnone
        · obtain ⟨rfl, -⟩ := Prod.mk.inj (Option.some.inj hfile)
          omega
      · exact ⟨last, rec', if_neg hname, hle⟩

theorem Legal.once (h : Legal codec retention log) : Once log := by
  rintro past n m name session session' rec rec' between rest rfl hbetween
  have hlegal : Legal codec retention (past ++ ⟨n, .wrote name session rec⟩ :: between) :=
    h.of_append
  obtain ⟨last, rec₀, hlast, hle⟩ := hlegal.revision_le hbetween
  obtain ⟨operation, start, -, hwrites, -⟩ := h _ _ rest rfl
  rw [hlast] at hwrites
  rcases hwrites with ⟨-, hnone⟩ | ⟨expected, current, rec₁, -, hfile, -, hcurrent, hadvance⟩
  · cases hnone
  · obtain ⟨rfl, -⟩ := Prod.mk.inj (Option.some.inj hfile)
    omega

/-- Whatever processes call the store, and however their calls interleave, every answer is what
the files were at some moment of its call. -/
theorem legal_run (codec : Codec ρ P) (retention : ℕ → SessionRetentionPolicy)
    (calls : List (List (Operation ρ))) {s : State ρ P} {ps : List (Prog (fileInterface ρ P) Unit)}
    (hrun : Relation.ReflTransGen (Prog.Step Does) (State.initial, processes codec retention calls) (s, ps)) :
    Legal codec retention s.log := by
  have hinitial : Legal codec retention (State.initial : State ρ P).log := by
    intro past entry rest heq
    simp [State.initial] at heq
  have hprocesses : ∀ n p, (processes codec retention calls)[n]? = some p →
      Prog.Meets (fun s => Legal codec retention s.log) (contract ρ P n) Does
        (fun _ s => Idle n s.log) p State.initial := by
    intro n p hp
    rw [processes, List.getElem?_mapIdx, Option.map_eq_some_iff] at hp
    obtain ⟨operations, -, rfl⟩ := hp
    exact process_correct operations _ (by simp [Idle, State.initial, own])
  exact (Prog.meets_run (fun _ _ _ _ hne _ hown => Guarantee.meanwhile hne hown)
    hprocesses hinitial hrun).1

end Runs

/-! ### Calls that nothing disturbs -/

section Undisturbed

variable {codec : Codec ρ P} {retention : SessionRetentionPolicy} {n : ℕ} {log log' : Log ρ P}
  {locks : String → Lock} {session current : Session ρ} {operations : List (Operation ρ)}

/-- An action is done, and the program goes on. -/
theorem then_act {α : Type} {s s' : State ρ P} {a : Action ρ P} {f : a.Reply → Program ρ P α}
    {c : State ρ P × Prog (fileInterface ρ P) (Except Fault α)} (r : a.Reply) (hdoes : Does s a r s')
    (hrest : Relation.ReflTransGen (Prog.Alone Does) (s', (f r).run) c) :
    Relation.ReflTransGen (Prog.Alone Does) (s, (perform a >>= f).run) c :=
  .head (.act hdoes) hrest

/-- A lock that is free is taken and given back. -/
theorem alone_locked {α : Type} {sessionId : String} {exclusive : Bool} {body : Program ρ P α}
    {r : Except Fault α} (hblank : blank sessionId = false)
    (hfree : locks (sha256Text sessionId) = .shared [])
    (hbody : ∀ locks, Relation.ReflTransGen (Prog.Alone Does) ((⟨log, locks⟩ : State ρ P), body.run)
      (⟨log', locks⟩, Prog.done r)) :
    Relation.ReflTransGen (Prog.Alone Does)
      ((⟨log, locks⟩ : State ρ P), (locked n sessionId exclusive body).run) (⟨log', locks⟩, Prog.done r) := by
  obtain ⟨lock, hlock, hrelease⟩ : ∃ lock, (Lock.shared []).acquire n exclusive = some lock ∧
      lock.release n = .shared [] := by
    cases exclusive
    · exact ⟨.shared [n], rfl, by simp [Lock.release]⟩
    · exact ⟨.exclusive n, rfl, if_pos rfl⟩
  unfold locked key
  simp only [hblank]
  refine Prog.ends_then Prog.ends_pure ?_
  refine then_act (a := .flock n _ exclusive) (.ok ()) ⟨lock, by simpa [hfree] using hlock, rfl⟩ ?_
  refine Prog.ends_then Prog.ends_pure ?_
  refine Prog.ends_then (Prog.alone_bind (hbody _)) ?_
  refine then_act (a := .unlock n _) (.ok ()) rfl ?_
  refine Prog.ends_then Prog.ends_pure ?_
  simp only [Function.update_self, hrelease, Function.update_idem, ← hfree, Function.update_eq_self]
  cases r <;> exact .refl

/-- A call begins, runs and ends. -/
theorem alone_call {operation : Operation ρ} {outcome : Except Fault (Answer ρ)}
    (h : Relation.ReflTransGen (Prog.Alone Does) ((⟨log ++ [⟨n, .began operation⟩], locks⟩ : State ρ P),
      (operation.run codec retention n).run) (⟨log', locks⟩, Prog.done outcome)) :
    Relation.ReflTransGen (Prog.Alone Does)
      ((⟨log, locks⟩ : State ρ P), process codec retention n (operation :: operations))
      (⟨log' ++ [⟨n, .ended outcome⟩], locks⟩, process codec retention n operations) :=
  .head (.act (r := ()) rfl) ((Prog.alone_bind h).trans (.single (.act (r := ()) rfl)))

variable (hblank : blank session.sessionId = false)
  (hfree : locks (sha256Text session.sessionId) = .shared [])

include hblank in
theorem alone_writeRecord : Relation.ReflTransGen (Prog.Alone Does)
    ((⟨log, locks⟩ : State ρ P), (writeRecord codec retention n session).run)
    (⟨log ++ [⟨n, .wrote (sha256Text session.sessionId) session (record codec retention session 0)⟩], locks⟩,
      Prog.done (.ok ())) := by
  unfold writeRecord key
  simp only [hblank]
  refine Prog.ends_then Prog.ends_pure ?_
  refine then_act (a := .clock) (0 : ℤ) rfl ?_
  refine then_act (a := .replace n _ session _) (.ok ()) rfl ?_
  exact then_act (a := .fsyncDirectory) (.ok ()) rfl .refl

include hblank hfree in
theorem alone_create (hnone : stored log (sha256Text session.sessionId) = none) :
    Relation.ReflTransGen (Prog.Alone Does)
      ((⟨log, locks⟩ : State ρ P), process codec retention n (.create session :: operations))
      (⟨log ++ [⟨n, .began (.create session)⟩] ++
        [⟨n, .wrote (sha256Text session.sessionId) session (record codec retention session 0)⟩] ++
        [⟨n, .ended (.ok .done)⟩], locks⟩, process codec retention n operations) := by
  refine alone_call (Prog.ends_then (a := ()) (alone_locked hblank hfree fun _ => ?_) .refl)
  unfold key
  simp only [hblank]
  refine Prog.ends_then Prog.ends_pure ?_
  refine then_act (a := .pathExists _) false ⟨rfl, ?_⟩ (alone_writeRecord hblank)
  have hstill : stored (log ++ [⟨n, .began (.create session)⟩]) (sha256Text session.sessionId) = none := by
    rwa [stored_snoc]
  rw [hstill]
  rfl

section Stored

theorem stored_wrote {name : String} {rec : Record P} {outcome : Except Fault (Answer ρ)} :
    stored (log ++ [⟨n, .wrote name session rec⟩] ++ [⟨n, .ended outcome⟩]) name = some (session, rec) := by
  rw [stored_snoc, stored_snoc]
  exact if_pos rfl

variable {last current : Session ρ} {rec : Record P}
  (hfile : stored log (sha256Text session.sessionId) = some (last, rec))
  (hid : rec.sessionId = session.sessionId) (hcurrent : sessionOf codec rec = .ok current)

include hblank hfile hid in
theorem ends_readRecord {operation : Operation ρ} : Prog.Ends Does
    (⟨log ++ [⟨n, .began operation⟩], locks⟩ : State ρ P) (FileStore.readRecord session.sessionId) rec
    ⟨log ++ [⟨n, .began operation⟩], locks⟩ := by
  unfold FileStore.readRecord key
  simp only [hblank]
  refine Prog.ends_then Prog.ends_pure ?_
  refine then_act (a := .read _) (.record rec) ⟨rfl, last, ?_⟩ ?_
  · rw [stored_snoc]
    simpa [Event.after] using hfile
  · dsimp only
    rw [if_neg (not_not.mpr hid)]
    exact .refl

include hblank hfree hfile hid hcurrent in
theorem alone_load : Relation.ReflTransGen (Prog.Alone Does)
    ((⟨log, locks⟩ : State ρ P), process codec retention n (.load session.sessionId :: operations))
    (⟨log ++ [⟨n, .began (.load session.sessionId)⟩] ++ [⟨n, .ended (.ok (.session current))⟩], locks⟩,
      process codec retention n operations) := by
  refine alone_call (Prog.ends_then (a := current) (alone_locked hblank hfree fun _ => ?_) .refl)
  refine Prog.ends_then (ends_readRecord hblank hfile hid) ?_
  rw [hcurrent]
  exact .refl

include hblank hfree hfile hid hcurrent in
theorem alone_compareAndSwap {expected : ℤ} (hadvance : session.stateRevision = expected + 1)
    (hexpected : current.stateRevision = expected) : Relation.ReflTransGen (Prog.Alone Does)
    ((⟨log, locks⟩ : State ρ P), process codec retention n
      (.compareAndSwap session.sessionId expected session :: operations))
    (⟨log ++ [⟨n, .began (.compareAndSwap session.sessionId expected session)⟩] ++
      [⟨n, .wrote (sha256Text session.sessionId) session (record codec retention session 0)⟩] ++
      [⟨n, .ended (.ok .done)⟩], locks⟩, process codec retention n operations) := by
  refine alone_call (Prog.ends_then (a := ()) ?_ .refl)
  rw [compareAndSwap, if_neg (not_not.mpr rfl), if_neg (not_not.mpr hadvance)]
  refine alone_locked hblank hfree fun _ => ?_
  refine Prog.ends_then (ends_readRecord hblank hfile hid) ?_
  rw [hcurrent]
  refine Prog.ends_then Prog.ends_pure ?_
  rw [if_neg (not_not.mpr hexpected)]
  exact alone_writeRecord hblank

end Stored

end Undisturbed

/-! ### Sessions -/

section Sessions

variable {κ : Type} (float : ℚ → ℚ) (parts : Parts κ) (describe : WireError → String)

/-- Every load returns the session that its file held at some moment of the call, as it is read back. -/
def LoadsStored (log : Log (SessionRest κ) Wire) : Prop :=
  ∀ past n session rest, log = past ++ ⟨n, .ended (.ok (.session session))⟩ :: rest →
    ∃ sessionId start, InCall n (.load sessionId) start [] past ∧
      Saw start (fun m => ∃ last record, stored m (sha256Text sessionId) = some (last, record) ∧
        last.sessionId = sessionId ∧
        (last.rest.evidence.Constructed float → session = last.current)) past

variable {float parts describe}

/-- A session that was stored is read back. -/
theorem sessionOf_record {retention : SessionRetentionPolicy} {session : Session (SessionRest κ)}
    {updatedAtMs : ℤ} (h : session.rest.evidence.Constructed float)
    (hversion : 3 ≤ session.rest.schemaVersion) (hrevision : 0 ≤ session.stateRevision) :
    sessionOf (sessionCodec float parts describe)
      (record (sessionCodec float parts describe) retention session updatedAtMs) = .ok session.current := by
  have hread : (sessionCodec float parts describe).fromDict
      ((sessionCodec float parts describe).toDict session) = .ok session.current := by
    simp [sessionCodec, Session.fromDict_toDict h hversion, Except.mapError]
  unfold sessionOf record
  simp only [hread]
  simp [Session.current, Session.requiresReconciliation, hrevision]

variable {retention : ℕ → SessionRetentionPolicy} {log : Log (SessionRest κ) Wire}

theorem Legal.loadsStored (h : Legal (sessionCodec float parts describe) retention log) :
    LoadsStored float log := by
  rintro past n session rest hlog
  obtain ⟨operation, start, changes, hcall, hanswers, -⟩ := h past _ rest hlog
  cases operation with
  | load sessionId =>
    obtain ⟨rfl, m, hstart, hm, last, rec, hfile, hid, hdecoded, -⟩ := hanswers
    exact ⟨sessionId, start, hcall, m, hstart, hm, last, rec, hfile, hid, sessionCodec_current hdecoded⟩
  | _ => exact hanswers.elim

variable (float parts describe) in
/-- Whatever processes call the store, and however their calls interleave, every answer is what
the files were at some moment of its call, each stored revision is replaced at most once, and a load
returns what was stored, as it is read back. -/
theorem linearizable (retention : ℕ → SessionRetentionPolicy)
    (calls : List (List (Operation (SessionRest κ)))) {s : State (SessionRest κ) Wire}
    {ps : List (Prog (fileInterface (SessionRest κ) Wire) Unit)}
    (hrun : Relation.ReflTransGen (Prog.Step Does)
      (State.initial, processes (sessionCodec float parts describe) retention calls) (s, ps)) :
    Legal (sessionCodec float parts describe) retention s.log ∧ Once s.log ∧ LoadsStored float s.log := by
  have hlegal := legal_run _ retention calls hrun
  exact ⟨hlegal, hlegal.once, hlegal.loadsStored⟩

end Sessions

/-! ### Two processes -/

/-- The other fields of sessions that differ only in why they ended. -/
def sampleParts : Parts String where
  fields reason := [("unit", .obj [("unit_id", .str "unit-1"), ("argv", .arr [.str "./app"]),
      ("workload", .str "triton_pytest"), ("test_id", .str ""), ("cwd", .str ""), ("arch", .str ""),
      ("source_revision", .str ""), ("kernel", .null), ("oracle", .null), ("env", .obj []),
      ("kernel_filters", .arr [])]),
    ("budget", .obj [("max_rounds", .int 2), ("max_experiments", .int 8)]),
    ("pending_experiments", .arr []), ("completed_experiment_ids", .arr []),
    ("experiment_fingerprints", .arr []), ("round_index", .int 0), ("submitted_experiments", .int 0),
    ("turns", .arr []), ("report", .null), ("triage", .null), ("experiment_history", .arr []),
    ("discovery_plan", .null), ("child_sanitizer_tools", .arr []), ("child_enable_stress", .bool true),
    ("child_stress_options", .null), ("child_session_ids", .arr []),
    ("termination_reason", .str reason), ("report_publication_error", .str "")]
  read d := d.getOr "termination_reason" "" Wire.asStr
  read_fields := by
    intro reason own hown
    induction own with
    | nil => rfl
    | cons field own ih =>
      obtain ⟨hfield, hown⟩ := List.forall_mem_cons.mp hown
      rw [List.cons_append, Wire.getOr_cons, if_neg]
      · exact ih hown
      · rintro heq
        simp [heq, ownKeys] at hfield

abbrev sampleCodec : Codec (SessionRest String) Wire := sessionCodec id sampleParts fun _ => ""

def sampleSession (schemaVersion stateRevision : ℤ) (reductions : List ReduceExperimentResult) :
    Session (SessionRest String) :=
  ⟨"session-1", stateRevision, .failed, .notReady,
    ⟨schemaVersion, { EvidenceBundle.empty with reductions := reductions }, "timeout"⟩⟩

/-- One process creates a session, another swaps it, and the first loads it. -/
def sampleCalls (schemaVersion : ℤ) (reductions : List ReduceExperimentResult) :
    List (List (Operation (SessionRest String))) :=
  [[.create (sampleSession 7 0 []), .load "session-1"],
    [.compareAndSwap "session-1" 0 (sampleSession schemaVersion 1 reductions)]]

theorem sampleCalls_run {schemaVersion : ℤ} {reductions : List ReduceExperimentResult}
    (hversion : 3 ≤ schemaVersion)
    (hreductions : ∀ r ∈ reductions, (ExperimentResult.reduction r).Constructed id) : ∃ s ps,
      Relation.ReflTransGen (Prog.Step Does)
        (State.initial, processes sampleCodec (fun _ => {}) (sampleCalls schemaVersion reductions)) (s, ps) ∧
      (stored s.log (sha256Text "session-1")).map Prod.fst =
        some (sampleSession schemaVersion 1 reductions) ∧
      ⟨0, .ended (.ok (.session (sampleSession schemaVersion 1 reductions).current))⟩ ∈ s.log := by
  have hblank : blank "session-1" = false := by decide +kernel
  have hfirst : sessionOf sampleCodec (record sampleCodec {} (sampleSession 7 0 []) 0) =
      .ok (sampleSession 7 0 []).current :=
    sessionOf_record (by simp [EvidenceBundle.Constructed, EvidenceBundle.results, sampleSession,
      EvidenceBundle.empty]) (by decide) (by decide)
  have hlast : sessionOf sampleCodec (record sampleCodec {} (sampleSession schemaVersion 1 reductions) 0) =
      .ok (sampleSession schemaVersion 1 reductions).current :=
    sessionOf_record (by simpa [EvidenceBundle.Constructed, EvidenceBundle.results, sampleSession,
      EvidenceBundle.empty] using hreductions) hversion Int.one_nonneg
  refine ⟨_, _, ((Prog.step_of_alone (n := 0) rfl (alone_create
      (show blank (sampleSession 7 0 []).sessionId = false from hblank) rfl rfl)).trans
    (Prog.step_of_alone (n := 1) rfl (alone_compareAndSwap
      (show blank (sampleSession schemaVersion 1 reductions).sessionId = false from hblank) rfl stored_wrote rfl hfirst rfl rfl))).trans
    (Prog.step_of_alone (n := 0) rfl (alone_load
      (show blank (sampleSession schemaVersion 1 reductions).sessionId = false from hblank) rfl stored_wrote rfl hlast)), ?_, ?_⟩
  · simp [stored, Event.after, sampleSession]
  · simp

theorem linearizable_swapped : ∃ (s : State (SessionRest String) Wire)
    (ps : List (Prog (fileInterface (SessionRest String) Wire) Unit)),
    Relation.ReflTransGen (Prog.Step Does)
      (State.initial, processes sampleCodec (fun _ => {}) (sampleCalls 7 [])) (s, ps) ∧
    ⟨0, .ended (.ok (.session (sampleSession 7 1 [])))⟩ ∈ s.log ∧
      Legal sampleCodec (fun _ => {}) s.log ∧ Once s.log ∧ LoadsStored id s.log := by
  obtain ⟨s, ps, hrun, -, hloaded⟩ := @sampleCalls_run 7 [] (by decide) (by simp)
  exact ⟨s, ps, hrun, hloaded, linearizable id sampleParts (fun _ => "") (fun _ => {}) (sampleCalls 7 []) hrun⟩

/-- What is loaded need not be what was stored: neither an older schema version is kept nor the
outcome of a reduction that is written no longer. -/
theorem loaded_session_differs : ∃ s ps loaded,
    Relation.ReflTransGen (Prog.Step Does) (State.initial, processes sampleCodec (fun _ => {})
      (sampleCalls 6 [Checkpoint.replayFailed])) (s, ps) ∧
    (stored s.log (sha256Text "session-1")).map Prod.fst =
      some (sampleSession 6 1 [Checkpoint.replayFailed]) ∧
    ⟨0, .ended (.ok (.session loaded))⟩ ∈ s.log ∧ loaded.rest.schemaVersion = 7 ∧
    loaded.rest.evidence.reductions = [{ Checkpoint.replayFailed with outcome := .nonReproducible }] := by
  obtain ⟨s, ps, hrun, hstored, hloaded⟩ := @sampleCalls_run 6 [Checkpoint.replayFailed] (by decide)
    (by simpa using Checkpoint.constructed_replayFailed)
  exact ⟨s, ps, _, hrun, hstored, hloaded, rfl, rfl⟩

end CuTracer.Service.FileStore
