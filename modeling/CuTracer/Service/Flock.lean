import CuTracer.Service.Ledger

/-! What a process knows under a lock. The others change no file that it has locked, and it
changes only files that it has locked for itself alone; so each call is proved by itself, from
what the file held when the lock was granted. -/

namespace CuTracer.Service.FileStore

variable {ρ P : Type}

/-! ### Contracts -/

def Lock.Held : Lock → ℕ → Bool → Prop
  | .exclusive m, n, true => m = n
  | .shared ns, n, false => n ∈ ns
  | _, _, _ => False

theorem Lock.Held.unique {lock : Lock} {n m : ℕ} {exclusive : Bool} (h : lock.Held n true)
    (hm : lock.Held m exclusive) : m = n := by
  cases lock <;> cases exclusive <;> simp_all [Lock.Held]

theorem Lock.held_of_acquire {lock lock' : Lock} {n : ℕ} {exclusive : Bool}
    (h : lock.acquire n exclusive = some lock') : lock'.Held n exclusive := by
  revert h
  fun_cases Lock.acquire lock n exclusive <;> rintro h <;> cases h <;> simp [Lock.Held]

theorem Lock.held_acquire {lock lock' : Lock} {n m : ℕ} {exclusive exclusive' : Bool}
    (h : lock.acquire n exclusive = some lock') (hm : m ≠ n) :
    lock'.Held m exclusive' ↔ lock.Held m exclusive' := by
  revert h
  fun_cases Lock.acquire lock n exclusive <;> rintro h <;> cases h <;> cases exclusive' <;>
    simp [Lock.Held, hm, hm.symm]

theorem Lock.held_release {lock : Lock} {n m : ℕ} {exclusive : Bool} (hm : m ≠ n) :
    (lock.release n).Held m exclusive ↔ lock.Held m exclusive := by
  fun_cases Lock.release lock n <;> cases exclusive <;>
    simp [Lock.Held, hm.symm, List.mem_erase_of_ne hm]

/-- What the others may do: nothing in the name of a process, and nothing to a file it has locked. -/
structure Meanwhile (n : ℕ) (s t : State ρ P) : Prop where
  log : ∃ d, t.log = s.log ++ d ∧ (∀ entry ∈ d, entry.caller ≠ n) ∧
    ∀ name exclusive, (s.locks name).Held n exclusive → ∀ entry ∈ d, ¬entry.event.Changes name
  held : ∀ name exclusive, (t.locks name).Held n exclusive ↔ (s.locks name).Held n exclusive

/-- What a process may do: change files that it has locked for itself alone. -/
structure Guarantee (n : ℕ) (s t : State ρ P) : Prop where
  log : ∃ d, t.log = s.log ++ d ∧ ∀ entry ∈ d, entry.caller = n ∧
    ∀ name, entry.event.Changes name → (s.locks name).Held n true
  held : ∀ m, m ≠ n → ∀ name exclusive,
    (t.locks name).Held m exclusive ↔ (s.locks name).Held m exclusive

theorem Meanwhile.refl (n : ℕ) (s : State ρ P) : Meanwhile n s s :=
  ⟨⟨[], by simp⟩, fun _ _ => Iff.rfl⟩

theorem Meanwhile.trans {n : ℕ} {s t u : State ρ P} (h : Meanwhile n s t) (h' : Meanwhile n t u) :
    Meanwhile n s u := by
  obtain ⟨d, hd, hcaller, hchanges⟩ := h.log
  obtain ⟨d', hd', hcaller', hchanges'⟩ := h'.log
  refine ⟨⟨d ++ d', by rw [hd', hd, List.append_assoc], ?_, ?_⟩, fun name exclusive =>
    (h'.held name exclusive).trans (h.held name exclusive)⟩
  · intro entry hentry
    exact (List.mem_append.mp hentry).elim (hcaller entry) (hcaller' entry)
  · intro name exclusive hheld entry hentry
    rcases List.mem_append.mp hentry with hentry | hentry
    · exact hchanges name exclusive hheld entry hentry
    · exact hchanges' name exclusive ((h.held name exclusive).mpr hheld) entry hentry

def contract (ρ P : Type) (n : ℕ) : Prog.Contract (State ρ P) where
  Meanwhile := Meanwhile n
  Guarantee := Guarantee n
  refl := Meanwhile.refl n
  trans := fun _ _ _ => Meanwhile.trans

/-- A lock that is held for one process alone keeps the others from the file. -/
theorem Guarantee.meanwhile {m n : ℕ} {s t : State ρ P} (hmn : m ≠ n) (h : Guarantee m s t) :
    Meanwhile n s t := by
  obtain ⟨d, hd, hentry⟩ := h.log
  refine ⟨⟨d, hd, fun entry he hcaller => hmn ((hentry entry he).1.symm.trans hcaller), ?_⟩,
    h.held n hmn.symm⟩
  intro name exclusive hheld entry he hchanges
  exact hmn (((hentry entry he).2 name hchanges).unique hheld).symm

theorem guarantee_refl (n : ℕ) (s : State ρ P) : Guarantee n s s :=
  ⟨⟨[], by simp⟩, fun _ _ _ _ => Iff.rfl⟩

theorem guarantee_push {n : ℕ} {s : State ρ P} {event : Event ρ P}
    (h : ∀ name, event.Changes name → (s.locks name).Held n true) :
    Guarantee n s (s.push ⟨n, event⟩) :=
  ⟨⟨[⟨n, event⟩], rfl, by simpa using h⟩, fun _ _ _ _ => Iff.rfl⟩

/-- A process may change its own hold of a lock. -/
theorem guarantee_lock {n : ℕ} {s : State ρ P} {name : String} {lock : Lock}
    (h : ∀ m, m ≠ n → ∀ exclusive, lock.Held m exclusive ↔ (s.locks name).Held m exclusive) :
    Guarantee n s { s with locks := Function.update s.locks name lock } := by
  refine ⟨⟨[], by simp⟩, fun m hm name' exclusive => ?_⟩
  by_cases hname : name' = name
  · subst hname
    simpa using h m hm exclusive
  · simp [Function.update_of_ne hname]

/-! ### Calls in progress -/

/-- A lock that a process holds, and what the file held since. -/
structure Hold (ρ P : Type) where
  name : String
  exclusive : Bool
  file : Option (Session ρ × Record P)

/-- What was so is so whatever is done. -/
def Lasting (F : Log ρ P → Prop) : Prop := ∀ log d, F log → F (log ++ d)

/-- A process is in a call, holds a lock perhaps, and knows something. -/
structure At (n : ℕ) (operation : Operation ρ) (start : Log ρ P) (changes : List (Event ρ P))
    (hold : Option (Hold ρ P)) (F : Log ρ P → Prop) (s : State ρ P) : Prop where
  call : InCall n operation start changes s.log
  holding : ∀ h, hold = some h → (s.locks h.name).Held n h.exclusive ∧ stored s.log h.name = h.file
  fact : F s.log

/-- How a call goes on, with what it then has changed and knows. -/
def Ends {α : Type} (n : ℕ) (operation : Operation ρ) (start : Log ρ P)
    (R : α → List (Event ρ P) → Log ρ P → Prop) (a : α) (s : State ρ P) : Prop :=
  ∃ changes, At n operation start changes none (R a changes) s

theorem lasting_true : Lasting fun _ : Log ρ P => True := fun _ _ _ => trivial

theorem lasting_saw {start : Log ρ P} {A : Log ρ P → Prop} : Lasting (Saw start A) :=
  fun _ _ h => h.append

theorem Lasting.and {F G : Log ρ P → Prop} (hF : Lasting F) (hG : Lasting G) :
    Lasting fun log => F log ∧ G log :=
  fun log d h => ⟨hF log d h.1, hG log d h.2⟩

section Calls

variable {codec : Codec ρ P} {retention : ℕ → SessionRetentionPolicy} {n : ℕ}
  {operation : Operation ρ} {start : Log ρ P} {changes : List (Event ρ P)}
  {hold : Option (Hold ρ P)} {F G : Log ρ P → Prop} {s t : State ρ P} {α β : Type}

theorem At.stable (hF : Lasting F) :
    (contract ρ P n).Stable (At n operation start changes hold F) := by
  intro s t hst h
  obtain ⟨d, hd, hcaller, hchanges⟩ := hst.log
  refine ⟨hd ▸ h.call.append hcaller, fun held hheld => ?_, hd ▸ hF _ _ h.fact⟩
  obtain ⟨hlock, hfile⟩ := h.holding held hheld
  refine ⟨(hst.held _ _).mpr hlock, ?_⟩
  rw [hd, stored_append (hchanges _ _ hlock), hfile]

theorem Ends.stable {R : α → List (Event ρ P) → Log ρ P → Prop}
    (hR : ∀ a changes, Lasting (R a changes)) (a : α) :
    (contract ρ P n).Stable (Ends n operation start R a) := by
  rintro s t hst ⟨changes, h⟩
  exact ⟨changes, At.stable (hR a changes) s t hst h⟩

theorem At.weaken (h : At n operation start changes hold F s) (hFG : F s.log → G s.log) :
    At n operation start changes hold G s :=
  ⟨h.call, h.holding, hFG h.fact⟩

/-- The lock is forgotten. -/
theorem At.ends {R : α → List (Event ρ P) → Log ρ P → Prop} {a : α}
    (h : At n operation start changes hold F s) (hR : F s.log → R a changes s.log) :
    Ends n operation start R a s :=
  ⟨changes, h.call, fun _ h => (nomatch h), hR h.fact⟩

theorem At.push {h : Hold ρ P} {event : Event ρ P} (hF : Lasting F)
    (hat : At n operation start changes (some h) F s) (hevent : event.IsChange) :
    At n operation start (changes ++ [event]) none F (s.push ⟨n, event⟩) :=
  ⟨hat.call.push hevent, fun _ h => (nomatch h), hF _ _ hat.fact⟩

variable (codec retention) in
/-- What a program does in the name of a process. -/
abbrev Spec (n : ℕ) (A : State ρ P → Prop) (p : Program ρ P α) (Q : Except Fault α → State ρ P → Prop) :
    Prop :=
  Prog.Triple (fun s => Legal codec retention s.log) (contract ρ P n) Does A p.run Q

theorem Spec.act (action : Action ρ P) {f : action.Reply → Program ρ P α} {A : State ρ P → Prop}
    {R : action.Reply → State ρ P → Prop} {Q : Except Fault α → State ρ P → Prop}
    (hA : (contract ρ P n).Stable A) (hR : ∀ r, (contract ρ P n).Stable (R r))
    (h : ∀ s, Legal codec retention s.log → A s → ∀ r t, Does s action r t →
      Legal codec retention t.log ∧ Guarantee n s t ∧ R r t)
    (hf : ∀ r, Spec codec retention n (R r) (f r) Q) :
    Spec codec retention n A (perform action >>= f) Q :=
  Prog.Triple.bindLift (Prog.Triple.perform hA hR h) hf

theorem Spec.look (action : Action ρ P) {f : action.Reply → Program ρ P α}
    {p : action.Reply → Prop} {G : action.Reply → Log ρ P → Prop}
    {Q : Except Fault α → State ρ P → Prop} (hF : Lasting F) (hG : ∀ r, Lasting (G r))
    (h : ∀ s, Legal codec retention s.log → At n operation start changes hold F s →
      ∀ r t, Does s action r t → t = s ∧ p r ∧ G r s.log)
    (hf : ∀ r, p r → Spec codec retention n (At n operation start changes hold (G r)) (f r) Q) :
    Spec codec retention n (At n operation start changes hold F) (perform action >>= f) Q := by
  refine Spec.act action (At.stable hF)
    (R := fun r s => p r ∧ At n operation start changes hold (G r) s) ?_ ?_ ?_
  · rintro r s t hst ⟨hp, hat⟩
    exact ⟨hp, At.stable (hG r) s t hst hat⟩
  · intro s hlegal hat r t hdoes
    obtain ⟨rfl, hp, hG⟩ := h s hlegal hat r t hdoes
    exact ⟨hlegal, guarantee_refl n t, hp, hat.call, hat.holding, hG⟩
  · exact fun r => Prog.Triple.of_pure (hf r)

variable {R : Except Fault α → List (Event ρ P) → Log ρ P → Prop}

theorem Spec.pure {a : α} (hF : Lasting F)
    (h : ∀ log, Legal codec retention log → F log → R (.ok a) changes log) :
    Spec codec retention n (At n operation start changes hold F) (pure a : Program ρ P α)
      (Ends n operation start R) :=
  Prog.Triple.pureExcept (At.stable hF) fun s hlegal hat => hat.ends (h s.log hlegal)

theorem Spec.throw {e : Fault} (hF : Lasting F)
    (h : ∀ log, Legal codec retention log → F log → R (.error e) changes log) :
    Spec codec retention n (At n operation start changes hold F) (throw e : Program ρ P α)
      (Ends n operation start R) :=
  Prog.Triple.throw (At.stable hF) fun s hlegal hat => hat.ends (h s.log hlegal)

/-- What a call ends with whatever the system fails to do. -/
def Unavailing {α : Type} (R : Except Fault α → List (Event ρ P) → Log ρ P → Prop) : Prop :=
  ∀ message changes log, R (.error (.unavailable message)) changes log

theorem Spec.orUnavailable {what : String} {r : Except String α} {f : α → Program ρ P β}
    {R : Except Fault β → List (Event ρ P) → Log ρ P → Prop} (hF : Lasting F) (hR : Unavailing R)
    (hf : ∀ a, r = .ok a →
      Spec codec retention n (At n operation start changes hold F) (f a) (Ends n operation start R)) :
    Spec codec retention n (At n operation start changes hold F) (FileStore.orUnavailable what r >>= f)
      (Ends n operation start R) := by
  cases r with
  | ok a => exact hf a rfl
  | error message =>
    exact Prog.Triple.throw (At.stable hF) fun s _ hat => hat.ends fun _ => hR _ _ _

/-- A body under a lock knows what the file holds, as only the process itself may change it. -/
theorem Spec.locked {sessionId : String} {exclusive : Bool} {body : Program ρ P α} (hF : Lasting F)
    (hlast : ∀ r changes, Lasting (R r changes)) (hR : Unavailing R)
    (hblank : ∀ message log, blank sessionId = true → F log → R (.error (.value message)) changes log)
    (hbody : ∀ file, blank sessionId = false → Spec codec retention n
      (At n operation start changes (some ⟨sha256Text sessionId, exclusive, file⟩) fun log =>
        F log ∧ Saw start (fun m => stored m (sha256Text sessionId) = file) log) body
      (Ends n operation start R)) :
    Spec codec retention n (At n operation start changes none F)
      (FileStore.locked n sessionId exclusive body) (Ends n operation start R) := by
  unfold FileStore.locked key
  cases hb : blank sessionId with
  | true => exact Spec.throw hF fun log _ hfact => hblank _ log hb hfact
  | false =>
    refine Spec.act (.flock n _ exclusive) (At.stable hF) (R := fun r s => match r with
      | .ok _ => ∃ file, At n operation start changes (some ⟨sha256Text sessionId, exclusive, file⟩)
          (fun log => F log ∧ Saw start (fun m => stored m (sha256Text sessionId) = file) log) s
      | .error _ => At n operation start changes none F s) ?_ ?_ ?_
    · rintro (message | _)
      · exact At.stable hF
      · rintro s t hst ⟨file, hat⟩
        exact ⟨file, At.stable (hF.and lasting_saw) s t hst hat⟩
    · rintro s hlegal hat (message | _) t hdoes
      · obtain rfl : t = s := hdoes
        exact ⟨hlegal, guarantee_refl n t, hat⟩
      · obtain ⟨lock, hlock, rfl⟩ := hdoes
        refine ⟨hlegal, guarantee_lock fun m hm _ => Lock.held_acquire hlock hm, _, hat.call, ?_,
          hat.fact, hat.call.saw rfl⟩
        rintro _ ⟨⟩
        exact ⟨by simpa using Lock.held_of_acquire hlock, rfl⟩
    · rintro (message | _)
      · exact Spec.orUnavailable hF hR fun _ h => nomatch h
      · refine Prog.Triple.exists fun file => ?_
        refine Prog.Triple.bindLift (hbody file hb) fun outcome => ?_
        refine Spec.act (.unlock n _) (Ends.stable hlast outcome) (R := fun _ => Ends n operation start R outcome)
          (fun _ => Ends.stable hlast outcome) ?_ fun r => ?_
        · rintro s hlegal ⟨changes', hat⟩ r t hdoes
          obtain rfl : t = _ := hdoes
          exact ⟨hlegal, guarantee_lock fun m hm _ => Lock.held_release hm, changes', hat.call,
            fun _ h => (nomatch h), hat.fact⟩
        · refine Prog.Triple.exists fun changes' => ?_
          refine Spec.orUnavailable (hlast outcome changes') hR fun _ _ => ?_
          cases outcome with
          | ok a => exact Spec.pure (hlast _ changes') fun _ _ h => h
          | error e => exact Spec.throw (hlast _ changes') fun _ _ h => h

/-! ### Records under a lock -/

/-- What reading a file gives that holds `file`. -/
def Found (sessionId : String) (file : Option (Session ρ × Record P)) : Except Fault (Record P) → Prop
  | .ok rec => rec.sessionId = sessionId ∧ ∃ session, file = some (session, rec)
  | .error (.notFound sessionId') => sessionId' = sessionId ∧ file = none
  | .error (.unavailable _) => True
  | _ => False

theorem Spec.readRecord {sessionId : String} {exclusive : Bool}
    {file : Option (Session ρ × Record P)} (hF : Lasting F) (hblank : blank sessionId = false) :
    Spec codec retention n
      (At n operation start changes (some ⟨sha256Text sessionId, exclusive, file⟩) F)
      (FileStore.readRecord sessionId) (fun r s => Found sessionId file r ∧
        At n operation start changes (some ⟨sha256Text sessionId, exclusive, file⟩) F s) := by
  unfold FileStore.readRecord key
  simp only [hblank]
  refine Spec.look (.read _) (p := fun r => match r with
    | .missing => file = none
    | .failed _ => True
    | .record rec => ∃ session, file = some (session, rec)) (G := fun _ => F) hF (fun _ => hF) ?_ ?_
  · rintro s hlegal hat (_ | message | rec) t hdoes
    · obtain ⟨rfl, hnone⟩ := hdoes
      exact ⟨rfl, (hat.holding _ rfl).2.symm.trans hnone, hat.fact⟩
    · exact ⟨hdoes, trivial, hat.fact⟩
    · obtain ⟨rfl, session, hsome⟩ := hdoes
      exact ⟨rfl, ⟨session, (hat.holding _ rfl).2.symm.trans hsome⟩, hat.fact⟩
  · rintro (_ | message | rec) hr
    · exact Prog.Triple.throw (At.stable hF) fun s _ hat => ⟨⟨rfl, hr⟩, hat⟩
    · exact Prog.Triple.throw (At.stable hF) fun s _ hat => ⟨trivial, hat⟩
    · dsimp only
      split_ifs with hid
      · exact Prog.Triple.throw (At.stable hF) fun s _ hat => ⟨trivial, hat⟩
      · exact Prog.Triple.pureExcept (At.stable hF) fun s _ hat => ⟨⟨not_not.mp hid, hr⟩, hat⟩

theorem sessionOf_ok {rec : Record P} {session : Session ρ} (h : sessionOf codec rec = .ok session) :
    codec.fromDict rec.session = .ok session ∧ session.stateRevision = rec.stateRevision := by
  unfold sessionOf at h
  split at h
  · cases h
  · split_ifs at h with h₁ h₂
    all_goals cases h
    exact ⟨‹_›, by simpa using h₂⟩

theorem sessionOf_error {rec : Record P} {e : Fault} (h : sessionOf codec rec = .error e) :
    ∃ message, e = .unavailable message := by
  unfold sessionOf at h
  split at h
  · cases h
    exact ⟨_, rfl⟩
  · split_ifs at h <;> cases h <;> exact ⟨_, rfl⟩

/-- A session is written over what the file holds, or nothing is changed. -/
theorem Spec.writeRecord {session : Session ρ} {file : Option (Session ρ × Record P)}
    {R : Except Fault Unit → List (Event ρ P) → Log ρ P → Prop} (hF : Lasting F) (hR : Unavailing R)
    (hblank : blank session.sessionId = false) (hwrites : Writes operation session file)
    (hvalue : ∀ message log, R (.error (.value message)) [] log)
    (hok : ∀ rec log, R (.ok ()) [.wrote (sha256Text session.sessionId) session rec] log) :
    Spec codec retention n
      (At n operation start [] (some ⟨sha256Text session.sessionId, true, file⟩) F)
      (FileStore.writeRecord codec (retention n) n session) (Ends n operation start R) := by
  unfold FileStore.writeRecord key
  simp only [hblank]
  refine Spec.look .clock (p := fun _ => True) (G := fun _ => F) hF (fun _ => hF)
    (fun s _ hat r t hdoes => ⟨hdoes, trivial, hat.fact⟩) fun updatedAtMs _ => ?_
  refine Spec.act (.replace n _ session _) (At.stable hF) (R := fun r s => match r with
    | .ok _ => ∃ rec, At n operation start [.wrote (sha256Text session.sessionId) session rec] none F s
    | .error _ => At n operation start [] none F s) ?_ ?_ ?_
  · rintro (message | _)
    · exact At.stable hF
    · rintro s t hst ⟨rec, hat⟩
      exact ⟨rec, At.stable hF s t hst hat⟩
  · rintro s hlegal hat (message | _) t hdoes
    · obtain rfl : t = s := hdoes
      exact ⟨hlegal, guarantee_refl n t, hat.call, fun _ h => (nomatch h), hat.fact⟩
    · obtain rfl : t = _ := hdoes
      obtain ⟨hlock, hfile⟩ := hat.holding _ rfl
      refine ⟨legal_snoc.mpr ⟨hlegal, operation, start, hat.call, hfile ▸ hwrites, hblank, rfl, _, rfl⟩,
        guarantee_push fun name hname => ?_, _, At.push hF hat trivial⟩
      obtain rfl : sha256Text session.sessionId = name := hname
      exact hlock
  · rintro ((message | message) | _)
    · exact Spec.throw hF fun _ _ _ => hR _ _ _
    · exact Spec.throw hF fun _ _ _ => hvalue _ _
    · refine Prog.Triple.exists fun rec => ?_
      refine Spec.look .fsyncDirectory (p := fun _ => True) (G := fun _ => F) hF (fun _ => hF)
        (fun s _ hat r t hdoes => ⟨hdoes, trivial, hat.fact⟩) fun r _ => ?_
      cases r with
      | ok _ => exact Spec.pure hF fun log _ _ => hok rec log
      | error message => exact Spec.throw hF fun _ _ _ => hR _ _ _

/-! ### Answers -/

variable (codec) in
/-- A call answers as it is to, and has changed nothing if it refuses. -/
def Answered (start : Log ρ P) (operation : Operation ρ) (outcome : Except Fault (Answer ρ))
    (changes : List (Event ρ P)) (log : Log ρ P) : Prop :=
  Answers codec start log changes operation outcome ∧
    ∀ e, outcome = .error e → e.Refuses → changes = []

variable (codec) in
/-- The same of a part of a call, whose value the answer is made of. -/
abbrev AnsweredBy (start : Log ρ P) (operation : Operation ρ) (f : α → Answer ρ) (r : Except Fault α)
    (changes : List (Event ρ P)) (log : Log ρ P) : Prop :=
  Answered codec start operation (r.map f) changes log

theorem lasting_answered {outcome : Except Fault (Answer ρ)} :
    Lasting (Answered codec start operation outcome changes) := by
  rintro log d ⟨h, hrefuses⟩
  refine ⟨?_, hrefuses⟩
  revert h
  fun_cases Answers codec start log changes operation outcome
  all_goals first
    | exact id
    | exact fun h => ⟨h.1, h.2.append⟩
    | exact fun h => ⟨h.1, fun hquiet => h.2 hquiet.of_append⟩
    | exact False.elim
    | exact fun _ => by cases operation <;> exact trivial

theorem answered_unavailable {message : String} {log : Log ρ P} :
    Answered codec start operation (.error (.unavailable message)) changes log :=
  ⟨by cases operation <;> exact trivial, by rintro _ ⟨⟩ ⟨⟩⟩

theorem answered_value {message : String} {log : Log ρ P} :
    Answered codec start operation (.error (.value message)) [] log :=
  ⟨by cases operation <;> exact trivial, fun _ _ _ => rfl⟩

theorem Spec.answers {p : Program ρ P α} {f : α → Answer ρ} {A : State ρ P → Prop}
    (h : Spec codec retention n A p (Ends n operation start (AnsweredBy codec start operation f))) :
    Spec codec retention n A (p >>= fun a => (Pure.pure (f a) : Program ρ P (Answer ρ)))
      (Ends n operation start (Answered codec start operation)) := by
  refine Prog.Triple.bindExcept h (fun e s _ hs => hs) fun a => ?_
  exact Prog.Triple.exists fun changes => Spec.pure lasting_answered fun _ _ h => h

end Calls

end CuTracer.Service.FileStore
