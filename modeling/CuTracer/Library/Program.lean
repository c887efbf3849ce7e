import Mathlib.Data.Nat.Notation
import Mathlib.Logic.Relation
import Mathlib.Tactic.SplitIfs

/-! Programs that act on a shared state, one atomic action at a time, and any number of them
interleaved. A program is proved against every state that the others may leave meanwhile, and
a run of programs that are all proved keeps the invariant and their postconditions. -/

namespace CuTracer

/-- What programs can do, and the reply that an action awaits. -/
structure Interface where
  Action : Type
  Reply : Action → Type

inductive Prog (I : Interface) (α : Type) where
  | done (a : α)
  | act (action : I.Action) (next : I.Reply action → Prog I α)

namespace Prog

variable {I : Interface} {α β ε σ : Type}

def bind : Prog I α → (α → Prog I β) → Prog I β
  | .done a, f => f a
  | .act action next, f => .act action fun r => (next r).bind f

instance : Monad (Prog I) where
  pure := .done
  bind := bind

def perform (action : I.Action) : Prog I (I.Reply action) := .act action .done

/-- A step of one of several programs; any of them may stop for ever. -/
inductive Step (Does : σ → (action : I.Action) → I.Reply action → σ → Prop) :
    σ × List (Prog I α) → σ × List (Prog I α) → Prop where
  | act {s s' : σ} {ps : List (Prog I α)} {n : ℕ} {action : I.Action}
    {next : I.Reply action → Prog I α} {r : I.Reply action}
    (hget : ps[n]? = some (.act action next)) (hdoes : Does s action r s') :
    Step Does (s, ps) (s', ps.set n (next r))

/-- What a program keeps, how a state may change meanwhile, and how it changes over a run. -/
structure Rely (σ : Type) where
  Inv : σ → Prop
  Meanwhile : σ → σ → Prop
  Later : σ → σ → Prop
  meanwhile_refl : ∀ s, Meanwhile s s
  meanwhile_trans : ∀ s₁ s₂ s₃, Meanwhile s₁ s₂ → Meanwhile s₂ s₃ → Meanwhile s₁ s₃
  later_refl : ∀ s, Later s s
  later_trans : ∀ s₁ s₂ s₃, Later s₁ s₂ → Later s₂ s₃ → Later s₁ s₃
  later_of_meanwhile : ∀ s₁ s₂, Meanwhile s₁ s₂ → Later s₁ s₂

/-- The others change a state as the program does. -/
def Rely.shared (Inv : σ → Prop) (Later : σ → σ → Prop) (refl : ∀ s, Later s s)
    (trans : ∀ s₁ s₂ s₃, Later s₁ s₂ → Later s₂ s₃ → Later s₁ s₃) : Rely σ :=
  ⟨Inv, Later, Later, refl, trans, refl, trans, fun _ _ h => h⟩

/-- There are no others. -/
def Rely.alone (Inv : σ → Prop) (Later : σ → σ → Prop) (refl : ∀ s, Later s s)
    (trans : ∀ s₁ s₂ s₃, Later s₁ s₂ → Later s₂ s₃ → Later s₁ s₃) : Rely σ :=
  ⟨Inv, Eq, Later, fun _ => rfl, fun _ _ _ => Eq.trans, refl, trans, fun s₁ _ h => h ▸ refl s₁⟩

section Rules

variable (R : Rely σ) (Does : σ → (action : I.Action) → I.Reply action → σ → Prop)

/-- Whatever the others do meanwhile, the program keeps the invariant and ends with `Q`. -/
def Holds (Q : α → σ → Prop) : Prog I α → σ → Prop
  | .done a, s => ∀ s₁, R.Meanwhile s s₁ → R.Inv s₁ → Q a s₁
  | .act action next, s => ∀ s₁, R.Meanwhile s s₁ → R.Inv s₁ → ∀ r s₂, Does s₁ action r s₂ →
      R.Inv s₂ ∧ R.Later s₁ s₂ ∧ (next r).Holds Q s₂

variable {R Does} {Q Q' : α → σ → Prop} {p : Prog I α} {s s' : σ}

theorem Holds.later (h : p.Holds R Does Q s) (hlater : R.Meanwhile s s') : p.Holds R Does Q s' := by
  cases p with
  | done a => exact fun s₁ h₁ => h s₁ (R.meanwhile_trans _ _ _ hlater h₁)
  | act action next => exact fun s₁ h₁ => h s₁ (R.meanwhile_trans _ _ _ hlater h₁)

theorem Holds.weaken (h : p.Holds R Does Q s)
    (hQ : ∀ a s₁, R.Later s s₁ → R.Inv s₁ → Q a s₁ → Q' a s₁) : p.Holds R Does Q' s := by
  induction p generalizing s with
  | done a =>
    exact fun s₁ hlater hinv => hQ a s₁ (R.later_of_meanwhile _ _ hlater) hinv (h s₁ hlater hinv)
  | act action next ih =>
    intro s₁ hlater hinv r s₂ hdoes
    obtain ⟨hinv₂, hlater₂, hnext⟩ := h s₁ hlater hinv r s₂ hdoes
    refine ⟨hinv₂, hlater₂, ih r hnext fun a s₃ h₃ => hQ a s₃ ?_⟩
    have hlater₁ := R.later_of_meanwhile _ _ hlater
    exact R.later_trans _ _ _ hlater₁ (R.later_trans _ _ _ hlater₂ h₃)

/-- What a program ends with stays true. -/
theorem Holds.stable (h : p.Holds R Does Q s) :
    p.Holds R Does (fun a s => ∀ s₁, R.Meanwhile s s₁ → R.Inv s₁ → Q a s₁) s := by
  induction p generalizing s with
  | done a => exact fun s₁ hlater _ s₂ hlater₂ => h s₂ (R.meanwhile_trans _ _ _ hlater hlater₂)
  | act action next ih =>
    intro s₁ hlater hinv r s₂ hdoes
    obtain ⟨hinv₂, hlater₂, hnext⟩ := h s₁ hlater hinv r s₂ hdoes
    exact ⟨hinv₂, hlater₂, ih r hnext⟩

theorem Holds.of_later (h : ∀ s₁, R.Meanwhile s s₁ → R.Inv s₁ → p.Holds R Does Q s₁) :
    p.Holds R Does Q s := by
  cases p with
  | done a => exact fun s₁ hlater hinv => h s₁ hlater hinv s₁ (R.meanwhile_refl s₁) hinv
  | act action next => exact fun s₁ hlater hinv => h s₁ hlater hinv s₁ (R.meanwhile_refl s₁) hinv

theorem Holds.bind {f : α → Prog I β} {Q : β → σ → Prop}
    (h : p.Holds R Does (fun a s => (f a).Holds R Does Q s) s) : (p.bind f).Holds R Does Q s := by
  induction p generalizing s with
  | done a => exact Holds.of_later h
  | act action next ih =>
    intro s₁ hlater hinv r s₂ hdoes
    obtain ⟨hinv₂, hlater₂, hnext⟩ := h s₁ hlater hinv r s₂ hdoes
    exact ⟨hinv₂, hlater₂, ih r hnext⟩

theorem Holds.perform {action : I.Action} {Q : I.Reply action → σ → Prop}
    (h : ∀ s₁, R.Meanwhile s s₁ → R.Inv s₁ → ∀ r s₂, Does s₁ action r s₂ →
      R.Inv s₂ ∧ R.Later s₁ s₂ ∧ ∀ s₃, R.Meanwhile s₂ s₃ → R.Inv s₃ → Q r s₃) :
    (Prog.perform action).Holds R Does Q s :=
  fun s₁ hlater hinv r s₂ hdoes => h s₁ hlater hinv r s₂ hdoes

theorem Holds.done_iff {a : α} (hinv : R.Inv s) (h : (Prog.done a : Prog I α).Holds R Does Q s) : Q a s :=
  h s (R.meanwhile_refl s) hinv

/-! ### Runs -/

/-- The invariant and what each program is to end with, in any interleaving. -/
theorem holds_run {ps ps' : List (Prog I α)} {Q : ℕ → α → σ → Prop}
    (hshared : ∀ s₁ s₂, R.Later s₁ s₂ → R.Meanwhile s₁ s₂) (hinv : R.Inv s)
    (hps : ∀ n p, ps[n]? = some p → Holds R Does (Q n) p s)
    (hrun : Relation.ReflTransGen (Step Does) (s, ps) (s', ps')) :
    R.Inv s' ∧ R.Later s s' ∧ ∀ n p, ps'[n]? = some p → Holds R Does (Q n) p s' := by
  suffices h : ∀ c, Relation.ReflTransGen (Step Does) (s, ps) c →
      R.Inv c.1 ∧ R.Later s c.1 ∧ ∀ n p, c.2[n]? = some p → Holds R Does (Q n) p c.1 from
    h (s', ps') hrun
  intro c hc
  induction hc with
  | refl => exact ⟨hinv, R.later_refl s, hps⟩
  | tail _ hstep ih =>
    obtain ⟨hinv₁, hlater₁, hps₁⟩ := ih
    cases hstep with
    | @act s₁ s₂ qs n action next r hget hdoes =>
      obtain ⟨hinv₂, hlater₂, hnext⟩ := hps₁ n _ hget s₁ (R.meanwhile_refl s₁) hinv₁ r s₂ hdoes
      refine ⟨hinv₂, R.later_trans _ _ _ hlater₁ hlater₂, fun m p hp => ?_⟩
      rw [List.getElem?_set] at hp
      split_ifs at hp with hm hlt
      · rw [← hm, ← Option.some.inj hp]
        exact hnext
      · exact (hps₁ m p hp).later (hshared _ _ hlater₂)

inductive Alone (Does : σ → (action : I.Action) → I.Reply action → σ → Prop) :
    σ × Prog I α → σ × Prog I α → Prop where
  | act {s s' : σ} {action : I.Action} {next : I.Reply action → Prog I α} {r : I.Reply action}
    (hdoes : Does s action r s') : Alone Does (s, .act action next) (s', next r)

/-- The same of a single program, wherever it is stopped. -/
theorem holds_alone {p' : Prog I α} (hinv : R.Inv s) (hp : p.Holds R Does Q s)
    (hrun : Relation.ReflTransGen (Alone Does) (s, p) (s', p')) : R.Inv s' ∧ p'.Holds R Does Q s' := by
  suffices h : ∀ c, Relation.ReflTransGen (Alone Does) (s, p) c →
      R.Inv c.1 ∧ Holds R Does Q c.2 c.1 from h (s', p') hrun
  intro c hc
  induction hc with
  | refl => exact ⟨hinv, hp⟩
  | tail _ hstep ih =>
    obtain ⟨hinv₁, hp₁⟩ := ih
    cases hstep with
    | @act s₁ s₂ action next r hdoes =>
      obtain ⟨hinv₂, -, hnext⟩ := hp₁ s₁ (R.meanwhile_refl s₁) hinv₁ r s₂ hdoes
      exact ⟨hinv₂, hnext⟩

/-! ### Exceptions -/

variable (R Does) in
/-- A program that raises has no postcondition. -/
def Ensures (Q : α → σ → Prop) (p : ExceptT ε (Prog I) α) (s : σ) : Prop :=
  Holds R Does (fun r s => ∀ a, r = .ok a → Q a s) p.run s

variable {p : ExceptT ε (Prog I) α}

theorem Ensures.weaken (h : Ensures R Does Q p s)
    (hQ : ∀ a s₁, R.Later s s₁ → R.Inv s₁ → Q a s₁ → Q' a s₁) : Ensures R Does Q' p s :=
  Holds.weaken h fun _ s₁ hlater hinv hr a ha => hQ a s₁ hlater hinv (hr a ha)

theorem ensures_pure {a : α} (h : ∀ s₁, R.Meanwhile s s₁ → R.Inv s₁ → Q a s₁) :
    Ensures R Does Q (pure a : ExceptT ε (Prog I) α) s := by
  intro s₁ hlater hinv b hb
  rw [← Except.ok.inj hb]
  exact h s₁ hlater hinv

/-- Alone, a program that only returns ends where it is. -/
theorem ensures_pure_alone {Inv : σ → Prop} {Later : σ → σ → Prop} {refl : ∀ s, Later s s}
    {trans : ∀ s₁ s₂ s₃, Later s₁ s₂ → Later s₂ s₃ → Later s₁ s₃} {a : α} (h : Q a s) :
    Ensures (.alone Inv Later refl trans) Does Q (pure a : ExceptT ε (Prog I) α) s := by
  refine ensures_pure ?_
  rintro s₁ rfl -
  exact h

theorem ensures_throw {e : ε} : Ensures R Does Q (throw e : ExceptT ε (Prog I) α) s := by
  intro s₁ _ _ b hb
  cases hb

theorem ensures_bind {Q : β → σ → Prop} {f : α → ExceptT ε (Prog I) β}
    (h : Ensures R Does (fun a s => Ensures R Does Q (f a) s) p s) :
    Ensures R Does Q (p >>= f) s := by
  refine Holds.bind (Holds.weaken h fun r s₁ _ _ hr => ?_)
  cases r with
  | ok a => exact hr a rfl
  | error e => exact ensures_throw

theorem ensures_tryCatch {f : ε → ExceptT ε (Prog I) α} (h : Ensures R Does Q p s)
    (hf : ∀ e s₁, R.Later s s₁ → R.Inv s₁ → Ensures R Does Q (f e) s₁) :
    Ensures R Does Q (tryCatch p f) s := by
  refine Holds.bind (Holds.weaken (Holds.stable h) fun r s₁ hlater hinv hr => ?_)
  cases r with
  | ok a => exact hr
  | error e => exact hf e s₁ hlater hinv

/-- What an action does keeps the invariant and leads to the postcondition. -/
theorem ensures_lift {action : I.Action} {Q : I.Reply action → σ → Prop}
    (h : ∀ s₁, R.Meanwhile s s₁ → R.Inv s₁ → ∀ r s₂, Does s₁ action r s₂ →
      R.Inv s₂ ∧ R.Later s₁ s₂ ∧ ∀ s₃, R.Meanwhile s₂ s₃ → R.Inv s₃ → Q r s₃) :
    Ensures R Does Q (ExceptT.lift (Prog.perform action) : ExceptT ε (Prog I) _) s := by
  intro s₁ hlater hinv r s₂ hdoes
  obtain ⟨hinv₂, hlater₂, hQ⟩ := h s₁ hlater hinv r s₂ hdoes
  refine ⟨hinv₂, hlater₂, fun s₃ hlater₃ hinv₃ b hb => ?_⟩
  rw [← Except.ok.inj hb]
  exact hQ s₃ hlater₃ hinv₃

/-! ### Runs to the end -/

/-- A part of a program runs as it runs by itself. -/
theorem alone_bind {p p' : Prog I α} {f : α → Prog I β}
    (h : Relation.ReflTransGen (Alone Does) (s, p) (s', p')) :
    Relation.ReflTransGen (Alone Does) (s, p.bind f) (s', p'.bind f) := by
  refine h.lift (fun c : σ × Prog I α => (c.1, c.2.bind f)) ?_
  rintro _ _ ⟨hdoes⟩
  exact .act hdoes

/-- A program of several runs as it runs by itself. -/
theorem step_of_alone {ps : List (Prog I α)} {n : ℕ} {p p' : Prog I α} (hget : ps[n]? = some p)
    (h : Relation.ReflTransGen (Alone Does) (s, p) (s', p')) :
    Relation.ReflTransGen (Step Does) (s, ps) (s', ps.set n p') := by
  suffices hstep : ∀ c, Relation.ReflTransGen (Alone Does) (s, p) c →
      Relation.ReflTransGen (Step Does) (s, ps) (c.1, ps.set n c.2) from hstep (s', p') h
  intro c hc
  obtain ⟨hn, rfl⟩ := List.getElem?_eq_some_iff.mp hget
  induction hc with
  | refl => rw [List.set_getElem_self]
  | tail _ hlast ih =>
    obtain ⟨hdoes⟩ := hlast
    have hnext := ih.tail (Step.act (List.getElem?_set_self hn) hdoes)
    rwa [List.set_set] at hnext

variable (Does) in
/-- A program by itself may end with a result. -/
def Ends (s : σ) (p : ExceptT ε (Prog I) α) (a : α) (s' : σ) : Prop :=
  Relation.ReflTransGen (Alone Does) (s, p.run) (s', .done (.ok a))

theorem ends_pure {a : α} : Ends Does s (pure a : ExceptT ε (Prog I) α) a s := .refl

theorem ends_lift {action : I.Action} {r : I.Reply action} (h : Does s action r s') :
    Ends Does s (ExceptT.lift (Prog.perform action) : ExceptT ε (Prog I) _) r s' :=
  .single (.act h)

/-- A program that has ended with a result goes on with it. -/
theorem ends_then {f : α → ExceptT ε (Prog I) β} {a : α} {c : σ × Prog I (Except ε β)}
    (h : Ends Does s p a s') (hf : Relation.ReflTransGen (Alone Does) (s', (f a).run) c) :
    Relation.ReflTransGen (Alone Does) (s, (p >>= f).run) c :=
  (alone_bind h).trans hf

theorem ends_bind {f : α → ExceptT ε (Prog I) β} {a : α} {b : β} {s'' : σ} (h : Ends Does s p a s')
    (hf : Ends Does s' (f a) b s'') : Ends Does s (p >>= f) b s'' :=
  ends_then h hf

theorem ends_tryCatch {f : ε → ExceptT ε (Prog I) α} {a : α} (h : Ends Does s p a s') :
    Ends Does s (tryCatch p f) a s' :=
  alone_bind h

end Rules

/-! ### Given replies -/

section Eval

variable (reply : (action : I.Action) → I.Reply action)

/-- What a program ends with, when every action has its reply. -/
def eval : Prog I α → α
  | .done a => a
  | .act action next => (next (reply action)).eval

theorem eval_bind (p : Prog I α) (f : α → Prog I β) :
    (p.bind f).eval reply = (f (p.eval reply)).eval reply := by
  induction p with
  | done a => rfl
  | act action next ih => exact ih (reply action)

/-- The same of a program that may raise. -/
def evalExcept (p : ExceptT ε (Prog I) α) : Except ε α := eval reply p.run

@[simp] theorem evalExcept_bind (p : ExceptT ε (Prog I) α) (f : α → ExceptT ε (Prog I) β) :
    evalExcept reply (p >>= f) = evalExcept reply p >>= fun a => evalExcept reply (f a) := by
  refine (eval_bind reply p.run _).trans ?_
  cases hp : eval reply p.run with
  | ok a =>
    have heval : evalExcept reply p = .ok a := hp
    rw [heval]
    rfl
  | error e =>
    have heval : evalExcept reply p = .error e := hp
    rw [heval]
    rfl

/-- A program runs to its end where every action has its reply. -/
theorem eval_run {σ : Type} {Does : σ → (action : I.Action) → I.Reply action → σ → Prop}
    (hdoes : ∀ s action, ∃ s', Does s action (reply action) s') (p : Prog I α) (s : σ) :
    ∃ s', Relation.ReflTransGen (Alone Does) (s, p) (s', .done (p.eval reply)) := by
  induction p generalizing s with
  | done a => exact ⟨s, .refl⟩
  | act action next ih =>
    obtain ⟨s₁, h₁⟩ := hdoes s action
    obtain ⟨s₂, h₂⟩ := ih (reply action) s₁
    exact ⟨s₂, .head (.act h₁) h₂⟩

end Eval

end Prog

end CuTracer
