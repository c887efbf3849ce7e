import CuTracer.Library.Program

/-! Contracts between programs that share a state. Each program relies on what the others may
do meanwhile and guarantees what its own steps do; where every guarantee is what the other
programs rely on, each is proved alone. -/

namespace CuTracer.Prog

variable {I : Interface} {α β ε σ : Type}

/-- What the others may do to a state, and what a step of the program's own does to it. -/
structure Contract (σ : Type) where
  Meanwhile : σ → σ → Prop
  Guarantee : σ → σ → Prop
  refl : ∀ s, Meanwhile s s
  trans : ∀ s t u, Meanwhile s t → Meanwhile t u → Meanwhile s u

/-- What the others do leaves an assertion true. -/
def Contract.Stable (C : Contract σ) (A : σ → Prop) : Prop := ∀ s t, C.Meanwhile s t → A s → A t

section Rules

variable (Inv : σ → Prop) (C : Contract σ) (Does : σ → (action : I.Action) → I.Reply action → σ → Prop)

/-- Whatever the others do meanwhile, the program keeps its side of the contract and ends with `Q`. -/
def Meets (Q : α → σ → Prop) : Prog I α → σ → Prop
  | .done a, s => ∀ t, C.Meanwhile s t → Inv t → Q a t
  | .act action next, s => ∀ t, C.Meanwhile s t → Inv t → ∀ r u, Does t action r u →
      Inv u ∧ C.Guarantee t u ∧ (next r).Meets Q u

/-- The program meets its contract from every state with the precondition. -/
def Triple (A : σ → Prop) (p : Prog I α) (Q : α → σ → Prop) : Prop :=
  ∀ s, A s → p.Meets Inv C Does Q s

variable {Inv C Does} {Q Q' : α → σ → Prop} {A B : σ → Prop} {p : Prog I α} {s t : σ}

theorem Meets.later (h : p.Meets Inv C Does Q s) (hst : C.Meanwhile s t) : p.Meets Inv C Does Q t := by
  cases p with
  | done a => exact fun u hu => h u (C.trans _ _ _ hst hu)
  | act action next => exact fun u hu => h u (C.trans _ _ _ hst hu)

theorem Meets.of_later (h : ∀ t, C.Meanwhile s t → Inv t → p.Meets Inv C Does Q t) :
    p.Meets Inv C Does Q s := by
  cases p with
  | done a => exact fun t hst hinv => h t hst hinv t (C.refl t) hinv
  | act action next => exact fun t hst hinv => h t hst hinv t (C.refl t) hinv

theorem Meets.weaken (h : p.Meets Inv C Does Q s) (hQ : ∀ a t, Inv t → Q a t → Q' a t) :
    p.Meets Inv C Does Q' s := by
  induction p generalizing s with
  | done a => exact fun t hst hinv => hQ a t hinv (h t hst hinv)
  | act action next ih =>
    intro t hst hinv r u hdoes
    obtain ⟨hinv', hown, hnext⟩ := h t hst hinv r u hdoes
    exact ⟨hinv', hown, ih r hnext⟩

theorem Meets.bind {f : α → Prog I β} {Q : β → σ → Prop}
    (h : p.Meets Inv C Does (fun a s => (f a).Meets Inv C Does Q s) s) :
    (p.bind f).Meets Inv C Does Q s := by
  induction p generalizing s with
  | done a => exact Meets.of_later h
  | act action next ih =>
    intro t hst hinv r u hdoes
    obtain ⟨hinv', hown, hnext⟩ := h t hst hinv r u hdoes
    exact ⟨hinv', hown, ih r hnext⟩

/-- What a program ends with stays true. -/
theorem Meets.stable (h : p.Meets Inv C Does Q s) :
    p.Meets Inv C Does (fun a s => ∀ t, C.Meanwhile s t → Inv t → Q a t) s := by
  induction p generalizing s with
  | done a => exact fun t hst _ u htu => h u (C.trans _ _ _ hst htu)
  | act action next ih =>
    intro t hst hinv r u hdoes
    obtain ⟨hinv', hown, hnext⟩ := h t hst hinv r u hdoes
    exact ⟨hinv', hown, ih r hnext⟩

/-! ### Triples -/

theorem Triple.weaken (h : Triple Inv C Does A p Q) (hA : ∀ s, B s → A s)
    (hQ : ∀ a t, Inv t → Q a t → Q' a t) : Triple Inv C Does B p Q' :=
  fun s hs => (h s (hA s hs)).weaken hQ

theorem Triple.bind {f : α → Prog I β} {R : α → σ → Prop} {Q : β → σ → Prop}
    (h : Triple Inv C Does A p R) (hf : ∀ a, Triple Inv C Does (R a) (f a) Q) :
    Triple Inv C Does A (p.bind f) Q :=
  fun s hs => ((h s hs).weaken fun a t _ ht => hf a t ht).bind

theorem Triple.done {a : α} (hA : C.Stable A) (h : ∀ s, Inv s → A s → Q a s) :
    Triple Inv C Does A (.done a) Q :=
  fun _ hs t hst hinv => h t hinv (hA _ t hst hs)

theorem Triple.perform {action : I.Action} {Q : I.Reply action → σ → Prop} (hA : C.Stable A)
    (hQ : ∀ r, C.Stable (Q r))
    (h : ∀ s, Inv s → A s → ∀ r t, Does s action r t → Inv t ∧ C.Guarantee s t ∧ Q r t) :
    Triple Inv C Does A (Prog.perform action) Q := by
  intro s hs t hst hinv r u hdoes
  obtain ⟨hinv', hown, hu⟩ := h t hinv (hA s t hst hs) r u hdoes
  exact ⟨hinv', hown, fun v huv _ => hQ r u v huv hu⟩

theorem Triple.exists {ι : Type} {A : ι → σ → Prop} (h : ∀ i, Triple Inv C Does (A i) p Q) :
    Triple Inv C Does (fun s => ∃ i, A i s) p Q :=
  fun s hs => hs.elim fun i hi => h i s hi

/-- A part of the precondition that does not depend on the state. -/
theorem Triple.of_pure {P : Prop} (h : P → Triple Inv C Does A p Q) :
    Triple Inv C Does (fun s => P ∧ A s) p Q :=
  fun s hs => h hs.1 s hs.2

/-- A fact that the precondition tells together with the invariant. -/
theorem Triple.learn {P : Prop} (hA : C.Stable A) (h : ∀ s, Inv s → A s → P)
    (hp : P → Triple Inv C Does A p Q) : Triple Inv C Does A p Q :=
  fun s hs => Meets.of_later fun t hst hinv =>
    hp (h t hinv (hA s t hst hs)) t (hA s t hst hs)

/-! ### Exceptions -/

/-- The same of a program that may raise; the postcondition is of either outcome. -/
theorem Triple.bindExcept {p : ExceptT ε (Prog I) α} {f : α → ExceptT ε (Prog I) β}
    {R : Except ε α → σ → Prop} {Q : Except ε β → σ → Prop} (h : Triple Inv C Does A p.run R)
    (herror : ∀ e s, Inv s → R (.error e) s → Q (.error e) s)
    (hf : ∀ a, Triple Inv C Does (R (.ok a)) (f a).run Q) :
    Triple Inv C Does A (p >>= f).run Q := by
  intro s hs
  refine Meets.bind ((h s hs).stable.weaken fun r t hinv hr => ?_)
  cases r with
  | ok a => exact hf a t (hr t (C.refl t) hinv)
  | error e => exact fun u htu hinv' => herror e u hinv' (hr u htu hinv')

theorem Triple.pureExcept {a : α} {Q : Except ε α → σ → Prop} (hA : C.Stable A)
    (h : ∀ s, Inv s → A s → Q (.ok a) s) :
    Triple Inv C Does A (pure a : ExceptT ε (Prog I) α).run Q :=
  Triple.done hA h

theorem Triple.throw {e : ε} {Q : Except ε α → σ → Prop} (hA : C.Stable A)
    (h : ∀ s, Inv s → A s → Q (.error e) s) :
    Triple Inv C Does A (throw e : ExceptT ε (Prog I) α).run Q :=
  Triple.done hA h

/-- What a program ends with, raised or not, is given to the next. -/
theorem Triple.bindLift {p : Prog I β} {f : β → ExceptT ε (Prog I) α} {R : β → σ → Prop}
    {Q : Except ε α → σ → Prop} (h : Triple Inv C Does A p R)
    (hf : ∀ b, Triple Inv C Does (R b) (f b).run Q) :
    Triple Inv C Does A (ExceptT.lift p >>= f).run Q := by
  intro s hs
  refine Meets.bind (Meets.bind ((h s hs).stable.weaken fun b t _ hb => ?_))
  change Meets Inv C Does _ (.done (Except.ok b)) t
  exact fun u htu hinv => hf b u (hb u htu hinv)

end Rules

/-! ### Runs -/

section Runs

variable {Inv : σ → Prop} {C : ℕ → Contract σ}
  {Does : σ → (action : I.Action) → I.Reply action → σ → Prop} {s s' : σ}

/-- Programs that rely on no more than the others guarantee keep the invariant, and each ends
with what it was proved to, in any interleaving. -/
theorem meets_run {ps ps' : List (Prog I α)} {Q : ℕ → α → σ → Prop}
    (hothers : ∀ m n s t, m ≠ n → Inv s → (C m).Guarantee s t → (C n).Meanwhile s t)
    (hps : ∀ n p, ps[n]? = some p → Meets Inv (C n) Does (Q n) p s) (hinv : Inv s)
    (hrun : Relation.ReflTransGen (Step Does) (s, ps) (s', ps')) :
    Inv s' ∧ ∀ n p, ps'[n]? = some p → Meets Inv (C n) Does (Q n) p s' := by
  suffices h : ∀ c, Relation.ReflTransGen (Step Does) (s, ps) c →
      Inv c.1 ∧ ∀ n p, c.2[n]? = some p → Meets Inv (C n) Does (Q n) p c.1 from h (s', ps') hrun
  intro c hc
  induction hc with
  | refl => exact ⟨hinv, hps⟩
  | tail _ hstep ih =>
    obtain ⟨hinv₁, hps₁⟩ := ih
    cases hstep with
    | @act s₁ s₂ qs n action next r hget hdoes =>
      obtain ⟨hinv₂, hown, hnext⟩ := hps₁ n _ hget s₁ ((C n).refl s₁) hinv₁ r s₂ hdoes
      refine ⟨hinv₂, fun m p hp => ?_⟩
      rw [List.getElem?_set] at hp
      split_ifs at hp with hm hlt
      · rw [← hm, ← Option.some.inj hp]
        exact hnext
      · exact (hps₁ m p hp).later (hothers n m s₁ s₂ hm hinv₁ hown)

end Runs

end CuTracer.Prog
