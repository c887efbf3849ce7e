import Mathlib.Algebra.BigOperators.Group.List.Basic

/-! Fallible computations. A result of a sequence of statements comes from a
result of each; what every pass of a loop keeps, the loop keeps. Two computations
side by side are coupled if whatever the first returns, the second returns
something related to it: relations between two runs of one program are proved
with these rules, one statement at a time. -/

namespace CuTracer

variable {ε α β γ δ : Type}

/-! ### Results -/

theorem bind_ok {x : Except ε α} {f : α → Except ε β} {b : β} (h : (x >>= f) = .ok b) :
    ∃ a, x = .ok a ∧ f a = .ok b := by
  cases x with
  | error e => exact nomatch h
  | ok a => exact ⟨a, rfl, h⟩

theorem map_ok {x : Except ε α} {f : α → β} {b : β} (h : x.map f = .ok b) :
    ∃ a, x = .ok a ∧ f a = b := by
  cases x with
  | error e => exact nomatch h
  | ok a => exact ⟨a, rfl, Except.ok.inj h⟩

@[simp] theorem toOption_eq_some {x : Except ε α} {a : α} : x.toOption = some a ↔ x = .ok a := by
  cases x <;> simp [Except.toOption]

@[simp] theorem pure_ok (a : α) : (pure a : Except ε α) = .ok a := rfl

@[simp] theorem ok_map (a : α) (f : α → β) : f <$> (Except.ok a : Except ε α) = .ok (f a) := rfl

@[simp] theorem ok_bind (a : α) (f : α → Except ε β) : (Except.ok a >>= f) = f a := rfl

theorem mapM_ok {f : α → Except ε β} {xs : List α} {ys : List β} :
    xs.mapM f = .ok ys ↔ List.Forall₂ (fun x y => f x = .ok y) xs ys := by
  induction xs generalizing ys with
  | nil =>
    rw [List.mapM_nil, List.forall₂_nil_left_iff]
    exact ⟨fun h => (Except.ok.inj h).symm, fun h => h ▸ rfl⟩
  | cons x xs ih =>
    rw [List.mapM_cons]
    constructor
    · intro h
      obtain ⟨y, hy, h⟩ := bind_ok h
      obtain ⟨zs, hzs, h⟩ := bind_ok h
      cases h
      exact .cons hy (ih.mp hzs)
    · rintro (_ | ⟨hy, hzs⟩)
      rw [hy, ok_bind, ih.mpr hzs]
      rfl

theorem forall₂_mem_right {R : α → β → Prop} {xs : List α} {ys : List β}
    (h : List.Forall₂ R xs ys) {y : β} (hy : y ∈ ys) : ∃ x ∈ xs, R x y := by
  induction h with
  | nil => cases hy
  | @cons x z xs zs hxz _ ih =>
    rcases List.mem_cons.mp hy with rfl | hy
    · exact ⟨x, List.mem_cons_self, hxz⟩
    · obtain ⟨w, hw, hwy⟩ := ih hy
      exact ⟨w, List.mem_cons_of_mem x hw, hwy⟩

theorem forall₂_append_left {R : α → β → Prop} {xs xs' : List α} {ys : List β}
    (h : List.Forall₂ R (xs ++ xs') ys) :
    ∃ zs zs', List.Forall₂ R xs zs ∧ List.Forall₂ R xs' zs' ∧ ys = zs ++ zs' := by
  induction xs generalizing ys with
  | nil => exact ⟨[], ys, .nil, h, rfl⟩
  | cons x xs ih =>
    cases h with
    | @cons _ y _ ys hxy h =>
      obtain ⟨zs, zs', hzs, hzs', rfl⟩ := ih h
      exact ⟨y :: zs, zs', .cons hxy hzs, hzs', rfl⟩

theorem exists_forall₂ {R : α → β → Prop} {xs : List α} :
    (∃ ys, List.Forall₂ R xs ys) ↔ ∀ x ∈ xs, ∃ y, R x y := by
  induction xs with
  | nil => exact ⟨fun _ _ hx => (by cases hx), fun _ => ⟨[], .nil⟩⟩
  | cons x xs ih =>
    rw [List.forall_mem_cons, ← ih]
    constructor
    · rintro ⟨_, _ | ⟨hy, hys⟩⟩
      exact ⟨⟨_, hy⟩, _, hys⟩
    · rintro ⟨⟨y, hy⟩, ys, hys⟩
      exact ⟨y :: ys, .cons hy hys⟩

/-- A loop that reads its inputs one by one and counts what it read, within a limit. -/
theorem foldlM_counted {γ : Type} [AddMonoid γ] {step : List β × γ → α → Except ε (List β × γ)}
    {reads : α → β → Prop} {count : α → γ} {within : γ → Prop}
    (hdown : ∀ {a b}, within (a + b) → within a)
    (hstep : ∀ {ys c x ys' c'}, within c → (step (ys, c) x = .ok (ys', c') ↔
      ∃ y, reads x y ∧ ys' = ys ++ [y] ∧ c' = c + count x ∧ within c'))
    {xs : List α} {ys ys' : List β} {c c' : γ} (hc : within c) :
    xs.foldlM step (ys, c) = .ok (ys', c') ↔
      ∃ zs, List.Forall₂ reads xs zs ∧ ys' = ys ++ zs ∧ c' = c + (xs.map count).sum ∧
        within c' := by
  induction xs generalizing ys c with
  | nil =>
    constructor
    · intro h
      cases h
      exact ⟨[], .nil, by simp, by simp, hc⟩
    · rintro ⟨zs, hzs, rfl, rfl, -⟩
      cases hzs
      simp
  | cons x xs ih =>
    rw [List.foldlM_cons, List.map_cons, List.sum_cons, ← add_assoc]
    constructor
    · intro h
      obtain ⟨⟨us, d⟩, hfirst, hrest⟩ := bind_ok h
      obtain ⟨y, hy, rfl, rfl, hd⟩ := (hstep hc).mp hfirst
      obtain ⟨zs, hzs, rfl, rfl, hwithin⟩ := (ih hd).mp hrest
      exact ⟨y :: zs, .cons hy hzs, by simp, rfl, hwithin⟩
    · rintro ⟨zs, hzs, rfl, rfl, hwithin⟩
      cases hzs with
      | @cons _ y _ zs hy hzs =>
        have hd := hdown hwithin
        rw [(hstep hc).mpr ⟨y, hy, rfl, rfl, hd⟩, ok_bind]
        exact (ih hd).mpr ⟨zs, hzs, by simp, rfl, hwithin⟩

/-- A loop keeps what each of its passes keeps. -/
theorem foldlM_induction {P : α → Prop} {f : α → β → Except ε α} {xs : List β} {a b : α}
    (h : xs.foldlM f a = .ok b) (hP : P a)
    (hstep : ∀ a x b, x ∈ xs → P a → f a x = .ok b → P b) : P b := by
  induction xs generalizing a with
  | nil =>
    cases h
    exact hP
  | cons x xs ih =>
    rw [List.foldlM_cons] at h
    obtain ⟨c, hc, hrest⟩ := bind_ok h
    exact ih hrest (hstep a x c List.mem_cons_self hP hc)
      fun a y b hy => hstep a y b (List.mem_cons_of_mem x hy)

/-! ### Coupling -/

/-- Every result of `x` is matched by a related result of `y`. -/
def Coupled (R : α → β → Prop) (x : Except ε α) (y : Except ε β) : Prop :=
  ∀ a, x = .ok a → ∃ b, y = .ok b ∧ R a b

namespace Coupled

variable {R : α → β → Prop} {Q : γ → δ → Prop} {x : Except ε α} {y : Except ε β}

theorem ok {a : α} {b : β} (h : R a b) : Coupled R (.ok a : Except ε α) (.ok b) := by
  intro a' ha
  cases ha
  exact ⟨b, rfl, h⟩

theorem error (e : ε) : Coupled R (.error e) y := fun _ ha => nomatch ha

/-- A computation that looks at neither state returns the same on both sides. -/
theorem same {R' : α → α → Prop} {x : Except ε α} (h : ∀ a, x = .ok a → R' a a) :
    Coupled R' x x := fun a ha => ⟨a, ha, h a ha⟩

/-- One statement after another. -/
theorem bind {f : α → Except ε γ} {g : β → Except ε δ} (h : Coupled R x y)
    (hfg : ∀ a b, R a b → Coupled Q (f a) (g b)) : Coupled Q (x >>= f) (y >>= g) := by
  intro c hc
  cases x with
  | error e => exact nomatch hc
  | ok a =>
    obtain ⟨b, rfl, hab⟩ := h a rfl
    exact hfg a b hab c hc

end Coupled

end CuTracer
