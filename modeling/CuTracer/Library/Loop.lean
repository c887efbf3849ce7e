import Mathlib.Data.List.Basic

/-! Loops over a list of items that may stop early or fail. A loop records every
item it ran with the state after it. Running two lists one after the other is
running the second from where the first ended, so a loop that is cut at one of
its recorded states and started again there on the remaining items goes through
the same states. -/

namespace CuTracer

/-! ### Lists -/

theorem filterMap_getElem? {α β : Type*} {f : α → Option β} {l : List α}
    (h : ∀ x ∈ l.dropLast, (f x).isSome) (k : ℕ) : (l.filterMap f)[k]? = l[k]?.bind f := by
  induction l generalizing k with
  | nil => simp
  | cons x xs ih =>
    cases xs with
    | nil => cases k <;> cases hx : f x <;> simp [hx]
    | cons y ys =>
      obtain ⟨z, hz⟩ := Option.isSome_iff_exists.mp (h x (by simp))
      have hrest : ∀ a ∈ (y :: ys).dropLast, (f a).isSome := fun a ha =>
        h a (by rw [List.dropLast_cons_cons]; exact List.mem_cons_of_mem x ha)
      rw [List.filterMap_cons_some hz]
      cases k with
      | zero => simp [hz]
      | succ k => simpa using ih hrest k

theorem filterMap_drop {α β : Type*} {f : α → Option β} {l : List α} {k : ℕ}
    (h : ∀ x ∈ l.take k, (f x).isSome) : (l.drop k).filterMap f = (l.filterMap f).drop k := by
  induction l generalizing k with
  | nil => simp
  | cons x xs ih =>
    cases k with
    | zero => simp
    | succ k =>
      obtain ⟨z, hz⟩ := Option.isSome_iff_exists.mp (h x (by simp))
      rw [List.filterMap_cons_some hz, List.drop_succ_cons, List.drop_succ_cons]
      exact ih fun a ha => h a (by rw [List.take_succ_cons]; exact List.mem_cons_of_mem x ha)

/-! ### Loops -/

/-- A loop body with its stop test; a body that fails leaves a state and an
error. -/
structure Loop (ι σ ε : Type*) where
  stop : σ → Bool
  step : ι → σ → σ × Option ε

namespace Loop

variable {ι σ ε : Type*}

/-- One iteration that ran: its item, the state it left and its error. -/
structure Ran (ι σ ε : Type*) where
  item : ι
  state : σ
  error : Option ε

/-- The final state, the iterations that ran, and the error that ended them. -/
structure Result (ι σ ε : Type*) where
  final : σ
  ran : List (Ran ι σ ε)
  error : Option ε

def run (L : Loop ι σ ε) : List ι → σ → Result ι σ ε
  | [], s => ⟨s, [], none⟩
  | x :: xs, s =>
    if L.stop s then ⟨s, [], none⟩
    else
      match L.step x s with
      | (s', some e) => ⟨s', [⟨x, s', some e⟩], some e⟩
      | (s', none) =>
        let r := run L xs s'
        ⟨r.final, ⟨x, s', none⟩ :: r.ran, r.error⟩

variable (L : Loop ι σ ε)

@[simp] theorem run_nil (s : σ) : L.run [] s = ⟨s, [], none⟩ := rfl

theorem run_of_stop {s : σ} (h : L.stop s = true) (xs : List ι) : L.run xs s = ⟨s, [], none⟩ := by
  cases xs <;> simp [run, h]

theorem run_cons_ok {s s' : σ} {x : ι} {xs : List ι} (h : L.stop s = false)
    (hs : L.step x s = (s', none)) :
    L.run (x :: xs) s =
      ⟨(L.run xs s').final, ⟨x, s', none⟩ :: (L.run xs s').ran, (L.run xs s').error⟩ := by
  simp [run, h, hs]

theorem run_cons_error {s s' : σ} {x : ι} {xs : List ι} {e : ε} (h : L.stop s = false)
    (hs : L.step x s = (s', some e)) : L.run (x :: xs) s = ⟨s', [⟨x, s', some e⟩], some e⟩ := by
  simp [run, h, hs]

/-- The three ways a loop goes on from a nonempty list. -/
theorem run_cons_cases (x : ι) (xs : List ι) (s : σ) :
    (L.stop s = true ∧ L.run (x :: xs) s = ⟨s, [], none⟩) ∨
    (∃ s' e, L.stop s = false ∧ L.step x s = (s', some e) ∧
      L.run (x :: xs) s = ⟨s', [⟨x, s', some e⟩], some e⟩) ∨
    (∃ s', L.stop s = false ∧ L.step x s = (s', none) ∧
      L.run (x :: xs) s =
        ⟨(L.run xs s').final, ⟨x, s', none⟩ :: (L.run xs s').ran, (L.run xs s').error⟩) := by
  cases h : L.stop s with
  | true => exact .inl ⟨rfl, L.run_of_stop h _⟩
  | false =>
    rcases hs : L.step x s with ⟨s', _ | e⟩
    · exact .inr (.inr ⟨s', rfl, rfl, L.run_cons_ok h hs⟩)
    · exact .inr (.inl ⟨s', e, rfl, rfl, L.run_cons_error h hs⟩)

/-- The items that ran are the first ones, in order. -/
theorem ran_items (xs : List ι) (s : σ) :
    (L.run xs s).ran.map Ran.item = xs.take (L.run xs s).ran.length := by
  induction xs generalizing s with
  | nil => simp
  | cons x xs ih =>
    rcases L.run_cons_cases x xs s with ⟨-, h⟩ | ⟨s', e, -, -, h⟩ | ⟨s', -, -, h⟩
    · simp [h]
    · simp [h]
    · simp [h, ih s']

variable (xs : List ι)

theorem ran_length_le (s : σ) : (L.run xs s).ran.length ≤ xs.length := by
  have h := congrArg List.length (L.ran_items xs s)
  simp only [List.length_map, List.length_take] at h
  omega

/-- What every step preserves, indexed by the items run so far, holds of every
state recorded without an error, and at the end of a loop that did not fail. -/
theorem run_invariant {I : List ι → σ → Prop}
    (hstep : ∀ done x s s', I done s → L.stop s = false → L.step x s = (s', none) →
      I (done ++ [x]) s')
    (xs : List ι) {done : List ι} {s : σ} (h0 : I done s) :
    (∀ k r, (L.run xs s).ran[k]? = some r → r.error = none →
      I (done ++ xs.take (k + 1)) r.state) ∧
    ((L.run xs s).error = none → I (done ++ xs.take (L.run xs s).ran.length) (L.run xs s).final) := by
  induction xs generalizing done s with
  | nil => simpa using h0
  | cons x xs ih =>
    rcases L.run_cons_cases x xs s with ⟨-, h⟩ | ⟨s', e, -, -, h⟩ | ⟨s', hns, hs, h⟩
    · rw [h]
      simpa using h0
    · rw [h]
      refine ⟨?_, by simp⟩
      intro k r hk hr
      cases k with
      | zero =>
        simp only [List.getElem?_cons_zero, Option.some.injEq] at hk
        simp [← hk] at hr
      | succ k => simp at hk
    · have h1 := hstep done x s s' h0 hns hs
      obtain ⟨hran, hfin⟩ := ih h1
      rw [h]
      refine ⟨?_, ?_⟩
      · intro k r hk hr
        cases k with
        | zero =>
          simp only [List.getElem?_cons_zero, Option.some.injEq] at hk
          simpa [← hk] using h1
        | succ k => simpa using hran k r (by simpa using hk) hr
      · intro hok
        simpa using hfin hok

/-- What every step preserves even when it fails holds of every recorded state. -/
theorem ran_invariant {J : σ → Prop}
    (hstep : ∀ x s, J s → L.stop s = false → J (L.step x s).1) (xs : List ι) {s : σ} (h0 : J s) :
    (∀ r ∈ (L.run xs s).ran, J r.state) ∧ J (L.run xs s).final := by
  induction xs generalizing s with
  | nil => simpa using h0
  | cons x xs ih =>
    rcases L.run_cons_cases x xs s with ⟨-, h⟩ | ⟨s', e, hns, hs, h⟩ | ⟨s', hns, hs, h⟩
    · rw [h]
      simpa using h0
    · have h1 := hstep x s h0 hns
      rw [hs] at h1
      rw [h]
      simpa using h1
    · have h1 := hstep x s h0 hns
      rw [hs] at h1
      obtain ⟨hran, hfin⟩ := ih h1
      rw [h]
      simpa using ⟨⟨h1, hran⟩, hfin⟩

/-- Only the last iteration can have failed. -/
theorem error_of_mem_dropLast (xs : List ι) (s : σ) :
    ∀ r ∈ (L.run xs s).ran.dropLast, r.error = none := by
  induction xs generalizing s with
  | nil => simp
  | cons x xs ih =>
    rcases L.run_cons_cases x xs s with ⟨-, h⟩ | ⟨s', e, -, -, h⟩ | ⟨s', -, -, h⟩
    · simp [h]
    · simp [h]
    · rw [h]
      intro r hr
      cases hran : (L.run xs s').ran with
      | nil => simp [hran] at hr
      | cons r' rs =>
        have := ih s' r
        simp only [hran, List.dropLast_cons_cons, List.mem_cons] at hr this
        rcases hr with rfl | hr
        · rfl
        · exact this hr

/-- Nothing before an iteration that did not fail has failed. -/
theorem error_of_mem_take (s : σ) {k : ℕ} {r : Ran ι σ ε} (hk : (L.run xs s).ran[k]? = some r)
    (hok : r.error = none) : ∀ r' ∈ (L.run xs s).ran.take (k + 1), r'.error = none := by
  intro r' hr'
  obtain ⟨j, hj, rfl⟩ := List.mem_take_iff_getElem.mp hr'
  obtain ⟨hklt, hkr⟩ := List.getElem?_eq_some_iff.mp hk
  by_cases hjk : j = k
  · subst hjk
    rwa [hkr]
  · refine L.error_of_mem_dropLast xs s _ ?_
    rw [List.dropLast_eq_take]
    exact List.mem_take_iff_getElem.mpr ⟨j, by omega, rfl⟩

theorem error_of_run (s : σ) {e : ε} (h : (L.run xs s).error = some e) :
    ∃ x s₀ s', L.step x s₀ = (s', some e) := by
  induction xs generalizing s with
  | nil => simp at h
  | cons x xs ih =>
    rcases L.run_cons_cases x xs s with ⟨-, hr⟩ | ⟨s', e', -, hs, hr⟩ | ⟨s', -, -, hr⟩
    · simp [hr] at h
    · rw [hr] at h
      cases h
      exact ⟨x, s, s', hs⟩
    · rw [hr] at h
      exact ih s' h

/-- A report that every iteration but a failed one makes: the `k`-th report is
that of the `k`-th iteration. -/
theorem filterMap_ran_getElem? {β : Type*} (f : Ran ι σ ε → Option β)
    (hf : ∀ r, r.error = none → (f r).isSome) (xs : List ι) (s : σ) (k : ℕ) :
    ((L.run xs s).ran.filterMap f)[k]? = (L.run xs s).ran[k]?.bind f :=
  filterMap_getElem? (fun r hr => hf r (L.error_of_mem_dropLast xs s r hr)) k

/-- A loop that neither stopped nor failed ran every item. -/
theorem ran_length_of_not_stop (s : σ) (hok : (L.run xs s).error = none)
    (hns : L.stop (L.run xs s).final = false) : (L.run xs s).ran.length = xs.length := by
  induction xs generalizing s with
  | nil => simp
  | cons x xs ih =>
    rcases L.run_cons_cases x xs s with ⟨hs, h⟩ | ⟨s', e, -, -, h⟩ | ⟨s', -, -, h⟩
    · simp [h, hs] at hns
    · simp [h] at hok
    · rw [h] at hok hns ⊢
      simpa using ih s' hok hns

/-- Cutting a loop at a recorded state and running the remaining items from
there gives the rest of the same loop. -/
theorem run_resume {s : σ} {k : ℕ} {r : Ran ι σ ε} (hk : (L.run xs s).ran[k]? = some r)
    (hok : r.error = none) :
    L.run (xs.drop (k + 1)) r.state =
      ⟨(L.run xs s).final, (L.run xs s).ran.drop (k + 1), (L.run xs s).error⟩ := by
  induction xs generalizing s k with
  | nil => simp at hk
  | cons x xs ih =>
    rcases L.run_cons_cases x xs s with ⟨-, h⟩ | ⟨s', e, -, -, h⟩ | ⟨s', -, -, h⟩
    · simp [h] at hk
    · rw [h] at hk
      cases k with
      | zero =>
        simp only [List.getElem?_cons_zero, Option.some.injEq] at hk
        simp [← hk] at hok
      | succ k => simp at hk
    · rw [h] at hk ⊢
      cases k with
      | zero =>
        simp only [List.getElem?_cons_zero, Option.some.injEq] at hk
        simp [← hk]
      | succ k => simpa using ih (by simpa using hk)

end Loop

/-! ### Bisection -/

/-- The number that a bisection ends at, of those from `low` to `high`. -/
def bisect (fits : ℕ → Bool) (low high : ℕ) : ℕ :=
  if low < high then
    if fits ((low + high + 1) / 2) then bisect fits ((low + high + 1) / 2) high
    else bisect fits low ((low + high + 1) / 2 - 1)
  else low
termination_by high - low

/-- A bisection that starts at a number that fits ends at one. -/
theorem bisect_fits {p : ℕ → Prop} [DecidablePred p] {low high : ℕ} (h : p low) :
    p (bisect (fun n => p n) low high) := by
  induction low, high using bisect.induct (fun n => p n) with
  | case1 low high hlt hmiddle ih =>
    rw [bisect, if_pos hlt, if_pos hmiddle]
    exact ih (of_decide_eq_true hmiddle)
  | case2 low high hlt hmiddle ih =>
    rw [bisect, if_pos hlt, if_neg hmiddle]
    exact ih h
  | case3 low high hlt =>
    rw [bisect, if_neg hlt]
    exact h

/-- A bisection with a test that may fail. -/
def bisectM (fits : ℕ → Option Bool) (low high : ℕ) : Option ℕ :=
  if low < high then
    match fits ((low + high + 1) / 2) with
    | some true => bisectM fits ((low + high + 1) / 2) high
    | some false => bisectM fits low ((low + high + 1) / 2 - 1)
    | none => none
  else some low
termination_by high - low

/-- It ends at a number that fits, as the one that it starts at, or at a test that fails. -/
theorem bisectM_fits {fits : ℕ → Option Bool} {low high : ℕ} (h : fits low = some true) :
    (∃ n, bisectM fits low high = some n ∧ fits n = some true) ∨
      bisectM fits low high = none ∧ ∃ n, fits n = none := by
  induction low, high using bisectM.induct fits with
  | case1 low high hlt hmiddle ih =>
    rw [bisectM, if_pos hlt, hmiddle]
    exact ih hmiddle
  | case2 low high hlt hmiddle ih =>
    rw [bisectM, if_pos hlt, hmiddle]
    exact ih h
  | case3 low high hlt hmiddle =>
    rw [bisectM, if_pos hlt, hmiddle]
    exact .inr ⟨rfl, _, hmiddle⟩
  | case4 low high hlt =>
    rw [bisectM, if_neg hlt]
    exact .inl ⟨low, rfl, h⟩

end CuTracer
