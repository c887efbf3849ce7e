import Mathlib.Data.List.Basic

/-! A cell that is only written by compare-and-swap on a version that every write advances
by one. A value that was read either is the value of the cell still, or its version is past:
so a swap that succeeds replaces what was read. -/

namespace CuTracer.Versioned

variable {σ : Type*} {version : σ → ℕ} {r s t : σ}

/-! ### Reading -/

/-- A value that the cell held, and what it holds now. -/
structure Seen (version : σ → ℕ) (r s : σ) : Prop where
  le : version r ≤ version s
  eq : version r = version s → r = s

theorem Seen.refl (s : σ) : Seen version s s := ⟨Nat.le_refl _, fun _ => rfl⟩

/-- A write leaves every value that was read in the past. -/
theorem Seen.write (h : Seen version r s) (hwrite : version t = version s + 1) :
    Seen version r t := by
  have hlt : version r < version t := by
    have := h.le
    omega
  exact ⟨Nat.le_of_lt hlt, fun heq => absurd heq (Nat.ne_of_lt hlt)⟩

/-! ### Writes -/

structure Written (σ : Type*) where
  before : σ
  after : σ

/-- The writes lead from the first value to the last. -/
def Chain (version : σ → ℕ) : σ → List (Written σ) → σ → Prop
  | s, [], t => s = t
  | s, w :: ws, t =>
    w.before = s ∧ version w.after = version s + 1 ∧ Chain version w.after ws t

theorem chain_append {ws vs : List (Written σ)} :
    Chain version r (ws ++ vs) t ↔ ∃ s, Chain version r ws s ∧ Chain version s vs t := by
  induction ws generalizing r with
  | nil => simp [Chain]
  | cons w ws ih => simp [Chain, ih, and_assoc]

variable {ws : List (Written σ)}

theorem Chain.snoc (h : Chain version r ws s) (hwrite : version t = version s + 1) :
    Chain version r (ws ++ [⟨s, t⟩]) t :=
  chain_append.mpr ⟨s, h, rfl, hwrite, rfl⟩

/-- The cell holds what it held first or what was written last. -/
theorem Chain.getElem?_last (h : Chain version s ws t) :
    (s :: ws.map Written.after)[ws.length]? = some t := by
  induction ws generalizing s with
  | nil => exact congrArg some h
  | cons w ws ih => exact ih h.2.2

theorem Chain.last_mem (h : Chain version s ws t) : t ∈ s :: ws.map Written.after :=
  List.mem_of_getElem? h.getElem?_last

theorem Chain.last_eq {w : Written σ} (h : Chain version s (ws ++ [w]) t) : w.after = t := by
  obtain ⟨r, -, -, -, hlast⟩ := chain_append.mp h
  exact hlast

/-- What holds at the end and not at the start was brought about by some write. -/
theorem Chain.exists_write (h : Chain version s ws t) (P : σ → Prop) (hs : ¬P s) (ht : P t) :
    ∃ w ∈ ws, ¬P w.before ∧ P w.after := by
  induction ws generalizing s with
  | nil =>
    cases h
    exact absurd ht hs
  | cons w ws ih =>
    obtain ⟨hbefore, -, hrest⟩ := h
    by_cases hw : P w.after
    · exact ⟨w, List.mem_cons_self, by rwa [hbefore], hw⟩
    · obtain ⟨w', hw', hstep⟩ := ih hrest hw
      exact ⟨w', List.mem_cons_of_mem w hw', hstep⟩

end CuTracer.Versioned
