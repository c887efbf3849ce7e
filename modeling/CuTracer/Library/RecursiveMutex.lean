import Mathlib.Data.Nat.Basic

/-! A mutex that the thread that has it can take again. Whoever has it holds a number of acquisitions
of it, and everybody else holds none. -/

namespace CuTracer

/-- Free, or taken by `owner` and then `again` more times. -/
inductive RecursiveMutex (θ : Type*) where
  | free
  | held (owner : θ) (again : ℕ)

namespace RecursiveMutex

variable {θ : Type*} [DecidableEq θ] {m m' : RecursiveMutex θ} {t u : θ}

def holds : RecursiveMutex θ → θ → ℕ
  | .free, _ => 0
  | .held owner again, t => if owner = t then again + 1 else 0

/-- `none` while another thread has it. -/
def lock (t : θ) : RecursiveMutex θ → Option (RecursiveMutex θ)
  | .free => some (.held t 0)
  | .held owner again => if owner = t then some (.held t (again + 1)) else none

/-- `none` if the thread does not have it. -/
def unlock (t : θ) : RecursiveMutex θ → Option (RecursiveMutex θ)
  | .free => none
  | .held owner 0 => if owner = t then some .free else none
  | .held owner (again + 1) => if owner = t then some (.held t again) else none

@[simp] theorem holds_free : (free : RecursiveMutex θ).holds t = 0 := rfl

theorem holds_eq_zero (h : 0 < m.holds t) (hne : t ≠ u) : m.holds u = 0 := by
  cases m with
  | free => rfl
  | held owner again =>
    rw [holds] at h ⊢
    split_ifs at h with ht
    · exact if_neg (ht ▸ hne)
    · exact absurd h (lt_irrefl 0)

theorem holds_lock (h : m.lock t = some m') (u : θ) :
    m'.holds u = m.holds u + if t = u then 1 else 0 := by
  cases m with
  | free =>
    cases h
    simp [holds]
  | held owner again =>
    rw [lock] at h
    split_ifs at h with ht
    cases h
    subst ht
    simp only [holds]
    split_ifs <;> rfl

/-- It can be taken unless another thread has it. -/
theorem lock_isSome : (m.lock t).isSome ↔ ∀ u, u ≠ t → m.holds u = 0 := by
  cases m with
  | free => simp [lock]
  | held owner again =>
    rw [lock]
    split_ifs with ht
    · subst ht
      simpa [holds] using fun u hu => Ne.symm hu
    · simp only [Option.isSome_none, Bool.false_eq_true, false_iff]
      intro hall
      simpa [holds] using hall owner ht

/-- Who has it can release one acquisition. -/
theorem exists_unlock (h : 0 < m.holds t) :
    ∃ m', m.unlock t = some m' ∧ ∀ u, m'.holds u = m.holds u - if t = u then 1 else 0 := by
  cases m with
  | free => exact absurd h (lt_irrefl 0)
  | held owner again =>
    rw [holds] at h
    split_ifs at h with ht
    · subst ht
      cases again with
      | zero =>
        refine ⟨.free, if_pos rfl, fun u => ?_⟩
        simp only [holds]
        split_ifs <;> rfl
      | succ again =>
        refine ⟨.held owner again, if_pos rfl, fun u => ?_⟩
        simp only [holds]
        split_ifs <;> rfl
    · exact absurd h (lt_irrefl 0)

end RecursiveMutex

end CuTracer
