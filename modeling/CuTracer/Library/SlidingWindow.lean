import Mathlib.Algebra.Order.Group.Defs
import Mathlib.Data.List.Count
import Mathlib.Tactic.Order

/-! Limits on how many events fall into a window of a fixed length, wherever the window lies. Events
come in order of time. The window that ends with the newest events holds all that a later window
holds, so it is the only one to look at when events are added. -/

namespace CuTracer.SlidingWindow

variable {T : Type*} [AddCommGroup T] [LinearOrder T]

/-- The events of the window of length `w` that ends at `t`, its start left out. -/
def inWindow (w t : T) (events : List T) : ℕ := events.countP fun s => decide (t - w < s ∧ s ≤ t)

/-- No window of length `w` holds more than `cap` events. -/
def Limited (w : T) (cap : ℕ) (events : List T) : Prop := ∀ t, inWindow w t events ≤ cap

variable {w a : T} {cap n : ℕ} {events : List T}

@[simp] theorem inWindow_nil (t : T) : inWindow w t [] = 0 := rfl

@[simp] theorem inWindow_append (t : T) (before after : List T) :
    inWindow w t (before ++ after) = inWindow w t before + inWindow w t after :=
  List.countP_append

theorem limited_nil : Limited w cap [] := fun _ => Nat.zero_le cap

theorem inWindow_replicate_of_lt {t : T} (ht : t < a) : inWindow w t (List.replicate n a) = 0 := by
  rw [inWindow, List.countP_eq_zero]
  intro s hs
  obtain rfl := List.eq_of_mem_replicate hs
  simp [ht]

variable [IsOrderedAddMonoid T]

/-- Events at the end of a window that is not empty are in it. -/
theorem inWindow_replicate_self (hw : 0 < w) : inWindow w a (List.replicate n a) = n := by
  have hin : a - w < a ∧ a ≤ a := ⟨sub_lt_self a hw, le_rfl⟩
  rw [inWindow, List.countP_replicate, if_pos (by simpa using hin)]

/-- A later window holds no event that the window of the newest events does not hold. -/
theorem inWindow_le_of_ge {t : T} (ht : a ≤ t) (hall : ∀ s ∈ events, s ≤ a) :
    inWindow w t events ≤ inWindow w a events := by
  refine List.countP_mono_left fun s hs h => ?_
  simp only [decide_eq_true_eq] at h ⊢
  exact ⟨(sub_le_sub_right ht w).trans_lt h.1, hall s hs⟩

/-- New events keep the limit if the window that they end does. -/
theorem Limited.append (h : Limited w cap events) (hall : ∀ s ∈ events, s ≤ a)
    (hroom : inWindow w a (events ++ List.replicate n a) ≤ cap) :
    Limited w cap (events ++ List.replicate n a) := by
  intro t
  obtain hlt | hle := lt_or_ge t a
  · rw [inWindow_append, inWindow_replicate_of_lt hlt]
    exact h t
  · refine (inWindow_le_of_ge hle ?_).trans hroom
    intro s hs
    obtain hs | hs := List.mem_append.mp hs
    · exact hall s hs
    · exact (List.eq_of_mem_replicate hs).le

end CuTracer.SlidingWindow
