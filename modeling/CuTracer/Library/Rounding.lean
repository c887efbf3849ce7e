import Mathlib.Data.Nat.Find
import Mathlib.Order.Interval.Set.Basic

/-! Roundings of an ordered type to representable values: monotone functions that leave
every representable value of a range where it is. Rounding to a fine set and then to a
coarse one is a rounding to the coarse one, however ties are broken, and a rounding stays
between the representable values around its argument. Where the representable values are
the terms of a strictly increasing sequence, the greatest term below a value rounds it. -/

namespace CuTracer.Rounding

variable {α : Type*}

section Preorder

variable [Preorder α]

structure IsRounding (range representable : Set α) (f : α → α) : Prop where
  monotoneOn : MonotoneOn f range
  fixes : ∀ x ∈ range, x ∈ representable → f x = x

variable {range fine coarse : Set α} {f g : α → α}

/-- Where every value is representable. -/
theorem IsRounding.id : IsRounding range fine (id : α → α) := ⟨monotoneOn_id, fun _ _ _ => rfl⟩

/-- A rounding does not pass a representable value. -/
theorem IsRounding.mem_Icc (h : IsRounding range fine f) {a b x : α} (ha : a ∈ range) (hx : x ∈ range)
    (hb : b ∈ range) (hfa : a ∈ fine) (hfb : b ∈ fine) (hax : a ≤ x) (hxb : x ≤ b) :
    f x ∈ Set.Icc a b := by
  constructor
  · calc a = f a := (h.fixes a ha hfa).symm
      _ ≤ f x := h.monotoneOn ha hx hax
  · calc f x ≤ f b := h.monotoneOn hx hb hxb
      _ = b := h.fixes b hb hfb

/-- Rounding twice, first to a finer set. -/
theorem IsRounding.comp {lo hi : α} (hg : IsRounding (Set.Icc lo hi) coarse g)
    (hf : IsRounding (Set.Icc lo hi) fine f) (hsub : coarse ⊆ fine) (hlo : lo ∈ coarse)
    (hhi : hi ∈ coarse) : IsRounding (Set.Icc lo hi) coarse (g ∘ f) := by
  have hmaps : ∀ x ∈ Set.Icc lo hi, f x ∈ Set.Icc lo hi := by
    intro x hx
    have hle : lo ≤ hi := hx.1.trans hx.2
    exact hf.mem_Icc ⟨le_rfl, hle⟩ hx ⟨hle, le_rfl⟩ (hsub hlo) (hsub hhi) hx.1 hx.2
  constructor
  · intro x hx y hy hxy
    exact hg.monotoneOn (hmaps x hx) (hmaps y hy) (hf.monotoneOn hx hy hxy)
  · intro x hx hc
    show g (f x) = x
    rw [hf.fixes x hx (hsub hc), hg.fixes x hx hc]

end Preorder

section Sequence

variable [LinearOrder α] (u : ℕ → α)

/-- The last of the terms up to the `n`-th that is at most `x`. -/
def floorIndex (n : ℕ) (x : α) : ℕ := Nat.findGreatest (fun k => u k ≤ x) n

variable {u} {n : ℕ} {x y : α}

theorem floorIndex_le : floorIndex u n x ≤ n := Nat.findGreatest_le n

theorem lt_of_floorIndex_lt (h : floorIndex u n x < n) : x < u (floorIndex u n x + 1) :=
  not_le.mp (Nat.findGreatest_is_greatest (P := fun k => u k ≤ x) (Nat.lt_succ_self _) h)

theorem floorIndex_mono (h : x ≤ y) : floorIndex u n x ≤ floorIndex u n y :=
  Nat.findGreatest_mono_left (fun _ hk => hk.trans h) n

theorem floorIndex_term (hu : StrictMono u) {k : ℕ} (hk : k ≤ n) : floorIndex u n (u k) = k := by
  have hle : k ≤ floorIndex u n (u k) := Nat.le_findGreatest hk le_rfl
  have hterm : u (floorIndex u n (u k)) ≤ u k :=
    Nat.findGreatest_spec (P := fun j => u j ≤ u k) hk le_rfl
  exact le_antisymm (hu.le_iff_le.mp hterm) hle

/-- A value between two terms is a term or lies between two consecutive ones. -/
theorem exists_between (hu : StrictMono u) {m : ℕ} (hlo : u m ≤ x) (hhi : x ≤ u n) :
    (∃ k, m ≤ k ∧ k ≤ n ∧ x = u k) ∨ ∃ k, m ≤ k ∧ k < n ∧ u k < x ∧ x < u (k + 1) := by
  have hmn : m ≤ n := hu.le_iff_le.mp (hlo.trans hhi)
  have hm : m ≤ floorIndex u n x := Nat.le_findGreatest hmn hlo
  have hle : u (floorIndex u n x) ≤ x := Nat.findGreatest_spec (P := fun k => u k ≤ x) hmn hlo
  rcases hle.eq_or_lt with heq | hlt
  · exact .inl ⟨_, hm, floorIndex_le, heq.symm⟩
  · have hn : floorIndex u n x < n := hu.lt_iff_lt.mp (hlt.trans_le hhi)
    exact .inr ⟨_, hm, hn, hlt, lt_of_floorIndex_lt hn⟩

end Sequence

end CuTracer.Rounding
