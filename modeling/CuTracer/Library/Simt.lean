import Mathlib.Data.Set.BooleanAlgebra
import Mathlib.Order.CompletePartialOrder

/-! Lanes that run in groups. The lanes of a group are at one instruction and are issued
together; it is executed in the lanes whose guard is true, and recorded if there are any.
Only a control instruction sends its lanes apart, so lanes in one group stay together up
to the next one, whatever is issued to other groups between. -/

namespace CuTracer.Simt

variable {L I σ : Type}

/-- A program for groups of lanes. -/
structure Machine (L I σ : Type) where
  fetch : ℕ → Option I
  width : ℕ
  width_pos : 0 < width
  /-- An instruction that may send the lanes it is executed in anywhere. -/
  Control : I → Prop
  Guard : I → σ → L → Prop
  /-- What an instruction may do to the registers when some lanes execute it. -/
  Effect : I → Set L → σ → σ → Prop

/-- The PC of a group, and its number among the groups there. -/
abbrev Place := ℕ × ℕ

/-- Lanes with one place are one group; a lane with none has left. -/
structure State (L σ : Type) where
  place : L → Option Place
  regs : σ

structure Record (L I : Type) where
  pc : ℕ
  instr : I
  lanes : Set L

namespace Machine

variable (m : Machine L I σ)

/-- The lanes of a group that execute an instruction. -/
def executed (s : State L σ) (i : I) (p : Place) : Set L := {l | s.place l = some p ∧ m.Guard i s.regs l}

/-- Two groups at one PC join, or one group is issued an instruction. -/
inductive Step (s t : State L σ) : Option (Record L I) → Prop
  | join (pc k k' : ℕ) (regs : t.regs = s.regs)
      (place : ∀ l, t.place l = if s.place l = some (pc, k) then some (pc, k') else s.place l) :
      Step s t none
  | skip (p : Place) (i : I) (fetch : m.fetch p.1 = some i) (unexecuted : m.executed s i p = ∅)
      (regs : t.regs = s.regs)
      (place : ∀ l, t.place l = if s.place l = some p then some (p.1 + m.width, p.2) else s.place l) :
      Step s t none
  | issue (p : Place) (i : I) (fetch : m.fetch p.1 = some i) (some : (m.executed s i p).Nonempty)
      (effect : m.Effect i (m.executed s i p) s.regs t.regs)
      (others : ∀ l, s.place l ≠ Option.some p → t.place l = s.place l)
      (next : ∀ l, s.place l = Option.some p → ¬(m.Control i ∧ l ∈ m.executed s i p) →
        t.place l = Option.some (p.1 + m.width, p.2)) :
      Step s t (Option.some ⟨p.1, i, m.executed s i p⟩)

inductive Run : State L σ → List (Record L I) → State L σ → Prop
  | nil (s : State L σ) : Run s [] s
  | silent {s t u : State L σ} {rs : List (Record L I)} (step : m.Step s t none) (rest : Run t rs u) :
      Run s rs u
  | record {s t u : State L σ} {r : Record L I} {rs : List (Record L I)} (step : m.Step s t (some r))
      (rest : Run t rs u) : Run s (r :: rs) u

/-! ### Straight-line code -/

/-- Straight-line code after `w`, with a branch at its `n`-th instruction: what comes before the
branch keeps `K` and its lanes together, and lanes outside `M` keep `K` everywhere. -/
structure Straight (M : Set L) (K : σ → Prop) (w n : ℕ) (branch : I) : Prop where
  inside : ∀ k, 0 < k → k < n → ∀ i, m.fetch (w + m.width * k) = some i →
    ¬m.Control i ∧ ∀ E r r', K r → m.Effect i E r r' → K r'
  branch : m.fetch (w + m.width * n) = some branch
  frame : ∀ i E r r', Disjoint E M → K r → m.Effect i E r r' → K r'

/-- The lanes are together in the straight-line code or at the branch. -/
def Before (M : Set L) (K : σ → Prop) (w n : ℕ) (s : State L σ) : Prop :=
  K s.regs ∧ ∃ k g, 0 < k ∧ k ≤ n ∧ ∀ l ∈ M, s.place l = some (w + m.width * k, g)

/-- The lanes came past the branch together, and none of them took it. -/
def Past (M : Set L) (K : σ → Prop) (w n : ℕ) (branch : I) (s : State L σ) : Prop :=
  (∃ regs, K regs ∧ ∀ l ∈ M, ¬m.Guard branch regs l) ∧
    ∃ p : Place, w + m.width * n < p.1 ∧ ∀ l ∈ M, s.place l = some p

/-- A record is one of other lanes, or the branch taken by the lanes whose guard was true, or
a later one, where the guard was true in none. -/
def Shows (M : Set L) (K : σ → Prop) (w n : ℕ) (branch : I) (r : Record L I) : Prop :=
  Disjoint r.lanes M ∨
    (r.pc = w + m.width * n ∧ ∃ regs, K regs ∧ ∀ l ∈ M, l ∈ r.lanes ↔ m.Guard branch regs l) ∨
    (r.pc ≠ w + m.width * n ∧ ∃ regs, K regs ∧ ∀ l ∈ M, ¬m.Guard branch regs l)

/-- What a step is to lanes that are together at `p`. -/
inductive Turn (M : Set L) (p : Place) (s t : State L σ) : Option (Record L I) → Prop
  | other (g : ℕ) (r : Option (Record L I)) (place : ∀ l ∈ M, t.place l = some (p.1, g))
      (regs : t.regs = s.regs ∨ ∃ i E, Disjoint E M ∧ m.Effect i E s.regs t.regs)
      (lanes : ∀ q ∈ r, Disjoint q.lanes M) : Turn M p s t r
  | skip (i : I) (fetch : m.fetch p.1 = some i) (unexecuted : ∀ l ∈ M, ¬m.Guard i s.regs l)
      (regs : t.regs = s.regs) (place : ∀ l ∈ M, t.place l = some (p.1 + m.width, p.2)) :
      Turn M p s t none
  | issue (i : I) (E : Set L) (fetch : m.fetch p.1 = some i) (effect : m.Effect i E s.regs t.regs)
      (executed : ∀ l ∈ M, l ∈ E ↔ m.Guard i s.regs l)
      (next : ¬m.Control i → ∀ l ∈ M, t.place l = some (p.1 + m.width, p.2)) :
      Turn M p s t (some ⟨p.1, i, E⟩)

variable {m} {M : Set L} {K : σ → Prop} {w n : ℕ} {branch : I} {s t : State L σ}

/-- Lanes that are together have their turn together. -/
theorem Step.turn {r : Option (Record L I)} (h : m.Step s t r) {p : Place}
    (hplace : ∀ l ∈ M, s.place l = some p) : m.Turn M p s t r := by
  cases h with
  | join pc g g' hregs ht =>
    refine .other (if p = (pc, g) then g' else p.2) none (fun l hl => ?_) (.inl hregs) (by simp)
    rw [ht, hplace l hl]
    by_cases hp : p = (pc, g)
    · rw [if_pos (by rw [hp]), if_pos hp, hp]
    · rw [if_neg fun h => hp (Option.some.inj h), if_neg hp]
  | skip q i hfetch hnone hregs ht =>
    by_cases hq : q = p
    · subst hq
      refine .skip i hfetch (fun l hl hguard => ?_) hregs fun l hl => ?_
      · have hmem : l ∈ m.executed s i q := ⟨hplace l hl, hguard⟩
        rw [hnone] at hmem
        exact hmem
      · rw [ht, hplace l hl, if_pos rfl]
    · refine .other p.2 none (fun l hl => ?_) (.inl hregs) (by simp)
      rw [ht, hplace l hl, if_neg fun h => hq (Option.some.inj h).symm]
  | issue q i hfetch _ heffect hothers hnext =>
    by_cases hq : q = p
    · subst hq
      refine .issue i _ hfetch heffect (fun l hl => ⟨And.right, fun h => ⟨hplace l hl, h⟩⟩) ?_
      exact fun hcontrol l hl => hnext l (hplace l hl) fun h => hcontrol h.1
    · have hdisjoint : Disjoint (m.executed s i q) M := by
        rw [Set.disjoint_left]
        rintro l ⟨hl, -⟩ hM
        exact hq (Option.some.inj (hl.symm.trans (hplace l hM)))
      refine .other p.2 _ (fun l hl => ?_) (.inr ⟨i, _, hdisjoint, heffect⟩) ?_
      · rw [hothers l fun h => hq (Option.some.inj (h.symm.trans (hplace l hl))), hplace l hl]
      · simpa using hdisjoint

/-- Lanes that executed an instruction other than a control instruction are together after it. -/
theorem Step.together {r : Record L I} (h : m.Step s t (some r)) (hcontrol : ¬m.Control r.instr) :
    m.fetch r.pc = some r.instr ∧ r.lanes.Nonempty ∧ m.Effect r.instr r.lanes s.regs t.regs ∧
      ∃ g, ∀ l ∈ r.lanes, t.place l = some (r.pc + m.width, g) := by
  cases h with
  | issue p i hfetch hsome heffect hothers hnext =>
    exact ⟨hfetch, hsome, heffect, p.2, fun l hl => hnext l hl.1 fun h => hcontrol h.1⟩

/-! ### Up to the first record outside -/

/-- A step with no record outside the straight-line code goes on towards the branch, or past it. -/
theorem Before.step (h : m.Straight M K w n branch) (hs : m.Before M K w n s)
    {r : Option (Record L I)} (hstep : m.Step s t r) (hinside : ∀ q ∈ r, q.pc < w + m.width * n) :
    m.Before M K w n t ∨ m.Past M K w n branch t := by
  obtain ⟨hK, k, g, hk, hkn, hplace⟩ := hs
  have hnext : w + m.width * k + m.width = w + m.width * (k + 1) := by
    rw [Nat.mul_succ, Nat.add_assoc]
  cases hstep.turn hplace with
  | other g' r ht hregs hlanes =>
    refine .inl ⟨?_, k, g', hk, hkn, ht⟩
    rcases hregs with hregs | ⟨i, E, hdisjoint, heffect⟩
    · rwa [hregs]
    · exact h.frame i E _ _ hdisjoint hK heffect
  | skip i hfetch hnone hregs ht =>
    rcases Nat.lt_or_eq_of_le hkn with hlt | rfl
    · exact .inl ⟨hregs ▸ hK, k + 1, g, by omega, by omega, hnext ▸ ht⟩
    · obtain rfl := Option.some.inj (h.branch.symm.trans hfetch)
      exact .inr ⟨⟨s.regs, hK, hnone⟩, _, Nat.lt_add_of_pos_right m.width_pos, ht⟩
  | issue i E hfetch heffect hexecuted ht =>
    have hlt : w + m.width * k < w + m.width * n := hinside _ rfl
    have hkn' : k < n := Nat.lt_of_mul_lt_mul_left (Nat.lt_of_add_lt_add_left hlt)
    obtain ⟨hcontrol, hkeep⟩ := h.inside k hk hkn' i hfetch
    exact .inl ⟨hkeep E _ _ hK heffect, k + 1, g, by omega, by omega, hnext ▸ ht hcontrol⟩

theorem Past.step (hs : m.Past M K w n branch s) {r : Option (Record L I)} (hstep : m.Step s t r)
    (hinside : ∀ q ∈ r, q.pc < w + m.width * n) : m.Past M K w n branch t := by
  obtain ⟨hregs, p, hp, hplace⟩ := hs
  cases hstep.turn hplace with
  | other g r ht => exact ⟨hregs, (p.1, g), hp, ht⟩
  | skip i _ _ _ ht => exact ⟨hregs, _, by simp only; omega, ht⟩
  | issue i E =>
    have hlt : p.1 < w + m.width * n := hinside _ rfl
    omega

/-- A record outside the straight-line code shows what the branch did. -/
theorem Before.shows (h : m.Straight M K w n branch) (hs : m.Before M K w n s) {r : Record L I}
    (hstep : m.Step s t (some r)) (houtside : ¬(w < r.pc ∧ r.pc < w + m.width * n)) :
    m.Shows M K w n branch r := by
  obtain ⟨hK, k, g, hk, hkn, hplace⟩ := hs
  cases hstep.turn hplace with
  | other g' r ht hregs hlanes => exact .inl (hlanes _ rfl)
  | issue i E hfetch heffect hexecuted ht =>
    simp only at houtside hfetch
    have hpos : 0 < m.width * k := Nat.mul_pos m.width_pos hk
    have hle : m.width * k ≤ m.width * n := Nat.mul_le_mul_left _ hkn
    have heq : m.width * k = m.width * n := by omega
    rw [heq] at hfetch
    obtain rfl := Option.some.inj (h.branch.symm.trans hfetch)
    exact .inr (.inl ⟨by simp only; omega, s.regs, hK, hexecuted⟩)

theorem Past.shows (hs : m.Past M K w n branch s) {r : Record L I} (hstep : m.Step s t (some r)) :
    m.Shows M K w n branch r := by
  obtain ⟨hregs, p, hp, hplace⟩ := hs
  cases hstep.turn hplace with
  | other g r ht _ hlanes => exact .inl (hlanes _ rfl)
  | issue i E => exact .inr (.inr ⟨by simp only; omega, hregs⟩)

/-- So the first record outside the straight-line code shows it, whatever other groups do. -/
theorem Run.shows (h : m.Straight M K w n branch) {rs pre post : List (Record L I)} {r : Record L I}
    (hrun : m.Run s rs t) (hs : m.Before M K w n s ∨ m.Past M K w n branch s)
    (hrs : rs = pre ++ r :: post) (hinside : ∀ q ∈ pre, w < q.pc ∧ q.pc < w + m.width * n)
    (houtside : ¬(w < r.pc ∧ r.pc < w + m.width * n)) : m.Shows M K w n branch r := by
  induction hrun generalizing pre with
  | nil => cases pre <;> cases hrs
  | silent step rest ih =>
    refine ih ?_ hrs hinside
    rcases hs with hs | hs
    · exact hs.step h step (by simp)
    · exact .inr (hs.step step (by simp))
  | record step rest ih =>
    cases pre with
    | nil =>
      cases hrs
      rcases hs with hs | hs
      · exact hs.shows h step houtside
      · exact hs.shows step
    | cons q pre =>
      obtain ⟨rfl, hrest⟩ := List.cons.inj hrs
      obtain ⟨hq, hinside⟩ := List.forall_mem_cons.mp hinside
      refine ih ?_ hrest hinside
      rcases hs with hs | hs
      · exact hs.step h step (by simpa using hq.2)
      · exact .inr (hs.step step (by simpa using hq.2))

end Machine

end CuTracer.Simt
