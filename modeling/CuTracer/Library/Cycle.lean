import Mathlib.Data.List.PeriodicityLemma

/-! Lists that repeat a cycle. A word is primitive if it is no power of a shorter one; every
long enough factor of a repetition of a primitive word has the word's length as its shortest
period, and begins with a rotation of it. Of the rotations, the least one is the same for
all of them. The last section is a ring buffer, read from its oldest entry on. -/

namespace CuTracer.Cycle

open List (HasPeriod hasPeriod_iff_getElem?)

variable {α : Type*}

/-- The word is no power of a shorter one. -/
def Primitive (c : List α) : Prop :=
  c ≠ [] ∧ ∀ (d : List α) (k : ℕ), c = (List.replicate k d).flatten → k = 1

theorem hasPeriod_iff_drop {w : List α} {p : ℕ} : HasPeriod w p ↔ w.drop p = w.take (w.length - p) := by
  have hprefix : w.drop p <+: w ↔ w.drop p = w.take (w.length - p) := by
    rw [List.prefix_iff_eq_take, List.length_drop]
  rw [← hprefix]
  constructor
  · exact fun h => h.drop_prefix p
  · intro h
    have happend := (List.prefix_append_right_inj (w.take p)).mpr h
    rwa [List.take_append_drop] at happend

/-- A word whose length is a multiple of one of its periods is a power. -/
theorem eq_flatten_of_hasPeriod {g : ℕ} :
    ∀ {k : ℕ} {c : List α}, c.length = k * g → HasPeriod c g →
      c = (List.replicate k (c.take g)).flatten
  | 0, c, hlength, _ => by
    rw [Nat.zero_mul, List.length_eq_zero_iff] at hlength
    rw [hlength]
    rfl
  | k + 1, c, hlength, hperiod => by
    have hrest : (c.drop g).length = k * g := by
      rw [List.length_drop, hlength, Nat.add_mul, Nat.one_mul, Nat.add_sub_cancel]
    have hbehind := hperiod.infix (List.drop_suffix g c).isInfix
    have ih := eq_flatten_of_hasPeriod hrest hbehind
    have hhead : (List.replicate k ((c.drop g).take g)).flatten = (List.replicate k (c.take g)).flatten := by
      cases k with
      | zero => rfl
      | succ k =>
        have hlong : g ≤ (c.drop g).length := by
          rw [hrest, Nat.add_mul]
          omega
        rw [hasPeriod_iff_drop.mp hperiod, List.take_take]
        rw [List.length_drop] at hlong
        rw [Nat.min_eq_left hlong]
    calc c = c.take g ++ c.drop g := (List.take_append_drop g c).symm
      _ = c.take g ++ (List.replicate k (c.take g)).flatten := by rw [← hhead, ← ih]
      _ = (List.replicate (k + 1) (c.take g)).flatten := by
        rw [List.replicate_succ, List.flatten_cons]

/-- A period of a primitive word that divides its length is its length. -/
theorem Primitive.period_eq {c : List α} (h : Primitive c) {g : ℕ} (hdvd : g ∣ c.length)
    (hperiod : HasPeriod c g) : g = c.length := by
  obtain ⟨k, hk⟩ := hdvd
  have hlength : c.length = k * g := by rw [hk, Nat.mul_comm]
  have hone := h.2 _ k (eq_flatten_of_hasPeriod hlength hperiod)
  rw [hlength, hone, Nat.one_mul]

/-- A word without repetitions is primitive. -/
theorem primitive_of_nodup {c : List α} (hne : c ≠ []) (hnodup : c.Nodup) : Primitive c := by
  refine ⟨hne, fun d k hc => ?_⟩
  match k with
  | 0 => exact absurd hc hne
  | 1 => rfl
  | k + 2 =>
    rw [List.replicate_succ, List.replicate_succ, List.flatten_cons, List.flatten_cons] at hc
    rw [hc, List.nodup_append] at hnodup
    have hnil : d = [] := by
      cases d with
      | nil => rfl
      | cons x d => exact absurd rfl (hnodup.2.2 x List.mem_cons_self x (by simp))
    rw [hnil] at hc
    exact absurd (by simpa using hc) hne

/-! ### Factors of a repetition -/

/-- The index of a cycle's place in the factor that starts at `s`. -/
theorem mod_shift {p : ℕ} (s : ℕ) {i : ℕ} (hi : i < p) : (s + (i + (p - s % p))) % p = i := by
  have hp : 0 < p := by omega
  have hmod := Nat.mod_lt s hp
  have hs := Nat.div_add_mod s p
  have hshift : s + (i + (p - s % p)) = p * (s / p + 1) + i := by
    rw [Nat.mul_add, Nat.mul_one]
    omega
  rw [hshift, Nat.mul_add_mod, Nat.mod_eq_of_lt hi]

/-- A period of a factor that is long enough is one of the cycle. -/
theorem hasPeriod_take_of_factor {post : List α} {p s n g : ℕ} (hpost : HasPeriod post p)
    (hfactor : s + n ≤ post.length) (hlong : 2 * p ≤ n) (hgp : g ≤ p)
    (h : HasPeriod ((post.drop s).take n) g) : HasPeriod (post.take p) g := by
  have hlength : ((post.drop s).take n).length = n := by
    rw [List.length_take, List.length_drop]
    omega
  have hcycle : (post.take p).length = p := by
    rw [List.length_take]
    omega
  rw [hasPeriod_iff_getElem?, hlength] at h
  have hat : ∀ i < p, ∀ k, i + k < p →
      ((post.drop s).take n)[i + (p - s % p) + k]? = (post.take p)[i + k]? := by
    intro i hi k hk
    have hmod := Nat.mod_lt s (by omega : 0 < p)
    rw [List.getElem?_take_of_lt (by omega), List.getElem?_drop, List.getElem?_take_of_lt hk,
      ← hpost.getElem?_mod p _ post (by omega),
      show s + (i + (p - s % p) + k) = s + ((i + k) + (p - s % p)) by omega, mod_shift s hk]
  rw [hasPeriod_iff_getElem?, hcycle]
  intro i hi
  have hstart := hat i (by omega) 0 (by omega)
  rw [Nat.add_zero, Nat.add_zero] at hstart
  have hmod := Nat.mod_lt s (by omega : 0 < p)
  rw [← hstart, ← hat i (by omega) g (by omega)]
  exact h (i + (p - s % p)) (by omega)

/-- The shortest period of a factor that is long enough is the length of the cycle. -/
theorem Primitive.le_of_factor {post : List α} {p s n q : ℕ} (hprimitive : Primitive (post.take p))
    (hpost : HasPeriod post p) (hfactor : s + n ≤ post.length) (hlong : 2 * p ≤ n) (hq : 0 < q)
    (h : HasPeriod ((post.drop s).take n) q) : p ≤ q := by
  by_contra hlt
  rw [Nat.not_le] at hlt
  have hlength : ((post.drop s).take n).length = n := by
    rw [List.length_take, List.length_drop]
    omega
  have hp : HasPeriod ((post.drop s).take n) p :=
    hpost.infix ((List.take_prefix n _).isInfix.trans (List.drop_suffix s post).isInfix)
  have hgcd := hp.gcd h (by rw [hlength]; omega)
  have hle : p.gcd q ≤ q := Nat.gcd_le_right p hq
  have hcycle : (post.take p).length = p := by
    rw [List.length_take]
    omega
  have heq := hprimitive.period_eq (hcycle.symm ▸ Nat.gcd_dvd_left p q)
    (hasPeriod_take_of_factor hpost hfactor hlong (by omega) hgcd)
  omega

/-- A factor of the cycle's length is a rotation of the cycle. -/
theorem isRotated_factor {post : List α} {p : ℕ} (hpost : HasPeriod post p) :
    ∀ {s : ℕ}, s + p ≤ post.length → post.take p ~r (post.drop s).take p
  | 0, _ => List.IsRotated.refl _
  | s + 1, hs => by
    refine (isRotated_factor hpost (by omega : s + p ≤ post.length)).trans ⟨1, ?_⟩
    cases p with
    | zero => simp
    | succ p =>
      have hnext : post[s]? = post[s + (p + 1)]? := hasPeriod_iff_getElem?.mp hpost s (by omega)
      rw [List.getElem?_eq_getElem (by omega), List.getElem?_eq_getElem (by omega),
        Option.some.injEq] at hnext
      rw [List.drop_eq_getElem_cons (by omega : s < post.length), List.take_succ_cons,
        List.rotate_cons_succ, List.rotate_zero, hnext]
      have hbound : s + (p + 1) < post.length := by omega
      have hlast : (post.drop (s + 1))[p]? = some post[s + (p + 1)] := by
        rw [List.getElem?_drop, show s + 1 + p = s + (p + 1) by omega]
        exact List.getElem?_eq_getElem _
      rw [List.take_add_one, hlast]
      rfl

/-- A repetition that goes on as its end does still has its period. -/
theorem hasPeriod_concat {l w : List α} {x : α} {p : ℕ} (hl : HasPeriod l p)
    (hw : HasPeriod w p) (hsuffix : w <:+ l ++ [x]) (hp : p < w.length) :
    HasPeriod (l ++ [x]) p := by
  obtain ⟨t, ht⟩ := hsuffix
  have hlength : t.length + w.length = l.length + 1 := by
    rw [← List.length_append, ht, List.length_append, List.length_singleton]
  rw [hasPeriod_iff_getElem?] at hl hw ⊢
  intro i hi
  rw [List.length_append, List.length_singleton] at hi
  by_cases hinside : i < l.length - p
  · rw [List.getElem?_append_left (by omega), List.getElem?_append_left (by omega)]
    exact hl i hinside
  · have hend := hw (i - t.length) (by omega)
    rw [← ht, List.getElem?_append_right (by omega), List.getElem?_append_right (by omega), hend,
      Nat.sub_add_comm (by omega)]

/-! ### The least rotation -/

section Least

variable {β : Type*} [LT β] [DecidableLT β]

/-- The first index in a list whose value is least, by a running comparison. -/
def leastIndex (f : ℕ → β) (start : ℕ) (indices : List ℕ) : ℕ :=
  indices.foldl (fun best r => if f r < f best then r else best) start

theorem not_lt_leastIndex (hasymm : ∀ {a b : β}, a < b → ¬b < a)
    (hnegtrans : ∀ {a b c : β}, ¬a < b → ¬b < c → ¬a < c) (f : ℕ → β) (start : ℕ)
    (indices : List ℕ) : ∀ r ∈ start :: indices, ¬f r < f (leastIndex f start indices) := by
  induction indices generalizing start with
  | nil =>
    intro r hr
    rw [List.mem_singleton.mp hr]
    exact fun h => hasymm h h
  | cons i rest ih =>
    intro r hr
    show ¬f r < f (leastIndex f (if f i < f start then i else start) rest)
    by_cases hless : f i < f start
    · rw [if_pos hless]
      have hbest := ih i
      rcases List.mem_cons.mp hr with rfl | hr
      · exact hnegtrans (hasymm hless) (hbest i List.mem_cons_self)
      · exact hbest r hr
    · rw [if_neg hless]
      have hbest := ih start
      rcases List.mem_cons.mp hr with rfl | hr
      · exact hbest r List.mem_cons_self
      · rcases List.mem_cons.mp hr with rfl | hr
        · exact hnegtrans hless (hbest start List.mem_cons_self)
        · exact hbest r (List.mem_cons_of_mem _ hr)

end Least

section LeastRotation

variable [LT (List α)] [DecidableLT (List α)]

def leastRotation (c : List α) : ℕ := leastIndex c.rotate 0 (List.range' 1 (c.length - 1))

theorem not_rotate_lt (hasymm : ∀ {a b : List α}, a < b → ¬b < a)
    (hnegtrans : ∀ {a b c : List α}, ¬a < b → ¬b < c → ¬a < c) (c : List α) (k : ℕ) :
    ¬c.rotate k < c.rotate (leastRotation c) := by
  by_cases hnil : c = []
  · rw [hnil, List.rotate_nil, List.rotate_nil]
    exact fun h => hasymm h h
  · have hlength := List.length_pos_iff.mpr hnil
    have hmod := Nat.mod_lt k hlength
    rw [← List.rotate_mod]
    refine not_lt_leastIndex hasymm hnegtrans c.rotate 0 _ (k % c.length) ?_
    rw [List.mem_cons, List.mem_range'_1]
    omega

/-- Rotations of one another have the same least rotation. -/
theorem rotate_leastRotation_eq (hasymm : ∀ {a b : List α}, a < b → ¬b < a)
    (hnegtrans : ∀ {a b c : List α}, ¬a < b → ¬b < c → ¬a < c)
    (htotal : ∀ {a b : List α}, ¬a < b → ¬b < a → a = b) {c d : List α} (h : c ~r d) :
    c.rotate (leastRotation c) = d.rotate (leastRotation d) := by
  obtain ⟨n, rfl⟩ := h
  obtain ⟨m, hm⟩ : c.rotate n ~r c := List.IsRotated.symm ⟨n, rfl⟩
  refine htotal ?_ ?_
  · have hleast := not_rotate_lt hasymm hnegtrans (c.rotate n) (m + leastRotation c)
    rwa [← List.rotate_rotate, hm] at hleast
  · rw [List.rotate_rotate]
    exact not_rotate_lt hasymm hnegtrans c _

end LeastRotation

/-! ### A ring buffer -/

/-- Overwriting the oldest entry drops it and appends the new one. -/
theorem rotate_set (l : List α) {h : ℕ} (hh : h < l.length) (x : α) :
    (l.set h x).rotate (h + 1) = (l.rotate h).tail ++ [x] := by
  rw [List.rotate_eq_drop_append_take (by rw [List.length_set]; omega),
    List.rotate_eq_drop_append_take (by omega), List.drop_set, if_pos (by omega), List.take_add_one]
  rw [List.drop_eq_getElem_cons hh]
  simp [List.take_set, hh, List.set_eq_of_length_le]

end CuTracer.Cycle
