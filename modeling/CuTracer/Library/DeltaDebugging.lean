import Mathlib.Data.List.Flatten
import Mathlib.Data.List.InsertIdx
import Mathlib.Data.List.Nodup
import Mathlib.Tactic.Ring

/-! Delta debugging over an arbitrary element type. A state is a list that
passes a test together with a granularity; one narrowing step replaces the list
by its first passing piece, or by the first passing complement of a piece, or
makes the pieces smaller. Every step keeps the list passing and makes it smaller
or the pieces finer, and a state without a step is either a list of at most one
element or passes no longer when any single element is left out. Nothing is
assumed about the test: in particular it need not be monotone. -/

namespace CuTracer.DeltaDebugging

variable {α : Type*}

/-! ### Pieces and complements -/

/-- Cut a list into pieces of `k` consecutive elements; the last may be shorter. -/
def pieces (k : ℕ) (l : List α) : List (List α) :=
  (List.range ((l.length + (k - 1)) / k)).map fun i => (l.drop (i * k)).take k

/-- For each piece, everything but that piece. -/
def complements (cs : List (List α)) : List (List α) :=
  (List.range cs.length).map fun i => (cs.eraseIdx i).flatten

@[simp] theorem pieces_nil (k : ℕ) : pieces k ([] : List α) = [] := by
  rcases k with _ | k
  · simp [pieces]
  · simp [pieces]

theorem pieces_of_ne_nil {k : ℕ} (hk : 0 < k) {l : List α} (hl : l ≠ []) :
    pieces k l = l.take k :: pieces k (l.drop k) := by
  have hpos : 0 < l.length := List.length_pos_iff.mpr hl
  have hcount : (l.length + (k - 1)) / k = ((l.drop k).length + (k - 1)) / k + 1 := by
    rw [List.length_drop]
    by_cases h : k ≤ l.length
    · rw [← Nat.add_div_right _ hk]
      congr 1; omega
    · rw [show l.length - k + (k - 1) = k - 1 by omega, Nat.div_eq_of_lt (show k - 1 < k by omega)]
      exact Nat.div_eq_of_lt_le (by omega) (by omega)
  simp only [pieces, hcount, List.range_succ_eq_map, List.map_cons, List.map_map, zero_mul,
    List.drop_zero]
  congr 1
  apply List.map_congr_left
  intro i _
  simp only [Function.comp, List.drop_drop]
  congr 2
  rw [Nat.succ_mul, add_comm]

theorem flatten_pieces {k : ℕ} (hk : 0 < k) (l : List α) : (pieces k l).flatten = l := by
  induction h : l.length using Nat.strong_induction_on generalizing l with
  | _ m ih =>
    by_cases hl : l = []
    · simp [hl]
    · have hpos : 0 < l.length := List.length_pos_iff.mpr hl
      rw [pieces_of_ne_nil hk hl, List.flatten_cons,
        ih (l.drop k).length (by simp; omega) _ rfl, List.take_append_drop]

theorem pieces_one (l : List α) : pieces 1 l = l.map fun x => [x] := by
  induction l with
  | nil => simp
  | cons x l ih =>
    rw [pieces_of_ne_nil one_pos (by simp), List.drop_one, List.tail_cons, ih]
    rfl

theorem length_of_mem_pieces {k : ℕ} {l c : List α} (h : c ∈ pieces k l) : c.length ≤ k := by
  simp only [pieces, List.mem_map] at h
  obtain ⟨i, -, rfl⟩ := h
  simp

theorem ne_nil_of_mem_pieces {k : ℕ} (hk : 0 < k) {l c : List α} (h : c ∈ pieces k l) : c ≠ [] := by
  simp only [pieces, List.mem_map, List.mem_range] at h
  obtain ⟨i, hi, rfl⟩ := h
  have h1 : (i + 1) * k ≤ l.length + (k - 1) := (Nat.le_div_iff_mul_le hk).mp hi
  rw [Nat.succ_mul] at h1
  apply List.ne_nil_of_length_pos
  simp only [List.length_take, List.length_drop]
  omega

theorem sublist_of_mem_pieces {k : ℕ} (hk : 0 < k) {l c : List α} (h : c ∈ pieces k l) :
    c.Sublist l := by
  have := List.sublist_flatten_of_mem h
  rwa [flatten_pieces hk] at this

theorem sublist_of_mem_complements {k : ℕ} (hk : 0 < k) {l c : List α}
    (h : c ∈ complements (pieces k l)) : c.Sublist l := by
  simp only [complements, List.mem_map] at h
  obtain ⟨i, -, rfl⟩ := h
  have := (List.eraseIdx_sublist (pieces k l) i).flatten
  rwa [flatten_pieces hk] at this

theorem length_flatten_eraseIdx (cs : List (List α)) {i : ℕ} (hi : i < cs.length) :
    (cs.eraseIdx i).flatten.length + cs[i].length = cs.flatten.length := by
  induction cs generalizing i with
  | nil => simp at hi
  | cons c cs ih =>
    cases i with
    | zero => simp [add_comm]
    | succ i =>
      have := ih (i := i) (by simpa using hi)
      simp only [List.eraseIdx_cons_succ, List.flatten_cons, List.length_append,
        List.getElem_cons_succ]
      omega

theorem length_of_mem_complements {k : ℕ} (hk : 0 < k) {l c : List α}
    (h : c ∈ complements (pieces k l)) : c.length < l.length ∧ l.length ≤ c.length + k := by
  simp only [complements, List.mem_map, List.mem_range] at h
  obtain ⟨i, hi, rfl⟩ := h
  have hlen := length_flatten_eraseIdx (pieces k l) hi
  rw [flatten_pieces hk] at hlen
  have hpos := List.length_pos_iff.mpr (ne_nil_of_mem_pieces hk (List.getElem_mem hi))
  have hle := length_of_mem_pieces (List.getElem_mem hi)
  omega

/-- With pieces of one element, the complements are the lists with one element
left out. -/
theorem eraseIdx_mem_complements (l : List α) {i : ℕ} (hi : i < l.length) :
    l.eraseIdx i ∈ complements (pieces 1 l) := by
  simp only [complements, pieces_one, List.mem_map, List.mem_range, List.length_map]
  refine ⟨i, hi, ?_⟩
  rw [List.eraseIdx_map]
  induction l.eraseIdx i with
  | nil => rfl
  | cons x xs ih => simpa using ih

/-! ### Narrowing -/

/-- The length of the pieces a list is cut into at granularity `n`. -/
def pieceLength (l : List α) (n : ℕ) : ℕ := max 1 (l.length / min n l.length)

theorem pieceLength_pos (l : List α) (n : ℕ) : 0 < pieceLength l n := by
  simp [pieceLength]

theorem pieceLength_lt {l : List α} {n : ℕ} (hl : 1 < l.length) (hn : 2 ≤ n) :
    pieceLength l n < l.length := by
  have h2 : 2 ≤ min n l.length := by omega
  have : l.length / min n l.length ≤ l.length / 2 := Nat.div_le_div_left h2 (by omega)
  simp only [pieceLength]
  omega

/-- One narrowing step from a list and its granularity, if there is one. -/
def narrow (P : List α → Bool) (s : List α × ℕ) : Option (List α × ℕ) :=
  if s.1.length ≤ 1 then none
  else
    let cs := pieces (pieceLength s.1 s.2) s.1
    match cs.find? P with
    | some c => some (c, 2)
    | none =>
      match (complements cs).find? P with
      | some c => some (c, max (min s.2 s.1.length - 1) 2)
      | none =>
        if min s.2 s.1.length < s.1.length then
          some (s.1, min (2 * min s.2 s.1.length) s.1.length)
        else none

/-- The states of a search, one narrowing step apart. -/
def Narrows (P : List α → Bool) (s s' : List α × ℕ) : Prop := narrow P s = some s'

variable {P : List α → Bool}

/-- Everything a narrowing step can do. -/
theorem narrow_cases {l l' : List α} {n n' : ℕ} (h : narrow P (l, n) = some (l', n')) :
    1 < l.length ∧
      ((l' ∈ pieces (pieceLength l n) l ∧ P l' = true ∧ n' = 2) ∨
        (l' ∈ complements (pieces (pieceLength l n) l) ∧ P l' = true ∧
          n' = max (min n l.length - 1) 2) ∨
        (l' = l ∧ n < l.length ∧ n' = min (2 * n) l.length)) := by
  by_cases h1 : l.length ≤ 1
  · simp [narrow, h1] at h
  simp only [narrow, if_neg h1] at h
  refine ⟨by omega, ?_⟩
  split at h
  next c hc =>
    simp only [Option.some.injEq, Prod.mk.injEq] at h
    obtain ⟨rfl, rfl⟩ := h
    exact .inl ⟨List.mem_of_find?_eq_some hc, List.find?_some hc, rfl⟩
  next =>
    split at h
    next c hc =>
      simp only [Option.some.injEq, Prod.mk.injEq] at h
      obtain ⟨rfl, rfl⟩ := h
      exact .inr (.inl ⟨List.mem_of_find?_eq_some hc, List.find?_some hc, rfl⟩)
    next =>
      split_ifs at h with h2
      simp only [Option.some.injEq, Prod.mk.injEq] at h
      obtain ⟨rfl, rfl⟩ := h
      have hn : min n l.length = n := by omega
      rw [hn] at h2 ⊢
      exact .inr (.inr ⟨rfl, h2, rfl⟩)

/-- What one step preserves: the list stays an order-preserving part of the
original, keeps passing, and the granularity stays at least two. -/
theorem narrow_keeps {l l' : List α} {n n' : ℕ} (hn : 2 ≤ n) (hP : P l = true)
    (h : narrow P (l, n) = some (l', n')) : l'.Sublist l ∧ P l' = true ∧ 2 ≤ n' := by
  obtain ⟨h1, ⟨hm, hp, rfl⟩ | ⟨hm, hp, rfl⟩ | ⟨rfl, hlt, rfl⟩⟩ := narrow_cases h
  · exact ⟨sublist_of_mem_pieces (pieceLength_pos l n) hm, hp, le_rfl⟩
  · exact ⟨sublist_of_mem_complements (pieceLength_pos l n) hm, hp, le_max_right _ _⟩
  · exact ⟨List.Sublist.refl _, hP, by omega⟩

/-- No step removes everything. -/
theorem narrow_ne_nil {l l' : List α} {n n' : ℕ} (hn : 2 ≤ n)
    (h : narrow P (l, n) = some (l', n')) : l' ≠ [] := by
  obtain ⟨h1, ⟨hm, -, -⟩ | ⟨hm, -, -⟩ | ⟨rfl, -, -⟩⟩ := narrow_cases h
  · exact ne_nil_of_mem_pieces (pieceLength_pos l n) hm
  · have := (length_of_mem_complements (pieceLength_pos l n) hm).2
    have := pieceLength_lt h1 hn
    exact List.ne_nil_of_length_pos (by omega)
  · exact List.ne_nil_of_length_pos (by omega)

/-- A list of at least two elements without a step is one-minimal. -/
theorem narrow_eq_none {l : List α} {n : ℕ} (h : narrow P (l, n) = none) (hl : 1 < l.length) {i : ℕ}
    (hi : i < l.length) : P (l.eraseIdx i) = false := by
  simp only [narrow, if_neg (show ¬ l.length ≤ 1 by omega)] at h
  split at h
  · contradiction
  · split at h
    · contradiction
    next hc =>
      split_ifs at h with h2
      have hone : pieceLength l n = 1 := by
        rw [pieceLength, show min n l.length = l.length by omega, Nat.div_self (by omega)]
        rfl
      rw [hone] at hc
      simpa using List.find?_eq_none.mp hc _ (eraseIdx_mem_complements l hi)

/-- What a whole search preserves. -/
theorem narrows_keeps {s s' : List α × ℕ} (h : Relation.ReflTransGen (Narrows P) s s')
    (hn : 2 ≤ s.2) (hP : P s.1 = true) :
    s'.1.Sublist s.1 ∧ P s'.1 = true ∧ 2 ≤ s'.2 ∧ (s.1 ≠ [] → s'.1 ≠ []) := by
  induction h with
  | refl => exact ⟨List.Sublist.refl _, hP, hn, id⟩
  | tail _ hstep ih =>
    obtain ⟨h1, h2, h3⟩ := narrow_keeps ih.2.2.1 ih.2.1 hstep
    exact ⟨h1.trans ih.1, h2, h3, fun _ => narrow_ne_nil ih.2.2.1 hstep⟩

/-- Steps are deterministic, so a search that has come to its end passed through
every state the search can reach. -/
theorem narrows_to_end {s t e : List α × ℕ} (hs : Relation.ReflTransGen (Narrows P) s t)
    (he : Relation.ReflTransGen (Narrows P) s e) (hend : narrow P e = none) :
    Relation.ReflTransGen (Narrows P) t e := by
  induction hs with
  | refl => exact he
  | tail _ hstep ih =>
    rcases Relation.ReflTransGen.cases_head ih with rfl | ⟨u, hu, hrest⟩
    · simp [Narrows, hend] at hstep
    · have : some u = some _ := hu.symm.trans hstep
      cases this
      exact hrest

end CuTracer.DeltaDebugging
