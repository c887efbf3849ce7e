import Mathlib.Algebra.BigOperators.Group.List.Basic
import Mathlib.Algebra.GroupWithZero.Nat
import Mathlib.Data.List.GetD

/-! A loop that reads some lists in turn, one item of each in every round, until a state is reached that
stops it or the lists are read. Whatever it does with the items, it reads a row after the other, the last
one perhaps in part, so that no list is read two items further than one that is left unread. -/

namespace CuTracer.RoundRobin

variable {α β σ : Type}

/-- What is left after a round, the state, and whether an item was read. -/
structure Round (α σ : Type) where
  rest : List (List α)
  state : σ
  progress : Bool

section

variable (go stop : σ → Bool) (visit : σ → ℕ → α → σ)

/-- One round over the lists from the `i`-th one on. -/
def round (i : ℕ) : List (List α) → σ → Round α σ
  | [], s => ⟨[], s, false⟩
  | [] :: lists, s =>
    if stop s then ⟨[] :: lists, s, false⟩
    else
      let r := round (i + 1) lists s
      ⟨[] :: r.rest, r.state, r.progress⟩
  | (x :: xs) :: lists, s =>
    if stop s then ⟨(x :: xs) :: lists, s, false⟩
    else
      let r := round (i + 1) lists (visit s i x)
      ⟨xs :: r.rest, r.state, true⟩

theorem sum_round_le (i : ℕ) (lists : List (List α)) (s : σ) :
    ((round stop visit i lists s).rest.map List.length).sum ≤ (lists.map List.length).sum ∧
      ((round stop visit i lists s).progress →
        ((round stop visit i lists s).rest.map List.length).sum < (lists.map List.length).sum) := by
  induction lists generalizing i s with
  | nil => simp [round]
  | cons xs lists ih =>
    cases xs with
    | nil =>
      rw [round]
      split_ifs
      · simp
      · simpa using ih (i + 1) s
    | cons x xs =>
      rw [round]
      split_ifs
      · simp
      · have := (ih (i + 1) (visit s i x)).1
        simp only [List.map_cons, List.sum_cons, List.length_cons]
        omega

/-- Rounds until a state does not go on, or a round reads nothing. -/
def run (lists : List (List α)) (s : σ) : List (List α) × σ :=
  if go s then
    let r := round stop visit 0 lists s
    if r.progress then run r.rest r.state else (r.rest, r.state)
  else (lists, s)
termination_by (lists.map List.length).sum
decreasing_by exact (sum_round_le stop visit 0 lists s).2 ‹_›

def row (i : ℕ) : List (List α) → List (ℕ × α)
  | [] => []
  | [] :: lists => row (i + 1) lists
  | (x :: _) :: lists => (i, x) :: row (i + 1) lists

/-- The items of `k` rows, and of the first `p` lists in the next one. -/
def rows : ℕ → ℕ → List (List α) → List (ℕ × α)
  | 0, p, lists => row 0 (lists.take p)
  | k + 1, p, lists => row 0 lists ++ rows k p (lists.map List.tail)

def reads (k p i : ℕ) : ℕ := if i < p then k + 1 else k

def left : ℕ → ℕ → List (List α) → List (List α)
  | 0, p, lists => (lists.take p).map List.tail ++ lists.drop p
  | k + 1, p, lists => left k p (lists.map List.tail)

/-- How many of the items from the `i`-th list on have a value. -/
def total (f : ℕ → α → Option β) (i : ℕ) : List (List α) → ℕ
  | [] => 0
  | xs :: lists => (xs.filterMap (f i)).length + total f (i + 1) lists

def visitAll (s : σ) (vs : List (ℕ × α)) : σ := vs.foldl (fun s v => visit s v.1 v.2) s

/-- Every item is read in a state that does not stop. -/
def Unstopped : σ → List (ℕ × α) → Prop
  | _, [] => True
  | s, v :: vs => stop s = false ∧ Unstopped (visit s v.1 v.2) vs

end

variable {go stop : σ → Bool} {visit : σ → ℕ → α → σ}

theorem unstopped_append {s : σ} {vs ws : List (ℕ × α)} :
    Unstopped stop visit s (vs ++ ws) ↔
      Unstopped stop visit s vs ∧ Unstopped stop visit (visitAll visit s vs) ws := by
  induction vs generalizing s with
  | nil => simp [Unstopped, visitAll]
  | cons v vs ih => simp only [List.cons_append, Unstopped, ih, and_assoc, visitAll, List.foldl_cons]

theorem visitAll_append (s : σ) (vs ws : List (ℕ × α)) :
    visitAll visit s (vs ++ ws) = visitAll visit (visitAll visit s vs) ws := List.foldl_append

theorem round_spec (stop : σ → Bool) (visit : σ → ℕ → α → σ) (i : ℕ) (lists : List (List α)) (s : σ) : ∃ p ≤ lists.length,
    (round stop visit i lists s).rest = (lists.take p).map List.tail ++ lists.drop p ∧
    (round stop visit i lists s).state = visitAll visit s (row i (lists.take p)) ∧
    Unstopped stop visit s (row i (lists.take p)) ∧
    ((round stop visit i lists s).progress = false → row i (lists.take p) = []) ∧
    (p < lists.length → stop (round stop visit i lists s).state) := by
  induction lists generalizing i s with
  | nil => exact ⟨0, Nat.le_refl _, rfl, rfl, trivial, fun _ => rfl, fun h => absurd h (Nat.lt_irrefl _)⟩
  | cons xs lists ih =>
    by_cases hstop : stop s = true
    · refine ⟨0, Nat.zero_le _, ?_⟩
      cases xs <;> simp [round, hstop, row, visitAll, Unstopped]
    · cases xs with
      | nil =>
        rw [round, if_neg hstop]
        obtain ⟨p, hp, hrest, hstate, hunstopped, hprogress, hend⟩ := ih (i + 1) s
        refine ⟨p + 1, Nat.succ_le_succ hp, ?_, hstate, hunstopped, hprogress, fun h => hend (by simpa using h)⟩
        simp [hrest]
      | cons x xs =>
        rw [round, if_neg hstop]
        obtain ⟨p, hp, hrest, hstate, hunstopped, -, hend⟩ := ih (i + 1) (visit s i x)
        refine ⟨p + 1, Nat.succ_le_succ hp, ?_, hstate, ⟨by simpa using hstop, hunstopped⟩,
          fun h => absurd h (by simp), fun h => hend (by simpa using h)⟩
        simp [hrest]

theorem round_of_stop (i : ℕ) (lists : List (List α)) {s : σ} (h : stop s = true) :
    round stop visit i lists s = ⟨lists, s, false⟩ := by
  match lists with
  | [] => rfl
  | [] :: lists => rw [round, if_pos h]
  | (x :: xs) :: lists => rw [round, if_pos h]

theorem run_of_stop (lists : List (List α)) {s : σ} (h : stop s = true) :
    run go stop visit lists s = (lists, s) := by
  rw [run, round_of_stop 0 lists h]
  split_ifs <;> rfl

theorem nil_of_row_nil {i : ℕ} {lists : List (List α)} (h : row i lists = []) : ∀ xs ∈ lists, xs = [] := by
  induction lists generalizing i with
  | nil => exact fun xs hxs => by cases hxs
  | cons xs lists ih =>
    cases xs with
    | nil => exact List.forall_mem_cons.mpr ⟨rfl, ih h⟩
    | cons x xs => cases h

/-- The items are read row by row until a state stops, or does not go on, or nothing is left. -/
theorem run_spec (go stop : σ → Bool) (visit : σ → ℕ → α → σ) (lists : List (List α)) (s : σ) : ∃ k p,
    (run go stop visit lists s).1 = left k p lists ∧
    (run go stop visit lists s).2 = visitAll visit s (rows k p lists) ∧
    Unstopped stop visit s (rows k p lists) ∧
    (go s = false → rows k p lists = []) ∧
    (go (run go stop visit lists s).2 = false ∨ stop (run go stop visit lists s).2 = true ∨
      ∀ xs ∈ left k p lists, xs = []) := by
  induction lists, s using run.induct go stop visit with
  | case1 lists s hgo r hprogress ih =>
    obtain ⟨p, hp, hrest, hstate, hunstopped, -, hend⟩ := round_spec stop visit 0 lists s
    rw [run, if_pos hgo, if_pos hprogress]
    obtain hlt | rfl := Nat.lt_or_eq_of_le hp
    · rw [run_of_stop _ (hend hlt)]
      exact ⟨0, p, hrest, hstate, hunstopped, fun h => absurd hgo (by simp [h]), .inr (.inl (hend hlt))⟩
    · rw [List.take_length, List.drop_length, List.append_nil] at hrest
      rw [List.take_length] at hstate hunstopped
      change ∃ k p, (run go stop visit (round stop visit 0 lists s).rest _).1 = _ ∧ _ at ih
      rw [hrest, hstate] at ih ⊢
      obtain ⟨k, p, hleft, hstate', hunstopped', -, hend'⟩ := ih
      refine ⟨k + 1, p, hleft, ?_, unstopped_append.mpr ⟨hunstopped, hunstopped'⟩,
        fun h => absurd hgo (by simp [h]), hend'⟩
      exact hstate'.trans (visitAll_append s _ _).symm
  | case2 lists s hgo r hprogress =>
    obtain ⟨p, hp, hrest, hstate, hunstopped, hnil, hend⟩ := round_spec stop visit 0 lists s
    rw [run, if_pos hgo, if_neg hprogress]
    refine ⟨0, p, hrest, hstate, hunstopped, fun h => absurd hgo (by simp [h]), ?_⟩
    obtain hlt | rfl := Nat.lt_or_eq_of_le hp
    · exact .inr (.inl (hend hlt))
    · refine .inr (.inr fun xs hxs => ?_)
      have hrow := hnil (by simpa using hprogress)
      rw [List.take_length] at hrow
      rw [left, List.take_length, List.drop_length, List.append_nil] at hxs
      obtain ⟨ys, hys, rfl⟩ := List.mem_map.mp hxs
      rw [nil_of_row_nil hrow ys hys]
      rfl
  | case3 lists s hgo =>
    rw [run, if_neg hgo]
    exact ⟨0, 0, rfl, rfl, trivial, fun _ => rfl, .inl (by simpa using hgo)⟩

/-! ### What is read of each list -/

theorem le_of_mem_row {o : ℕ} {lists : List (List α)} {v : ℕ × α} (h : v ∈ row o lists) : o ≤ v.1 := by
  induction lists generalizing o with
  | nil => cases h
  | cons xs lists ih =>
    cases xs with
    | nil => exact Nat.le_of_succ_le (ih h)
    | cons x xs =>
      obtain rfl | h := List.mem_cons.mp h
      · exact Nat.le_refl _
      · exact Nat.le_of_succ_le (ih h)

theorem filter_row (o i : ℕ) (lists : List (List α)) :
    (row o lists).filter (fun v => v.1 = o + i) = ((lists.getD i []).take 1).map fun x => (o + i, x) := by
  induction lists generalizing o i with
  | nil => simp [row]
  | cons xs lists ih =>
    have hrest : ∀ i, (row (o + 1) lists).filter (fun v => v.1 = o + (i + 1)) =
        ((lists.getD i []).take 1).map fun x => (o + (i + 1), x) := by
      intro i
      have h := ih (o + 1) i
      rwa [Nat.add_assoc, Nat.add_comm 1 i] at h
    have hzero : (row (o + 1) lists).filter (fun v => v.1 = o) = [] := by
      refine List.filter_eq_nil_iff.mpr fun v hv => ?_
      have := le_of_mem_row hv
      simp only [decide_eq_true_eq]
      omega
    cases xs <;> cases i <;> simp [row, hrest, hzero]

theorem reads_le (k p i j : ℕ) : reads k p i ≤ reads k p j + 1 := by
  unfold reads
  split_ifs <;> omega

theorem filter_rows (k p i : ℕ) (lists : List (List α)) :
    (rows k p lists).filter (fun v => v.1 = i) =
      ((lists.getD i []).take (reads k p i)).map fun x => (i, x) := by
  induction k generalizing lists with
  | zero =>
    have h := filter_row 0 i (lists.take p)
    rw [Nat.zero_add] at h
    rw [rows, h, reads]
    split_ifs with hi
    · simp [List.getD, hi]
    · have hnone : (lists.take p)[i]? = none := by
        rw [List.getElem?_take, if_neg hi]
      simp [List.getD, hnone]
  | succ k ih =>
    have h := filter_row 0 i lists
    rw [Nat.zero_add] at h
    have hreads : reads (k + 1) p i = reads k p i + 1 := by unfold reads; split_ifs <;> rfl
    rw [rows, List.filter_append, h, ih, hreads, ← List.map_append]
    congr 1
    have htail : (lists.map List.tail).getD i [] = (lists.getD i []).tail := by
      cases hget : lists[i]? <;> simp [List.getD, hget]
    rw [htail]
    cases lists.getD i [] <;> simp

/-! ### How much is read -/

variable (f : ℕ → α → Option β)

theorem total_append (i : ℕ) (xs ys : List (List α)) :
    total f i (xs ++ ys) = total f i xs + total f (i + xs.length) ys := by
  induction xs generalizing i with
  | nil => simp [total]
  | cons x xs ih =>
    have hindex : i + (xs.length + 1) = i + 1 + xs.length := by omega
    rw [List.cons_append, total, total, ih, List.length_cons, hindex, ← Nat.add_assoc]

theorem total_row (i : ℕ) (lists : List (List α)) :
    ((row i lists).filterMap fun v => f v.1 v.2).length + total f i (lists.map List.tail) = total f i lists := by
  induction lists generalizing i with
  | nil => rfl
  | cons xs lists ih =>
    have := ih (i + 1)
    cases xs with
    | nil => simpa [row, total] using this
    | cons x xs =>
      rw [row, List.map_cons, total, total, List.tail_cons, List.filterMap_cons, List.filterMap_cons]
      cases f i x <;> simp only [List.length_cons] <;> omega

theorem total_rows (k p : ℕ) (lists : List (List α)) :
    ((rows k p lists).filterMap fun v => f v.1 v.2).length + total f 0 (left k p lists) = total f 0 lists := by
  induction k generalizing lists with
  | zero =>
    have hrow := total_row f 0 (lists.take p)
    have hsplit := total_append f 0 (lists.take p) (lists.drop p)
    rw [List.take_append_drop] at hsplit
    rw [rows, left, total_append, List.length_map, ← Nat.add_assoc, hrow, hsplit]
  | succ k ih =>
    have hrow := total_row f 0 lists
    have hrest := ih (lists.map List.tail)
    rw [rows, left, List.filterMap_append, List.length_append]
    omega

theorem total_of_nil {i : ℕ} {lists : List (List α)} (h : ∀ xs ∈ lists, xs = []) : total f i lists = 0 := by
  induction lists generalizing i with
  | nil => rfl
  | cons xs lists ih =>
    obtain ⟨rfl, hrest⟩ := List.forall_mem_cons.mp h
    rw [total, ih hrest]
    rfl

end CuTracer.RoundRobin
