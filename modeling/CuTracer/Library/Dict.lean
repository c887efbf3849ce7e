import Mathlib.Algebra.GroupWithZero.Nat
import Mathlib.Data.List.Nodup

/-! Dictionaries that remember insertion order. The entries are a list whose
keys do not repeat; a new key goes to the end, an old key keeps its place. The
two facts used everywhere are that `upsert` changes the value of its own key
only, and that `get?` and membership in `entries` say the same. -/

namespace CuTracer

structure Dict (κ ν : Type*) where
  entries : List (κ × ν)
  nodup : (entries.map Prod.fst).Nodup

namespace Dict

variable {κ ν : Type*}

@[ext] theorem ext {d e : Dict κ ν} (h : d.entries = e.entries) : d = e := by
  cases d; cases e; simpa using h

def empty : Dict κ ν := ⟨[], List.nodup_nil⟩

def keys (d : Dict κ ν) : List κ := d.entries.map Prod.fst

def values (d : Dict κ ν) : List ν := d.entries.map Prod.snd

theorem keys_nodup (d : Dict κ ν) : d.keys.Nodup := d.nodup

/-- Rewrite every value, given its key; the keys and their order stay. -/
def mapValues {μ : Type*} (f : κ → ν → μ) (d : Dict κ ν) : Dict κ μ where
  entries := d.entries.map fun e => (e.1, f e.1 e.2)
  nodup := by simpa [List.map_map, Function.comp_def] using d.nodup

@[simp] theorem keys_mapValues {μ : Type*} (f : κ → ν → μ) (d : Dict κ ν) :
    (d.mapValues f).keys = d.keys := by
  simp [keys, mapValues, Function.comp_def]

theorem mem_values_mapValues {μ : Type*} {f : κ → ν → μ} {d : Dict κ ν} {v : μ} :
    v ∈ (d.mapValues f).values ↔ ∃ e ∈ d.entries, f e.1 e.2 = v := by
  simp [values, mapValues]

def filter (d : Dict κ ν) (p : κ → ν → Bool) : Dict κ ν where
  entries := d.entries.filter fun e => p e.1 e.2
  nodup := d.nodup.sublist (List.filter_sublist.map Prod.fst)

variable {d : Dict κ ν}

theorem mem_filter {p : κ → ν → Bool} {e : κ × ν} :
    e ∈ (d.filter p).entries ↔ e ∈ d.entries ∧ p e.1 e.2 = true := List.mem_filter

variable [DecidableEq κ]

/-- The value of the first entry with the key. -/
def lookup (k : κ) : List (κ × ν) → Option ν
  | [] => none
  | e :: es => if e.1 = k then some e.2 else lookup k es

def get? (d : Dict κ ν) (k : κ) : Option ν := lookup k d.entries

/-- Replace the entry of a key, or append one. -/
def upsertEntries (k : κ) (f : Option ν → ν) : List (κ × ν) → List (κ × ν)
  | [] => [(k, f none)]
  | e :: es => if e.1 = k then (k, f (some e.2)) :: es else e :: upsertEntries k f es

theorem map_fst_upsertEntries (k : κ) (f : Option ν → ν) (es : List (κ × ν)) :
    (upsertEntries k f es).map Prod.fst =
      if k ∈ es.map Prod.fst then es.map Prod.fst else es.map Prod.fst ++ [k] := by
  induction es with
  | nil => rfl
  | cons e es ih =>
    by_cases h : e.1 = k
    · simp [upsertEntries, h]
    · have h' : k ≠ e.1 := fun he => h he.symm
      by_cases hm : k ∈ es.map Prod.fst <;>
        simp only [upsertEntries, if_neg h, List.map_cons, ih, hm, List.mem_cons, h', false_or,
          if_true, if_false, List.cons_append]

/-- Set the value of `k` to `f` of its current value, as `d[k] = f(d.get(k))`. -/
def upsert (d : Dict κ ν) (k : κ) (f : Option ν → ν) : Dict κ ν where
  entries := upsertEntries k f d.entries
  nodup := by
    rw [map_fst_upsertEntries]
    split_ifs with h
    · exact d.nodup
    · exact List.nodup_append.mpr ⟨d.nodup, List.nodup_singleton k, by
        rintro a ha b hb rfl
        rw [List.mem_singleton] at hb
        exact h (hb ▸ ha)⟩

def insert (d : Dict κ ν) (k : κ) (v : ν) : Dict κ ν := d.upsert k fun _ => v

theorem keys_upsert (d : Dict κ ν) (k : κ) (f : Option ν → ν) :
    (d.upsert k f).keys = if k ∈ d.keys then d.keys else d.keys ++ [k] :=
  map_fst_upsertEntries k f d.entries

theorem mem_keys_upsert (d : Dict κ ν) (k k' : κ) (f : Option ν → ν) :
    k' ∈ (d.upsert k f).keys ↔ k' = k ∨ k' ∈ d.keys := by
  rw [keys_upsert]
  split_ifs with h
  · constructor
    · exact Or.inr
    · rintro (rfl | h')
      · exact h
      · exact h'
  · simp [or_comm]

variable {k : κ} {es : List (κ × ν)}

theorem mem_upsertEntries {f : Option ν → ν} {e : κ × ν} (h : e ∈ upsertEntries k f es) :
    e ∈ es ∨ ∃ old, e = (k, f old) := by
  induction es with
  | nil => exact .inr ⟨none, List.mem_singleton.mp h⟩
  | cons x es ih =>
    unfold upsertEntries at h
    split_ifs at h with hx
    · rcases List.mem_cons.mp h with rfl | h
      · exact .inr ⟨some x.2, rfl⟩
      · exact .inl (List.mem_cons_of_mem x h)
    · rcases List.mem_cons.mp h with rfl | h
      · exact .inl List.mem_cons_self
      · exact (ih h).imp_left (List.mem_cons_of_mem x)

theorem lookup_upsertEntries (k k' : κ) (f : Option ν → ν) (es : List (κ × ν)) :
    lookup k' (upsertEntries k f es) =
      if k' = k then some (f (lookup k es)) else lookup k' es := by
  induction es with
  | nil =>
    by_cases h : k' = k
    · simp [upsertEntries, lookup, h]
    · simp [upsertEntries, lookup, h, Ne.symm h]
  | cons e es ih =>
    by_cases he : e.1 = k
    · by_cases h : k' = k
      · simp [upsertEntries, lookup, he, h]
      · simp [upsertEntries, lookup, he, h, Ne.symm h]
    · by_cases h : k' = k
      · subst h; simp [upsertEntries, lookup, he, ih]
      · simp only [upsertEntries, if_neg he, lookup, ih, if_neg h]

@[simp] theorem get?_empty (k : κ) : (empty : Dict κ ν).get? k = none := rfl

theorem get?_upsert (d : Dict κ ν) (k k' : κ) (f : Option ν → ν) :
    (d.upsert k f).get? k' = if k' = k then some (f (d.get? k)) else d.get? k' :=
  lookup_upsertEntries k k' f d.entries

@[simp] theorem get?_upsert_self (d : Dict κ ν) (k : κ) (f : Option ν → ν) :
    (d.upsert k f).get? k = some (f (d.get? k)) := by simp [get?_upsert]

theorem get?_upsert_of_ne (d : Dict κ ν) {k k' : κ} (f : Option ν → ν) (h : k' ≠ k) :
    (d.upsert k f).get? k' = d.get? k' := by simp [get?_upsert, h]

theorem mem_of_lookup {v : ν} (h : lookup k es = some v) : (k, v) ∈ es := by
  induction es with
  | nil => simp [lookup] at h
  | cons e es ih =>
    unfold lookup at h
    split_ifs at h with he
    · cases h
      simp [← he]
    · exact List.mem_cons_of_mem e (ih h)

/-- Tables that relate entry by entry, under equal keys, relate what they look up. -/
theorem lookup_forall₂ {μ : Type*} {R : ν → μ → Prop} {fs : List (κ × μ)}
    (h : List.Forall₂ (fun e f => e.1 = f.1 ∧ R e.2 f.2) es fs) {v : ν}
    (hv : lookup k es = some v) : ∃ w, lookup k fs = some w ∧ R v w := by
  induction h with
  | nil => simp [lookup] at hv
  | @cons e f es fs hef _ ih =>
    unfold lookup at hv ⊢
    rw [← hef.1]
    split_ifs at hv ⊢ with hk
    · cases hv
      exact ⟨f.2, rfl, hef.2⟩
    · exact ih hv

theorem lookup_eq_some_iff (h : (es.map Prod.fst).Nodup) (k : κ) (v : ν) :
    lookup k es = some v ↔ (k, v) ∈ es := by
  induction es with
  | nil => simp [lookup]
  | cons e es ih =>
    rw [List.map_cons, List.nodup_cons] at h
    obtain ⟨hn, ht⟩ := h
    by_cases he : e.1 = k
    · have hk : (k, v) ∉ es := fun hm => hn (he ▸ List.mem_map.mpr ⟨_, hm, rfl⟩)
      obtain ⟨a, b⟩ := e
      simp only at he
      subst he
      simp [lookup, hk, eq_comm]
    · have : (k, v) ≠ e := fun h => he (by rw [← h])
      simp [lookup, he, ih ht, this]

theorem get?_eq_some_iff (d : Dict κ ν) (k : κ) (v : ν) : d.get? k = some v ↔ (k, v) ∈ d.entries :=
  lookup_eq_some_iff d.nodup k v

theorem mem_keys_iff (d : Dict κ ν) (k : κ) : k ∈ d.keys ↔ ∃ v, d.get? k = some v := by
  simp [keys, get?_eq_some_iff]

theorem mem_values_iff (d : Dict κ ν) (v : ν) : v ∈ d.values ↔ ∃ k, d.get? k = some v := by
  simp [values, get?_eq_some_iff]

theorem get?_eq_none_iff (d : Dict κ ν) (k : κ) : d.get? k = none ↔ k ∉ d.keys := by
  rw [mem_keys_iff, Option.eq_none_iff_forall_not_mem]
  simp

theorem get?_mapValues {μ : Type*} (d : Dict κ ν) (f : κ → ν → μ) (k : κ) :
    (d.mapValues f).get? k = (d.get? k).map (f k) := by
  ext v
  rw [get?_eq_some_iff, Option.map_eq_some_iff]
  simp only [get?_eq_some_iff, mapValues, List.mem_map, Prod.mk.injEq, Prod.exists]
  constructor
  · rintro ⟨k', w, hmem, rfl, rfl⟩
    exact ⟨w, hmem, rfl⟩
  · rintro ⟨w, hmem, rfl⟩
    exact ⟨k, w, hmem, rfl, rfl⟩

theorem upsertEntries_upsertEntries (k : κ) (f g : Option ν → ν) (es : List (κ × ν)) :
    upsertEntries k g (upsertEntries k f es) = upsertEntries k (fun v => g (some (f v))) es := by
  induction es with
  | nil => simp [upsertEntries]
  | cons e es ih =>
    by_cases h : e.1 = k
    · simp [upsertEntries, h]
    · simp [upsertEntries, h, ih]

theorem upsert_upsert (d : Dict κ ν) (k : κ) (f g : Option ν → ν) :
    (d.upsert k f).upsert k g = d.upsert k fun v => g (some (f v)) :=
  ext (upsertEntries_upsertEntries k f g d.entries)

theorem mem_keys_of_get? {v : ν} (h : d.get? k = some v) : k ∈ d.keys :=
  (d.mem_keys_iff k).mpr ⟨v, h⟩

theorem get?_insert (d : Dict κ ν) (k k' : κ) (v : ν) :
    (d.insert k v).get? k' = if k' = k then some v else d.get? k' := d.get?_upsert k k' _

theorem mem_keys_insert (d : Dict κ ν) (k k' : κ) (v : ν) :
    k' ∈ (d.insert k v).keys ↔ k' = k ∨ k' ∈ d.keys := d.mem_keys_upsert k k' _

theorem get?_filter {p : κ → ν → Bool} {v : ν} :
    (d.filter p).get? k = some v ↔ d.get? k = some v ∧ p k v = true := by
  rw [get?_eq_some_iff, get?_eq_some_iff, mem_filter]

theorem mem_keys_filter {p : κ → ν → Bool} :
    k ∈ (d.filter p).keys ↔ ∃ v, d.get? k = some v ∧ p k v = true := by
  simp only [mem_keys_iff, get?_filter]

/-- Erasing a key leaves the other keys. -/
theorem get?_erase (d : Dict κ ν) (k k' : κ) :
    (d.filter fun k'' _ => k'' ≠ k).get? k' = if k' = k then none else d.get? k' := by
  ext v
  rw [get?_filter]
  by_cases h : k' = k <;> simp [h]

/-- The values without a key are the others. -/
theorem values_erase_perm {v : ν} (h : d.get? k = some v) :
    d.values.Perm (v :: (d.filter fun k' _ => k' ≠ k).values) := by
  obtain ⟨entries, hnodup⟩ := d
  change lookup k entries = some v at h
  change (entries.map Prod.snd).Perm (v :: (entries.filter fun e => e.1 ≠ k).map Prod.snd)
  induction entries with
  | nil => cases h
  | cons e es ih =>
    rw [List.map_cons, List.nodup_cons] at hnodup
    rw [lookup] at h
    by_cases hk : e.1 = k
    · rw [if_pos hk] at h
      have hothers : ∀ e' ∈ es, e'.1 ≠ k := fun e' he' heq =>
        hnodup.1 (List.mem_map.mpr ⟨e', he', heq.trans hk.symm⟩)
      rw [List.filter_cons_of_neg (by simp [hk]), List.filter_eq_self.mpr (by simpa using hothers),
        List.map_cons, Option.some.inj h]
    · rw [if_neg hk] at h
      rw [List.filter_cons_of_pos (by simp [hk]), List.map_cons, List.map_cons]
      exact ((ih hnodup.2 h).cons _).trans (.swap _ _ _)

theorem filter_flatMap_lookup {α : Type*} (h : (es.map Prod.fst).Nodup) (f : κ × ν → List α)
    (p : α → Bool) (k : κ) (hp : ∀ e, (f e).filter p = if e.1 = k then f e else []) :
    (es.flatMap f).filter p = (lookup k es).elim [] fun v => f (k, v) := by
  induction es with
  | nil => rfl
  | cons e es ih =>
    rw [List.map_cons, List.nodup_cons] at h
    have hrest := ih h.2
    rw [List.flatMap_cons, List.filter_append, hp, hrest, lookup]
    by_cases he : e.1 = k
    · have hnone : lookup k es = none := by
        rw [Option.eq_none_iff_forall_not_mem]
        intro v hv
        exact h.1 (he ▸ List.mem_map.mpr ⟨_, mem_of_lookup hv, rfl⟩)
      rw [if_pos he, if_pos he, hnone]
      simp [← he]
    · rw [if_neg he, if_neg he]
      rfl

/-- Of what all entries give, what belongs to one key is what its own entry gives. -/
theorem filter_flatMap_entries {α : Type*} (d : Dict κ ν) (f : κ × ν → List α) (p : α → Bool) (k : κ)
    (hp : ∀ e, (f e).filter p = if e.1 = k then f e else []) :
    (d.entries.flatMap f).filter p = (d.get? k).elim [] fun v => f (k, v) :=
  filter_flatMap_lookup d.nodup f p k hp

/-! ### Sums over the values -/

section Sum

variable (g : ν → ℕ)

theorem sum_upsertEntries (k : κ) (f : Option ν → ν) (es : List (κ × ν)) :
    ((upsertEntries k f es).map fun e => g e.2).sum + ((lookup k es).map g).getD 0 =
      (es.map fun e => g e.2).sum + g (f (lookup k es)) := by
  induction es with
  | nil => simp [upsertEntries, lookup]
  | cons e es ih =>
    by_cases he : e.1 = k
    · simp only [upsertEntries, lookup, if_pos he, List.map_cons, List.sum_cons, Option.map_some,
        Option.getD_some]
      omega
    · simp only [upsertEntries, lookup, if_neg he, List.map_cons, List.sum_cons]
      omega

/-- Setting a value takes the old one out of a sum over the values. -/
theorem sum_insert (d : Dict κ ν) (k : κ) (v : ν) :
    ((d.insert k v).values.map g).sum + ((d.get? k).map g).getD 0 = (d.values.map g).sum + g v := by
  rw [values, values, List.map_map, List.map_map]
  exact sum_upsertEntries g k (fun _ => v) d.entries

theorem sum_filter_ne {es : List (κ × ν)} (h : (es.map Prod.fst).Nodup) (k : κ) :
    ((es.filter fun e => e.1 ≠ k).map fun e => g e.2).sum + ((lookup k es).map g).getD 0 =
      (es.map fun e => g e.2).sum := by
  induction es with
  | nil => rfl
  | cons e es ih =>
    rw [List.map_cons, List.nodup_cons] at h
    have hrest := ih h.2
    by_cases he : e.1 = k
    · have hnone : lookup k es = none := by
        rw [Option.eq_none_iff_forall_not_mem]
        intro v hv
        exact h.1 (he ▸ List.mem_map.mpr ⟨_, mem_of_lookup hv, rfl⟩)
      rw [hnone] at hrest
      rw [List.filter_cons_of_neg (by simpa using he), lookup, if_pos he, List.map_cons, List.sum_cons,
        ← hrest]
      simp [Nat.add_comm]
    · rw [List.filter_cons_of_pos (by simpa using he), lookup, if_neg he, List.map_cons, List.map_cons,
        List.sum_cons, List.sum_cons, Nat.add_assoc, hrest]

/-- Erasing a key takes its value out of a sum over the values. -/
theorem sum_erase (d : Dict κ ν) (k : κ) :
    ((d.filter fun k' _ => k' ≠ k).values.map g).sum + ((d.get? k).map g).getD 0 =
      (d.values.map g).sum := by
  rw [values, values, List.map_map, List.map_map]
  exact sum_filter_ne g d.nodup k

end Sum

/-! ### Dictionaries built by a loop -/

section Loop

variable {α : Type*} (key : α → κ) (f : α → Option ν → ν)

/-- After a loop of updates, a key has the updates of the elements with that key. -/
theorem get?_foldl_upsert (xs : List α) (d : Dict κ ν) (k : κ) :
    (xs.foldl (fun d x => d.upsert (key x) (f x)) d).get? k =
      (xs.filter fun x => key x = k).foldl (fun v x => some (f x v)) (d.get? k) := by
  induction xs generalizing d with
  | nil => rfl
  | cons x xs ih =>
    rw [List.foldl_cons, ih, get?_upsert]
    by_cases h : key x = k
    · rw [if_pos h.symm, List.filter_cons_of_pos (by simpa using h), List.foldl_cons, h]
    · rw [if_neg (Ne.symm h), List.filter_cons_of_neg (by simpa using h)]

theorem mem_keys_foldl_upsert (xs : List α) (d : Dict κ ν) (k : κ) :
    k ∈ (xs.foldl (fun d x => d.upsert (key x) (f x)) d).keys ↔ k ∈ d.keys ∨ ∃ x ∈ xs, key x = k := by
  induction xs generalizing d with
  | nil => simp
  | cons x xs ih =>
    rw [List.foldl_cons, ih, mem_keys_upsert, List.exists_mem_cons_iff, ← or_assoc,
      or_comm (a := k = key x), eq_comm]

end Loop

/-- Entries with different keys, inserted one after another. -/
theorem get?_foldl_insert (h : (es.map Prod.fst).Nodup) (d : Dict κ ν) (k : κ) :
    (es.foldl (fun d e => d.insert e.1 e.2) d).get? k = (lookup k es).or (d.get? k) := by
  induction es generalizing d with
  | nil => rfl
  | cons e es ih =>
    rw [List.map_cons, List.nodup_cons] at h
    rw [List.foldl_cons, ih h.2, get?_insert, lookup]
    by_cases hk : e.1 = k
    · have hnone : lookup k es = none := by
        rw [Option.eq_none_iff_forall_not_mem]
        intro v hv
        exact h.1 (hk ▸ List.mem_map.mpr ⟨_, mem_of_lookup hv, rfl⟩)
      rw [hnone, if_pos hk, if_pos hk.symm]
      rfl
    · rw [if_neg hk, if_neg (Ne.symm hk)]

theorem upsertEntries_of_not_mem (h : k ∉ es.map Prod.fst) (f : Option ν → ν) :
    upsertEntries k f es = es ++ [(k, f none)] := by
  induction es with
  | nil => rfl
  | cons e es ih =>
    rw [List.map_cons, List.mem_cons, not_or] at h
    rw [upsertEntries, if_neg (Ne.symm h.1), ih h.2, List.cons_append]

theorem entries_insert_of_not_mem (h : k ∉ d.keys) (v : ν) :
    (d.insert k v).entries = d.entries ++ [(k, v)] := upsertEntries_of_not_mem h _

theorem keys_insert_of_not_mem (h : k ∉ d.keys) (v : ν) : (d.insert k v).keys = d.keys ++ [k] := by
  rw [insert, keys_upsert, if_neg h]

theorem entries_foldl_insert (h : (d.keys ++ es.map Prod.fst).Nodup) :
    (es.foldl (fun d e => d.insert e.1 e.2) d).entries = d.entries ++ es := by
  induction es generalizing d with
  | nil => simp
  | cons e es ih =>
    have hnew : e.1 ∉ d.keys := by
      intro hmem
      exact (List.nodup_append.mp h).2.2 _ hmem _ (List.mem_cons_self ..) rfl
    rw [List.foldl_cons, ih, entries_insert_of_not_mem hnew, List.append_assoc]
    · rfl
    · rw [keys_insert_of_not_mem hnew, List.append_assoc]
      exact h

theorem entries_ofEntries (h : (es.map Prod.fst).Nodup) :
    (es.foldl (fun d e => d.insert e.1 e.2) empty).entries = es := entries_foldl_insert h

/-- Entries inserted one after another have at most their values. -/
theorem sum_foldl_insert_le (g : ν → ℕ) (es : List (κ × ν)) (d : Dict κ ν) :
    ((es.foldl (fun d e => d.insert e.1 e.2) d).values.map g).sum ≤
      (d.values.map g).sum + (es.map fun e => g e.2).sum := by
  induction es generalizing d with
  | nil => exact Nat.le_add_right _ _
  | cons e es ih =>
    rw [List.foldl_cons, List.map_cons, List.sum_cons]
    have hrest := ih (d.insert e.1 e.2)
    have hinsert := sum_insert g d e.1 e.2
    omega

/-- They have all of them only if no key came twice. -/
theorem nodup_of_sum_foldl_insert {g : ν → ℕ} (hd : ∀ v ∈ d.values, 0 < g v)
    (hes : ∀ e ∈ es, 0 < g e.2)
    (h : (d.values.map g).sum + (es.map fun e => g e.2).sum ≤
      ((es.foldl (fun d e => d.insert e.1 e.2) d).values.map g).sum) :
    (d.keys ++ es.map Prod.fst).Nodup := by
  induction es generalizing d with
  | nil => simpa using d.keys_nodup
  | cons e es ih =>
    obtain ⟨he, hrest⟩ := List.forall_mem_cons.mp hes
    rw [List.foldl_cons, List.map_cons, List.sum_cons] at h
    have hle := sum_foldl_insert_le g es (d.insert e.1 e.2)
    have hinsert := sum_insert g d e.1 e.2
    have hnone : d.get? e.1 = none := by
      cases hget : d.get? e.1 with
      | none => rfl
      | some v =>
        have hpos := hd v (List.mem_map.mpr ⟨_, (d.get?_eq_some_iff _ _).mp hget, rfl⟩)
        rw [hget, Option.map_some, Option.getD_some] at hinsert
        omega
    have hnew : e.1 ∉ d.keys := (d.get?_eq_none_iff _).mp hnone
    have hvalues : ∀ v ∈ (d.insert e.1 e.2).values, 0 < g v := by
      intro v hv
      rw [values, entries_insert_of_not_mem hnew, List.map_append, List.mem_append] at hv
      obtain hv | hv := hv
      · exact hd v hv
      · obtain rfl := List.mem_singleton.mp hv
        exact he
    rw [hnone, Option.map_none, Option.getD_none] at hinsert
    have hnodup := ih hvalues hrest (by omega)
    rw [keys_insert_of_not_mem hnew, List.append_assoc] at hnodup
    exact hnodup

/-- `d[k].append(v)` for every pair. -/
def collect (xs : List (κ × ν)) : Dict κ (List ν) :=
  xs.foldl (fun d x => d.upsert x.1 fun vs => vs.getD [] ++ [x.2]) empty

omit [DecidableEq κ] in
theorem foldl_append (xs : List (κ × ν)) (vs : Option (List ν)) :
    (xs.foldl (fun vs x => some (vs.getD [] ++ [x.2])) vs).getD [] = vs.getD [] ++ xs.map Prod.snd := by
  induction xs generalizing vs with
  | nil => simp
  | cons x xs ih => rw [List.foldl_cons, ih]; simp

theorem getD_collect (xs : List (κ × ν)) (k : κ) :
    ((collect xs).get? k).getD [] = (xs.filter fun x => x.1 = k).map Prod.snd := by
  rw [collect, get?_foldl_upsert Prod.fst (fun x vs => vs.getD [] ++ [x.2]), foldl_append]
  rfl

/-- The lists of a collection are those of its keys. -/
theorem mem_collect {xs : List (κ × ν)} {vs : List ν} :
    (k, vs) ∈ (collect xs).entries ↔
      k ∈ xs.map Prod.fst ∧ vs = (xs.filter fun x => x.1 = k).map Prod.snd := by
  have hkeys : k ∈ (collect xs).keys ↔ k ∈ xs.map Prod.fst := by
    rw [collect, mem_keys_foldl_upsert Prod.fst (fun x vs => vs.getD [] ++ [x.2])]
    simp [keys, empty]
  have hget := getD_collect xs k
  rw [← hkeys, mem_keys_iff, ← get?_eq_some_iff]
  constructor
  · intro h
    rw [h] at hget
    exact ⟨⟨vs, h⟩, hget⟩
  · rintro ⟨⟨vs', h⟩, rfl⟩
    rw [h] at hget
    rw [h, ← hget]
    rfl

/-- `counter[x] += 1` for every element. -/
def tally (xs : List κ) : Dict κ ℕ := xs.foldl (fun d x => d.upsert x fun n => n.getD 0 + 1) empty

theorem mem_keys_tally {xs : List κ} : k ∈ (tally xs).keys ↔ k ∈ xs := by
  rw [tally, mem_keys_foldl_upsert (fun x => x) fun _ n => n.getD 0 + 1]
  simp [keys, empty]

/-! ### Grouping by two keys -/

variable {μ : Type*} [DecidableEq μ]

/-- `d[k][m].append(v)`. -/
def push (d : Dict κ (Dict μ (List ν))) (k : κ) (m : μ) (v : ν) : Dict κ (Dict μ (List ν)) :=
  d.upsert k fun inner => (inner.getD empty).upsert m fun group => group.getD [] ++ [v]

/-- The list under two keys; empty if there is none. -/
def group (d : Dict κ (Dict μ (List ν))) (k : κ) (m : μ) : List ν :=
  ((d.get? k).bind fun inner => inner.get? m).getD []

/-- Append every value under its keys, in order. -/
def grouped (xs : List (κ × μ × ν)) : Dict κ (Dict μ (List ν)) :=
  xs.foldl (fun d x => d.push x.1 x.2.1 x.2.2) empty

theorem group_push (d : Dict κ (Dict μ (List ν))) (k k' : κ) (m m' : μ) (v : ν) :
    (d.push k m v).group k' m' =
      if k' = k ∧ m' = m then d.group k' m' ++ [v] else d.group k' m' := by
  unfold push group
  by_cases hk : k' = k
  · subst hk
    rw [get?_upsert_self]
    by_cases hm : m' = m
    · subst hm
      cases h : d.get? k' <;> simp
    · cases h : d.get? k' <;> simp [hm, get?_upsert]
  · simp [get?_upsert_of_ne d _ hk, hk]

theorem group_grouped_aux (xs : List (κ × μ × ν)) (d : Dict κ (Dict μ (List ν))) (k : κ) (m : μ) :
    (xs.foldl (fun d x => d.push x.1 x.2.1 x.2.2) d).group k m =
      d.group k m ++ (xs.filter fun x => x.1 = k ∧ x.2.1 = m).map fun x => x.2.2 := by
  induction xs generalizing d with
  | nil => simp
  | cons x xs ih =>
    rw [List.foldl_cons, ih, group_push]
    by_cases h : x.1 = k ∧ x.2.1 = m
    · rw [if_pos ⟨h.1.symm, h.2.symm⟩, List.filter_cons_of_pos (by simpa using h)]
      simp
    · rw [if_neg fun hn => h ⟨hn.1.symm, hn.2.symm⟩, List.filter_cons_of_neg (by simpa using h)]

/-- A group holds the values of its keys, in order. -/
theorem group_grouped (xs : List (κ × μ × ν)) (k : κ) (m : μ) :
    (grouped xs).group k m = (xs.filter fun x => x.1 = k ∧ x.2.1 = m).map fun x => x.2.2 := by
  rw [grouped, group_grouped_aux]
  simp [group]

/-- The inner dictionary of an entry, read through `group`. -/
theorem group_of_mem_entries {d : Dict κ (Dict μ (List ν))} {inner : Dict μ (List ν)}
    (h : (k, inner) ∈ d.entries) (m : μ) : (inner.get? m).getD [] = d.group k m := by
  rw [group, (d.get?_eq_some_iff k inner).mpr h]
  rfl

end Dict

end CuTracer
