import CuTracer.Library.Fallible
import CuTracer.Library.SortedMap
import Mathlib.Data.Set.Basic

/-! Records collected by key. A record with a new key is appended, one with a key
that is there is merged into the record that has it, which may fail. Where a merge
joins the facts of two records, and succeeds exactly when the joined facts fit, a
collection depends on the facts alone: not on the order of the records, nor on how
they were grouped or repeated. -/

namespace CuTracer

variable {α β κ ε F σ : Type}

/-! ### Steps that add facts -/

def factsOf (facts : α → Set F) (xs : List α) : Set F := {f | ∃ x ∈ xs, f ∈ facts x}

@[simp] theorem factsOf_nil (facts : α → Set F) : factsOf facts [] = ∅ := by
  ext f; simp [factsOf]

@[simp] theorem factsOf_cons (facts : α → Set F) (x : α) (xs : List α) :
    factsOf facts (x :: xs) = facts x ∪ factsOf facts xs := by
  ext f; simp [factsOf]

theorem factsOf_append (facts : α → Set F) (xs ys : List α) :
    factsOf facts (xs ++ ys) = factsOf facts xs ∪ factsOf facts ys := by
  ext f; simp [factsOf, or_and_right, exists_or]

variable {facts : α → Set F}

theorem factsOf_perm {xs ys : List α} (h : xs.Perm ys) : factsOf facts xs = factsOf facts ys := by
  ext f; simp [factsOf, h.mem_iff]

/-- A step adds the facts of its input to those of the state, and succeeds exactly
where all of them fit. -/
structure Accumulates (step : σ → α → Except ε σ) (Inv : σ → Prop) (Good : α → Prop)
    (info : σ → Set F) (facts : α → Set F) (Fits : Set F → Prop) : Prop where
  mono : ∀ {I J}, Fits J → I ⊆ J → Fits I
  step_ok : ∀ {s x s'}, Inv s → Good x → step s x = .ok s' →
    Inv s' ∧ info s' = info s ∪ facts x
  step_iff : ∀ {s x}, Inv s → Good x → ((∃ s', step s x = .ok s') ↔ Fits (info s ∪ facts x))

namespace Accumulates

variable {step : σ → α → Except ε σ} {Inv : σ → Prop} {Good : α → Prop} {info : σ → Set F}
  {facts : α → Set F} {Fits : Set F → Prop}

variable (h : Accumulates step Inv Good info facts Fits)

include h in
theorem foldlM_ok {xs : List α} {s s' : σ} (hs : Inv s) (hxs : ∀ x ∈ xs, Good x)
    (hfold : xs.foldlM step s = .ok s') : Inv s' ∧ info s' = info s ∪ factsOf facts xs := by
  induction xs generalizing s with
  | nil =>
    cases hfold
    exact ⟨hs, by simp⟩
  | cons x xs ih =>
    rw [List.foldlM_cons] at hfold
    obtain ⟨t, hstep, hfold⟩ := bind_ok hfold
    obtain ⟨ht, hinfo⟩ := h.step_ok hs (hxs x List.mem_cons_self) hstep
    obtain ⟨hs', hinfo'⟩ := ih ht (fun y hy => hxs y (List.mem_cons_of_mem x hy)) hfold
    rw [hinfo', hinfo, factsOf_cons, Set.union_assoc]
    exact ⟨hs', rfl⟩

include h in
theorem foldlM_iff {xs : List α} {s : σ} (hs : Inv s) (hfits : Fits (info s))
    (hxs : ∀ x ∈ xs, Good x) :
    (∃ s', xs.foldlM step s = .ok s') ↔ Fits (info s ∪ factsOf facts xs) := by
  induction xs generalizing s with
  | nil => simpa [pure, Except.pure] using hfits
  | cons x xs ih =>
    have hx := hxs x List.mem_cons_self
    have hrest : ∀ y ∈ xs, Good y := fun y hy => hxs y (List.mem_cons_of_mem x hy)
    rw [factsOf_cons, ← Set.union_assoc]
    constructor
    · rintro ⟨s', hfold⟩
      rw [List.foldlM_cons] at hfold
      obtain ⟨t, hstep, hfold⟩ := bind_ok hfold
      obtain ⟨ht, hinfo⟩ := h.step_ok hs hx hstep
      rw [← hinfo]
      apply (ih ht ?_ hrest).mp ⟨s', hfold⟩
      rw [hinfo]
      exact (h.step_iff hs hx).mp ⟨t, hstep⟩
    · intro hall
      have hx' : Fits (info s ∪ facts x) := h.mono hall Set.subset_union_left
      obtain ⟨t, hstep⟩ := (h.step_iff hs hx).mpr hx'
      obtain ⟨ht, hinfo⟩ := h.step_ok hs hx hstep
      rw [← hinfo] at hall hx'
      obtain ⟨s', hfold⟩ := (ih ht hx' hrest).mpr hall
      refine ⟨s', ?_⟩
      rw [List.foldlM_cons, hstep]
      exact hfold

include h in
/-- Inputs with the same facts are as good as each other. -/
theorem foldlM_congr {R : σ → σ → Prop} (hext : ∀ s t, Inv s → Inv t → info s = info t → R s t)
    {xs ys : List α} {s : σ} (hs : Inv s) (hfits : Fits (info s)) (hxs : ∀ x ∈ xs, Good x)
    (hys : ∀ y ∈ ys, Good y) (hfacts : factsOf facts xs = factsOf facts ys) :
    Coupled R (xs.foldlM step s) (ys.foldlM step s) := by
  intro t ht
  obtain ⟨hinv, hinfo⟩ := h.foldlM_ok hs hxs ht
  have hall : Fits (info s ∪ factsOf facts ys) := by
    rw [← hfacts]
    exact (h.foldlM_iff hs hfits hxs).mp ⟨t, ht⟩
  obtain ⟨u, hu⟩ := (h.foldlM_iff hs hfits hys).mpr hall
  obtain ⟨hinv', hinfo'⟩ := h.foldlM_ok hs hys hu
  exact ⟨u, hu, hext t u hinv hinv' (by rw [hinfo, hinfo', hfacts])⟩

include h in
/-- Whole lists are inputs too; what is done to the state after each may rearrange it. -/
theorem batch (hfits : ∀ s, Inv s → Fits (info s)) {post : σ → σ}
    (hpost : ∀ s, Inv s → Inv (post s) ∧ info (post s) = info s) :
    Accumulates (fun s xs => do
        let t ← xs.foldlM step s
        return post t)
      Inv (fun xs => ∀ x ∈ xs, Good x) info (factsOf facts) Fits where
  mono := h.mono
  step_ok := by
    intro s xs s' hs hxs hstep
    obtain ⟨t, hfold, heq⟩ := bind_ok hstep
    cases heq
    obtain ⟨ht, hinfo⟩ := h.foldlM_ok hs hxs hfold
    obtain ⟨hinv, hsame⟩ := hpost t ht
    exact ⟨hinv, hsame.trans hinfo⟩
  step_iff := by
    intro s xs hs hxs
    rw [← h.foldlM_iff hs (hfits s hs) hxs]
    constructor
    · rintro ⟨s', hstep⟩
      obtain ⟨t, hfold, -⟩ := bind_ok hstep
      exact ⟨t, hfold⟩
    · rintro ⟨t, hfold⟩
      exact ⟨post t, by rw [hfold]; rfl⟩

end Accumulates

/-! ### Bounded sets -/

/-- A set of at most `n` elements. -/
def AtMost (n : ℕ) (S : Set α) : Prop := ∃ l : List α, l.length ≤ n ∧ ∀ a ∈ S, a ∈ l

theorem AtMost.mono {n : ℕ} {S T : Set α} (h : AtMost n T) (hsub : S ⊆ T) : AtMost n S := by
  obtain ⟨l, hlen, hl⟩ := h
  exact ⟨l, hlen, fun a ha => hl a (hsub ha)⟩

theorem atMost_empty (n : ℕ) : AtMost n (∅ : Set α) :=
  ⟨[], Nat.zero_le n, fun _ ha => ha.elim⟩

theorem atMost_iff_length {n : ℕ} {S : Set α} {l : List α} (hnodup : l.Nodup)
    (hmem : ∀ a, a ∈ S ↔ a ∈ l) : AtMost n S ↔ l.length ≤ n := by
  constructor
  · rintro ⟨l', hlen, hl'⟩
    have hsub : l ⊆ l' := fun a ha => hl' a ((hmem a).mpr ha)
    exact (List.subperm_of_subset hnodup hsub).length_le.trans hlen
  · exact fun h => ⟨l, h, fun a ha => (hmem a).mp ha⟩

/-! ### Records by key -/

section Emplace

variable [DecidableEq κ]

/-- Merge a record into the first of its key, or append it. -/
def emplaceWith (key : α → κ) (merge : α → α → Except ε α) (x : α) : List α → Except ε (List α)
  | [] => .ok [x]
  | y :: ys =>
    if key y = key x then do
      let z ← merge y x
      return z :: ys
    else do
      let zs ← emplaceWith key merge x ys
      return y :: zs

variable {key : α → κ} {merge : α → α → Except ε α} {x : α} {m : List α}

theorem emplaceWith_new (h : ∀ y ∈ m, key y ≠ key x) :
    emplaceWith key merge x m = .ok (m ++ [x]) := by
  induction m with
  | nil => rfl
  | cons y ys ih =>
    rw [emplaceWith, if_neg (h y List.mem_cons_self),
      ih fun z hz => h z (List.mem_cons_of_mem y hz)]
    rfl

theorem emplaceWith_old {as bs : List α} {y : α} (has : ∀ a ∈ as, key a ≠ key x)
    (hy : key y = key x) :
    emplaceWith key merge x (as ++ y :: bs) = (merge y x).map fun z => as ++ z :: bs := by
  induction as with
  | nil =>
    rw [List.nil_append, emplaceWith, if_pos hy]
    cases merge y x <;> rfl
  | cons a as ih =>
    rw [List.cons_append, emplaceWith, if_neg (has a List.mem_cons_self),
      ih fun b hb => has b (List.mem_cons_of_mem a hb)]
    cases merge y x <;> rfl

/-- Records with different keys are collected as they are. -/
theorem foldlM_emplaceWith_self (as : List α) (h : ((as ++ m).map key).Nodup) :
    m.foldlM (fun m x => emplaceWith key merge x m) as = .ok (as ++ m) := by
  induction m generalizing as with
  | nil => rw [List.append_nil]; rfl
  | cons x xs ih =>
    have hnew : ∀ a ∈ as, key a ≠ key x := by
      rw [List.map_append, List.nodup_append] at h
      exact fun a ha => h.2.2 _ (List.mem_map_of_mem ha) _ List.mem_cons_self
    rw [List.append_cons] at h ⊢
    rw [List.foldlM_cons, emplaceWith_new hnew]
    exact ih _ h

theorem length_emplaceWith {m' : List α} (h : emplaceWith key merge x m = .ok m') :
    m'.length = if key x ∈ m.map key then m.length else m.length + 1 := by
  induction m generalizing m' with
  | nil =>
    cases h
    rfl
  | cons y ys ih =>
    rw [emplaceWith] at h
    split_ifs at h with hkey
    · obtain ⟨z, -, heq⟩ := bind_ok h
      cases heq
      rw [if_pos (by simp [hkey])]
      rfl
    · obtain ⟨zs, hzs, heq⟩ := bind_ok h
      cases heq
      have hmem : key x ∈ (y :: ys).map key ↔ key x ∈ ys.map key := by
        rw [List.map_cons, List.mem_cons, or_iff_right fun heq => hkey heq.symm]
      rw [List.length_cons, ih hzs]
      simp only [hmem, List.length_cons]
      split_ifs <;> rfl

omit [DecidableEq κ] in
/-- A record of the key splits the collection. -/
theorem split_of_mem {y : α} (hnodup : (m.map key).Nodup) (hmem : y ∈ m) :
    ∃ as bs, m = as ++ y :: bs ∧ (∀ a ∈ as, key a ≠ key y) ∧ ∀ b ∈ bs, key b ≠ key y := by
  obtain ⟨as, bs, rfl⟩ := List.append_of_mem hmem
  rw [List.map_append, List.map_cons, List.nodup_append] at hnodup
  obtain ⟨-, hbs, hdisjoint⟩ := hnodup
  refine ⟨as, bs, rfl, fun a ha heq => ?_, fun b hb heq => ?_⟩
  · exact hdisjoint _ (List.mem_map_of_mem ha) _ List.mem_cons_self heq
  · exact (List.nodup_cons.mp hbs).1 (heq ▸ List.mem_map_of_mem hb)

end Emplace

def keyed (key : α → κ) (facts : α → Set F) (xs : List α) : Set (κ × F) :=
  factsOf (fun x => {p | p.1 = key x ∧ p.2 ∈ facts x}) xs

theorem mem_keyed {key : α → κ} {xs : List α} {p : κ × F} :
    p ∈ keyed key facts xs ↔ ∃ x ∈ xs, p.1 = key x ∧ p.2 ∈ facts x := Iff.rfl

/-- What the facts of one key say. -/
def at_ (k : κ) (I : Set (κ × F)) : Set F := {f | (k, f) ∈ I}

theorem at_mono {k : κ} {I J : Set (κ × F)} (h : I ⊆ J) : at_ k I ⊆ at_ k J := fun _ hf => h hf

/-- With unique keys, the facts of a key are those of its record. -/
theorem at_keyed {key : α → κ} {xs : List α} {x : α} (hnodup : (xs.map key).Nodup) (hx : x ∈ xs) :
    at_ (key x) (keyed key facts xs) = facts x := by
  ext f
  constructor
  · rintro ⟨y, hy, hkey, hf⟩
    rwa [List.inj_on_of_nodup_map hnodup hx hy hkey]
  · exact fun hf => ⟨x, hx, rfl, hf⟩

theorem at_keyed_of_ne {key : α → κ} {xs : List α} {k : κ} (h : ∀ x ∈ xs, key x ≠ k) :
    at_ k (keyed key facts xs) = ∅ := by
  ext f
  simp only [at_, Set.mem_ofPred_eq, mem_keyed, Set.mem_empty_iff_false, iff_false]
  rintro ⟨x, hx, hkey, -⟩
  exact h x hx hkey.symm

/-- Merging two records of one key joins their facts, where these fit. -/
structure Joins (key : α → κ) (merge : α → α → Except ε α) (Good : α → Prop)
    (facts : α → Set F) (Fits : κ → Set F → Prop) : Prop where
  mono : ∀ {k I J}, Fits k J → I ⊆ J → Fits k I
  empty : ∀ k, Fits k ∅
  good_fits : ∀ {x}, Good x → Fits (key x) (facts x)
  merge_ok : ∀ {y x z}, Good y → Good x → key y = key x → merge y x = .ok z →
    Good z ∧ key z = key x ∧ facts z = facts y ∪ facts x
  merge_iff : ∀ {y x}, Good y → Good x → key y = key x →
    ((∃ z, merge y x = .ok z) ↔ Fits (key x) (facts y ∪ facts x))

/-- Good records with unique keys. -/
structure Collected (key : α → κ) (Good : α → Prop) (m : List α) : Prop where
  nodup : (m.map key).Nodup
  good : ∀ y ∈ m, Good y

theorem collected_nil (key : α → κ) (Good : α → Prop) : Collected key Good [] :=
  ⟨List.nodup_nil, fun _ hy => nomatch hy⟩

theorem Collected.perm {key : α → κ} {Good : α → Prop} {m m' : List α}
    (h : Collected key Good m) (hperm : m.Perm m') : Collected key Good m' :=
  ⟨(hperm.map key).nodup_iff.mp h.nodup, fun y hy => h.good y (hperm.mem_iff.mpr hy)⟩

/-- Records that their key and facts determine: collections with the same facts have the
same records. -/
theorem Collected.perm_of_keyed {key : α → κ} {Good : α → Prop} {m m' : List α}
    (h : Collected key Good m) (h' : Collected key Good m') (hne : ∀ x, Good x → (facts x).Nonempty)
    (hdet : ∀ x y, Good x → Good y → key x = key y → facts x = facts y → x = y)
    (hkeyed : keyed key facts m = keyed key facts m') : m.Perm m' := by
  have hsub : ∀ {l l' : List α}, Collected key Good l → Collected key Good l' →
      keyed key facts l = keyed key facts l' → ∀ x ∈ l, x ∈ l' := by
    intro l l' hl hl' heq x hx
    obtain ⟨f, hf⟩ := hne x (hl.good x hx)
    have hmem : (key x, f) ∈ keyed key facts l := ⟨x, hx, rfl, hf⟩
    rw [heq] at hmem
    obtain ⟨y, hy, hkey, -⟩ := hmem
    have hfacts : facts x = facts y := by
      have hx' : at_ (key x) (keyed key facts l) = facts x := at_keyed hl.nodup hx
      have hy' : at_ (key y) (keyed key facts l') = facts y := at_keyed hl'.nodup hy
      rw [← hx', ← hy', heq]
      exact congrArg (fun k => at_ k (keyed key facts l')) hkey
    rwa [hdet x y (hl.good x hx) (hl'.good y hy) hkey hfacts]
  rw [List.perm_ext_iff_of_nodup (List.Nodup.of_map key h.nodup)
    (List.Nodup.of_map key h'.nodup)]
  exact fun x => ⟨hsub h h' hkeyed x, hsub h' h hkeyed.symm x⟩

section Covers

variable {key : α → κ} {Good : α → Prop} {facts : α → Set F} {m xs : List α}

/-- A collection with the facts of some records has those of each under its key. -/
theorem Collected.covers (h : Collected key Good m) (hkeyed : keyed key facts m = keyed key facts xs)
    {x : α} (hx : x ∈ xs) (hne : (facts x).Nonempty) :
    ∃ y ∈ m, key y = key x ∧ facts x ⊆ facts y := by
  have hmem : ∀ f ∈ facts x, (key x, f) ∈ keyed key facts m := fun f hf => by
    rw [hkeyed]
    exact ⟨x, hx, rfl, hf⟩
  obtain ⟨f, hf⟩ := hne
  obtain ⟨y, hy, hkey, -⟩ := hmem f hf
  have hat : at_ (key y) (keyed key facts m) = facts y := at_keyed h.nodup hy
  refine ⟨y, hy, hkey.symm, fun g hg => ?_⟩
  have hkey' : key x = key y := hkey
  rw [← hat, ← hkey']
  exact hmem g hg

/-- And each of its facts comes from a record, all of whose facts it has. -/
theorem Collected.comes (h : Collected key Good m) (hkeyed : keyed key facts m = keyed key facts xs)
    {y : α} (hy : y ∈ m) {f : F} (hf : f ∈ facts y) :
    ∃ x ∈ xs, key x = key y ∧ f ∈ facts x ∧ facts x ⊆ facts y := by
  have hmem : (key y, f) ∈ keyed key facts xs := by
    rw [← hkeyed]
    exact ⟨y, hy, rfl, hf⟩
  have hat : at_ (key y) (keyed key facts m) = facts y := at_keyed h.nodup hy
  obtain ⟨x, hx, hkey, hfx⟩ := hmem
  refine ⟨x, hx, hkey.symm, hfx, fun g hg => ?_⟩
  rw [← hat, hkeyed]
  exact ⟨x, hx, hkey, hg⟩

end Covers

namespace Joins

variable [DecidableEq κ] {key : α → κ} {merge : α → α → Except ε α} {Good : α → Prop}
  {facts : α → Set F} {Fits : κ → Set F → Prop}

theorem accumulates (h : Joins key merge Good facts Fits) :
    Accumulates (fun m x => emplaceWith key merge x m) (Collected key Good) Good
      (keyed key facts) (fun x => {p | p.1 = key x ∧ p.2 ∈ facts x})
      (fun I => ∀ k, Fits k (at_ k I)) where
  mono hfits hsub k := h.mono (hfits k) (at_mono hsub)
  step_ok := by
    intro m x m' hm hx hstep
    by_cases hold : ∃ y ∈ m, key y = key x
    · obtain ⟨y, hy, hkey⟩ := hold
      obtain ⟨as, bs, rfl, has, hbs⟩ := split_of_mem hm.nodup hy
      rw [emplaceWith_old (fun a ha => hkey ▸ has a ha) hkey] at hstep
      obtain ⟨z, hmerge, rfl⟩ := map_ok hstep
      obtain ⟨hz, hzkey, hzfacts⟩ := h.merge_ok (hm.good y hy) hx hkey hmerge
      refine ⟨⟨?_, ?_⟩, ?_⟩
      · have hnodup := hm.nodup
        simp only [List.map_append, List.map_cons] at hnodup ⊢
        rwa [hzkey, ← hkey]
      · intro w hw
        rcases List.mem_append.mp hw with hw | hw
        · exact hm.good w (List.mem_append_left _ hw)
        · rcases List.mem_cons.mp hw with rfl | hw
          · exact hz
          · exact hm.good w (List.mem_append_right _ (List.mem_cons_of_mem _ hw))
      · ext p
        simp only [keyed, factsOf_append, factsOf_cons, Set.mem_union, Set.mem_ofPred_eq, hzkey,
          hzfacts, hkey]
        tauto
    · have hnew : ∀ y ∈ m, key y ≠ key x := fun y hy hkey => hold ⟨y, hy, hkey⟩
      rw [emplaceWith_new hnew] at hstep
      cases hstep
      refine ⟨⟨?_, ?_⟩, ?_⟩
      · rw [List.map_append, List.nodup_append]
        refine ⟨hm.nodup, List.nodup_singleton _, fun k hk k' hk' heq => ?_⟩
        obtain ⟨y, hy, rfl⟩ := List.mem_map.mp hk
        exact hnew y hy (heq.trans (List.mem_singleton.mp hk'))
      · intro w hw
        rcases List.mem_append.mp hw with hw | hw
        · exact hm.good w hw
        · rwa [List.mem_singleton.mp hw]
      · simp only [keyed, factsOf_append, factsOf_cons, factsOf_nil, Set.union_empty]
  step_iff := by
    intro m x hm hx
    have hat : ∀ k, at_ k (keyed key facts m ∪ {p | p.1 = key x ∧ p.2 ∈ facts x}) =
        if k = key x then at_ k (keyed key facts m) ∪ facts x else at_ k (keyed key facts m) := by
      intro k
      split_ifs with hk
      · ext f; simp [at_, hk]
      · ext f; simp [at_, hk]
    have hothers : ∀ k, Fits k (at_ k (keyed key facts m)) := by
      intro k
      by_cases hk : ∃ y ∈ m, key y = k
      · obtain ⟨y, hy, rfl⟩ := hk
        rw [at_keyed hm.nodup hy]
        exact h.good_fits (hm.good y hy)
      · rw [at_keyed_of_ne fun y hy hkey => hk ⟨y, hy, hkey⟩]
        exact h.empty k
    have hfits : (∀ k, Fits k (at_ k (keyed key facts m ∪ {p | p.1 = key x ∧ p.2 ∈ facts x}))) ↔
        Fits (key x) (at_ (key x) (keyed key facts m) ∪ facts x) := by
      constructor
      · intro hall
        simpa [hat] using hall (key x)
      · intro hkey k
        rw [hat]
        split_ifs with hk
        · rwa [hk]
        · exact hothers k
    rw [hfits]
    by_cases hold : ∃ y ∈ m, key y = key x
    · obtain ⟨y, hy, hkey⟩ := hold
      rw [← hkey, at_keyed hm.nodup hy, hkey, ← h.merge_iff (hm.good y hy) hx hkey]
      obtain ⟨as, bs, rfl, has, -⟩ := split_of_mem hm.nodup hy
      rw [emplaceWith_old (fun a ha => hkey ▸ has a ha) hkey]
      constructor
      · rintro ⟨m', hm'⟩
        obtain ⟨z, hz, -⟩ := map_ok hm'
        exact ⟨z, hz⟩
      · rintro ⟨z, hz⟩
        exact ⟨as ++ z :: bs, by rw [hz]; rfl⟩
    · have hnew : ∀ y ∈ m, key y ≠ key x := fun y hy hkey => hold ⟨y, hy, hkey⟩
      rw [emplaceWith_new hnew, at_keyed_of_ne hnew, Set.empty_union]
      exact ⟨fun _ => h.good_fits hx, fun _ => ⟨_, rfl⟩⟩

/-- A collection of at most `n` records. -/
theorem accumulates_atMost (h : Joins key merge Good facts Fits)
    (hne : ∀ x, Good x → (facts x).Nonempty) (n : ℕ) (overflow : ε) :
    Accumulates
      (fun m x =>
        if key x ∉ m.map key ∧ n ≤ m.length then .error overflow else emplaceWith key merge x m)
      (fun m => Collected key Good m ∧ m.length ≤ n) Good (keyed key facts)
      (fun x => {p | p.1 = key x ∧ p.2 ∈ facts x})
      (fun I => (∀ k, Fits k (at_ k I)) ∧ AtMost n (Prod.fst '' I)) where
  mono hfits hsub := ⟨h.accumulates.mono hfits.1 hsub, hfits.2.mono (Set.image_mono hsub)⟩
  step_ok := by
    rintro m x m' ⟨hm, hlen⟩ hx hstep
    split_ifs at hstep with hfull
    obtain ⟨hm', hinfo⟩ := h.accumulates.step_ok hm hx hstep
    refine ⟨⟨hm', ?_⟩, hinfo⟩
    rw [length_emplaceWith hstep]
    split_ifs with hold
    · exact hlen
    · rw [not_and_or, not_not] at hfull
      have := hfull.resolve_left hold
      omega
  step_iff := by
    rintro m x ⟨hm, hlen⟩ hx
    have hkeys : ∀ k, k ∈ Prod.fst '' (keyed key facts m ∪ {p | p.1 = key x ∧ p.2 ∈ facts x}) ↔
        k ∈ m.map key ∨ k = key x := by
      intro k
      constructor
      · rintro ⟨p, ⟨y, hy, hkey, -⟩ | ⟨hkey, -⟩, rfl⟩
        · exact .inl (hkey ▸ List.mem_map_of_mem hy)
        · exact .inr hkey
      · rintro (hk | rfl)
        · obtain ⟨y, hy, rfl⟩ := List.mem_map.mp hk
          obtain ⟨f, hf⟩ := hne y (hm.good y hy)
          exact ⟨(key y, f), .inl ⟨y, hy, rfl, hf⟩, rfl⟩
        · obtain ⟨f, hf⟩ := hne x hx
          exact ⟨(key x, f), .inr ⟨rfl, hf⟩, rfl⟩
    rw [← h.accumulates.step_iff hm hx]
    by_cases hold : key x ∈ m.map key
    · have hsame : ∀ k, k ∈ Prod.fst '' (keyed key facts m ∪
          {p | p.1 = key x ∧ p.2 ∈ facts x}) ↔ k ∈ m.map key := by
        intro k
        rw [hkeys]
        exact ⟨fun hk => hk.elim id fun hk => hk ▸ hold, .inl⟩
      rw [if_neg fun hfull => hfull.1 hold, atMost_iff_length hm.nodup hsame, List.length_map]
      exact ⟨fun hok => ⟨hok, hlen⟩, fun hok => hok.1⟩
    · have hnodup : (m.map key ++ [key x]).Nodup :=
        List.nodup_append.mpr ⟨hm.nodup, List.nodup_singleton _, fun k hk l hl heq =>
          hold (List.mem_singleton.mp hl ▸ heq ▸ hk)⟩
      have hsame : ∀ k, k ∈ Prod.fst '' (keyed key facts m ∪
          {p | p.1 = key x ∧ p.2 ∈ facts x}) ↔ k ∈ m.map key ++ [key x] := by
        intro k
        rw [hkeys, List.mem_append, List.mem_singleton]
      rw [atMost_iff_length hnodup hsame, List.length_append, List.length_map,
        List.length_singleton]
      by_cases hfull : n ≤ m.length
      · rw [if_pos ⟨hold, hfull⟩]
        constructor
        · rintro ⟨m', hm'⟩; cases hm'
        · rintro ⟨-, hlt⟩; omega
      · rw [if_neg fun h => hfull h.2]
        exact ⟨fun hok => ⟨hok, by omega⟩, fun hok => hok.1⟩

end Joins

end CuTracer
