import CuTracer.MemoryModel.Event
import Mathlib.Data.List.Flatten

/-! Candidate pairs: two accesses of a CTA to a common byte through different
paths. They are found per granule of 16 bytes; a pair that meets in several
granules is kept once, and a search that is cut short says so. -/

namespace CuTracer.MemoryModel

/-- The kinds of edge that `pair_kind` names. -/
inductive EdgeKind where
  | genericReadAsyncWrite | genericWriteAsyncRead | genericWriteAsyncWrite
  | asyncWriteGenericRead | asyncReadGenericWrite | asyncAsync | cpasyncWriteGenericRead
  deriving DecidableEq

namespace Kind

/-- `ACCESS_KINDS`. -/
def isAccess : Kind → Bool
  | .genericR | .genericW | .genericRw | .cpasyncW | .asyncW | .asyncR => true
  | _ => false

/-- `GENERIC_READ`. -/
def isGenericRead : Kind → Bool
  | .genericR | .genericRw => true
  | _ => false

/-- `GENERIC_WRITE`. -/
def isGenericWrite : Kind → Bool
  | .genericW | .genericRw | .cpasyncW => true
  | _ => false

end Kind

/-- `pair_kind`: the edge from an access to a later one, if they need a check. -/
def pairKind (a b : Event) : Option EdgeKind :=
  match a.kind, b.kind with
  | some ka, some kb =>
    if ka.isGenericRead ∧ kb = .asyncW then some .genericReadAsyncWrite
    else if ka.isGenericWrite ∧ kb = .asyncR then some .genericWriteAsyncRead
    else if ka.isGenericWrite ∧ kb = .asyncW then some .genericWriteAsyncWrite
    else if ka = .asyncW ∧ kb.isGenericRead then some .asyncWriteGenericRead
    else if ka = .asyncR ∧ kb.isGenericWrite then some .asyncReadGenericWrite
    else if ka.isAsync ∧ kb.isAsync then some .asyncAsync
    else if ka = .cpasyncW ∧ kb.isGenericRead then some .cpasyncWriteGenericRead
    else none
  | _, _ => none

theorem isAsync_of_pairKind_self {a : Event} (h : (pairKind a a).isSome = true) :
    a.kind.any Kind.isAsync = true := by
  unfold pairKind at h
  cases hk : a.kind with
  | none => simp [hk] at h
  | some k => cases k <;> simp_all [Kind.isGenericRead, Kind.isGenericWrite, Kind.isAsync]

/-! ### Common bytes -/

def overlaps (a b : List Range) : Bool := a.any fun r => b.any fun r' => r.lo < r'.hi ∧ r'.lo < r.hi

def ShareByte (x y : Event) : Prop :=
  ∃ r ∈ x.ranges, ∃ r' ∈ y.ranges, ∃ byte, (r.lo ≤ byte ∧ byte < r.hi) ∧ r'.lo ≤ byte ∧ byte < r'.hi

theorem overlaps_iff {x y : Event} : overlaps x.ranges y.ranges = true ↔ ShareByte x y := by
  simp only [overlaps, List.any_eq_true, decide_eq_true_eq]
  constructor
  · rintro ⟨r, hr, r', hr', hlo, hhi⟩
    have h := r.lt
    have h' := r'.lt
    exact ⟨r, hr, r', hr', max r.lo r'.lo, ⟨by omega, by omega⟩, by omega, by omega⟩
  · rintro ⟨r, hr, r', hr', byte, hbyte, hbyte'⟩
    exact ⟨r, hr, r', hr', by omega, by omega⟩

/-- The granules of a range: `range(lo // GRANULE, (hi - 1) // GRANULE + 1)`. -/
def granules (r : Range) : List ℤ :=
  (List.range ((r.hi - 1) / 16 + 1 - r.lo / 16).toNat).map fun i => r.lo / 16 + (i : ℕ)

theorem mem_granules {r : Range} {g : ℤ} : g ∈ granules r ↔ r.lo / 16 ≤ g ∧ g ≤ (r.hi - 1) / 16 := by
  simp only [granules, List.mem_map, List.mem_range]
  constructor
  · rintro ⟨i, hi, rfl⟩
    omega
  · rintro ⟨hlo, hhi⟩
    exact ⟨(g - r.lo / 16).toNat, by omega, by omega⟩

theorem granules_nodup (r : Range) : (granules r).Nodup := by
  refine List.nodup_range.map fun i j h => ?_
  omega

/-- Two accesses with a common byte have a common granule. -/
theorem ShareByte.granule {x y : Event} (h : ShareByte x y) :
    ∃ g, g ∈ x.ranges.flatMap granules ∧ g ∈ y.ranges.flatMap granules := by
  obtain ⟨r, hr, r', hr', byte, hbyte, hbyte'⟩ := h
  refine ⟨byte / 16, ?_, ?_⟩
  · exact List.mem_flatMap.mpr ⟨r, hr, mem_granules.mpr ⟨by omega, by omega⟩⟩
  · exact List.mem_flatMap.mpr ⟨r', hr', mem_granules.mpr ⟨by omega, by omega⟩⟩

/-! ### The pairs of one granule -/

structure Candidate where
  kind : EdgeKind
  x : Event
  y : Event
  deriving DecidableEq

/-- `MAX_LATER`: the later accesses paired with one access per granule. -/
def maxLater : ℕ := 64

/-- Pair an access with later ones, `n` of which were paired before; whether the search
was cut short. -/
def laterPairs (a : Event) : ℕ → List Event → List Candidate × Bool
  | _, [] => ([], false)
  | n, b :: rest =>
    match pairKind a b with
    | none => laterPairs a n rest
    | some kind =>
      if n = maxLater then ([], true)
      else
        let later := laterPairs a (n + 1) rest
        (⟨kind, a, b⟩ :: later.1, later.2)

/-- `candidate_pairs`: all pairs, and the accesses whose search was cut short. -/
def candidatePairs : List Event → List Candidate × List Event
  | [] => ([], [])
  | a :: rest =>
    let later := laterPairs a 0 rest
    let others := candidatePairs rest
    (later.1 ++ others.1, if later.2 then a :: others.2 else others.2)

theorem mem_laterPairs {a : Event} {n : ℕ} {seq : List Event} {c : Candidate}
    (h : c ∈ (laterPairs a n seq).1) : c.x = a ∧ c.y ∈ seq ∧ pairKind a c.y = some c.kind := by
  induction seq generalizing n with
  | nil => simp [laterPairs] at h
  | cons b rest ih =>
    unfold laterPairs at h
    split at h
    · obtain ⟨hx, hy, hk⟩ := ih h
      exact ⟨hx, List.mem_cons_of_mem b hy, hk⟩
    · rename_i kind hkind
      split_ifs at h
      · simp at h
      · rcases List.mem_cons.mp h with rfl | h
        · exact ⟨rfl, List.mem_cons_self, hkind⟩
        · obtain ⟨hx, hy, hk⟩ := ih h
          exact ⟨hx, List.mem_cons_of_mem b hy, hk⟩

theorem laterPairs_complete {a b : Event} {n : ℕ} {seq : List Event} {kind : EdgeKind}
    (hb : b ∈ seq) (hkind : pairKind a b = some kind) :
    ⟨kind, a, b⟩ ∈ (laterPairs a n seq).1 ∨ (laterPairs a n seq).2 = true := by
  induction seq generalizing n with
  | nil => simp at hb
  | cons b' rest ih =>
    unfold laterPairs
    rcases List.mem_cons.mp hb with rfl | hb
    · rw [hkind]
      dsimp only
      split_ifs
      · exact Or.inr rfl
      · exact Or.inl List.mem_cons_self
    · split
      · exact ih hb
      · split_ifs
        · exact Or.inr rfl
        · rcases ih (n := n + 1) hb with h | h
          · exact Or.inl (List.mem_cons_of_mem _ h)
          · exact Or.inr h

/-- Pairs are in sequence order and of the kind they say. -/
theorem mem_candidatePairs {seq : List Event} {c : Candidate} (h : c ∈ (candidatePairs seq).1) :
    [c.x, c.y].Sublist seq ∧ pairKind c.x c.y = some c.kind := by
  induction seq with
  | nil => simp [candidatePairs] at h
  | cons a rest ih =>
    rcases List.mem_append.mp h with h | h
    · obtain ⟨rfl, hy, hk⟩ := mem_laterPairs h
      exact ⟨(List.singleton_sublist.mpr hy).cons_cons _, hk⟩
    · obtain ⟨hsub, hk⟩ := ih h
      exact ⟨hsub.cons a, hk⟩

/-- Every pair of a kind is found, unless the search of its first access was cut short. -/
theorem candidatePairs_complete {seq : List Event} {x y : Event} {kind : EdgeKind}
    (h : [x, y].Sublist seq) (hkind : pairKind x y = some kind) :
    ⟨kind, x, y⟩ ∈ (candidatePairs seq).1 ∨ x ∈ (candidatePairs seq).2 := by
  induction seq with
  | nil => simp at h
  | cons a rest ih =>
    simp only [candidatePairs]
    cases h with
    | cons _ h =>
      rcases ih h with h | h
      · exact Or.inl (List.mem_append_right _ h)
      · refine Or.inr ?_
        split_ifs
        · exact List.mem_cons_of_mem a h
        · exact h
    | cons_cons _ h =>
      rcases laterPairs_complete (n := 0) (List.singleton_sublist.mp h) hkind with h | h
      · exact Or.inl (List.mem_append_left _ h)
      · refine Or.inr ?_
        rw [if_pos h]
        exact List.mem_cons_self

/-! ### The granules of a CTA -/

/-- The copies of an access in a granule, one for each of its ranges there. -/
def copies (g : ℤ) (e : Event) : List Event :=
  ((e.ranges.flatMap granules).filter (· = g)).map fun _ => e

/-- `index`: the accesses in each granule, in the order given. -/
def granuleIndex (evs : List Event) : Dict ℤ (List Event) :=
  Dict.collect (evs.flatMap fun e => (e.ranges.flatMap granules).map fun g => (g, e))

theorem eq_of_mem_copies {g : ℤ} {e e' : Event} (h : e' ∈ copies g e) : e' = e := by
  obtain ⟨_, -, rfl⟩ := List.mem_map.mp h
  rfl

theorem mem_copies {g : ℤ} {e : Event} (h : g ∈ e.ranges.flatMap granules) : e ∈ copies g e :=
  List.mem_map.mpr ⟨g, List.mem_filter.mpr ⟨h, by simp⟩, rfl⟩

/-- An async access, with one range at most, is in a granule once at most. -/
theorem length_copies_le {g : ℤ} {e : Event} (hsingle : e.manyAsync = false)
    (hasync : e.kind.any Kind.isAsync = true) : (copies g e).length ≤ 1 := by
  have hlen : e.ranges.length ≤ 1 := by
    simp only [Event.manyAsync, hasync, Bool.true_and, decide_eq_false_iff_not] at hsingle
    omega
  have hnodup : (e.ranges.flatMap granules).Nodup := by
    match h : e.ranges, hlen with
    | [], _ => exact List.nodup_nil
    | [r], _ => simpa using granules_nodup r
  rw [copies, List.length_map, ← List.countP_eq_length_filter]
  have := List.nodup_iff_count_le_one.mp hnodup g
  simpa [List.count, BEq.beq] using this

theorem granule_entries (evs : List Event) (g : ℤ) :
    ((evs.flatMap fun e => (e.ranges.flatMap granules).map fun g => (g, e)).filter
      fun p => p.1 = g).map Prod.snd = evs.flatMap (copies g) := by
  induction evs with
  | nil => rfl
  | cons e evs ih =>
    rw [List.flatMap_cons, List.flatMap_cons, List.filter_append, List.map_append, ih,
      List.filter_map, List.map_map]
    rfl

/-- The sequence of a granule is made of the copies of each access. -/
theorem mem_granuleIndex {evs : List Event} {g : ℤ} {seq : List Event}
    (h : (g, seq) ∈ (granuleIndex evs).entries) : seq = evs.flatMap (copies g) := by
  rw [(Dict.mem_collect.mp h).2, granule_entries]

theorem exists_granuleIndex {evs : List Event} {g : ℤ} {e : Event} (he : e ∈ evs)
    (hg : g ∈ e.ranges.flatMap granules) :
    (g, evs.flatMap (copies g)) ∈ (granuleIndex evs).entries := by
  have hkey : g ∈ (evs.flatMap fun e => (e.ranges.flatMap granules).map fun g => (g, e)).map
      Prod.fst :=
    List.mem_map.mpr ⟨(g, e), List.mem_flatMap.mpr ⟨e, he, List.mem_map.mpr ⟨g, hg, rfl⟩⟩, rfl⟩
  exact Dict.mem_collect.mpr ⟨hkey, (granule_entries evs g).symm⟩

/-- Two entries of a granule are in order, or copies of one access. -/
theorem sublist_of_copies {evs : List Event} {g : ℤ} {x y : Event}
    (h : [x, y].Sublist (evs.flatMap (copies g))) :
    [x, y].Sublist evs ∨ x = y ∧ x ∈ evs ∧ 2 ≤ (copies g x).length := by
  induction evs with
  | nil => simp at h
  | cons e evs ih =>
    rw [List.flatMap_cons, List.sublist_append_iff] at h
    obtain ⟨l₁, l₂, hsplit, h₁, h₂⟩ := h
    match l₁, hsplit with
    | [], hsplit =>
      rw [List.nil_append] at hsplit
      rcases ih (hsplit ▸ h₂) with h | ⟨hxy, hmem, hlen⟩
      · exact Or.inl (h.cons e)
      · exact Or.inr ⟨hxy, List.mem_cons_of_mem e hmem, hlen⟩
    | [a], hsplit =>
      cases hsplit
      obtain rfl := eq_of_mem_copies (List.singleton_sublist.mp h₁)
      obtain ⟨e', he', hy⟩ := List.mem_flatMap.mp (List.singleton_sublist.mp h₂)
      obtain rfl := eq_of_mem_copies hy
      exact Or.inl ((List.singleton_sublist.mpr he').cons_cons x)
    | [a, b], hsplit =>
      simp only [List.cons_append, List.nil_append, List.cons.injEq] at hsplit
      obtain ⟨rfl, rfl, -⟩ := hsplit
      obtain rfl := eq_of_mem_copies (h₁.subset List.mem_cons_self)
      obtain rfl := eq_of_mem_copies (h₁.subset (List.mem_cons_of_mem _ List.mem_cons_self))
      exact Or.inr ⟨rfl, List.mem_cons_self, by simpa using h₁.length_le⟩
    | _ :: _ :: _ :: _, hsplit => simp at hsplit

theorem copies_of_sublist {evs : List Event} {g : ℤ} {x y : Event} (h : [x, y].Sublist evs)
    (hx : g ∈ x.ranges.flatMap granules) (hy : g ∈ y.ranges.flatMap granules) :
    [x, y].Sublist (evs.flatMap (copies g)) := by
  have hflat : ([x, y].flatMap (copies g)).Sublist (evs.flatMap (copies g)) := h.flatMap _
  have hpair : [x, y].Sublist ([x, y].flatMap (copies g)) := by
    have hx' := List.singleton_sublist.mpr (mem_copies hx)
    have hy' := List.singleton_sublist.mpr (mem_copies hy)
    simpa using hx'.append hy'
  exact hpair.trans hflat

/-! ### Each pair once -/

abbrev Sig := EdgeKind × ℕ × ℕ × ℕ × ℕ

/-- `sig`: what tells pairs of a CTA apart. -/
def Candidate.sig (c : Candidate) : Sig := (c.kind, c.x.warp, c.x.pos, c.y.warp, c.y.pos)

/-- The pairs with a common byte, each at its first turn. -/
def fresh : List Sig → List Candidate → List Candidate
  | _, [] => []
  | seen, c :: cs =>
    if c.sig ∈ seen ∨ ¬ overlaps c.x.ranges c.y.ranges then fresh seen cs
    else c :: fresh (c.sig :: seen) cs

theorem mem_fresh {seen : List Sig} {cs : List Candidate} {c : Candidate} (h : c ∈ fresh seen cs) :
    c ∈ cs ∧ overlaps c.x.ranges c.y.ranges = true ∧ c.sig ∉ seen := by
  induction cs generalizing seen with
  | nil => simp [fresh] at h
  | cons c' cs ih =>
    unfold fresh at h
    split_ifs at h with hskip
    · obtain ⟨hmem, hrest⟩ := ih h
      exact ⟨List.mem_cons_of_mem c' hmem, hrest⟩
    · push Not at hskip
      rcases List.mem_cons.mp h with rfl | h
      · exact ⟨List.mem_cons_self, hskip.2, hskip.1⟩
      · obtain ⟨hmem, hover, hseen⟩ := ih h
        exact ⟨List.mem_cons_of_mem c' hmem, hover, fun hin => hseen (List.mem_cons_of_mem _ hin)⟩

theorem fresh_nodup (seen : List Sig) (cs : List Candidate) :
    ((fresh seen cs).map Candidate.sig).Nodup := by
  induction cs generalizing seen with
  | nil => exact List.nodup_nil
  | cons c cs ih =>
    unfold fresh
    split_ifs with hskip
    · exact ih seen
    · rw [List.map_cons, List.nodup_cons]
      refine ⟨?_, ih _⟩
      intro hmem
      obtain ⟨c', hc', hsig⟩ := List.mem_map.mp hmem
      exact (mem_fresh hc').2.2 (by rw [hsig]; exact List.mem_cons_self)

/-- A pair with a common byte leaves its signature. -/
theorem exists_fresh {seen : List Sig} {cs : List Candidate} {c : Candidate} (hc : c ∈ cs)
    (hover : overlaps c.x.ranges c.y.ranges = true) (hseen : c.sig ∉ seen) :
    ∃ c' ∈ fresh seen cs, c'.sig = c.sig := by
  induction cs generalizing seen with
  | nil => simp at hc
  | cons c' cs ih =>
    unfold fresh
    rcases List.mem_cons.mp hc with rfl | hc
    · rw [if_neg (by simp [hseen, hover])]
      exact ⟨c, List.mem_cons_self, rfl⟩
    · split_ifs with hskip
      · exact ih hc hseen
      · by_cases hsame : c'.sig = c.sig
        · exact ⟨c', List.mem_cons_self, hsame⟩
        · have hnot : c.sig ∉ c'.sig :: seen := by simp [Ne.symm hsame, hseen]
          obtain ⟨c₀, hmem, hsig⟩ := ih hc hnot
          exact ⟨c₀, List.mem_cons_of_mem _ hmem, hsig⟩

/-! ### The pairs of a CTA -/

/-- `evs.sort(key=lambda e: e.t or 0)`, a stable sort. -/
def receiveOrder (evs : List Event) : List Event :=
  evs.insertionSort fun a b => a.t.getD 0 ≤ b.t.getD 0

theorem mem_receiveOrder {evs : List Event} {e : Event} : e ∈ receiveOrder evs ↔ e ∈ evs :=
  (List.perm_insertionSort _ _).mem_iff

/-- The pairs that are counted, and the accesses whose search was cut short. -/
def ctaPairs (evs : List Event) : List Candidate × List Event :=
  let found := (granuleIndex (receiveOrder evs)).values.map candidatePairs
  (fresh [] (found.flatMap Prod.fst), found.flatMap Prod.snd)

variable {evs : List Event}

/-- A counted pair is in receive order, of its kind, and has a common byte. -/
theorem mem_ctaPairs (hsingle : ∀ e ∈ evs, e.manyAsync = false) {c : Candidate}
    (h : c ∈ (ctaPairs evs).1) :
    [c.x, c.y].Sublist (receiveOrder evs) ∧ pairKind c.x c.y = some c.kind ∧ ShareByte c.x c.y := by
  obtain ⟨hmem, hover, -⟩ := mem_fresh h
  obtain ⟨found, hfound, hc⟩ := List.mem_flatMap.mp hmem
  obtain ⟨seq, hseq, rfl⟩ := List.mem_map.mp hfound
  obtain ⟨⟨g, seq'⟩, hentry, rfl⟩ := List.mem_map.mp hseq
  obtain ⟨hsub, hkind⟩ := mem_candidatePairs hc
  rw [mem_granuleIndex hentry] at hsub
  refine ⟨?_, hkind, overlaps_iff.mp hover⟩
  rcases sublist_of_copies hsub with h | ⟨hxy, hx, hlen⟩
  · exact h
  · -- an access is never paired with itself
    have hasync := isAsync_of_pairKind_self (a := c.x) (by
      rw [← hxy] at hkind
      rw [hkind]
      rfl)
    have := length_copies_le (g := g) (hsingle c.x (mem_receiveOrder.mp hx)) hasync
    omega

theorem ctaPairs_nodup (evs : List Event) : (ctaPairs evs).1.Nodup :=
  List.Nodup.of_map Candidate.sig (fresh_nodup [] _)

/-- Every such pair is counted, unless the search of its first access was cut short. -/
theorem ctaPairs_complete
    (hplace : ∀ e ∈ evs, ∀ e' ∈ evs, e.warp = e'.warp → e.pos = e'.pos → e = e')
    (hsingle : ∀ e ∈ evs, e.manyAsync = false) {x y : Event} {kind : EdgeKind}
    (horder : [x, y].Sublist (receiveOrder evs)) (hkind : pairKind x y = some kind)
    (hbyte : ShareByte x y) : ⟨kind, x, y⟩ ∈ (ctaPairs evs).1 ∨ x ∈ (ctaPairs evs).2 := by
  obtain ⟨g, hx, hy⟩ := hbyte.granule
  have hmem : ∀ e ∈ [x, y], e ∈ evs := fun e he => mem_receiveOrder.mp (horder.subset he)
  have hentry := exists_granuleIndex (horder.subset List.mem_cons_self) hx
  have hfound : candidatePairs ((receiveOrder evs).flatMap (copies g)) ∈
      (granuleIndex (receiveOrder evs)).values.map candidatePairs :=
    List.mem_map.mpr ⟨_, List.mem_map.mpr ⟨_, hentry, rfl⟩, rfl⟩
  rcases candidatePairs_complete (copies_of_sublist horder hx hy) hkind with h | h
  · left
    have hpair : (⟨kind, x, y⟩ : Candidate) ∈
        ((granuleIndex (receiveOrder evs)).values.map candidatePairs).flatMap Prod.fst :=
      List.mem_flatMap.mpr ⟨_, hfound, h⟩
    obtain ⟨c, hc, hsig⟩ := exists_fresh hpair (overlaps_iff.mpr hbyte) List.not_mem_nil
    -- within a CTA the signature is the pair
    obtain ⟨horder', -⟩ := mem_ctaPairs hsingle hc
    have hmem' : ∀ e ∈ [c.x, c.y], e ∈ evs := fun e he => mem_receiveOrder.mp (horder'.subset he)
    obtain ⟨kind', x', y'⟩ := c
    simp only [Candidate.sig, Prod.mk.injEq] at hsig
    obtain ⟨rfl, hxw, hxp, hyw, hyp⟩ := hsig
    obtain rfl := hplace x' (hmem' x' (by simp)) x (hmem x (by simp)) hxw hxp
    obtain rfl := hplace y' (hmem' y' (by simp)) y (hmem y (by simp)) hyw hyp
    exact hc
  · exact Or.inr (List.mem_flatMap.mpr ⟨_, hfound, h⟩)

end CuTracer.MemoryModel
