import CuTracer.Plan.Merge

/-! Points. A point that was read is good: its fields passed their checks and its
observations are merged and in order; the JSON of a good point is read as the point.
Points of one key join their facts. -/

namespace CuTracer.Plan

variable {v : Vendor} {j : Json}

structure IsBytes (bytes : String) : Prop where
  text : IsText bytes
  size : 16 ≤ bytes.utf8ByteSize ∧ bytes.utf8ByteSize ≤ 64
  even : bytes.utf8ByteSize % 2 = 0
  hex : hex bytes.toList = true

structure Point.Good (v : Vendor) (p : Point) : Prop where
  function : IsText p.function
  pc : p.pc < 2 ^ 64
  bytes : IsBytes p.expectedBytes
  observations : IsObservations v p.observations
  ne : p.observations ≠ []

/-! ### Reading points -/

theorem merged_ne {m : List Observation} {f : ObservationsFact} (h : f ∈ observationsFacts m) :
    m ≠ [] := by
  obtain ⟨o, ho, -⟩ := h
  exact List.ne_nil_of_mem ho

theorem exists_fact {m : List Observation} (h : m ≠ []) : ∃ f, f ∈ observationsFacts m := by
  obtain ⟨o, ho⟩ := List.exists_mem_of_ne_nil m h
  exact ⟨(o.key, .present), o, ho, rfl, trivial⟩

theorem good_point (hv : v.Lawful) {p : Point} (h : point v j = .ok p) : p.Good v := by
  obtain ⟨-, -, h⟩ := bind_ok h
  obtain ⟨functionJson, -, h⟩ := bind_ok h
  obtain ⟨function, hfunction, h⟩ := bind_ok h
  obtain ⟨pcJson, -, h⟩ := bind_ok h
  obtain ⟨offset, hpc, h⟩ := bind_ok h
  obtain ⟨bytesJson, -, h⟩ := bind_ok h
  obtain ⟨bytes, hbytes, h⟩ := bind_ok h
  split at h
  · exact absurd h fail_ne
  next hform =>
  obtain ⟨phaseJson, -, h⟩ := bind_ok h
  obtain ⟨phase, -, h⟩ := bind_ok h
  split at h
  · exact absurd h fail_ne
  obtain ⟨predicateJson, -, h⟩ := bind_ok h
  obtain ⟨predicate, -, h⟩ := bind_ok h
  split at h
  · exact absurd h fail_ne
  obtain ⟨observationsJson, -, h⟩ := bind_ok h
  obtain ⟨items, hitems, h⟩ := bind_ok h
  obtain ⟨incoming, hincoming, h⟩ := bind_ok h
  obtain ⟨observations, hmerge, h⟩ := bind_ok h
  cases h
  have hread := mapM_ok.mp hincoming
  have hgood : ∀ o ∈ incoming, o.Good := fun o ho => by
    obtain ⟨item, -, hitem⟩ := forall₂_mem_right hread ho
    exact good_observation hitem
  have hne : incoming ≠ [] := by
    rw [← List.length_pos_iff, ← hread.length_eq]
    exact List.length_pos_iff.mpr (array_ok.mp hitems).2.1
  have hfacts := (accumulates_observations.step_ok merged_nil hgood hmerge).2
  obtain ⟨f, hf⟩ := exists_fact hne
  have hf' : f ∈ observationsFacts observations := by
    rw [hfacts]
    exact Set.mem_union_right _ hf
  push Not at hform
  exact ⟨(text_ok.mp hfunction).2, pc_lt hpc,
    ⟨(text_ok.mp hbytes).2, ⟨hform.1, hform.2.1⟩, hform.2.2.1, by simpa using hform.2.2.2⟩,
    isObservations_merge hv merged_nil hgood hmerge, merged_ne hf'⟩

theorem text_str {s : String} (h : IsText s) : text (.str s) = .ok s := text_ok.mpr ⟨rfl, h⟩

theorem isText_literal {s : String} (h : s.toList.all (fun c => 0 < c.toNat && c.toNat < 128) = true)
    (hlen : 0 < s.toList.length ∧ s.toList.length ≤ 1024) : IsText s := by
  rw [← String.ofList_toList (s := s)]
  apply isText_ofList
  · exact List.length_pos_iff.mp hlen.1
  · exact hlen.2
  · intro c hc
    simpa using List.all_eq_true.mp h c hc

theorem mapM_encode {os : List Observation} (h : ∀ o ∈ os, o.Good) :
    (os.map encode).mapM observation = .ok os := by
  apply mapM_ok.mpr
  induction os with
  | nil => exact .nil
  | cons o os ih =>
    obtain ⟨ho, hos⟩ := List.forall_mem_cons.mp h
    exact .cons (observation_encode ho) (ih hos)

theorem point_toJson {p : Point} (h : p.Good v) : point v p.toJson = .ok p := by
  have hkeys : keys p.toJson ["function", "pc", "expected_bytes", "phase", "predicate_policy",
      "observations"] = .ok () :=
    keys_obj ["expected_bytes", "function", "observations", "pc", "phase", "predicate_policy"] rfl
      (by decide)
  have hphase : text (.str p.phase.name) = .ok p.phase.name := by
    apply text_str
    cases p.phase <;> exact isText_literal rfl (by decide)
  have hpredicate : text (.str p.predicate.name) = .ok p.predicate.name := by
    apply text_str
    cases p.predicate <;> exact isText_literal rfl (by decide)
  have harray : array (.arr (p.observations.map encode)) kObservationsMax =
      .ok (p.observations.map encode) :=
    array_ok.mpr ⟨rfl, by simpa using h.ne, by simpa using h.observations.merged.2⟩
  have hbytes : ¬(p.expectedBytes.utf8ByteSize < 16 ∨ 64 < p.expectedBytes.utf8ByteSize ∨
      p.expectedBytes.utf8ByteSize % 2 ≠ 0 ∨ hex p.expectedBytes.toList = false) := by
    push Not
    exact ⟨h.bytes.size.1, h.bytes.size.2, h.bytes.even, by simp [h.bytes.hex]⟩
  have hread := mapM_encode fun o ho => h.observations.merged.1.good o ho
  unfold point
  rw [hkeys, ok_bind]
  simp only [Point.toJson, member_obj_cons, String.reduceEq, if_true, if_false, ok_bind,
    text_str h.function, pc_hexPc h.pc, text_str h.bytes.text, if_neg hbytes, hphase, hpredicate,
    harray, hread, mergeObservations_self h.observations]
  obtain ⟨function, pc, bytes, phase, predicate, observations⟩ := p
  cases phase <;> cases predicate <;> simp [Phase.name, PredicatePolicy.name]

/-! ### Joining points -/

inductive PointFact where
  | bytes (bytes : String)
  | predicate (predicate : PredicatePolicy)
  | observation (f : ObservationsFact)

def Point.Says (p : Point) : PointFact → Prop
  | .bytes bytes => bytes = p.expectedBytes
  | .predicate predicate => predicate = p.predicate
  | .observation f => f ∈ observationsFacts p.observations

def Point.facts (p : Point) : Set PointFact := {f | p.Says f}

structure PointFits (I : Set PointFact) : Prop where
  bytes : {b | PointFact.bytes b ∈ I}.Subsingleton
  predicate : {p | PointFact.predicate p ∈ I}.Subsingleton
  observations : ObservationsFit {f | PointFact.observation f ∈ I}

theorem PointFits.mono {I J : Set PointFact} (h : PointFits J) (hsub : I ⊆ J) : PointFits I :=
  ⟨h.bytes.anti fun _ hb => hsub hb, h.predicate.anti fun _ hp => hsub hp,
    accumulates_observation.mono h.observations fun _ hf => hsub hf⟩

theorem Point.Good.fits {p : Point} (h : p.Good v) : PointFits p.facts := by
  refine ⟨?_, ?_, h.observations.merged.fit⟩
  · rintro a ha b hb
    exact Eq.trans ha (Eq.symm hb)
  · rintro a ha b hb
    exact Eq.trans ha (Eq.symm hb)

/-- Points of one key join exactly if their bytes and predicate policies agree and their
observations merge. -/
theorem joinPoint_ok {y x z : Point} :
    joinPoint v y x = .ok z ↔
      y.expectedBytes = x.expectedBytes ∧ y.predicate = x.predicate ∧
        ∃ m, mergeObservations v y.observations x.observations = .ok m ∧
          z = { y with observations := m } := by
  unfold joinPoint
  split_ifs with hne
  · refine ⟨fun h => absurd h fail_ne, ?_⟩
    rintro ⟨hbytes, hpredicate, -⟩
    exact absurd hne (by simp [hbytes, hpredicate])
  · push Not at hne
    constructor
    · intro h
      obtain ⟨m, hm, heq⟩ := bind_ok h
      exact ⟨hne.1, hne.2, m, hm, (Except.ok.inj heq).symm⟩
    · rintro ⟨-, -, m, hm, rfl⟩
      rw [hm]
      rfl

theorem joins_point (hv : v.Lawful) :
    Joins Point.key (joinPoint v) (Point.Good v) Point.facts fun _ => PointFits where
  mono := PointFits.mono
  empty _ := by
    refine ⟨Set.subsingleton_empty, Set.subsingleton_empty, ?_⟩
    exact accumulates_observation.mono merged_nil.fit fun _ hf => hf.elim
  good_fits := Point.Good.fits
  merge_ok := by
    intro y x z hy hx hkey hmerge
    obtain ⟨hbytes, hpredicate, m, hm, rfl⟩ := joinPoint_ok.mp hmerge
    have hgood : ∀ o ∈ x.observations, o.Good := hx.observations.merged.1.good
    have hfacts := (accumulates_observations.step_ok hy.observations.merged hgood hm).2
    obtain ⟨f, hf⟩ := exists_fact hy.ne
    have hf' : f ∈ observationsFacts m := by
      rw [hfacts]
      exact Set.mem_union_left _ hf
    refine ⟨⟨hy.function, hy.pc, hy.bytes,
      isObservations_merge hv hy.observations.merged hgood hm, merged_ne hf'⟩, hkey, ?_⟩
    ext g
    cases g with
    | bytes b => simp [Point.facts, Point.Says, hbytes]
    | predicate q => simp [Point.facts, Point.Says, hpredicate]
    | observation g => exact Set.ext_iff.mp hfacts g
  merge_iff := by
    intro y x hy hx hkey
    have hgood : ∀ o ∈ x.observations, o.Good := hx.observations.merged.1.good
    have hiff := (accumulates_observations (v := v)).step_iff hy.observations.merged hgood
    constructor
    · rintro ⟨z, hz⟩
      obtain ⟨hbytes, hpredicate, m, hm, rfl⟩ := joinPoint_ok.mp hz
      refine ⟨?_, ?_, hiff.mp ⟨m, hm⟩⟩
      · rintro a (ha | ha) b (hb | hb) <;> simp_all [Point.facts, Point.Says]
      · rintro a (ha | ha) b (hb | hb) <;> simp_all [Point.facts, Point.Says]
    · intro hfits
      obtain ⟨m, hm⟩ := hiff.mpr hfits.observations
      exact ⟨_, joinPoint_ok.mpr
        ⟨hfits.bytes (.inl rfl) (.inr rfl), hfits.predicate (.inl rfl) (.inr rfl), m, hm, rfl⟩⟩

theorem Point.facts_nonempty (p : Point) : p.facts.Nonempty := ⟨.bytes p.expectedBytes, rfl⟩

theorem Phase.rank_injective : Function.Injective Phase.rank := by
  intro a b h
  cases a <;> cases b <;> first | rfl | cases h

/-- A good point is known by its key and what it says. -/
theorem Point.Good.eq_of_facts {x y : Point} (hx : x.Good v) (hy : y.Good v)
    (hkey : x.key = y.key) (hfacts : x.facts = y.facts) : x = y := by
  have hfact : ∀ f, x.Says f ↔ y.Says f := fun f => by
    have := Set.ext_iff.mp hfacts f
    exact this
  have hobservations := hx.observations.eq_of_facts hy.observations <| by
    ext f
    exact hfact (.observation f)
  have hbytes : x.expectedBytes = y.expectedBytes := (hfact (.bytes x.expectedBytes)).mp rfl
  have hpredicate : x.predicate = y.predicate := (hfact (.predicate x.predicate)).mp rfl
  obtain ⟨function, pc, bytes, phase, predicate, observations⟩ := x
  obtain ⟨function', pc', bytes', phase', predicate', observations'⟩ := y
  have hkey' : (function, pc, phase.rank) = (function', pc', phase'.rank) := hkey
  simp only [Prod.mk.injEq] at hkey'
  obtain ⟨rfl, rfl, hphase⟩ := hkey'
  obtain rfl := Phase.rank_injective hphase
  simp only at hbytes hpredicate hobservations
  rw [hbytes, hpredicate, hobservations]

end CuTracer.Plan
