import CuTracer.Plan.Checks
import CuTracer.Plan.Parse

/-! Merging as a union of facts. An observation says what is read, and merging joins
what two of one key say; it fails where registers are too many or two delays differ.
A point says its bytes, its predicate policy and its observations. So what a list of
points or observations merges to, and whether it does, depends on the facts alone. -/

namespace CuTracer.Plan

/-! ### The JSON library -/

/-- What the loader relies on: a document that was written is read back, event by event,
and objects are sorted maps. -/
structure Vendor.Lawful (v : Vendor) : Prop where
  sax_dump : ∀ (ascii : Bool) (j : Json), j.Plain →
    v.sax (utf8 (v.dump ascii j)) = (j.events 0, .ok j)
  sax_sorted : ∀ (bytes : List UInt8) (j : Json), (v.sax bytes).2 = .ok j → j.Sorted
  dump_ne : ∀ (ascii : Bool) (j : Json), j.Plain → v.dump ascii j ≠ ""
  dump_no_nul : ∀ (ascii : Bool) (j : Json), j.Plain → 0 ∉ utf8 (v.dump ascii j)

theorem Vendor.Lawful.dump_inj {v : Vendor} (hv : v.Lawful) {ascii : Bool} {i j : Json}
    (hi : i.Plain) (hj : j.Plain) (h : v.dump ascii i = v.dump ascii j) : i = j := by
  have hi' := hv.sax_dump ascii i hi
  rw [h, hv.sax_dump ascii j hj] at hi'
  exact (Except.ok.inj (congrArg Prod.snd hi')).symm

/-! ### Observations -/

structure IsRegisters (registers : List Register) : Prop where
  ne : registers ≠ []
  length : registers.length ≤ 512
  increasing : IncreasingBy Register.name registers
  index : ∀ r ∈ registers, r.index < 2 ^ 32

inductive Observation.Good : Observation → Prop
  | registers {rs : List Register} (h : IsRegisters rs) : Good ⟨.registers, rs, 0, 0⟩
  | memoryAddress {mref : ℕ} (h : mref ≤ kExactIntegerMax) : Good ⟨.memoryAddress, [], mref, 0⟩
  | memoryValue {mref : ℕ} (h : mref ≤ kExactIntegerMax) : Good ⟨.memoryValue, [], mref, 0⟩
  | delay {ns : ℕ} (h : 1 ≤ ns ∧ ns ≤ 2 ^ 32 - 1) : Good ⟨.delay, [], 0, ns⟩
  | opcode : Good ⟨.opcode, [], 0, 0⟩
  | tma : Good ⟨.tma, [], 0, 0⟩

inductive ObservationFact where
  | present
  | register (r : Register)
  | delay (ns : ℕ)

def Observation.Says (o : Observation) : ObservationFact → Prop
  | .present => True
  | .register r => r ∈ o.registers
  | .delay ns => o.kind = .delay ∧ ns = o.delayNs

def Observation.facts (o : Observation) : Set ObservationFact := {f | o.Says f}

def ObservationFits (I : Set ObservationFact) : Prop :=
  AtMost 512 {r | ObservationFact.register r ∈ I} ∧
    {ns | ObservationFact.delay ns ∈ I}.Subsingleton

theorem ObservationFits.mono {I J : Set ObservationFact} (h : ObservationFits J) (hsub : I ⊆ J) :
    ObservationFits I :=
  ⟨h.1.mono fun _ hr => hsub hr, h.2.anti fun _ hn => hsub hn⟩

def unionRegisters (rs ts : List Register) : List Register :=
  ts.foldl (emplace Register.name) (rs.foldl (emplace Register.name) [])

theorem mem_unionRegisters {rs ts : List Register} {r : Register} :
    r ∈ unionRegisters rs ts ↔ r ∈ rs ∨ r ∈ ts := by
  simp [unionRegisters, mem_foldl_emplace name_injective]

theorem nodup_unionRegisters (rs ts : List Register) :
    ((unionRegisters rs ts).map Register.name).Nodup :=
  nodup_foldl_emplace ts (nodup_foldl_emplace rs List.nodup_nil)

theorem isRegisters_union {rs ts : List Register} (hrs : IsRegisters rs) (hts : IsRegisters ts)
    (h : (unionRegisters rs ts).length ≤ 512) :
    IsRegisters (sortOn Register.name (unionRegisters rs ts)) := by
  refine ⟨?_, by rwa [length_sortOn], sortOn_increasing (nodup_unionRegisters rs ts), ?_⟩
  · obtain ⟨r, hr⟩ := List.exists_mem_of_ne_nil rs hrs.ne
    exact List.ne_nil_of_mem (mem_sortOn.mpr (mem_unionRegisters.mpr (.inl hr)))
  · intro r hr
    rcases mem_unionRegisters.mp (mem_sortOn.mp hr) with hr | hr
    · exact hrs.index r hr
    · exact hts.index r hr

theorem joinObservation_registers (rs ts : List Register) :
    joinObservation ⟨.registers, rs, 0, 0⟩ ⟨.registers, ts, 0, 0⟩ =
      if 512 < (unionRegisters rs ts).length then fail "register union exceeds limit"
      else .ok ⟨.registers, sortOn Register.name (unionRegisters rs ts), 0, 0⟩ := rfl

theorem joinObservation_delay (m n : ℕ) :
    joinObservation ⟨.delay, [], 0, m⟩ ⟨.delay, [], 0, n⟩ =
      if m ≠ n then fail "conflicting delay at one point" else .ok ⟨.delay, [], 0, m⟩ := by
  simp [joinObservation]

/-- Good observations of one key: what the key leaves open is the registers of one and
the delay of another. -/
theorem Observation.Good.cases_key {y x : Observation} (hy : y.Good) (hx : x.Good)
    (hkey : y.key = x.key) :
    (∃ rs ts, IsRegisters rs ∧ IsRegisters ts ∧ y = ⟨.registers, rs, 0, 0⟩ ∧
      x = ⟨.registers, ts, 0, 0⟩) ∨
    (∃ m n, y = ⟨.delay, [], 0, m⟩ ∧ x = ⟨.delay, [], 0, n⟩) ∨
    (y = x ∧ y.kind ≠ .registers ∧ y.kind ≠ .delay) := by
  have hkind : y.kind = x.kind := congrArg Prod.fst hkey
  have hmref := congrArg Prod.snd hkey
  cases hy with
  | registers hrs =>
    cases hx with
    | registers hts => exact .inl ⟨_, _, hrs, hts, rfl, rfl⟩
    | _ => cases hkind
  | delay hm =>
    cases hx with
    | delay hn => exact .inr (.inl ⟨_, _, rfl, rfl⟩)
    | _ => cases hkind
  | memoryAddress hm =>
    cases hx with
    | memoryAddress hn =>
      simp only [Observation.key, true_or, if_true] at hmref
      subst hmref
      exact .inr (.inr ⟨rfl, (fun h => by cases h), (fun h => by cases h)⟩)
    | _ => cases hkind
  | memoryValue hm =>
    cases hx with
    | memoryValue hn =>
      simp only [Observation.key, or_true, if_true] at hmref
      subst hmref
      exact .inr (.inr ⟨rfl, (fun h => by cases h), (fun h => by cases h)⟩)
    | _ => cases hkind
  | opcode =>
    cases hx with
    | opcode => exact .inr (.inr ⟨rfl, (fun h => by cases h), (fun h => by cases h)⟩)
    | _ => cases hkind
  | tma =>
    cases hx with
    | tma => exact .inr (.inr ⟨rfl, (fun h => by cases h), (fun h => by cases h)⟩)
    | _ => cases hkind

/-- An observation joined to itself stays as it is, unless registers have to be sorted. -/
theorem joinObservation_same {y : Observation} (hr : y.kind ≠ .registers) :
    joinObservation y y = .ok y := by
  rw [joinObservation, if_neg hr, if_neg fun h => h.2 rfl]

theorem Observation.Good.fits {o : Observation} (h : o.Good) : ObservationFits o.facts := by
  constructor
  · refine ⟨o.registers, ?_, fun r hr => hr⟩
    cases h with
    | registers h => exact h.length
    | _ => simp
  · rintro m ⟨-, hm⟩ n ⟨-, hn⟩
    exact hm.trans hn.symm

/-- Merging observations joins what they say. -/
theorem joins_observation :
    Joins Observation.key joinObservation Observation.Good Observation.facts
      fun _ => ObservationFits where
  mono := ObservationFits.mono
  empty _ := ⟨atMost_empty 512, Set.subsingleton_empty⟩
  good_fits := Observation.Good.fits
  merge_ok := by
    intro y x z hy hx hkey hmerge
    rcases hy.cases_key hx hkey with ⟨rs, ts, hrs, hts, rfl, rfl⟩ | ⟨m, n, rfl, rfl⟩ | ⟨rfl, hr, -⟩
    · rw [joinObservation_registers] at hmerge
      split_ifs at hmerge with hlen
      · exact absurd hmerge fail_ne
      · cases hmerge
        refine ⟨.registers (isRegisters_union hrs hts (by omega)), rfl, ?_⟩
        ext f
        cases f with
        | present => simp [Observation.facts, Observation.Says]
        | register r => simp [Observation.facts, Observation.Says, mem_unionRegisters]
        | delay ns => simp [Observation.facts, Observation.Says]
    · rw [joinObservation_delay] at hmerge
      split_ifs at hmerge with hne
      · exact absurd hmerge fail_ne
      · cases hmerge
        rw [not_not] at hne
        subst hne
        exact ⟨hy, rfl, (Set.union_self _).symm⟩
    · rw [joinObservation_same hr] at hmerge
      cases hmerge
      exact ⟨hy, rfl, (Set.union_self _).symm⟩
  merge_iff := by
    intro y x hy hx hkey
    rcases hy.cases_key hx hkey with ⟨rs, ts, hrs, hts, rfl, rfl⟩ | ⟨m, n, rfl, rfl⟩ | ⟨rfl, hr, -⟩
    · have hmem : ∀ r, r ∈ {r | ObservationFact.register r ∈
          Observation.facts ⟨.registers, rs, 0, 0⟩ ∪ Observation.facts ⟨.registers, ts, 0, 0⟩} ↔
          r ∈ unionRegisters rs ts := fun r => mem_unionRegisters.symm
      have hdelay : {ns | ObservationFact.delay ns ∈
          Observation.facts ⟨.registers, rs, 0, 0⟩ ∪
            Observation.facts ⟨.registers, ts, 0, 0⟩}.Subsingleton := by
        rintro m (⟨hm, -⟩ | ⟨hm, -⟩) <;> cases hm
      rw [joinObservation_registers, ObservationFits,
        atMost_iff_length (List.Nodup.of_map _ (nodup_unionRegisters rs ts)) hmem]
      split_ifs with hlen
      · exact ⟨fun ⟨z, hz⟩ => absurd hz fail_ne, fun ⟨hle, _⟩ => absurd hlen (by omega)⟩
      · exact ⟨fun _ => ⟨by omega, hdelay⟩, fun _ => ⟨_, rfl⟩⟩
    · rw [joinObservation_delay]
      split_ifs with hne
      · refine ⟨fun ⟨z, hz⟩ => absurd hz fail_ne, fun hfits => absurd ?_ hne⟩
        exact hfits.2 (.inl ⟨rfl, rfl⟩) (.inr ⟨rfl, rfl⟩)
      · rw [not_not] at hne
        subst hne
        rw [Set.union_self]
        exact ⟨fun _ => hx.fits, fun _ => ⟨_, rfl⟩⟩
    · rw [joinObservation_same hr, Set.union_self]
      exact ⟨fun _ => hx.fits, fun _ => ⟨_, rfl⟩⟩

theorem Observation.facts_nonempty (o : Observation) : o.facts.Nonempty := ⟨.present, trivial⟩

/-- A good observation is known by its key and what it says. -/
theorem Observation.Good.eq_of_facts {x y : Observation} (hx : x.Good) (hy : y.Good)
    (hkey : x.key = y.key) (hfacts : x.facts = y.facts) : x = y := by
  have hfact : ∀ f, x.Says f ↔ y.Says f := fun f => by
    have := Set.ext_iff.mp hfacts f
    exact this
  rcases hx.cases_key hy hkey with ⟨rs, ts, hrs, hts, rfl, rfl⟩ | ⟨m, n, rfl, rfl⟩ | ⟨rfl, -⟩
  · rw [eq_of_increasing hrs.increasing hts.increasing fun r => hfact (.register r)]
  · obtain ⟨-, rfl⟩ := (hfact (.delay m)).mp ⟨rfl, rfl⟩
    rfl
  · rfl

/-! ### Reading an observation back -/

theorem foldlM_emplaceRegister {items : List Json} {as rs : List Register}
    (has : (as.map Register.name).Nodup) :
    items.foldlM emplaceRegister as = .ok rs ↔
      ∃ ts, List.Forall₂ (fun j r => reg j = .ok r) items ts ∧ rs = as ++ ts ∧
        ((as ++ ts).map Register.name).Nodup := by
  induction items generalizing as with
  | nil =>
    constructor
    · intro h
      cases h
      exact ⟨[], .nil, (List.append_nil _).symm, by rwa [List.append_nil]⟩
    · rintro ⟨ts, hts, rfl, -⟩
      cases hts
      rw [List.append_nil]
      rfl
  | cons j items ih =>
    rw [List.foldlM_cons]
    constructor
    · intro h
      obtain ⟨bs, hstep, hrest⟩ := bind_ok h
      obtain ⟨r, hr, hnew⟩ := bind_ok hstep
      split_ifs at hnew with hmem
      · exact absurd hnew fail_ne
      · cases hnew
        have hnodup : ((as ++ [r]).map Register.name).Nodup := by
          rw [List.map_append, List.map_singleton, List.nodup_append]
          refine ⟨has, List.nodup_singleton _, ?_⟩
          rintro n hn m hm rfl
          exact hmem (List.mem_singleton.mp hm ▸ hn)
        obtain ⟨ts, hts, rfl, hts'⟩ := (ih hnodup).mp hrest
        rw [List.append_assoc, List.singleton_append] at hts'
        exact ⟨r :: ts, .cons hr hts, by rw [List.append_assoc, List.singleton_append], hts'⟩
    · rintro ⟨ts, hts, rfl, hnodup⟩
      cases hts with
      | @cons _ r _ ts hr hts =>
        rw [List.append_cons] at hnodup
        have has' : ((as ++ [r]).map Register.name).Nodup := by
          rw [List.map_append] at hnodup
          exact (List.nodup_append.mp hnodup).1
        have hmem : r.name ∉ as.map Register.name := by
          rw [List.map_append, List.nodup_append] at has'
          exact fun hr => has'.2.2 _ hr _ (List.mem_singleton_self _) rfl
        rw [emplaceRegister, hr, ok_bind, if_neg hmem, ok_bind]
        exact (ih has').mpr ⟨ts, hts, List.append_cons as r ts, hnodup⟩

theorem registers_ok {items : List Json} {rs : List Register} :
    items.foldlM emplaceRegister [] = .ok rs ↔
      List.Forall₂ (fun j r => reg j = .ok r) items rs ∧ (rs.map Register.name).Nodup := by
  have hnil : (List.map Register.name []).Nodup := List.nodup_nil
  rw [foldlM_emplaceRegister hnil]
  constructor
  · rintro ⟨ts, hts, rfl, hnodup⟩
    exact ⟨hts, hnodup⟩
  · rintro ⟨hrs, hnodup⟩
    exact ⟨rs, hrs, rfl, hnodup⟩

theorem forall₂_reg {rs : List Register} (h : ∀ r ∈ rs, r.index < 2 ^ 32) :
    List.Forall₂ (fun j r => reg j = .ok r) ((rs.map Register.name).map .str) rs := by
  induction rs with
  | nil => exact .nil
  | cons r rs ih =>
    obtain ⟨hr, hrs⟩ := List.forall_mem_cons.mp h
    exact .cons (reg_name hr) (ih hrs)

theorem sortOn_names {rs : List Register} (h : IncreasingBy Register.name rs) :
    sortOn id (rs.map Register.name) = rs.map Register.name :=
  sortOn_eq_self (List.pairwise_map.mpr h)

theorem isText_kindName (kind : ObservationKind) : IsText (kindName kind) := by
  cases kind <;> exact ⟨by decide, by decide, by decide⟩

section

attribute [local simp] observation encode contains_obj_cons member_obj_cons kindName

/-- A good observation is read from its JSON as it is. -/
theorem observation_encode {o : Observation} (h : o.Good) : observation (encode o) = .ok o := by
  have hkind : ∀ kind, text (.str (kindName kind)) = .ok (kindName kind) := fun kind =>
    text_ok.mpr ⟨rfl, isText_kindName kind⟩
  cases h with
  | registers hrs =>
    rename_i rs
    have harray : array (strs (rs.map Register.name)) 512 =
        .ok ((rs.map Register.name).map .str) :=
      array_ok.mpr ⟨rfl, by simpa using hrs.ne, by simpa using hrs.length⟩
    have hfold : ((rs.map Register.name).map Json.str).foldlM emplaceRegister [] = .ok rs :=
      registers_ok.mpr ⟨forall₂_reg hrs.index, hrs.increasing.nodup⟩
    have hkeys : keys (.obj [("kind", .str "reg_trace"),
        ("registers", strs (rs.map Register.name))]) ["kind", "registers"] = .ok () :=
      keys_obj _ rfl (List.Perm.refl _)
    have hkind := hkind .registers
    rw [List.map_map] at harray hfold
    simp only [kindName] at hkind
    simp [hkind, hkeys,
      sortOn_names hrs.increasing, harray, hfold, sortOn_eq_self hrs.increasing]
  | memoryAddress hm =>
    rename_i mref
    have hkeys : keys (.obj [("kind", .str "mem_addr_trace"), ("mref", .int mref)])
        ["kind", "mref"] = .ok () := keys_obj _ rfl (List.Perm.refl _)
    have hkind := hkind .memoryAddress
    simp only [kindName] at hkind
    simp [hkind, hkeys,
      integer_ok.mpr ⟨rfl, Nat.zero_le mref, hm⟩]
  | memoryValue hm =>
    rename_i mref
    have hkeys : keys (.obj [("kind", .str "mem_value_trace"), ("mref", .int mref)])
        ["kind", "mref"] = .ok () := keys_obj _ rfl (List.Perm.refl _)
    have hkind := hkind .memoryValue
    simp only [kindName] at hkind
    simp [hkind, hkeys,
      integer_ok.mpr ⟨rfl, Nat.zero_le mref, hm⟩]
  | delay hd =>
    rename_i ns
    have hkeys : keys (.obj [("delay_ns", .int ns), ("kind", .str "random_delay")])
        ["kind", "delay_ns"] = .ok () := keys_obj _ rfl (List.Perm.swap _ _ _)
    have hkind := hkind .delay
    simp only [kindName] at hkind
    have hns : integer (.int ns) 1 4294967295 = .ok ns := integer_ok.mpr ⟨rfl, hd⟩
    simp [hkind, hkeys, hns]
  | opcode =>
    have hkeys : keys (.obj [("kind", .str "opcode_only")]) ["kind"] = .ok () :=
      keys_obj _ rfl (List.Perm.refl _)
    have hkind := hkind .opcode
    simp only [kindName] at hkind
    simp [hkind, hkeys]
  | tma =>
    have hkeys : keys (.obj [("kind", .str "tma_trace")]) ["kind"] = .ok () :=
      keys_obj _ rfl (List.Perm.refl _)
    have hkind := hkind .tma
    simp only [kindName] at hkind
    simp [hkind, hkeys]

end

theorem good_observation {j : Json} {o : Observation} (h : observation j = .ok o) : o.Good := by
  unfold observation at h
  split at h
  · exact absurd h fail_ne
  obtain ⟨kindJson, -, h⟩ := bind_ok h
  obtain ⟨kind, -, h⟩ := bind_ok h
  by_cases hreg : kind = "reg_trace"
  · rw [if_pos hreg] at h
    obtain ⟨-, -, h⟩ := bind_ok h
    obtain ⟨registersJson, -, h⟩ := bind_ok h
    obtain ⟨items, hitems, h⟩ := bind_ok h
    obtain ⟨rs, hrs, h⟩ := bind_ok h
    cases h
    obtain ⟨-, hne, hlen⟩ := array_ok.mp hitems
    obtain ⟨hread, hnodup⟩ := registers_ok.mp hrs
    have hlength := hread.length_eq
    refine .registers ⟨?_, by rw [length_sortOn]; omega, sortOn_increasing hnodup, ?_⟩
    · rw [← List.length_pos_iff, length_sortOn, ← hlength]
      exact List.length_pos_iff.mpr hne
    · intro r hr
      obtain ⟨item, -, hitem⟩ := forall₂_mem_right hread (mem_sortOn.mp hr)
      exact reg_lt hitem
  rw [if_neg hreg] at h
  by_cases hmem : kind = "mem_addr_trace" ∨ kind = "mem_value_trace"
  · rw [if_pos hmem] at h
    obtain ⟨-, -, h⟩ := bind_ok h
    obtain ⟨mrefJson, -, h⟩ := bind_ok h
    obtain ⟨mref, hmref, h⟩ := bind_ok h
    cases h
    have hle := (integer_ok.mp hmref).2.2
    split_ifs
    · exact .memoryAddress hle
    · exact .memoryValue hle
  rw [if_neg hmem] at h
  by_cases hdelay : kind = "random_delay"
  · rw [if_pos hdelay] at h
    obtain ⟨-, -, h⟩ := bind_ok h
    obtain ⟨delayJson, -, h⟩ := bind_ok h
    obtain ⟨delay, hns, h⟩ := bind_ok h
    cases h
    exact .delay (integer_ok.mp hns).2
  rw [if_neg hdelay] at h
  obtain ⟨-, -, h⟩ := bind_ok h
  split_ifs at h
  · cases h
    exact .opcode
  · cases h
    exact .tma
  · exact absurd h fail_ne

theorem plain_strs (xs : List String) : (strs xs).Plain := by
  rw [strs, Json.plain_arr]
  intro v hv
  obtain ⟨s, -, rfl⟩ := List.mem_map.mp hv
  exact Json.plain_str s

theorem plain_nat {n : ℕ} (h : n < 2 ^ 64) : (Json.int n).Plain := by
  rw [Json.plain_int]
  omega

theorem plain_encode {o : Observation} (h : o.Good) : (encode o).Plain := by
  have hmref : ["kind", "mref"].Pairwise (· < ·) := by decide
  cases h with
  | registers hrs =>
    have hkeys : ["kind", "registers"].Pairwise (· < ·) := by decide
    exact Json.plain_obj.mpr ⟨hkeys, by simp [plain_strs]⟩
  | memoryAddress hm =>
    have hm := plain_nat (lt_of_le_of_lt hm (by decide))
    exact Json.plain_obj.mpr ⟨hmref, by simp [hm]⟩
  | memoryValue hm =>
    have hm := plain_nat (lt_of_le_of_lt hm (by decide))
    exact Json.plain_obj.mpr ⟨hmref, by simp [hm]⟩
  | delay hd =>
    have hkeys : ["delay_ns", "kind"].Pairwise (· < ·) := by decide
    have hns := plain_nat (lt_of_le_of_lt hd.2 (by decide))
    exact Json.plain_obj.mpr ⟨hkeys, by simp [hns]⟩
  | opcode => exact Json.plain_obj.mpr ⟨List.pairwise_singleton _ _, by simp⟩
  | tma => exact Json.plain_obj.mpr ⟨List.pairwise_singleton _ _, by simp⟩

/-! ### Lists of observations -/

variable {v : Vendor}

/-- Observations of different keys, not too many. -/
def Merged (m : List Observation) : Prop :=
  Collected Observation.key Observation.Good m ∧ m.length ≤ kObservationsMax

abbrev ObservationsFact := (ObservationKind × ℕ) × ObservationFact

def observationsFacts (m : List Observation) : Set ObservationsFact :=
  keyed Observation.key Observation.facts m

def ObservationsFit (I : Set ObservationsFact) : Prop :=
  (∀ k, ObservationFits (at_ k I)) ∧ AtMost kObservationsMax (Prod.fst '' I)

theorem accumulates_observation :
    Accumulates mergeObservation Merged Observation.Good observationsFacts
      (fun o => {p | p.1 = o.key ∧ p.2 ∈ o.facts}) ObservationsFit := by
  convert joins_observation.accumulates_atMost (fun o _ => o.facts_nonempty) kObservationsMax
    ⟨"instrumentation plan: " ++ "observation union exceeds limit"⟩ using 1
  · funext m o
    unfold mergeObservation
    split_ifs <;> rfl
  · rfl
  · rfl
  · rfl

theorem Merged.fit {m : List Observation} (h : Merged m) : ObservationsFit (observationsFacts m) := by
  constructor
  · intro k
    by_cases hk : ∃ o ∈ m, o.key = k
    · obtain ⟨o, ho, rfl⟩ := hk
      rw [observationsFacts, at_keyed h.1.nodup ho]
      exact (h.1.good o ho).fits
    · rw [observationsFacts, at_keyed_of_ne fun o ho heq => hk ⟨o, ho, heq⟩]
      exact joins_observation.empty k
  · rw [atMost_iff_length h.1.nodup, List.length_map]
    · exact h.2
    · intro k
      constructor
      · rintro ⟨p, ⟨o, ho, hkey, -⟩, rfl⟩
        exact hkey ▸ List.mem_map_of_mem ho
      · intro hk
        obtain ⟨o, ho, rfl⟩ := List.mem_map.mp hk
        exact ⟨(o.key, .present), ⟨o, ho, rfl, trivial⟩, rfl⟩

theorem merged_nil : Merged [] := ⟨collected_nil _ _, by decide⟩

theorem Merged.perm {m n : List Observation} (h : Merged m) (hperm : m.Perm n) : Merged n :=
  ⟨h.1.perm hperm, hperm.length_eq ▸ h.2⟩

/-- The place of an observation in a point: the order of the compact texts. -/
def dumped (v : Vendor) (o : Observation) : String := v.dump false (encode o)

theorem accumulates_observations :
    Accumulates (mergeObservations v) Merged (fun incoming => ∀ o ∈ incoming, o.Good)
      observationsFacts observationsFacts ObservationsFit :=
  accumulates_observation.batch (fun _ h => h.fit) fun _ h =>
    ⟨h.perm (sortOn_perm _ _).symm, factsOf_perm (sortOn_perm _ _)⟩

theorem dumped_injOn (hv : v.Lawful) {x y : Observation} (hx : x.Good) (hy : y.Good)
    (h : dumped v x = dumped v y) : x = y := by
  have hencode := hv.dump_inj (plain_encode hx) (plain_encode hy) h
  have hx' := observation_encode hx
  rw [hencode, observation_encode hy] at hx'
  exact (Except.ok.inj hx').symm

theorem Merged.nodup_dumped (hv : v.Lawful) {m : List Observation} (h : Merged m) :
    (m.map (dumped v)).Nodup :=
  List.Nodup.map_on (fun x hx y hy => dumped_injOn hv (h.1.good x hx) (h.1.good y hy))
    (List.Nodup.of_map _ h.1.nodup)

/-- The observations of a point: merged and in order. -/
structure IsObservations (v : Vendor) (m : List Observation) : Prop where
  merged : Merged m
  increasing : IncreasingBy (dumped v) m

theorem isObservations_merge (hv : v.Lawful) {dest incoming m : List Observation}
    (hdest : Merged dest) (hincoming : ∀ o ∈ incoming, o.Good)
    (h : mergeObservations v dest incoming = .ok m) : IsObservations v m := by
  obtain ⟨n, hfold, heq⟩ := bind_ok h
  cases heq
  have hn := (accumulates_observation.foldlM_ok hdest hincoming hfold).1
  exact ⟨hn.perm (sortOn_perm _ _).symm, sortOn_increasing (hn.nodup_dumped hv)⟩

theorem IsObservations.eq_of_facts {m n : List Observation} (hm : IsObservations v m)
    (hn : IsObservations v n) (h : observationsFacts m = observationsFacts n) : m = n := by
  apply eq_of_perm_of_increasing _ hm.increasing hn.increasing
  exact hm.merged.1.perm_of_keyed hn.merged.1 (fun o _ => o.facts_nonempty)
    (fun _ _ hx hy => hx.eq_of_facts hy) h

theorem mergeObservations_self {m : List Observation} (h : IsObservations v m) :
    mergeObservations v [] m = .ok m := by
  have hfold : ∀ as bs : List Observation, (as ++ bs).length ≤ kObservationsMax →
      ((as ++ bs).map Observation.key).Nodup → bs.foldlM mergeObservation as = .ok (as ++ bs) := by
    intro as bs
    induction bs generalizing as with
    | nil =>
      intro _ _
      rw [List.append_nil]
      rfl
    | cons b bs ih =>
      intro hlen hnodup
      rw [List.append_cons] at hlen hnodup ⊢
      have hnew : ∀ a ∈ as, a.key ≠ b.key := by
        rw [List.map_append, List.map_append, List.nodup_append, List.nodup_append] at hnodup
        exact fun a ha => hnodup.1.2.2 _ (List.mem_map_of_mem ha) _ List.mem_cons_self
      have hroom : ¬kObservationsMax ≤ as.length := by
        rw [List.length_append, List.length_append, List.length_singleton] at hlen
        omega
      rw [List.foldlM_cons, mergeObservation, if_neg fun hfull => hroom hfull.2,
        emplaceWith_new hnew]
      exact ih (as ++ [b]) hlen hnodup
  rw [mergeObservations, hfold [] m h.merged.2 h.merged.1.nodup, List.nil_append, ok_bind]
  exact congrArg Except.ok (sortOn_eq_self h.increasing)

end CuTracer.Plan
