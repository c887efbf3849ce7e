import CuTracer.Plan.FixedPoint

/-! What a plan asks for. An atom is one thing observed at one point of one configuration
of one kernel. The atoms of a file are read from the JSON of its documents before
anything is merged; the plan it is parsed to has the same atoms, and each of its
configurations has the settings that the file gives its identifier. -/

namespace CuTracer.Plan

variable {v : Vendor} {j : Json}

/-! ### Atoms -/

inductive Observed where
  | register (r : Register)
  | memoryAddress (mref : ℕ)
  | memoryValue (mref : ℕ)
  | delay (ns : ℕ)
  | opcode
  | tma

structure PointAtom where
  function : String
  pc : ℕ
  expectedBytes : String
  phase : Phase
  predicate : PredicatePolicy
  observed : Observed

/-- One thing observed at a point of a configuration of a kernel. -/
structure Atom where
  cubinSha256 : String
  entry : String
  target : String
  configId : String
  point : PointAtom

def Atom.kernelKey (a : Atom) : KernelKey := toLex (a.cubinSha256, toLex (a.entry, a.target))

/-! ### Atoms of a plan -/

def Observation.Observes (o : Observation) : Observed → Prop
  | .register r => o.kind = .registers ∧ r ∈ o.registers
  | .memoryAddress mref => o.kind = .memoryAddress ∧ o.mref = mref
  | .memoryValue mref => o.kind = .memoryValue ∧ o.mref = mref
  | .delay ns => o.kind = .delay ∧ o.delayNs = ns
  | .opcode => o.kind = .opcode
  | .tma => o.kind = .tma

structure Point.Asks (p : Point) (a : PointAtom) : Prop where
  function : p.function = a.function
  pc : p.pc = a.pc
  expectedBytes : p.expectedBytes = a.expectedBytes
  phase : p.phase = a.phase
  predicate : p.predicate = a.predicate
  observed : ∃ o ∈ p.observations, o.Observes a.observed

def planAtoms (ks : List Kernel) : Set Atom :=
  {a | ∃ k ∈ ks, k.key = a.kernelKey ∧
    ∃ c ∈ k.configs, c.id = a.configId ∧ ∃ p ∈ c.points, p.Asks a.point}

def planSettings (ks : List Kernel) : Set (KernelKey × Config) :=
  {s | ∃ k ∈ ks, k.key = s.1 ∧ ∃ c ∈ k.configs, { c with points := [] } = s.2}

/-! ### Atoms of a file -/

def Shows (j : Json) : Observed → Prop
  | .register r => member j "kind" = .ok (.str "reg_trace") ∧
      ∃ item ∈ itemsAt j "registers", reg item = .ok r
  | .memoryAddress mref => member j "kind" = .ok (.str "mem_addr_trace") ∧
      member j "mref" = .ok (.int mref)
  | .memoryValue mref => member j "kind" = .ok (.str "mem_value_trace") ∧
      member j "mref" = .ok (.int mref)
  | .delay ns => member j "kind" = .ok (.str "random_delay") ∧
      member j "delay_ns" = .ok (.int ns)
  | .opcode => member j "kind" = .ok (.str "opcode_only")
  | .tma => member j "kind" = .ok (.str "tma_trace")

structure ShowsPoint (j : Json) (a : PointAtom) : Prop where
  function : member j "function" = .ok (.str a.function)
  pc : ∃ w, member j "pc" = .ok w ∧ pc w = .ok a.pc
  expectedBytes : member j "expected_bytes" = .ok (.str a.expectedBytes)
  phase : member j "phase" = .ok (.str a.phase.name)
  predicate : member j "predicate_policy" = .ok (.str a.predicate.name)
  observed : ∃ item ∈ itemsAt j "observations", Shows item a.observed

/-- The JSON of a kernel in one of the documents of a file. -/
def IsSource (docs : List Json) (j : Json) : Prop :=
  ∃ doc ∈ docs, ∃ items, documentKernels docs.length doc = .ok items ∧ j ∈ items

def sourceAtoms (docs : List Json) : Set Atom :=
  {a | ∃ j, IsSource docs j ∧ (∃ k, kernelFields j = .ok k ∧ k.key = a.kernelKey) ∧
    ∃ item ∈ itemsAt j "configs", (∃ c, configFields item = .ok c ∧ c.id = a.configId) ∧
      ∃ p ∈ itemsAt item "points", ShowsPoint p a.point}

/-- The configurations of the kernels of a file, without their points. -/
def sourceSettings (docs : List Json) : Set (KernelKey × Config) :=
  {s | ∃ j, IsSource docs j ∧ (∃ k, kernelFields j = .ok k ∧ k.key = s.1) ∧
    ∃ item ∈ itemsAt j "configs", configFields item = .ok s.2}

/-! ### Observations -/

def Observed.fact : Observed → ObservationsFact
  | .register r => ((.registers, 0), .register r)
  | .memoryAddress mref => ((.memoryAddress, mref), .present)
  | .memoryValue mref => ((.memoryValue, mref), .present)
  | .delay ns => ((.delay, 0), .delay ns)
  | .opcode => ((.opcode, 0), .present)
  | .tma => ((.tma, 0), .present)

theorem Observation.Good.observes_iff {o : Observation} (h : o.Good) (x : Observed) :
    o.Observes x ↔ x.fact.1 = o.key ∧ x.fact.2 ∈ o.facts := by
  cases h <;> cases x <;>
    simp [Observation.Observes, Observed.fact, Observation.key, Observation.facts,
      Observation.Says, eq_comm]

theorem observes_iff_fact {m : List Observation} (hm : ∀ o ∈ m, o.Good) (x : Observed) :
    (∃ o ∈ m, o.Observes x) ↔ x.fact ∈ observationsFacts m := by
  constructor
  · rintro ⟨o, ho, hx⟩
    exact ⟨o, ho, ((hm o ho).observes_iff x).mp hx⟩
  · rintro ⟨o, ho, hx⟩
    exact ⟨o, ho, ((hm o ho).observes_iff x).mpr hx⟩

theorem member_str {key s t : String} (h : member j key = .ok (.str s)) :
    member j key = .ok (.str t) ↔ s = t := by
  rw [h, Except.ok.injEq, Json.str.injEq]

theorem member_int {key : String} {m n : ℕ} (h : member j key = .ok (.int m)) :
    member j key = .ok (.int n) ↔ m = n := by
  rw [h, Except.ok.injEq, Json.int.injEq, Nat.cast_inj]

/-- An observation is read as what its JSON asks for. -/
theorem shows_iff {o : Observation} (h : observation j = .ok o) (x : Observed) :
    Shows j x ↔ o.Observes x := by
  unfold observation at h
  split at h
  · exact absurd h fail_ne
  obtain ⟨kindJson, hkindJson, h⟩ := bind_ok h
  obtain ⟨kind, hkind, h⟩ := bind_ok h
  rw [(text_ok.mp hkind).1] at hkindJson
  have hname := fun t => member_str (t := t) hkindJson
  by_cases hreg : kind = "reg_trace"
  · rw [if_pos hreg] at h
    obtain ⟨-, -, h⟩ := bind_ok h
    obtain ⟨registersJson, hmember, h⟩ := bind_ok h
    obtain ⟨items, hitems, h⟩ := bind_ok h
    obtain ⟨rs, hrs, h⟩ := bind_ok h
    cases h
    obtain ⟨hread, -⟩ := registers_ok.mp hrs
    have hmem : ∀ r, (∃ item ∈ items, reg item = .ok r) ↔ r ∈ rs := by
      intro r
      constructor
      · rintro ⟨item, hitem, hr⟩
        obtain ⟨s, hs, hs'⟩ := forall₂_mem_right hread.flip hitem
        obtain rfl := Except.ok.inj (hr.symm.trans hs')
        exact hs
      · exact fun hr => forall₂_mem_right hread hr
    cases x <;> simp [Shows, Observation.Observes, hname, hreg, itemsAt_of_member hmember hitems,
      hmem, mem_sortOn]
  rw [if_neg hreg] at h
  by_cases hmem : kind = "mem_addr_trace" ∨ kind = "mem_value_trace"
  · rw [if_pos hmem] at h
    obtain ⟨-, -, h⟩ := bind_ok h
    obtain ⟨mrefJson, hmember, h⟩ := bind_ok h
    obtain ⟨mref, hmref, h⟩ := bind_ok h
    cases h
    obtain ⟨rfl, -⟩ := integer_ok.mp hmref
    have hvalue := fun n => member_int (n := n) hmember
    rcases hmem with rfl | rfl
    · cases x <;> simp [Shows, Observation.Observes, hname, hvalue]
    · cases x <;> simp [Shows, Observation.Observes, hname, hvalue]
  rw [if_neg hmem] at h
  push Not at hmem
  by_cases hdelay : kind = "random_delay"
  · rw [if_pos hdelay] at h
    obtain ⟨-, -, h⟩ := bind_ok h
    obtain ⟨delayJson, hmember, h⟩ := bind_ok h
    obtain ⟨delay, hns, h⟩ := bind_ok h
    cases h
    obtain ⟨rfl, -⟩ := integer_ok.mp hns
    have hvalue := fun n => member_int (n := n) hmember
    cases x <;> simp [Shows, Observation.Observes, hname, hdelay, hvalue]
  rw [if_neg hdelay] at h
  obtain ⟨-, -, h⟩ := bind_ok h
  split_ifs at h with hopcode htma
  · cases h
    cases x <;> simp [Shows, Observation.Observes, hname, hopcode]
  · cases h
    cases x <;> simp [Shows, Observation.Observes, hname, htma]
  · exact absurd h fail_ne

/-! ### Points -/

def PointAtom.key (a : PointAtom) : String ×ₗ (ℕ ×ₗ ℕ) :=
  toLex (a.function, toLex (a.pc, a.phase.rank))

/-- A point asks for an atom exactly if the atom has its key and its facts. -/
theorem Point.Good.asks_iff {p : Point} (h : p.Good v) (a : PointAtom) :
    p.Asks a ↔ p.key = a.key ∧ .bytes a.expectedBytes ∈ p.facts ∧
      .predicate a.predicate ∈ p.facts ∧ .observation a.observed.fact ∈ p.facts := by
  have hobserves := observes_iff_fact h.observations.merged.1.good a.observed
  constructor
  · rintro ⟨hfunction, hpc, hbytes, hphase, hpredicate, hobserved⟩
    refine ⟨?_, hbytes.symm, hpredicate.symm, hobserves.mp hobserved⟩
    rw [Point.key, PointAtom.key, hfunction, hpc, hphase]
  · rintro ⟨hkey, hbytes, hpredicate, hobserved⟩
    have hkey' : (p.function, p.pc, p.phase.rank) = (a.function, a.pc, a.phase.rank) := hkey
    simp only [Prod.mk.injEq] at hkey'
    obtain ⟨hfunction, hpc, hphase⟩ := hkey'
    exact ⟨hfunction, hpc, Eq.symm hbytes, Phase.rank_injective hphase, Eq.symm hpredicate,
      hobserves.mpr hobserved⟩

/-- Points that are collected ask for what they asked for one by one. -/
theorem asks_collected {ps cs : List Point} (hps : Collected Point.key (Point.Good v) ps)
    (hcs : ∀ c ∈ cs, c.Good v)
    (hkeyed : keyed Point.key Point.facts ps = keyed Point.key Point.facts cs) (a : PointAtom) :
    (∃ p ∈ ps, p.Asks a) ↔ ∃ c ∈ cs, c.Asks a := by
  constructor
  · rintro ⟨p, hp, hasks⟩
    obtain ⟨hkey, hbytes, hpredicate, hobserved⟩ := ((hps.good p hp).asks_iff a).mp hasks
    obtain ⟨c, hc, hckey, hcobserved, hsub⟩ := hps.comes hkeyed hp hobserved
    -- the point that the observation comes from has the bytes and the policy of its key
    have hcbytes : c.expectedBytes = p.expectedBytes :=
      hsub (show PointFact.bytes c.expectedBytes ∈ c.facts from rfl)
    have hcpredicate : c.predicate = p.predicate :=
      hsub (show PointFact.predicate c.predicate ∈ c.facts from rfl)
    refine ⟨c, hc, ((hcs c hc).asks_iff a).mpr ⟨hckey.trans hkey, ?_, ?_, hcobserved⟩⟩
    · exact Eq.trans hbytes hcbytes.symm
    · exact Eq.trans hpredicate hcpredicate.symm
  · rintro ⟨c, hc, hasks⟩
    obtain ⟨hkey, hbytes, hpredicate, hobserved⟩ := ((hcs c hc).asks_iff a).mp hasks
    obtain ⟨p, hp, hpkey, hsub⟩ := hps.covers hkeyed hc c.facts_nonempty
    exact ⟨p, hp, ((hps.good p hp).asks_iff a).mpr
      ⟨hpkey.trans hkey, hsub hbytes, hsub hpredicate, hsub hobserved⟩⟩

/-- A point is read as what its JSON asks for. -/
theorem showsPoint_iff (hv : v.Lawful) {p : Point} (h : point v j = .ok p) (a : PointAtom) :
    ShowsPoint j a ↔ p.Asks a := by
  obtain ⟨-, -, h⟩ := bind_ok h
  obtain ⟨functionJson, hfunctionJson, h⟩ := bind_ok h
  obtain ⟨function, hfunction, h⟩ := bind_ok h
  obtain ⟨pcJson, hpcJson, h⟩ := bind_ok h
  obtain ⟨offset, hpc, h⟩ := bind_ok h
  obtain ⟨bytesJson, hbytesJson, h⟩ := bind_ok h
  obtain ⟨bytes, hbytes, h⟩ := bind_ok h
  split at h
  · exact absurd h fail_ne
  obtain ⟨phaseJson, hphaseJson, h⟩ := bind_ok h
  obtain ⟨phase, hphase, h⟩ := bind_ok h
  split at h
  · exact absurd h fail_ne
  next hphases =>
  obtain ⟨predicateJson, hpredicateJson, h⟩ := bind_ok h
  obtain ⟨predicate, hpredicate, h⟩ := bind_ok h
  split at h
  · exact absurd h fail_ne
  next hpredicates =>
  obtain ⟨observationsJson, hobservationsJson, h⟩ := bind_ok h
  obtain ⟨items, hitems, h⟩ := bind_ok h
  obtain ⟨incoming, hincoming, h⟩ := bind_ok h
  obtain ⟨observations, hmerge, h⟩ := bind_ok h
  cases h
  rw [(text_ok.mp hfunction).1] at hfunctionJson
  rw [(text_ok.mp hbytes).1] at hbytesJson
  rw [(text_ok.mp hphase).1] at hphaseJson
  rw [(text_ok.mp hpredicate).1] at hpredicateJson
  have hread := mapM_ok.mp hincoming
  have hgood : ∀ o ∈ incoming, o.Good := fun o ho => by
    obtain ⟨item, -, hitem⟩ := forall₂_mem_right hread ho
    exact good_observation hitem
  have hmerged := (isObservations_merge hv merged_nil hgood hmerge).merged
  have hfacts : observationsFacts observations = observationsFacts incoming := by
    have h := (accumulates_observations.step_ok merged_nil hgood hmerge).2
    rwa [show observationsFacts [] = ∅ from factsOf_nil _, Set.empty_union] at h
  have hobserved : (∃ item ∈ items, Shows item a.observed) ↔
      ∃ o ∈ observations, o.Observes a.observed := by
    rw [observes_iff_fact hmerged.1.good, hfacts, ← observes_iff_fact hgood]
    constructor
    · rintro ⟨item, hitem, hshows⟩
      obtain ⟨o, ho, hread⟩ := forall₂_mem_right hread.flip hitem
      exact ⟨o, ho, (shows_iff hread _).mp hshows⟩
    · rintro ⟨o, ho, hobserves⟩
      obtain ⟨item, hitem, hread⟩ := forall₂_mem_right hread ho
      exact ⟨item, hitem, (shows_iff hread _).mpr hobserves⟩
  have hphase' : phase = a.phase.name ↔
      (if phase = "before" then Phase.before else .after) = a.phase := by
    push Not at hphases
    cases a.phase <;> by_cases hp : phase = "before" <;> simp [Phase.name, hp, hphases]
  have hpredicate' : predicate = a.predicate.name ↔
      (if predicate = "executed_lanes" then PredicatePolicy.executed else .reached) =
        a.predicate := by
    push Not at hpredicates
    cases a.predicate <;> by_cases hp : predicate = "executed_lanes" <;>
      simp [PredicatePolicy.name, hp, hpredicates]
  constructor
  · rintro ⟨h₁, ⟨w, hw, h₂⟩, h₃, h₄, h₅, h₆⟩
    rw [itemsAt_of_member hobservationsJson hitems] at h₆
    obtain rfl := Except.ok.inj (hpcJson.symm.trans hw)
    exact ⟨(member_str hfunctionJson).mp h₁, Except.ok.inj (hpc.symm.trans h₂),
      (member_str hbytesJson).mp h₃, hphase'.mp ((member_str hphaseJson).mp h₄),
      hpredicate'.mp ((member_str hpredicateJson).mp h₅), hobserved.mp h₆⟩
  · rintro ⟨h₁, h₂, h₃, h₄, h₅, h₆⟩
    refine ⟨(member_str hfunctionJson).mpr h₁, ⟨pcJson, hpcJson, hpc.trans (congrArg _ h₂)⟩,
      (member_str hbytesJson).mpr h₃, (member_str hphaseJson).mpr (hphase'.mpr h₄),
      (member_str hpredicateJson).mpr (hpredicate'.mpr h₅), ?_⟩
    rw [itemsAt_of_member hobservationsJson hitems]
    exact hobserved.mpr h₆

/-! ### Configurations -/

theorem configFields_points {c : Config} (h : configFields j = .ok c) : c.points = [] := by
  obtain ⟨-, -, h⟩ := bind_ok h
  obtain ⟨idJson, -, h⟩ := bind_ok h
  obtain ⟨id, -, h⟩ := bind_ok h
  obtain ⟨requestsJson, -, h⟩ := bind_ok h
  obtain ⟨requests, -, h⟩ := bind_ok h
  obtain ⟨launchesJson, -, h⟩ := bind_ok h
  obtain ⟨launches, -, h⟩ := bind_ok h
  obtain ⟨captureJson, -, h⟩ := bind_ok h
  obtain ⟨capture, -, h⟩ := bind_ok h
  obtain ⟨budgetJson, -, h⟩ := bind_ok h
  obtain ⟨budget, -, h⟩ := bind_ok h
  exact Except.ok.inj h ▸ rfl

/-- A configuration is read with the settings of its JSON, and asks for what the points of
its JSON ask for one by one. -/
theorem config_asks (hv : v.Lawful) {c : Config} (h : readConfig v j = .ok c) :
    configFields j = .ok { c with points := [] } ∧ ∀ a,
      (∃ p ∈ itemsAt j "points", ShowsPoint p a) ↔ ∃ p ∈ c.points, p.Asks a := by
  obtain ⟨result, w, items, cs, ps, hresult, hw, hitems, hcs, hps, rfl⟩ := readConfig_ok.mp h
  have hread := mapM_ok.mp hcs
  have hgood : ∀ c ∈ cs, c.Good v := fun c hc => by
    obtain ⟨item, -, hitem⟩ := forall₂_mem_right hread hc
    exact good_point hv hitem
  obtain ⟨hinv, hinfo⟩ := (accumulates_points hv).foldlM_ok (collected_nil _ _) hgood hps
  have hempty : keyed Point.key Point.facts [] = ∅ := factsOf_nil _
  rw [hempty, Set.empty_union] at hinfo
  refine ⟨by rw [hresult, ← configFields_points hresult], fun a => ?_⟩
  simp only [itemsAt_of_member hw hitems, mem_sortOn]
  rw [asks_collected hinv hgood hinfo]
  constructor
  · rintro ⟨item, hitem, hshows⟩
    obtain ⟨c, hc, hread⟩ := forall₂_mem_right hread.flip hitem
    exact ⟨c, hc, (showsPoint_iff hv hread a).mp hshows⟩
  · rintro ⟨c, hc, hasks⟩
    obtain ⟨item, hitem, hread⟩ := forall₂_mem_right hread hc
    exact ⟨item, hitem, (showsPoint_iff hv hread a).mpr hasks⟩

/-! ### Kernels -/

theorem ReadsKernel.key_iff {k : Kernel} (h : ReadsKernel v j k) (key : KernelKey) :
    (∃ r, kernelFields j = .ok r ∧ r.key = key) ↔ k.key = key := by
  obtain ⟨result, w, items, cs, hresult, -, -, -, rfl⟩ := h
  constructor
  · rintro ⟨r, hr, hkey⟩
    obtain rfl := Except.ok.inj (hresult.symm.trans hr)
    exact hkey
  · exact fun hkey => ⟨result, hresult, hkey⟩

theorem ReadsKernel.configs {k : Kernel} (h : ReadsKernel v j k) :
    List.Forall₂ (fun i c => readConfig v i = .ok c) (itemsAt j "configs") k.configs := by
  obtain ⟨result, w, items, cs, -, hw, hitems, hcs, rfl⟩ := h
  rw [itemsAt_of_member hw hitems]
  exact hcs

theorem planAtoms_read (hv : v.Lawful) {docs items : List Json} {ks : List Kernel}
    (hitems : ∀ j, IsSource docs j ↔ j ∈ items) (h : List.Forall₂ (ReadsKernel v) items ks) :
    planAtoms ks = sourceAtoms docs := by
  ext a
  constructor
  · rintro ⟨k, hk, hkey, c, hc, hid, hasks⟩
    obtain ⟨j, hj, hread⟩ := forall₂_mem_right h hk
    obtain ⟨item, hitem, hconfig⟩ := forall₂_mem_right hread.configs hc
    obtain ⟨hfields, hpoints⟩ := config_asks hv hconfig
    exact ⟨j, (hitems j).mpr hj, (hread.key_iff _).mpr hkey, item, hitem, ⟨_, hfields, hid⟩,
      (hpoints a.point).mpr hasks⟩
  · rintro ⟨j, hj, hkey, item, hitem, ⟨r, hr, hid⟩, hshows⟩
    obtain ⟨k, hk, hread⟩ := forall₂_mem_right h.flip ((hitems j).mp hj)
    have hread' : ReadsKernel v j k := hread
    obtain ⟨c, hc, hconfig⟩ := forall₂_mem_right hread'.configs.flip hitem
    obtain ⟨hfields, hpoints⟩ := config_asks hv hconfig
    obtain rfl := Except.ok.inj (hr.symm.trans hfields)
    exact ⟨k, hk, (hread'.key_iff _).mp hkey, c, hc, hid, (hpoints a.point).mp hshows⟩

theorem planSettings_read (hv : v.Lawful) {docs items : List Json} {ks : List Kernel}
    (hitems : ∀ j, IsSource docs j ↔ j ∈ items) (h : List.Forall₂ (ReadsKernel v) items ks) :
    planSettings ks = sourceSettings docs := by
  ext s
  constructor
  · rintro ⟨k, hk, hkey, c, hc, hs⟩
    obtain ⟨j, hj, hread⟩ := forall₂_mem_right h hk
    obtain ⟨item, hitem, hconfig⟩ := forall₂_mem_right hread.configs hc
    refine ⟨j, (hitems j).mpr hj, (hread.key_iff _).mpr hkey, item, hitem, ?_⟩
    rw [← hs]
    exact (config_asks hv hconfig).1
  · rintro ⟨j, hj, hkey, item, hitem, hr⟩
    obtain ⟨k, hk, hread⟩ := forall₂_mem_right h.flip ((hitems j).mp hj)
    have hread' : ReadsKernel v j k := hread
    obtain ⟨c, hc, hconfig⟩ := forall₂_mem_right hread'.configs.flip hitem
    exact ⟨k, hk, (hread'.key_iff _).mp hkey, c, hc,
      Except.ok.inj ((config_asks hv hconfig).1.symm.trans hr)⟩

/-! ### Normal form -/

/-- The atoms and the settings of kernels depend on what the kernels say. -/
theorem planAtoms_content (ks : List Kernel) :
    planAtoms ks = {a | ∃ s ∈ content ks, s.1 = a.kernelKey ∧ s.2.id = a.configId ∧
      ∃ p ∈ s.2.points, p.Asks a.point} := by
  ext a
  constructor
  · rintro ⟨k, hk, hkey, c, hc, hid, hasks⟩
    exact ⟨(k.key, c), ⟨k, hk, rfl, hc⟩, hkey, hid, hasks⟩
  · rintro ⟨⟨key, c⟩, ⟨k, hk, hkey, hc⟩, hkey', hid, hasks⟩
    exact ⟨k, hk, hkey.symm.trans hkey', c, hc, hid, hasks⟩

theorem planSettings_content (ks : List Kernel) :
    planSettings ks = {s | ∃ t ∈ content ks, t.1 = s.1 ∧ { t.2 with points := [] } = s.2} := by
  ext s
  constructor
  · rintro ⟨k, hk, hkey, c, hc, hs⟩
    exact ⟨(k.key, c), ⟨k, hk, rfl, hc⟩, hkey, hs⟩
  · rintro ⟨⟨key, c⟩, ⟨k, hk, hkey, hc⟩, hkey', hs⟩
    exact ⟨k, hk, hkey.symm.trans hkey', c, hc, hs⟩

/-! ### The loader -/

theorem isSource_iff {id : String} {header : Json} {docs items : List Json}
    (h : AreDocuments docs.length id header docs items) (j : Json) :
    IsSource docs j ↔ j ∈ items := by
  obtain ⟨parts, hparts, rfl⟩ := h
  rw [List.mem_flatten]
  constructor
  · rintro ⟨doc, hdoc, part, hpart, hj⟩
    obtain ⟨part', hmem, hread⟩ := forall₂_mem_right hparts.flip hdoc
    have hread' : IsDocument docs.length id header doc part' := hread
    obtain rfl := Except.ok.inj (hpart.symm.trans hread'.kernels)
    exact ⟨part, hmem, hj⟩
  · rintro ⟨part, hmem, hj⟩
    obtain ⟨doc, hdoc, hread⟩ := forall₂_mem_right hparts hmem
    exact ⟨doc, hdoc, part, hread.kernels, hj⟩

/-- Normalisation loses and invents no request: the plan of a file has the atoms of the
file, and the settings of its configurations, each kernel once and each identifier of a
kernel once. -/
theorem parse_atoms (hv : v.Lawful) {bytes : List UInt8} {plan : CanonicalPlan}
    (h : parse v bytes = .ok plan) :
    ∃ docs, documents v bytes = .ok docs ∧ planAtoms plan.kernels = sourceAtoms docs ∧
      planSettings plan.kernels = sourceSettings docs ∧
      (plan.kernels.map Kernel.key).Nodup ∧ ∀ k ∈ plan.kernels, (k.configs.map Config.id).Nodup := by
  have hkernels := (isParsed_parse hv h).kernels
  unfold parse at h
  split at h
  · exact absurd h fail_ne
  split at h
  · exact absurd h fail_ne
  obtain ⟨docs, hdocs, h⟩ := bind_ok h
  obtain ⟨⟨loaded, rs⟩, hload, h⟩ := bind_ok h
  cases h
  obtain ⟨-, hrs, items, hitems, hks, -⟩ := (loadDocuments_iff (documents_ok hdocs).1).mp hload
  have hgood : ∀ k ∈ loaded.kernels, k.Good v := fun k hk => by
    obtain ⟨item, -, hitem⟩ := forall₂_mem_right hks hk
    exact good_kernel hv hitem
  have hcontent := (normalize_ok hgood hrs).2
  have hsource := isSource_iff hitems
  refine ⟨docs, hdocs, ?_, ?_, hkernels.increasing.nodup,
    fun k hk => (hkernels.normal k hk).increasing.nodup⟩
  · rw [← planAtoms_read hv hsource hks, planAtoms_content, planAtoms_content, hcontent]
  · rw [← planSettings_read hv hsource hks, planSettings_content, planSettings_content, hcontent]

theorem parse_atoms_small : ∃ (plan : CanonicalPlan) (docs : List Json),
    documents compact (utf8 (compact.dump true
      (recordJson "plan" ⟨false, false⟩ (twoWide 2 3 1 1)))) = .ok docs ∧
    planAtoms plan.kernels = sourceAtoms docs ∧
    planSettings plan.kernels = sourceSettings docs ∧
    (plan.kernels.map Kernel.key).Nodup ∧
      ∀ k ∈ plan.kernels, (k.configs.map Config.id).Nodup := by
  have hwidth : Width 2 ∧ Width 3 ∧ Width 1 := by
    simp [Width, kArrayMax]
  obtain ⟨h₂, h₃, h₁⟩ := hwidth
  obtain ⟨plan, hplan, -⟩ := parse_twoWide h₂ h₃ h₁ h₁ (by decide)
  obtain ⟨docs, hdocs⟩ := parse_atoms lawful_compact hplan
  exact ⟨plan, docs, hdocs⟩

end CuTracer.Plan
