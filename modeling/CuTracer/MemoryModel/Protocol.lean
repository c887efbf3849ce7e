import CuTracer.MemoryModel.Remote

/-! What the instructions truly did, next to what was recorded. A warp's arrives
on an mbarrier are one per phase, its successful waits observe consecutive
phases, and the first of them observes the phase before phase 0 if its parity
is 1. A record may lack the address of an arrive or a wait and the outcome of a
wait; all else it says is true. The number that a decoded operation gets is its
true phase less the operations that were left out. -/

namespace CuTracer.MemoryModel

/-- What each instruction did: the mbarriers it arrived on, those it waited on
successfully with the parity (`true` for 1), and the named barrier it used. -/
structure Truth where
  arrives : Event → ℤ → Bool
  waits : Event → ℤ → Option Bool
  uses : Event → Option (Option ℤ × Option ℤ)

/-- The mbarriers that a recorded operand names; none if it is unresolved. -/
def Event.names (ev : Event) : List ℤ :=
  match ev.bar with
  | some a => [a]
  | none => ev.barSet

/-- The record of an event is true as far as it goes. -/
structure Faithful (T : Truth) (ev : Event) : Prop where
  arrive_decoded : ∀ a, ev.arrivesAt a → T.arrives ev a
  arrive_kind : ∀ a, T.arrives ev a → ev.kind = some .mbarArrive ∨ ev.kind = some .mbarRemote
  arrive_named : ∀ a, T.arrives ev a → ev.names ≠ [] → a ∈ ev.names
  wait_decoded : ∀ a, ev.acquiresAt a → (T.waits ev a).isSome
  wait_kind : ∀ a, (T.waits ev a).isSome → ev.kind = some .mbarWait ∧ ev.success ≠ some false
  wait_named : ∀ a, (T.waits ev a).isSome → ev.names ≠ [] → a ∈ ev.names
  wait_token : ∀ a odd, T.waits ev a = some odd →
    (ev.token = .value 0 → odd = false) ∧ (ev.token = oddToken → odd = true)
  use_decoded : ev.isNamed → .operandUnresolved ∉ ev.flags → T.uses ev = some (ev.barId, ev.barCount)
  use_kind : T.uses ev ≠ none → ev.isNamed

inductive Barrier where
  | mbar (name : ℤ)
  | named (id count : Option ℤ)
  deriving DecidableEq

namespace Truth

variable (T : Truth)

def arrivesAt (a : ℤ) (ev : Event) : Bool := T.arrives ev a

def waitsAt (a : ℤ) (ev : Event) : Bool := (T.waits ev a).isSome

def usesAt (id count : Option ℤ) (ev : Event) : Bool := T.uses ev = some (id, count)

/-- The phase that the first successful wait observes. -/
def origin (evs : List Event) (a : ℤ) : ℤ :=
  if evs.findSome? (fun ev => T.waits ev a) = some true then -1 else 0

def releasePhase (pw : PerWarp) (cta : Cta) (warp pos : ℕ) : Barrier → Option ℤ
  | .mbar a =>
    let evs := pw.events cta warp
    if (evs[pos]?).any (T.arrivesAt a) then some (Ordinal.before (T.arrivesAt a) evs pos) else none
  | .named id count =>
    let evs := pw.events cta warp
    if (evs[pos]?).any (T.usesAt id count) then some (Ordinal.before (T.usesAt id count) evs pos)
    else none

def acquirePhase (pw : PerWarp) (cta : Cta) (warp pos : ℕ) : Barrier → Option ℤ
  | .mbar a =>
    let evs := pw.events cta warp
    if (evs[pos]?).any (T.waitsAt a) then
      some (T.origin evs a + Ordinal.before (T.waitsAt a) evs pos)
    else none
  | .named id count =>
    let evs := pw.events cta warp
    if (evs[pos]?).any fun ev => T.usesAt id count ev && decide (ev.kind = some .barSync) then
      some (Ordinal.before (T.usesAt id count) evs pos)
    else none

/-- Every link ends in an acquire of the release's phase or a later one. -/
def LinksTrue (pw : PerWarp) : Prop :=
  ∀ cta warp rel link, link ∈ (barriers pw).linksFrom cta warp rel →
    ∀ b p, T.releasePhase pw cta warp rel b = some p →
      ∃ q, T.acquirePhase pw cta link.1 link.2 b = some q ∧ p ≤ q

/-! ### Operations left out -/

def unresolvedArrive (a : ℤ) (ev : Event) : Bool := T.arrivesAt a ev && decide (ev.names = [])

/-- Successful waits whose address or success was not resolved. -/
def unresolvedWait (a : ℤ) (ev : Event) : Bool :=
  T.waitsAt a ev && decide (ev.names = [] ∨ ev.success = none)

/-- Wherever a decoded arrive and a seen wait of one barrier get the same number, no
more arrives were left out before the one than waits before the other, counted from
where their phases start. -/
def OrdinalsKept (pw : PerWarp) : Prop :=
  ∀ cta a w₁ rel w₂ acq, (barriers pw).mbarOk (cta, a) = true →
    (∃ ev, (pw.events cta w₁)[rel]? = some ev ∧ ev.arrivesAt a) →
    (∃ ev, (pw.events cta w₂)[acq]? = some ev ∧ ev.acquiresAt a) →
    (arriveOrdinal pw cta a w₁ rel : ℤ) =
      phaseOrigin (seenWaits pw cta a w₂) + waitOrdinal pw cta a w₂ acq →
    (Ordinal.before (T.unresolvedArrive a) (pw.events cta w₁) rel : ℤ) ≤
      Ordinal.before (T.unresolvedWait a) (pw.events cta w₂) acq +
        (T.origin (pw.events cta w₂) a - phaseOrigin (seenWaits pw cta a w₂))

end Truth

/-! ### Exclusions catch the rest -/

variable {T : Truth} {pw : PerWarp}

/-- As `build_events` emits them: no encoded targets are kept yet. -/
def PerWarp.Emitted (pw : PerWarp) : Prop := ∀ ev ∈ pw.all, ev.rawBars = none

instance (pw : PerWarp) : Decidable pw.Emitted :=
  inferInstanceAs (Decidable (∀ ev ∈ pw.all, ev.rawBars = none))

theorem names_subset (ev : Event) : ∀ a ∈ ev.names, a ∈ ev.bar.toList ++ ev.barSet := by
  intro a ha
  unfold Event.names at ha
  cases hb : ev.bar with
  | none => simpa [hb] using ha
  | some b =>
    rw [hb] at ha
    exact List.mem_append_left _ ha

variable {ev : Event}

theorem exists_of_mem_rebase (h : ev ∈ (rebaseClusterAddresses pw).all) :
    ∃ ev₀ ∈ pw.all, ev = (ownRank pw ev.cta).elim ev₀ fun own => renameEvent own ev₀ := by
  obtain ⟨⟨key, evs⟩, hentry, hmem⟩ := List.mem_flatMap.mp h
  obtain ⟨⟨key₀, evs₀⟩, hentry₀, he⟩ := List.mem_map.mp hentry
  cases he
  obtain ⟨i, hi⟩ := List.mem_iff_getElem?.mp hmem
  obtain ⟨hcta, -, -⟩ := (rebaseClusterAddresses pw).placed _ _ hentry i ev hi
  obtain ⟨ev₀, h₀, hev⟩ := getElem?_renameEvents hi
  refine ⟨ev₀, List.mem_flatMap.mpr ⟨_, hentry₀, List.mem_of_getElem? h₀⟩, ?_⟩
  rw [hcta]
  exact hev

/-- Lanes that used different barriers exclude them all. -/
theorem nonuniform_excluded {a : ℤ} (hev : ev ∈ pw.all) (ha : a ∈ ev.barSet) :
    (barriers pw).mbarOk (ev.cta, a) = false := by
  have hproblem : (ProblemKey.mbar (ev.cta, a), "nonuniform_lane_addresses") ∈
      eventProblems pw ev :=
    List.mem_append_right _ (List.mem_map.mpr ⟨a, ha, rfl⟩)
  rw [Barriers.mbarOk, excluded_of_mem hev hproblem]
  rfl

/-- Remote arrives exclude the names they have in their own CTA. -/
def PerWarp.RemotesExcluded (pw : PerWarp) : Prop :=
  ∀ ev ∈ pw.all, ev.kind = some .mbarRemote → ∀ a ∈ ev.names, (barriers pw).mbarOk (ev.cta, a) = false

theorem remotesExcluded_rebase (hraw : pw.Emitted) : (rebaseClusterAddresses pw).RemotesExcluded := by
  intro ev hev hkind a ha
  obtain ⟨ev₀, hev₀, heq⟩ := exists_of_mem_rebase hev
  have hc : ev.cta ∈ pw.ctas := by
    rw [← ctas_rebase]
    exact (PerWarp.mem_events (PerWarp.mem_all hev)).2.2.2.2.2
  have hkind₀ : ev₀.kind = some .mbarRemote := by
    rw [heq, (elim_renameEvent _ _).2.2.2.2] at hkind
    exact hkind
  refine remote_excluded hev₀ hkind₀ (hraw ev₀ hev₀) hc ?_
  have hmem := names_subset ev a ha
  rw [heq] at hmem
  cases hown : ownRank pw ev.cta with
  | none =>
    simp only [hown, Option.elim_none] at hmem
    have := nameIn_mem_excludedNames pw ev.cta hmem
    simpa [nameIn, hown] using this
  | some own =>
    simp only [hown, Option.elim_some, renameEvent] at hmem
    have hmap : a ∈ (ev₀.bar.toList ++ ev₀.barSet).map (localName own) := by
      rw [List.map_append]
      rcases List.mem_append.mp hmem with h | h
      · refine List.mem_append_left _ ?_
        rwa [← Option.toList_map]
      · exact List.mem_append_right _ h
    obtain ⟨a₀, ha₀, rfl⟩ := List.mem_map.mp hmap
    exact localName_mem_excludedNames own ha₀

/-- An arrive on a barrier that is not excluded was decoded or has no address. -/
theorem missed_arrive (hremote : pw.RemotesExcluded) {a : ℤ} (hev : ev ∈ pw.all)
    (hT : Faithful T ev) (hok : (barriers pw).mbarOk (ev.cta, a) = true) :
    (T.arrivesAt a ev && !ev.arrivesAt a) = T.unresolvedArrive a ev := by
  unfold Truth.unresolvedArrive
  cases ha : T.arrivesAt a ev with
  | false => rfl
  | true =>
    rw [Bool.true_and, Bool.true_and]
    by_cases hnames : ev.names = []
    · have hbar : ev.bar ≠ some a := by
        intro hbar
        simp [Event.names, hbar] at hnames
      simp [Event.arrivesAt, hbar, hnames]
    · have hmem := hT.arrive_named a ha hnames
      rcases hT.arrive_kind a ha with hkind | hkind
      · cases hbar : ev.bar with
        | none =>
          have := nonuniform_excluded hev (a := a) (by simpa [Event.names, hbar] using hmem)
          rw [hok] at this
          contradiction
        | some b =>
          obtain rfl : a = b := by simpa [Event.names, hbar] using hmem
          simp [Event.arrivesAt, hkind, hbar, hnames]
      · have := hremote ev hev hkind a hmem
        rw [hok] at this
        contradiction

/-- A successful wait on a barrier that is not excluded was seen, or its address or
success was not resolved. -/
theorem missed_wait {a : ℤ} (hev : ev ∈ pw.all) (hT : Faithful T ev)
    (hok : (barriers pw).mbarOk (ev.cta, a) = true) :
    (T.waitsAt a ev && !ev.acquiresAt a) = T.unresolvedWait a ev := by
  unfold Truth.unresolvedWait
  cases ha : T.waitsAt a ev with
  | false => rfl
  | true =>
    rw [Bool.true_and, Bool.true_and]
    obtain ⟨hkind, hsuccess⟩ := hT.wait_kind a ha
    by_cases hnames : ev.names = []
    · have hbar : ev.bar ≠ some a := by
        intro hbar
        simp [Event.names, hbar] at hnames
      simp [Event.acquiresAt, hbar, hnames]
    · have hmem := hT.wait_named a ha hnames
      cases hbar : ev.bar with
      | none =>
        have := nonuniform_excluded hev (a := a) (by simpa [Event.names, hbar] using hmem)
        rw [hok] at this
        contradiction
      | some b =>
        obtain rfl : a = b := by simpa [Event.names, hbar] using hmem
        cases hs : ev.success with
        | none => simp [Event.acquiresAt, hs]
        | some s =>
          cases s with
          | false => exact absurd hs hsuccess
          | true => simp [Event.acquiresAt, hkind, hbar, hs, hnames]

/-! ### Links -/

theorem any_getElem? {evs : List Event} {i : ℕ} (hev : evs[i]? = some ev) (p : Event → Bool) :
    (evs[i]?).any p = p ev := by rw [hev]; rfl

/-- With every named operand of a CTA resolved, a named barrier is used where the record
says so. -/
theorem usesNamed_eq (hT : ∀ ev ∈ pw.all, Faithful T ev) {key : NamedKey} (hev : ev ∈ pw.all)
    (hc : ev.cta = key.1) (hok : (barriers pw).excluded (.allNamed key.1) = false) :
    T.usesAt key.2.1 key.2.2 ev = ev.usesNamed key := by
  unfold Truth.usesAt Event.usesNamed
  by_cases hnamed : ev.isNamed = true
  · have hflag : .operandUnresolved ∉ ev.flags := by
      intro hflag
      have hproblem : (ProblemKey.allNamed ev.cta, "operand_unresolved") ∈ eventProblems pw ev := by
        refine List.mem_append_left _ (List.mem_append_left _ ?_)
        rw [if_pos ⟨hnamed, hflag⟩]
        exact List.mem_singleton_self _
      rw [← hc, excluded_of_mem hev hproblem] at hok
      contradiction
    rw [(hT ev hev).use_decoded hnamed hflag]
    simp only [Option.some.injEq, Prod.mk.injEq, hnamed, true_and]
  · have hnone : T.uses ev = none := by
      by_contra huse
      exact hnamed ((hT ev hev).use_kind huse)
    simp [hnone, hnamed]

theorem namedLink_true (hT : ∀ ev ∈ pw.all, Faithful T ev) {cta : Cta} {warp rel : ℕ}
    {e : NamedKey × Dict ℕ (List (ℕ × Bool))} {link : ℕ × ℕ}
    (he : e ∈ (barriers pw).named.entries) (h : link ∈ (barriers pw).namedLinks cta warp rel e)
    {b : Barrier} {p : ℤ} (hp : T.releasePhase pw cta warp rel b = some p) :
    T.acquirePhase pw cta link.1 link.2 b = some p := by
  obtain ⟨rfl, -, hall, -⟩ := mem_namedLinks he h
  obtain ⟨⟨evr, hevr, huser⟩, ⟨eva, heva, husea, hsync⟩, hord⟩ := namedLink_ordinal he h
  have hexact : ∀ w, ∀ ev ∈ pw.events e.1.1 w, T.usesAt e.1.2.1 e.1.2.2 ev = ev.usesNamed e.1 := by
    intro w ev hev
    obtain ⟨hmem, hc⟩ := PerWarp.mem_all_of_mem_events hev
    exact usesNamed_eq hT hmem hc hall
  have hcount : ∀ w i, Ordinal.before (T.usesAt e.1.2.1 e.1.2.2) (pw.events e.1.1 w) i =
      Ordinal.before (fun ev => ev.usesNamed e.1) (pw.events e.1.1 w) i :=
    fun w i => Ordinal.before_congr (hexact w) i
  have hrel := hexact warp evr (List.mem_of_getElem? hevr)
  have hacq := hexact link.1 eva (List.mem_of_getElem? heva)
  cases b with
  | mbar a =>
    simp only [Truth.releasePhase, any_getElem? hevr] at hp
    split_ifs at hp with harrives
    have hnamed : evr.isNamed = true := by
      simp only [Event.usesNamed, decide_eq_true_eq] at huser
      exact huser.1
    have hmem := (PerWarp.mem_events hevr).2.2.2.2.1
    rcases (hT evr hmem).arrive_kind a harrives with hkind | hkind <;>
      simp [Event.isNamed, hkind] at hnamed
  | named id count =>
    simp only [Truth.releasePhase, any_getElem? hevr] at hp
    split_ifs at hp with huses
    obtain ⟨rfl, rfl⟩ : id = e.1.2.1 ∧ count = e.1.2.2 := by
      rw [huser] at hrel
      simp only [Truth.usesAt, decide_eq_true_eq] at hrel huses
      rw [huses] at hrel
      exact Prod.mk.inj (Option.some.inj hrel)
    cases hp
    simp only [Truth.acquirePhase, any_getElem? heva, hacq, husea, hsync, decide_true,
      Bool.and_self, if_true, hcount, hord]

section Matching

variable {cta : Cta} {a : ℤ} {warp pos : ℕ} {ev : Event}
  (hT : ∀ ev ∈ pw.all, Faithful T ev) (hok : (barriers pw).mbarOk (cta, a) = true)
  (hev : (pw.events cta warp)[pos]? = some ev)

include hT hok hev

/-- The true phase of a decoded arrive. -/
theorem releasePhase_eq (hremote : pw.RemotesExcluded) (ha : ev.arrivesAt a) :
    T.releasePhase pw cta warp pos (.mbar a) =
      some ((arriveOrdinal pw cta a warp pos : ℤ) +
        Ordinal.before (T.unresolvedArrive a) (pw.events cta warp) pos) := by
  have hseen : ∀ ev ∈ pw.events cta warp, ev.arrivesAt a = true → T.arrivesAt a ev = true :=
    fun ev hev => (hT ev (PerWarp.mem_all_of_mem_events hev).1).arrive_decoded a
  have hmissed : ∀ ev ∈ pw.events cta warp,
      (T.arrivesAt a ev && !ev.arrivesAt a) = T.unresolvedArrive a ev := by
    intro ev hev
    obtain ⟨hmem, rfl⟩ := PerWarp.mem_all_of_mem_events hev
    exact missed_arrive hremote hmem (hT ev hmem) hok
  have hsplit := Ordinal.before_eq_add_missed hseen pos
  rw [Ordinal.before_congr hmissed] at hsplit
  simp only [Truth.releasePhase, any_getElem? hev]
  rw [if_pos (hseen ev (List.mem_of_getElem? hev) ha), hsplit]
  rfl

/-- The true phase that a seen wait observed. -/
theorem acquirePhase_eq (ha : ev.acquiresAt a) :
    T.acquirePhase pw cta warp pos (.mbar a) =
      some (T.origin (pw.events cta warp) a + ((waitOrdinal pw cta a warp pos : ℤ) +
        Ordinal.before (T.unresolvedWait a) (pw.events cta warp) pos)) := by
  have hseen : ∀ ev ∈ pw.events cta warp, ev.acquiresAt a = true → T.waitsAt a ev = true :=
    fun ev hev => (hT ev (PerWarp.mem_all_of_mem_events hev).1).wait_decoded a
  have hmissed : ∀ ev ∈ pw.events cta warp,
      (T.waitsAt a ev && !ev.acquiresAt a) = T.unresolvedWait a ev := by
    intro ev hev
    obtain ⟨hmem, rfl⟩ := PerWarp.mem_all_of_mem_events hev
    exact missed_wait hmem (hT ev hmem) hok
  have hsplit := Ordinal.before_eq_add_missed hseen pos
  rw [Ordinal.before_congr hmissed] at hsplit
  simp only [Truth.acquirePhase, any_getElem? hev]
  rw [if_pos (hseen ev (List.mem_of_getElem? hev) ha), hsplit]
  rfl

end Matching

/-- A decoded arrive on one barrier is on no other. -/
theorem barrier_of_release (hT : ∀ ev ∈ pw.all, Faithful T ev) {cta : Cta} {a : ℤ} {warp pos : ℕ}
    (hev : (pw.events cta warp)[pos]? = some ev) (ha : ev.arrivesAt a) {b : Barrier} {p : ℤ}
    (hp : T.releasePhase pw cta warp pos b = some p) : b = .mbar a := by
  have hF := hT ev (PerWarp.mem_events hev).2.2.2.2.1
  simp only [Event.arrivesAt, decide_eq_true_eq] at ha
  cases b with
  | mbar a' =>
    simp only [Truth.releasePhase, any_getElem? hev] at hp
    split_ifs at hp with harrives
    have hmem := hF.arrive_named a' harrives (by simp [Event.names, ha.2])
    have : a' = a := by simpa [Event.names, ha.2] using hmem
    rw [this]
  | named id count =>
    simp only [Truth.releasePhase, any_getElem? hev] at hp
    split_ifs at hp with huses
    have hnamed := hF.use_kind (by rw [of_decide_eq_true huses]; exact Option.some_ne_none _)
    simp [Event.isNamed, ha.1] at hnamed

/-- Links are true exactly when no release falls behind its acquire. -/
theorem linksTrue_iff (hT : ∀ ev ∈ pw.all, Faithful T ev) (hremote : pw.RemotesExcluded) :
    T.LinksTrue pw ↔ T.OrdinalsKept pw := by
  constructor
  · intro h cta a w₁ rel w₂ acq hok hrel hacq hord
    have hlink : (w₂, acq) ∈ (barriers pw).mbarLinks cta w₁ rel (cta, a) :=
      mem_mbarLinks_iff.mpr ⟨hok, hrel, hacq, hord⟩
    have hkey : (cta, a) ∈ (barriers pw).arrive.keys := by
      have hmem := (mem_mbarLinks.mp hlink).2.2.1
      by_contra hkey
      have hnone := ((barriers pw).arrive.get?_eq_none_iff (cta, a)).mpr hkey
      simp [Dict.group, hnone] at hmem
    obtain ⟨evr, hevr, harrives⟩ := hrel
    obtain ⟨eva, heva, hacquires⟩ := hacq
    obtain ⟨q, hq, hle⟩ := h cta w₁ rel (w₂, acq) (mem_linksFrom.mpr (Or.inl ⟨_, hkey, hlink⟩))
      (.mbar a) _ (releasePhase_eq hT hok hevr hremote harrives)
    rw [acquirePhase_eq hT hok heva hacquires] at hq
    cases hq
    omega
  · intro h cta warp rel link hlink b p hp
    rcases mem_linksFrom.mp hlink with ⟨⟨cta', a⟩, -, hm⟩ | ⟨e, he, hn⟩
    · obtain rfl : cta' = cta := (mem_mbarLinks.mp hm).1
      obtain ⟨hok, hrel, hacq, hord⟩ := mem_mbarLinks_iff.mp hm
      have hkept := h cta' a warp rel link.1 link.2 hok hrel hacq hord
      obtain ⟨evr, hevr, harrives⟩ := hrel
      obtain ⟨eva, heva, hacquires⟩ := hacq
      obtain rfl := barrier_of_release hT hevr harrives hp
      rw [releasePhase_eq hT hok hevr hremote harrives] at hp
      cases hp
      exact ⟨_, acquirePhase_eq hT hok heva hacquires, by omega⟩
    · exact ⟨p, namedLink_true hT he hn hp, le_refl p⟩

/-! ### When no address of an arrive is missing -/

theorem phaseOrigin_le (ws : List (ℕ × Token)) : phaseOrigin ws ≤ 0 := by
  unfold phaseOrigin
  split_ifs <;> omega

/-- If the first true wait was seen, the recorded waits start where the true ones do. -/
theorem phaseOrigin_of_first_seen (hT : ∀ ev ∈ pw.all, Faithful T ev) {cta : Cta} {a : ℤ}
    {warp : ℕ} (hok : (barriers pw).mbarOk (cta, a) = true) {l₁ l₂ : List Event} {first : Event}
    (hsplit : pw.events cta warp = l₁ ++ first :: l₂) (hfirst : T.waits first a = some true)
    (hnone : ∀ ev ∈ l₁, T.waits ev a = none) (hseen : first.acquiresAt a = true) :
    phaseOrigin (seenWaits pw cta a warp) = -1 := by
  have hF : ∀ ev ∈ pw.events cta warp, Faithful T ev :=
    fun ev hev => hT ev (PerWarp.mem_all_of_mem_events hev).1
  have hskip : l₁.filter (fun ev => ev.acquiresAt a) = [] := by
    refine List.filter_eq_nil_iff.mpr fun ev hev hacq => ?_
    have := (hF ev (by simp [hsplit, hev])).wait_decoded a hacq
    simp [hnone ev hev] at this
  have hwaits : seenWaits pw cta a warp =
      (first.pos, first.token) :: (l₂.filter fun ev => ev.acquiresAt a).map
        fun ev => (ev.pos, ev.token) := by
    rw [seenWaits, hsplit, List.filter_append, hskip, List.nil_append,
      List.filter_cons_of_pos (p := fun ev : Event => ev.acquiresAt a) hseen, List.map_cons]
  have htokens := tokensOk_of_mbarOk hok warp
  rw [wait_group, ← seenWaits, hwaits] at htokens
  have hknown : first.token = .value 0 ∨ first.token = oddToken := by
    simp only [tokensOk, List.all_cons, Bool.and_eq_true, tokenKnown, decide_eq_true_eq] at htokens
    exact htokens.1.1
  have htoken : first.token = oddToken := by
    rcases hknown with h | h
    · exact absurd (((hF first (by simp [hsplit])).wait_token a true hfirst).1 h) (by simp)
    · exact h
  simp [phaseOrigin, hwaits, htoken]

/-- If it was not seen, it was left out before every seen one. -/
theorem unresolvedWait_pos_of_first_missed (hT : ∀ ev ∈ pw.all, Faithful T ev) {cta : Cta} {a : ℤ}
    {warp pos : ℕ} (hok : (barriers pw).mbarOk (cta, a) = true) {l₁ l₂ : List Event} {first : Event}
    (hsplit : pw.events cta warp = l₁ ++ first :: l₂) (hfirst : T.waits first a = some true)
    (hnone : ∀ ev ∈ l₁, T.waits ev a = none) (hseen : ¬ first.acquiresAt a = true)
    (hev : (pw.events cta warp)[pos]? = some ev) (hacq : ev.acquiresAt a) :
    0 < Ordinal.before (T.unresolvedWait a) (pw.events cta warp) pos := by
  obtain ⟨hall, rfl⟩ := PerWarp.mem_all_of_mem_events (show first ∈ pw.events cta warp by simp [hsplit])
  have hmissed : T.unresolvedWait a first = true := by
    rw [← missed_wait hall (hT first hall) hok]
    simp [Truth.waitsAt, hfirst, hseen]
  have hlt : l₁.length < pos := by
    rcases Nat.lt_trichotomy pos l₁.length with h | h | h
    · rw [hsplit, List.getElem?_append_left h] at hev
      have hmem := List.mem_of_getElem? hev
      have hall' := (PerWarp.mem_all_of_mem_events
        (show ev ∈ pw.events first.cta warp by simp [hsplit, hmem])).1
      have := (hT ev hall').wait_decoded a hacq
      simp [hnone ev hmem] at this
    · rw [hsplit, h, List.getElem?_append_right (le_refl _)] at hev
      obtain rfl : first = ev := by simpa using hev
      exact absurd hacq hseen
    · exact h
  refine List.countP_pos_iff.mpr ⟨first, ?_, hmissed⟩
  refine List.mem_of_getElem? (i := l₁.length) ?_
  rw [List.getElem?_take_of_lt hlt, hsplit, List.getElem?_append_right (le_refl _)]
  simp

/-- The number of a seen wait is at most its true phase. -/
theorem phaseOrigin_le_origin (hT : ∀ ev ∈ pw.all, Faithful T ev) {cta : Cta} {a : ℤ} {warp pos : ℕ}
    (hok : (barriers pw).mbarOk (cta, a) = true) (hev : (pw.events cta warp)[pos]? = some ev)
    (hacq : ev.acquiresAt a) :
    phaseOrigin (seenWaits pw cta a warp) ≤
      T.origin (pw.events cta warp) a +
        Ordinal.before (T.unresolvedWait a) (pw.events cta warp) pos := by
  have hle := phaseOrigin_le (seenWaits pw cta a warp)
  unfold Truth.origin
  split_ifs with hodd
  · obtain ⟨l₁, first, l₂, hsplit, hfirst, hnone⟩ := List.findSome?_eq_some_iff.mp hodd
    by_cases hseen : first.acquiresAt a = true
    · have := phaseOrigin_of_first_seen hT hok hsplit hfirst hnone hseen
      omega
    · have := unresolvedWait_pos_of_first_missed hT hok hsplit hfirst hnone hseen hev hacq
      omega
  · omega

/-- With the address of every arrive resolved, the numbers are kept, whatever waits were
left out. -/
theorem ordinalsKept_of_resolved (hT : ∀ ev ∈ pw.all, Faithful T ev)
    (hresolved : ∀ ev ∈ pw.all, ∀ a, T.unresolvedArrive a ev = false) : T.OrdinalsKept pw := by
  rintro cta a w₁ rel w₂ acq hok - ⟨ev, hev, hacq⟩ -
  have hnone : Ordinal.before (T.unresolvedArrive a) (pw.events cta w₁) rel = 0 := by
    refine List.countP_eq_zero.mpr fun ev' hev' => ?_
    have hmem := (PerWarp.mem_all_of_mem_events (List.mem_of_mem_take hev')).1
    simp [hresolved ev' hmem a]
  have := phaseOrigin_le_origin hT hok hev hacq
  omega

end CuTracer.MemoryModel
