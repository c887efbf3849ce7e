import CuTracer.Library.Ordinal
import CuTracer.MemoryModel.Rebase

/-! Ordinal matching of releases to acquires. The decoded arrives and successful
waits of each warp on each barrier are numbered in program order, and arrive `k`
of one warp is linked to the wait of another whose number names phase `k`.
Barriers that fail a consistency check are excluded. -/

namespace CuTracer.MemoryModel

abbrev MbarKey := Cta × ℤ

/-- A named barrier by CTA, id and thread count. -/
abbrev NamedKey := Cta × Option ℤ × Option ℤ

/-- What a recorded problem excludes. -/
inductive ProblemKey where
  | mbar (key : MbarKey)
  | allNamed (cta : Cta)
  | named (key : NamedKey)
  deriving DecidableEq

/-! ### The decoded operations -/

variable (ev : Event)

def arriveEntry : Option (MbarKey × ℕ × ℕ) :=
  if ev.kind = some .mbarArrive then ev.bar.map fun a => ((ev.cta, a), ev.warp, ev.pos) else none

def waitEntry : Option (MbarKey × ℕ × (ℕ × Token)) :=
  if ev.kind = some .mbarWait ∧ ev.success = some true then
    ev.bar.map fun a => ((ev.cta, a), ev.warp, (ev.pos, ev.token))
  else none

def issueEntry : Option (MbarKey × ℕ × ℕ) :=
  if ev.kind = some .asyncW then ev.srcBar.map fun a => ((ev.cta, a), ev.warp, ev.pos) else none

/-- Whether an event is a named barrier instruction. -/
def Event.isNamed : Bool := ev.kind = some .barSync ∨ ev.kind = some .barArv

def namedEntry : Option (NamedKey × ℕ × (ℕ × Bool)) :=
  if ev.isNamed then
    some ((ev.cta, ev.barId, ev.barCount), ev.warp, (ev.pos, ev.kind = some .barSync))
  else none

/-! ### The phases of a warp's waits -/

/-- Parity 1, as bit 31 of the wait's operand. -/
def oddToken : Token := .value 0x80000000

def tokenKnown (t : Token) : Bool := t = .value 0 ∨ t = oddToken

def hasRepeat : List Token → Bool
  | a :: b :: rest => a = b || hasRepeat (b :: rest)
  | _ => false

variable (ws : List (ℕ × Token))

/-- Whether the tokens are parities that alternate. -/
def tokensOk : Bool :=
  ws.all (fun w => tokenKnown w.2) && !hasRepeat (ws.map Prod.snd)

/-- A waiter whose first parity is 1 starts on the pre-completed phase. -/
def phaseOrigin : ℤ :=
  if (ws.head?.map Prod.snd) = some oddToken then -1 else 0

/-- `{origin + n: pos for n, (pos, _) in enumerate(ws)}`. -/
def phases : List (ℤ × ℕ) :=
  if tokensOk ws then ws.zipIdx.map fun w => (phaseOrigin ws + w.2, w.1.1) else []

/-! ### Problems -/

/-- The names a remote arrive excludes: the encoded address, its offset in the
target CTA, and its name in any other CTA. -/
def excludedNames (raw : List ℤ) : List ℤ :=
  raw.flatMap fun a =>
    if InWindow a then [a, a % sharedLimit, clusterWindow + a] else [a]

variable (pw : PerWarp)

def eventProblems (ev : Event) : List (ProblemKey × String) :=
  (if ev.isNamed ∧ .operandUnresolved ∈ ev.flags then
    [(.allNamed ev.cta, "operand_unresolved")] else []) ++
  (if ev.kind = some .mbarRemote then
    (excludedNames (ev.rawBars.getD (ev.bar.toList ++ ev.barSet))).flatMap fun a =>
      pw.ctas.map fun c => (.mbar (c, a), "remote_arrive")
  else []) ++
  ev.barSet.map fun a => (.mbar (ev.cta, a), "nonuniform_lane_addresses")

/-- Why a warp's tokens give no phases, if so. -/
def tokenProblem (key : MbarKey) (ws : List (ℕ × Token)) : List (ProblemKey × String) :=
  if ¬ ws.all (fun w => tokenKnown w.2) then [(.mbar key, "token_encoding_unknown")]
  else if hasRepeat (ws.map Prod.snd) then [(.mbar key, "phase_token_repeat")]
  else []

def waitProblems (inits : ℕ) (key : MbarKey) (waiters : Dict ℕ (List (ℕ × Token))) :
    List (ProblemKey × String) :=
  waiters.entries.flatMap (fun w => tokenProblem key w.2) ++
    if 1 < inits then [(.mbar key, "reinitialized")] else []

def namedProblems (key : NamedKey) (users : Dict ℕ (List (ℕ × Bool))) : List (ProblemKey × String) :=
  (if users.values.any fun v => users.values.any fun v' => v.length ≠ v'.length then
    [(.named key, "unequal_invocations")] else []) ++
  match key.2.2 with
  | some count =>
    if count ≠ 0 ∧ count / 32 < users.keys.length then [(.named key, "more_warps_than_count")] else []
  | none => []

/-! ### Barriers -/

structure Barriers where
  arrive : Dict MbarKey (Dict ℕ (List ℕ))
  wait : Dict MbarKey (Dict ℕ (List (ℕ × Token)))
  issue : Dict MbarKey (Dict ℕ (List ℕ))
  named : Dict NamedKey (Dict ℕ (List (ℕ × Bool)))
  problems : List (ProblemKey × String)

def barriers : Barriers :=
  let wait := Dict.grouped (pw.all.filterMap waitEntry)
  let named := Dict.grouped (pw.all.filterMap namedEntry)
  let inits (key : MbarKey) :=
    pw.all.countP fun ev => ev.kind = some .mbarInit ∧ ev.cta = key.1 ∧ ev.bar = some key.2
  { arrive := Dict.grouped (pw.all.filterMap arriveEntry)
    wait := wait
    issue := Dict.grouped (pw.all.filterMap issueEntry)
    named := named
    problems := pw.all.flatMap (eventProblems pw) ++
      wait.entries.flatMap (fun e => waitProblems (inits e.1) e.1 e.2) ++
      named.entries.flatMap fun e => namedProblems e.1 e.2 }

namespace Barriers

variable (b : Barriers)

def excluded (key : ProblemKey) : Bool := b.problems.any fun p => p.1 = key

def mbarOk (key : MbarKey) : Bool := !b.excluded (.mbar key)

/-- The wait of a warp that a phase names: `phase.get((cta, bar, w), {}).get(k)`. -/
def phaseWait (key : MbarKey) (warp : ℕ) (k : ℤ) : Option ℕ :=
  Dict.lookup k (phases (b.wait.group key warp))

def mbarLinks (cta : Cta) (warp releasePos : ℕ) (key : MbarKey) : List (ℕ × ℕ) :=
  let mine := b.arrive.group key warp
  if key.1 ≠ cta ∨ releasePos ∉ mine ∨ ¬ b.mbarOk key then []
  else
    let waiters := ((b.wait.get? key).map Dict.keys).getD []
    waiters.filterMap fun w => (b.phaseWait key w (mine.idxOf releasePos)).map fun pos => (w, pos)

def namedLinks (cta : Cta) (warp releasePos : ℕ) (e : NamedKey × Dict ℕ (List (ℕ × Bool))) :
    List (ℕ × ℕ) :=
  let mine := ((e.2.get? warp).getD []).map Prod.fst
  if e.1.1 ≠ cta ∨ b.excluded (.named e.1) ∨ b.excluded (.allNamed cta) ∨ releasePos ∉ mine then []
  else
    e.2.entries.filterMap fun user =>
      if user.1 = warp then none
      else
        match user.2[mine.idxOf releasePos]? with
        | some (pos, true) => some (user.1, pos)
        | _ => none

/-- `links_from`: acquires that ordinal-match a release. -/
def linksFrom (cta : Cta) (warp releasePos : ℕ) : List (ℕ × ℕ) :=
  b.arrive.keys.flatMap (b.mbarLinks cta warp releasePos) ++
    b.named.entries.flatMap (b.namedLinks cta warp releasePos)

end Barriers

/-! ### What the groups hold -/

variable {cta : Cta}

/-- Entries under one key come from the events of its warp that match. -/
theorem group_grouped_filterMap {κ ν : Type*} [DecidableEq κ] (pw : PerWarp)
    (entry : Event → Option (κ × ℕ × ν)) {key : κ} {warp : ℕ} (p : Event → Bool) (g : Event → ν)
    (hentry : ∀ ev, (ev.cta, ev.warp) = (cta, warp) → p ev → entry ev = some (key, warp, g ev))
    (hmatch : ∀ ev v, entry ev = some (key, warp, v) → (ev.cta, ev.warp) = (cta, warp) ∧ p ev) :
    (Dict.grouped (pw.all.filterMap entry)).group key warp =
      ((pw.events cta warp).filter p).map g := by
  rw [Dict.group_grouped, ← pw.filter_all cta warp]
  induction pw.all with
  | nil => rfl
  | cons ev evs ih =>
    by_cases h : (ev.cta, ev.warp) = (cta, warp) ∧ p ev
    · rw [List.filterMap_cons_some (hentry ev h.1 h.2), List.filter_cons_of_pos (by simp),
        List.map_cons, ih, List.filter_cons_of_pos (by simpa using h.1),
        List.filter_cons_of_pos h.2, List.map_cons]
    · have hskip : ((evs.filter fun ev => (ev.cta, ev.warp) = (cta, warp)).filter p).map g =
          (((ev :: evs).filter fun ev => (ev.cta, ev.warp) = (cta, warp)).filter p).map g := by
        by_cases hc : (ev.cta, ev.warp) = (cta, warp)
        · rw [List.filter_cons_of_pos (by simpa using hc),
            List.filter_cons_of_neg fun hp => h ⟨hc, hp⟩]
        · rw [List.filter_cons_of_neg (by simpa using hc)]
      rw [← hskip, ← ih]
      cases he : entry ev with
      | none => rw [List.filterMap_cons_none he]
      | some x =>
        obtain ⟨k, m, v⟩ := x
        rw [List.filterMap_cons_some he, List.filter_cons_of_neg]
        simp only [decide_eq_true_eq]
        rintro ⟨rfl, rfl⟩
        exact h (hmatch ev v he)

/-- Whether an event is a decoded arrive on the barrier `a`. -/
def Event.arrivesAt (a : ℤ) : Bool := ev.kind = some .mbarArrive ∧ ev.bar = some a

/-- Whether an event is a decoded wait on the barrier `a` that was seen to succeed. -/
def Event.acquiresAt (a : ℤ) : Bool :=
  ev.kind = some .mbarWait ∧ ev.success = some true ∧ ev.bar = some a

/-- Whether an event is a named barrier instruction with the operands of `key`. -/
def Event.usesNamed (key : NamedKey) : Bool :=
  ev.isNamed ∧ ev.barId = key.2.1 ∧ ev.barCount = key.2.2

theorem arrive_group (pw : PerWarp) (cta : Cta) (a : ℤ) (warp : ℕ) :
    (barriers pw).arrive.group (cta, a) warp =
      ((pw.events cta warp).filter fun ev => ev.arrivesAt a).map Event.pos := by
  refine group_grouped_filterMap pw arriveEntry _ _ ?_ ?_
  · intro ev hw hp
    simp only [Event.arrivesAt, decide_eq_true_eq, Prod.mk.injEq] at hp hw
    simp [arriveEntry, hp.1, hp.2, hw.1, hw.2]
  · intro ev v he
    unfold arriveEntry at he
    split_ifs at he with hk
    simp only [Option.map_eq_some_iff, Prod.mk.injEq] at he
    obtain ⟨a', ha, ⟨hc, rfl⟩, hw, -⟩ := he
    exact ⟨by rw [hc, hw], by simp [Event.arrivesAt, hk, ha]⟩

theorem wait_group (pw : PerWarp) (cta : Cta) (a : ℤ) (warp : ℕ) :
    (barriers pw).wait.group (cta, a) warp =
      ((pw.events cta warp).filter fun ev => ev.acquiresAt a).map fun ev => (ev.pos, ev.token) := by
  refine group_grouped_filterMap pw waitEntry _ _ ?_ ?_
  · intro ev hw hp
    simp only [Event.acquiresAt, decide_eq_true_eq, Prod.mk.injEq] at hp hw
    simp [waitEntry, hp.1, hp.2.1, hp.2.2, hw.1, hw.2]
  · intro ev v he
    unfold waitEntry at he
    split_ifs at he with hk
    simp only [Option.map_eq_some_iff, Prod.mk.injEq] at he
    obtain ⟨a', ha, ⟨hc, rfl⟩, hw, -⟩ := he
    exact ⟨by rw [hc, hw], by simp [Event.acquiresAt, hk, ha]⟩

theorem named_group (pw : PerWarp) (key : NamedKey) (warp : ℕ) :
    (barriers pw).named.group key warp =
      ((pw.events key.1 warp).filter fun ev => ev.usesNamed key).map fun ev =>
        (ev.pos, decide (ev.kind = some .barSync)) := by
  obtain ⟨cta, id, count⟩ := key
  refine group_grouped_filterMap pw namedEntry _ _ ?_ ?_
  · intro ev hw hp
    simp only [Event.usesNamed, decide_eq_true_eq, Prod.mk.injEq] at hp hw
    simp [namedEntry, hp.1, hp.2.1, hp.2.2, hw.1, hw.2]
  · intro ev v he
    unfold namedEntry at he
    split_ifs at he with hk
    simp only [Option.some.injEq, Prod.mk.injEq] at he
    obtain ⟨⟨hc, hid, hcount⟩, hw, -⟩ := he
    exact ⟨by rw [hc, hw], by simp [Event.usesNamed, hk, hid, hcount]⟩

/-! ### What a link says -/

theorem mem_positions {pw : PerWarp} {warp : ℕ} {p : Event → Bool} {i : ℕ} :
    i ∈ ((pw.events cta warp).filter p).map Event.pos ↔
      ∃ ev, (pw.events cta warp)[i]? = some ev ∧ p ev := by
  simp only [List.mem_map, List.mem_filter]
  constructor
  · rintro ⟨ev, ⟨hmem, hp⟩, rfl⟩
    obtain ⟨j, hj⟩ := List.mem_iff_getElem?.mp hmem
    obtain ⟨-, -, rfl, -⟩ := PerWarp.mem_events hj
    exact ⟨ev, hj, hp⟩
  · rintro ⟨ev, hev, hp⟩
    exact ⟨ev, ⟨List.mem_of_getElem? hev, hp⟩, (PerWarp.mem_events hev).2.2.1⟩

theorem keys_phases : ((phases ws).map Prod.fst).Nodup := by
  unfold phases
  split_ifs
  · rw [List.map_map, List.nodup_iff_injective_getElem]
    intro i j hij
    simp only [List.getElem_map, List.getElem_zipIdx, Function.comp_apply] at hij
    exact Fin.ext (by omega)
  · exact List.nodup_nil

/-- A phase names the wait of its number, counted from the origin. -/
theorem lookup_phases {ws : List (ℕ × Token)} {k : ℤ} {pos : ℕ} :
    Dict.lookup k (phases ws) = some pos ↔ tokensOk ws = true ∧
      ∃ (n : ℕ) (w : ℕ × Token), ws[n]? = some w ∧ w.1 = pos ∧ k = phaseOrigin ws + n := by
  rw [Dict.lookup_eq_some_iff (keys_phases ws)]
  unfold phases
  split_ifs with hok
  · simp only [List.mem_map, Prod.mk.injEq]
    constructor
    · rintro ⟨⟨w, n⟩, hmem, rfl, rfl⟩
      exact ⟨hok, n, w, List.mk_mem_zipIdx_iff_getElem?.mp hmem, rfl, rfl⟩
    · rintro ⟨-, n, w, hw, rfl, rfl⟩
      exact ⟨(w, n), List.mk_mem_zipIdx_iff_getElem?.mpr hw, rfl, rfl⟩
  · simp [hok]

variable {warp rel : ℕ} {link : ℕ × ℕ}

theorem mem_mbarLinks {b : Barriers} {key : MbarKey} :
    link ∈ b.mbarLinks cta warp rel key ↔
      key.1 = cta ∧ b.mbarOk key = true ∧ rel ∈ b.arrive.group key warp ∧
        b.phaseWait key link.1 ((b.arrive.group key warp).idxOf rel) = some link.2 := by
  unfold Barriers.mbarLinks
  simp only
  split_ifs with hskip
  · simp only [List.not_mem_nil, false_iff]
    rintro ⟨hc, hok, hrel, -⟩
    rcases hskip with h | h | h
    · exact h hc
    · exact h hrel
    · exact h hok
  · push Not at hskip
    constructor
    · intro h
      obtain ⟨w, -, hw⟩ := List.mem_filterMap.mp h
      obtain ⟨pos, hpos, rfl⟩ := Option.map_eq_some_iff.mp hw
      exact ⟨hskip.1, hskip.2.2, hskip.2.1, hpos⟩
    · rintro ⟨-, -, -, hpos⟩
      refine List.mem_filterMap.mpr ⟨link.1, ?_, by rw [hpos]; rfl⟩
      -- a warp with a wait is among the waiters
      obtain ⟨-, n, w, hn, -⟩ := lookup_phases.mp hpos
      cases hg : b.wait.get? key with
      | none => simp [Dict.group, hg] at hn
      | some waiters =>
        cases hw : waiters.get? link.1 with
        | none => simp [Dict.group, hg, hw] at hn
        | some ws => exact (waiters.mem_keys_iff link.1).mpr ⟨ws, hw⟩

def seenWaits (cta : Cta) (a : ℤ) (warp : ℕ) : List (ℕ × Token) :=
  ((pw.events cta warp).filter fun ev => ev.acquiresAt a).map fun ev => (ev.pos, ev.token)

/-- The number a decoded arrive gets: the arrives on the barrier decoded before it. -/
def arriveOrdinal (cta : Cta) (a : ℤ) (warp pos : ℕ) : ℕ :=
  Ordinal.before (fun ev => ev.arrivesAt a) (pw.events cta warp) pos

/-- The number a wait gets: the waits on the barrier seen to succeed before it. -/
def waitOrdinal (cta : Cta) (a : ℤ) (warp pos : ℕ) : ℕ :=
  Ordinal.before (fun ev => ev.acquiresAt a) (pw.events cta warp) pos

theorem pos_of_getElem? {pw : PerWarp} {warp : ℕ} (i : ℕ) (ev : Event)
    (h : (pw.events cta warp)[i]? = some ev) : ev.pos = i := (PerWarp.mem_events h).2.2.1

/-- A barrier that is not excluded has alternating tokens in every warp. -/
theorem tokensOk_of_mbarOk {pw : PerWarp} {key : MbarKey} (h : (barriers pw).mbarOk key = true)
    (warp : ℕ) : tokensOk ((barriers pw).wait.group key warp) = true := by
  by_contra hbad
  have hproblem : ∃ reason, (ProblemKey.mbar key, reason) ∈
      tokenProblem key ((barriers pw).wait.group key warp) := by
    unfold tokenProblem
    by_cases hknown : ((barriers pw).wait.group key warp).all (fun w => tokenKnown w.2) = true
    · have hrepeat : hasRepeat (((barriers pw).wait.group key warp).map Prod.snd) = true := by
        by_contra hno
        exact hbad (by simp only [tokensOk, hknown, Bool.eq_false_of_not_eq_true hno]; rfl)
      exact ⟨_, by rw [if_neg (not_not.mpr hknown), if_pos hrepeat]; exact List.mem_singleton_self _⟩
    · exact ⟨_, by rw [if_pos hknown]; exact List.mem_singleton_self _⟩
  obtain ⟨reason, hreason⟩ := hproblem
  set ws := (barriers pw).wait.group key warp with hws
  -- the warp has waits, so its entry was checked
  cases hg : (barriers pw).wait.get? key with
  | none =>
    have : ws = [] := by simp [hws, Dict.group, hg]
    exact hbad (by simp [this, tokensOk, hasRepeat])
  | some waiters =>
    cases hw : waiters.get? warp with
    | none =>
      have : ws = [] := by simp [hws, Dict.group, hg, hw]
      exact hbad (by simp [this, tokensOk, hasRepeat])
    | some ws' =>
      have hws' : ws = ws' := by simp [hws, Dict.group, hg, hw]
      have hentry := (Dict.get?_eq_some_iff _ _ _).mp hg
      have hmem := (waiters.get?_eq_some_iff warp ws').mp hw
      rw [Barriers.mbarOk, Bool.not_eq_true', Barriers.excluded, List.any_eq_false] at h
      refine h (.mbar key, reason) ?_ (by simp)
      refine List.mem_append_left _ (List.mem_append_right _ ?_)
      refine List.mem_flatMap.mpr ⟨(key, waiters), hentry, ?_⟩
      exact List.mem_append_left _ (List.mem_flatMap.mpr ⟨(warp, ws'), hmem, hws' ▸ hreason⟩)

/-- A link through an mbarrier pairs a decoded arrive with a seen wait of its number. -/
theorem mem_mbarLinks_iff {pw : PerWarp} {a : ℤ} :
    link ∈ (barriers pw).mbarLinks cta warp rel (cta, a) ↔
      (barriers pw).mbarOk (cta, a) = true ∧
        (∃ ev, (pw.events cta warp)[rel]? = some ev ∧ ev.arrivesAt a) ∧
        (∃ ev, (pw.events cta link.1)[link.2]? = some ev ∧ ev.acquiresAt a) ∧
        (arriveOrdinal pw cta a warp rel : ℤ) =
          phaseOrigin (seenWaits pw cta a link.1) + waitOrdinal pw cta a link.1 link.2 := by
  rw [mem_mbarLinks]
  simp only [true_and]
  refine and_congr_right fun hok => ?_
  rw [arrive_group, mem_positions]
  refine and_congr_right ?_
  rintro ⟨rel', hrel, harrives⟩
  have hidx := Ordinal.idxOf_label (p := fun ev => ev.arrivesAt a) pos_of_getElem? hrel harrives
  have htokens := tokensOk_of_mbarOk hok link.1
  rw [wait_group] at htokens
  rw [hidx, Barriers.phaseWait, wait_group, lookup_phases]
  constructor
  · rintro ⟨-, n, w, hn, hw, hk⟩
    rw [List.getElem?_map, Option.map_eq_some_iff] at hn
    obtain ⟨ev, hev, rfl⟩ := hn
    obtain ⟨i, hi, hp, rfl⟩ := Ordinal.exists_of_getElem?_filter hev
    obtain rfl : i = link.2 := (pos_of_getElem? i ev hi).symm.trans hw
    exact ⟨⟨ev, hi, hp⟩, hk⟩
  · rintro ⟨⟨ev, hev, hp⟩, hk⟩
    refine ⟨htokens, waitOrdinal pw cta a link.1 link.2, (ev.pos, ev.token), ?_,
      pos_of_getElem? _ _ hev, hk⟩
    rw [List.getElem?_map, waitOrdinal, Ordinal.getElem?_filter_before hev hp]
    rfl

/-- The two ends of a link through an mbarrier. -/
theorem mbarLink_ends {pw : PerWarp} {key : MbarKey}
    (h : link ∈ (barriers pw).mbarLinks cta warp rel key) :
    (∃ ev, (pw.events cta warp)[rel]? = some ev ∧ ev.arrivesAt key.2) ∧
      ∃ ev, (pw.events cta link.1)[link.2]? = some ev ∧ ev.acquiresAt key.2 := by
  obtain ⟨rfl, -, -, -⟩ := mem_mbarLinks.mp h
  obtain ⟨-, harrive, hacquire, -⟩ := mem_mbarLinks_iff.mp h
  exact ⟨harrive, hacquire⟩

theorem mem_namedLinks {b : Barriers} {e : NamedKey × Dict ℕ (List (ℕ × Bool))}
    (he : e ∈ b.named.entries) (h : link ∈ b.namedLinks cta warp rel e) :
    e.1.1 = cta ∧ b.excluded (.named e.1) = false ∧ b.excluded (.allNamed cta) = false ∧
      link.1 ≠ warp ∧ rel ∈ (b.named.group e.1 warp).map Prod.fst ∧
      (b.named.group e.1 link.1)[((b.named.group e.1 warp).map Prod.fst).idxOf rel]? =
        some (link.2, true) := by
  obtain ⟨key, users⟩ := e
  have hgroup : ∀ w, (users.get? w).getD [] = b.named.group key w := Dict.group_of_mem_entries he
  unfold Barriers.namedLinks at h
  simp only [hgroup] at h
  split_ifs at h with hskip
  · simp at h
  · push Not at hskip
    obtain ⟨⟨w, lst⟩, hw, hlink⟩ := List.mem_filterMap.mp h
    simp only at hlink
    split_ifs at hlink with hsame
    split at hlink
    · rename_i pos hget
      cases hlink
      have hlst : b.named.group key w = lst := by
        rw [← hgroup, (users.get?_eq_some_iff w lst).mpr hw]
        rfl
      refine ⟨hskip.1, by simpa using hskip.2.1, by simpa using hskip.2.2.1, hsame, hskip.2.2.2, ?_⟩
      rw [hlst]
      exact hget
    · simp at hlink

/-- A link through a named barrier pairs two uses of one number. -/
theorem namedLink_ordinal {pw : PerWarp} {e : NamedKey × Dict ℕ (List (ℕ × Bool))}
    (he : e ∈ (barriers pw).named.entries) (h : link ∈ (barriers pw).namedLinks cta warp rel e) :
    (∃ ev, (pw.events cta warp)[rel]? = some ev ∧ ev.usesNamed e.1) ∧
      (∃ ev, (pw.events cta link.1)[link.2]? = some ev ∧ ev.usesNamed e.1 ∧
        ev.kind = some .barSync) ∧
      Ordinal.before (fun ev => ev.usesNamed e.1) (pw.events cta warp) rel =
        Ordinal.before (fun ev => ev.usesNamed e.1) (pw.events cta link.1) link.2 := by
  obtain ⟨rfl, -, -, -, hrel, hget⟩ := mem_namedLinks he h
  have hfst : ((barriers pw).named.group e.1 warp).map Prod.fst =
      ((pw.events e.1.1 warp).filter fun ev => ev.usesNamed e.1).map Event.pos := by
    rw [named_group, List.map_map]
    rfl
  rw [hfst] at hrel hget
  obtain ⟨rel', hrel', huse⟩ := mem_positions.mp hrel
  have hidx := Ordinal.idxOf_label (p := fun ev => ev.usesNamed e.1) pos_of_getElem? hrel' huse
  rw [hidx, named_group, List.getElem?_map, Option.map_eq_some_iff] at hget
  obtain ⟨ev, hev, hpair⟩ := hget
  obtain ⟨hpos, hsync⟩ := Prod.mk.inj hpair
  obtain ⟨i, hi, hp, hn⟩ := Ordinal.exists_of_getElem?_filter hev
  obtain rfl : i = link.2 := (pos_of_getElem? i ev hi).symm.trans hpos
  exact ⟨⟨rel', hrel', huse⟩, ⟨ev, hi, hp, by simpa using hsync⟩, hn⟩

/-- A link goes through one mbarrier or one named barrier. -/
theorem mem_linksFrom {b : Barriers} :
    link ∈ b.linksFrom cta warp rel ↔
      (∃ key ∈ b.arrive.keys, link ∈ b.mbarLinks cta warp rel key) ∨
        ∃ e ∈ b.named.entries, link ∈ b.namedLinks cta warp rel e := by
  simp only [Barriers.linksFrom, List.mem_append, List.mem_flatMap]

end CuTracer.MemoryModel
