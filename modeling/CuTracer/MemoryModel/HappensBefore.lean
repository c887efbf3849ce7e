import CuTracer.MemoryModel.Protocol

/-! Happens-before by lane. A lane's instructions are ordered by the program, a
warp-wide sync joins its lanes, and a release happens before every acquire of
its phase or a later one. With true links, a chain that `handshake` reports as
linked orders every lane of the first access before every lane of the second. -/

namespace CuTracer.MemoryModel

structure Node where
  warp : ℕ
  pos : ℕ
  lane : ℕ

/-- What orders two lanes of a CTA directly. -/
inductive Edge (T : Truth) (pw : PerWarp) (cta : Cta) : Node → Node → Prop
  | program {warp i j lane : ℕ} {ev ev' : Event} (hi : (pw.events cta warp)[i]? = some ev)
      (hj : (pw.events cta warp)[j]? = some ev') (hij : i < j) (hl : ev.mask.testBit lane)
      (hl' : ev'.mask.testBit lane) : Edge T pw cta ⟨warp, i, lane⟩ ⟨warp, j, lane⟩
  | sync {warp i lane lane' : ℕ} {ev : Event} (hi : (pw.events cta warp)[i]? = some ev)
      (hl : ev.syncMask.testBit lane) (hl' : ev.syncMask.testBit lane') :
      Edge T pw cta ⟨warp, i, lane⟩ ⟨warp, i, lane'⟩
  | acquire {w w' i j lane lane' : ℕ} {rel acq : Event} {b : Barrier} {p q : ℤ}
      (hi : (pw.events cta w)[i]? = some rel) (hj : (pw.events cta w')[j]? = some acq)
      (hp : T.releasePhase pw cta w i b = some p) (hq : T.acquirePhase pw cta w' j b = some q)
      (hpq : p ≤ q) (hl : rel.mask.testBit lane) (hl' : acq.mask.testBit lane') :
      Edge T pw cta ⟨w, i, lane⟩ ⟨w', j, lane'⟩

def HappensBefore (T : Truth) (pw : PerWarp) (cta : Cta) : Node → Node → Prop :=
  Relation.TransGen (Edge T pw cta)

variable {T : Truth} {pw : PerWarp} {cta : Cta}

theorem HappensBefore.trans {a b c : Node} (h : HappensBefore T pw cta a b)
    (h' : HappensBefore T pw cta b c) : HappensBefore T pw cta a c := Relation.TransGen.trans h h'

theorem happensBefore_program {warp i j lane : ℕ} {ev ev' : Event}
    (hi : (pw.events cta warp)[i]? = some ev) (hj : (pw.events cta warp)[j]? = some ev')
    (hij : i < j) (hl : ev.mask.testBit lane) (hl' : ev'.mask.testBit lane) :
    HappensBefore T pw cta ⟨warp, i, lane⟩ ⟨warp, j, lane⟩ :=
  Relation.TransGen.single (.program hi hj hij hl hl')

/-! ### Lanes -/

theorem testBit_of_covers {mask lanes l : ℕ} (h : covers mask lanes = true) (hl : lanes.testBit l) :
    mask.testBit l = true := by
  have hand : mask &&& lanes = lanes := of_decide_eq_true h
  have hbit := congrArg (fun n => n.testBit l) hand
  simp only [Nat.testBit_and, hl, Bool.and_true] at hbit
  exact hbit

theorem testBit_mask_of_syncMask {ev : Event} {l : ℕ} (h : ev.syncMask.testBit l) :
    ev.mask.testBit l = true := by
  unfold Event.syncMask at h
  split at h
  · exact h
  · rw [Nat.testBit_and, Bool.and_eq_true] at h
    exact h.1
  · simp at h

/-- The sync that joins two sets of lanes, and where it stands. -/
theorem exists_sync {warp lo hi lanes : ℕ} {e : Event}
    (h : (((pw.events cta warp).take hi).drop (lo + 1)).find? (fun e => e.syncs lanes) = some e) :
    ∃ i, lo < i ∧ i < hi ∧ (pw.events cta warp)[i]? = some e ∧
      ∀ l, lanes.testBit l = true → e.syncMask.testBit l = true := by
  obtain ⟨k, hk⟩ := List.mem_iff_getElem?.mp (List.mem_of_find?_eq_some h)
  rw [List.getElem?_drop, List.getElem?_take] at hk
  split_ifs at hk with hlt
  refine ⟨lo + 1 + k, by omega, hlt, hk, ?_⟩
  intro l hl
  have hsyncs := List.find?_some h
  simp only [Event.syncs, decide_eq_true_eq] at hsyncs
  exact testBit_of_covers hsyncs.2 hl

section Join

variable {warp lo hi lanes : ℕ} {anchor x : Event}

/-- Lanes that are joined to a later instruction happen before one of its lanes. -/
theorem join_before (h : (join (pw.events cta warp) lo hi lanes anchor).isSome = true)
    (hanchor : (pw.events cta warp)[hi]? = some anchor) {i : ℕ}
    (hx : (pw.events cta warp)[i]? = some x) (hlo : i ≤ lo) (hhi : i < hi) {l : ℕ}
    (hl : lanes.testBit l) (hlx : x.mask.testBit l) :
    ∃ m, anchor.mask.testBit m = true ∧ HappensBefore T pw cta ⟨warp, i, l⟩ ⟨warp, hi, m⟩ := by
  unfold join at h
  split_ifs at h with hcovers
  · have hm := testBit_of_covers hcovers hl
    exact ⟨l, hm, happensBefore_program hx hanchor hhi hlx hm⟩
  · rw [Option.isSome_map] at h
    obtain ⟨e, he⟩ := Option.isSome_iff_exists.mp h
    obtain ⟨j, hloj, hjhi, hj, hsync⟩ := exists_sync he
    obtain ⟨m, hm⟩ := Nat.exists_testBit_of_ne_zero (PerWarp.mem_events hanchor).2.2.2.1
    have hsl := hsync l (by simp [hl])
    have hsm := hsync m (by simp [hm])
    refine ⟨m, hm, ?_⟩
    have h₁ : HappensBefore T pw cta ⟨warp, i, l⟩ ⟨warp, j, l⟩ :=
      happensBefore_program hx hj (by omega) hlx (testBit_mask_of_syncMask hsl)
    have h₂ : HappensBefore T pw cta ⟨warp, j, l⟩ ⟨warp, j, m⟩ :=
      Relation.TransGen.single (.sync hj hsl hsm)
    have h₃ : HappensBefore T pw cta ⟨warp, j, m⟩ ⟨warp, hi, m⟩ :=
      happensBefore_program hj hanchor hjhi (testBit_mask_of_syncMask hsm) hm
    exact (h₁.trans h₂).trans h₃

/-- Lanes that are joined to an earlier instruction happen after one of its lanes. -/
theorem join_after (h : (join (pw.events cta warp) lo hi lanes anchor).isSome = true)
    (hanchor : (pw.events cta warp)[lo]? = some anchor)
    (hx : (pw.events cta warp)[hi]? = some x) (hlt : lo < hi) {l : ℕ} (hl : lanes.testBit l)
    (hlx : x.mask.testBit l) :
    ∃ m, anchor.mask.testBit m = true ∧ HappensBefore T pw cta ⟨warp, lo, m⟩ ⟨warp, hi, l⟩ := by
  unfold join at h
  split_ifs at h with hcovers
  · have hm := testBit_of_covers hcovers hl
    exact ⟨l, hm, happensBefore_program hanchor hx hlt hm hlx⟩
  · rw [Option.isSome_map] at h
    obtain ⟨e, he⟩ := Option.isSome_iff_exists.mp h
    obtain ⟨j, hloj, hjhi, hj, hsync⟩ := exists_sync he
    obtain ⟨m, hm⟩ := Nat.exists_testBit_of_ne_zero (PerWarp.mem_events hanchor).2.2.2.1
    have hsl := hsync l (by simp [hl])
    have hsm := hsync m (by simp [hm])
    refine ⟨m, hm, ?_⟩
    have h₁ : HappensBefore T pw cta ⟨warp, lo, m⟩ ⟨warp, j, m⟩ :=
      happensBefore_program hanchor hj hloj hm (testBit_mask_of_syncMask hsm)
    have h₂ : HappensBefore T pw cta ⟨warp, j, m⟩ ⟨warp, j, l⟩ :=
      Relation.TransGen.single (.sync hj hsm hsl)
    have h₃ : HappensBefore T pw cta ⟨warp, j, l⟩ ⟨warp, hi, l⟩ :=
      happensBefore_program hj hx hjhi (testBit_mask_of_syncMask hsl) hlx
    exact (h₁.trans h₂).trans h₃

end Join

/-! ### Links -/

/-- A link's release belongs to a phase of some barrier. -/
theorem exists_releasePhase (hT : ∀ ev ∈ pw.all, Faithful T ev) {warp rel : ℕ} {link : ℕ × ℕ}
    (h : link ∈ (barriers pw).linksFrom cta warp rel) :
    ∃ b p, T.releasePhase pw cta warp rel b = some p := by
  rcases mem_linksFrom.mp h with ⟨⟨cta', a⟩, -, hm⟩ | ⟨e, he, hn⟩
  · obtain rfl : cta' = cta := (mem_mbarLinks.mp hm).1
    obtain ⟨-, ⟨ev, hev, ha⟩, -⟩ := mem_mbarLinks_iff.mp hm
    have htrue : T.arrivesAt a ev = true :=
      (hT ev (PerWarp.mem_events hev).2.2.2.2.1).arrive_decoded a ha
    refine ⟨.mbar a, Ordinal.before (T.arrivesAt a) (pw.events cta' warp) rel, ?_⟩
    simp only [Truth.releasePhase, any_getElem? hev, htrue, if_true]
  · obtain ⟨rfl, -, hall, -⟩ := mem_namedLinks he hn
    obtain ⟨⟨ev, hev, huse⟩, -⟩ := namedLink_ordinal he hn
    have htrue := usesNamed_eq hT (PerWarp.mem_events hev).2.2.2.2.1 (PerWarp.mem_events hev).1 hall
    rw [huse] at htrue
    refine ⟨.named e.1.2.1 e.1.2.2,
      Ordinal.before (T.usesAt e.1.2.1 e.1.2.2) (pw.events e.1.1 warp) rel, ?_⟩
    simp only [Truth.releasePhase, any_getElem? hev, htrue, if_true]

/-- A true link orders every lane of its release before every lane of its acquire. -/
theorem link_happensBefore (hT : ∀ ev ∈ pw.all, Faithful T ev) (htrue : T.LinksTrue pw)
    {warp i : ℕ} {link : ℕ × ℕ} (h : link ∈ (barriers pw).linksFrom cta warp i) {rel acq : Event}
    (hrel : (pw.events cta warp)[i]? = some rel) (hacq : (pw.events cta link.1)[link.2]? = some acq)
    {l l' : ℕ} (hl : rel.mask.testBit l) (hl' : acq.mask.testBit l') :
    HappensBefore T pw cta ⟨warp, i, l⟩ ⟨link.1, link.2, l'⟩ := by
  obtain ⟨b, p, hp⟩ := exists_releasePhase hT h
  obtain ⟨q, hq, hpq⟩ := htrue cta warp i link h b p hp
  exact Relation.TransGen.single (.acquire hrel hacq hp hq hpq hl hl')

/-! ### Chains -/

/-- Every lane of the first access happens before every lane of the second. -/
def Accesses.Ordered (T : Truth) (pw : PerWarp) (x : Accesses) : Prop :=
  ∀ l l', (maskAt (pw.events x.cta x.w1) x.p1).testBit l →
    (maskAt (pw.events x.cta x.w2) x.p2).testBit l' →
    HappensBefore T pw x.cta ⟨x.w1, x.p1, l⟩ ⟨x.w2, x.p2, l'⟩

/-- An access with an active lane is an instruction. -/
theorem exists_of_maskAt {evs : List Event} {i l : ℕ} (h : (maskAt evs i).testBit l) :
    ∃ ev, evs[i]? = some ev ∧ ev.mask = maskAt evs i := by
  unfold maskAt at h ⊢
  cases hev : evs[i]? with
  | none => simp [hev] at h
  | some ev => exact ⟨ev, rfl, rfl⟩

section Chains

variable {x : Accesses} {rel : Event}
  (hrel : rel ∈ releasesAfter (pw.events x.cta x.w1) x.p1)

include hrel

/-- The first access happens before its joined release. -/
theorem access_before_release
    (h : (releaseHead (pw.events x.cta x.w1) x.p1 rel).toRelease.isSome = true) {l : ℕ}
    (hl : (maskAt (pw.events x.cta x.w1) x.p1).testBit l) :
    ∃ m, rel.mask.testBit m = true ∧
      HappensBefore T pw x.cta ⟨x.w1, x.p1, l⟩ ⟨x.w1, rel.pos, m⟩ := by
  obtain ⟨hlt, hget⟩ := mem_releasesAfter hrel
  obtain ⟨lo, hlo, -, hjoin⟩ := toRelease_releaseHead hlt h
  obtain ⟨ev, hev, hmask⟩ := exists_of_maskAt hl
  exact join_before hjoin hget hev hlo hlt hl (hmask ▸ hl)

variable (hT : ∀ ev ∈ pw.all, Faithful T ev) (htrue : T.LinksTrue pw)

include hT htrue

/-- A direct link that holds by lane orders the accesses. -/
theorem directLink_ordered {acq : Event} {pos : ℕ}
    (hlink : (x.w2, pos) ∈ (barriers pw).linksFrom x.cta x.w1 rel.pos) (hpos : pos < x.p2)
    (hacq : (pw.events x.cta x.w2)[pos]? = some acq)
    (h : (directLink pw x (releaseHead (pw.events x.cta x.w1) x.p1 rel) rel acq).1 ≠
      .lanesUnresolved) : x.Ordered T pw := by
  intro l l' hl hl'
  unfold directLink at h
  simp only [ne_eq, ite_eq_right_iff, reduceCtorEq, imp_false, not_not] at h
  obtain ⟨hto, hjoin⟩ := h
  obtain ⟨-, hget⟩ := mem_releasesAfter hrel
  obtain ⟨y, hy, hmask⟩ := exists_of_maskAt hl'
  rw [pos_of_getElem? _ _ hacq] at hjoin
  obtain ⟨m, hm, hbefore⟩ := access_before_release hrel hto hl
  obtain ⟨m', hm', hafter⟩ := join_after hjoin hacq hy hpos hl' (hmask ▸ hl')
  have hedge := link_happensBefore hT htrue hlink hget hacq hm hm'
  exact (hbefore.trans hedge).trans hafter

/-- So does a link through an intermediate warp. -/
theorem depth2Link_ordered {wx mid pos : ℕ} {acq rel2 acq2 : Event}
    (hlink : (wx, mid) ∈ (barriers pw).linksFrom x.cta x.w1 rel.pos)
    (hacq : (pw.events x.cta wx)[mid]? = some acq)
    (hrel2 : rel2 ∈ releasesAfter (pw.events x.cta wx) mid)
    (hlink2 : (x.w2, pos) ∈ (barriers pw).linksFrom x.cta wx rel2.pos) (hpos : pos < x.p2)
    (hacq2 : (pw.events x.cta x.w2)[pos]? = some acq2)
    (h : (depth2Link pw x (releaseHead (pw.events x.cta x.w1) x.p1 rel) rel wx acq rel2 acq2).1 ≠
      .lanesUnresolved) : x.Ordered T pw := by
  intro l l' hl hl'
  unfold depth2Link at h
  simp only [ne_eq, ite_eq_right_iff, reduceCtorEq, imp_false, not_not] at h
  obtain ⟨hto, hmid, hjoin⟩ := h
  obtain ⟨-, hget⟩ := mem_releasesAfter hrel
  obtain ⟨hlt2, hget2⟩ := mem_releasesAfter hrel2
  obtain ⟨y, hy, hmask⟩ := exists_of_maskAt hl'
  rw [pos_of_getElem? _ _ hacq] at hmid
  rw [pos_of_getElem? _ _ hacq2] at hjoin
  obtain ⟨m, hm, hbefore⟩ := access_before_release hrel hto hl
  -- some lane of the second release was joined to the first acquire
  obtain ⟨r, hr⟩ := Nat.exists_testBit_of_ne_zero (PerWarp.mem_events hget2).2.2.2.1
  obtain ⟨c, hc, hmiddle⟩ := join_after hmid hacq hget2 hlt2 hr hr
  obtain ⟨m', hm', hafter⟩ := join_after hjoin hacq2 hy hpos hl' (hmask ▸ hl')
  have hedge := link_happensBefore hT htrue hlink hget hacq hm hc
  have hedge2 := link_happensBefore hT htrue hlink2 hget2 hacq2 hr hm'
  exact (((hbefore.trans hedge).trans hmiddle).trans hedge2).trans hafter

end Chains

/-- A handshake that reports a link by lane orders the accesses. -/
theorem handshake_ordered (hT : ∀ ev ∈ pw.all, Faithful T ev) (htrue : T.LinksTrue pw)
    {x : Accesses} {link : Link} (h : (handshake pw (barriers pw) x).link = some link)
    (hlink : link ≠ .lanesUnresolved) : x.Ordered T pw := by
  obtain ⟨rel, hrel, chain, hrelease⟩ := handshake_cases h
  rcases releaseLink_cases hrelease with hdirect | hdepth2
  · obtain ⟨acq, pos, hmem, hpos, hacq, hfound⟩ := firstDirect_eq hdirect
    have hne : (directLink pw x (releaseHead (pw.events x.cta x.w1) x.p1 rel) rel acq).1 ≠
        .lanesUnresolved := by
      rw [← hfound]
      exact hlink
    exact directLink_ordered hrel hT htrue hmem hpos hacq hne
  · obtain ⟨wx, mid, acq, rel2, pos, acq2, hmem, hacq, hrel2, hmem2, hpos, hacq2, hfound⟩ :=
      mem_allDepth2 hdepth2
    have hne : (depth2Link pw x (releaseHead (pw.events x.cta x.w1) x.p1 rel) rel wx acq rel2
        acq2).1 ≠ .lanesUnresolved := by
      rw [← hfound]
      exact hlink
    exact depth2Link_ordered hrel hT htrue hmem hacq hrel2 hmem2 hpos hacq2 hne

/-- No link and no reported chain claims too much. -/
def Truth.NeverOverclaims (T : Truth) (pw : PerWarp) : Prop :=
  T.LinksTrue pw ∧ ∀ x : Accesses,
    (handshake pw (barriers pw) x).link = some .linked ∨
      (handshake pw (barriers pw) x).link = some .linkedDepth2 → x.Ordered T pw

/-- Ordinal matching claims too much exactly when some release fell behind its acquire
because arrives before it had no address. -/
theorem never_overclaims_iff (T : Truth) (pw : PerWarp) (hraw : pw.Emitted)
    (hT : ∀ ev ∈ (rebaseClusterAddresses pw).all, Faithful T ev) :
    T.NeverOverclaims (rebaseClusterAddresses pw) ↔ T.OrdinalsKept (rebaseClusterAddresses pw) := by
  have hlinks := linksTrue_iff hT (remotesExcluded_rebase hraw)
  constructor
  · intro h
    exact hlinks.mp h.1
  · intro h
    have htrue := hlinks.mpr h
    refine ⟨htrue, fun x hx => ?_⟩
    rcases hx with hx | hx
    · exact handshake_ordered hT htrue hx (by simp)
    · exact handshake_ordered hT htrue hx (by simp)

/-! ### A lost arrive -/

/-- A truth with one mbarrier, at 64: every arrive and every wait with a token uses it. -/
def oneBarrier : Truth where
  arrives ev a := ev.kind = some .mbarArrive ∧ a = 64
  waits ev a :=
    if ev.kind = some .mbarWait ∧ a = 64 then some (ev.token = oddToken) else none
  uses _ := none

/-- Records of it that name no other barrier are faithful. -/
theorem faithful_oneBarrier {ev : Event}
    (hkind : ev.kind = some .genericR ∨ ev.kind = some .genericW ∨ ev.kind = some .mbarArrive ∨
      ev.kind = some .mbarWait ∧ ev.success ≠ some false)
    (hbar : ev.bar = some 64 ∨ ev.bar = none ∧ ev.barSet = []) : Faithful oneBarrier ev where
  arrive_decoded a h := by
    simp only [Event.arrivesAt, decide_eq_true_eq] at h
    have : a = 64 := by rcases hbar with hb | ⟨hb, -⟩ <;> simp_all
    simp [oneBarrier, h.1, this]
  arrive_kind a h := by
    simp only [oneBarrier, decide_eq_true_eq] at h
    exact Or.inl h.1
  arrive_named a h hn := by
    simp only [oneBarrier, decide_eq_true_eq] at h
    rcases hbar with hb | ⟨hb, hs⟩ <;> simp_all [Event.names]
  wait_decoded a h := by
    simp only [Event.acquiresAt, decide_eq_true_eq] at h
    have : a = 64 := by rcases hbar with hb | ⟨hb, -⟩ <;> simp_all
    simp [oneBarrier, h.1, this]
  wait_kind a h := by
    simp only [oneBarrier] at h
    split_ifs at h with hw
    · rcases hkind with hk | hk | hk | hk
      · simp [hk] at hw
      · simp [hk] at hw
      · simp [hk] at hw
      · exact hk
    · simp at h
  wait_named a h hn := by
    simp only [oneBarrier] at h
    split_ifs at h with hw
    · rcases hbar with hb | ⟨hb, hs⟩ <;> simp_all [Event.names]
    · simp at h
  wait_token a odd h := by
    simp only [oneBarrier] at h
    split_ifs at h with hw
    cases h
    exact ⟨fun ht => by simp [ht, oddToken], fun ht => by simp [ht]⟩
  use_decoded h := by
    rcases hkind with hk | hk | hk | hk <;> simp [Event.isNamed, hk] at h
  use_kind h := by simp [oneBarrier] at h

/-- A warp arrives with an address that was not resolved, writes and arrives again;
another waits for the first phase and reads. -/
def lostArriveTrace : PerWarp :=
  .ofEntries
    [(((0, 0, 0), 0), [Event.plain (0, 0, 0) 0 0 .mbarArrive,
        { Event.plain (0, 0, 0) 0 1 .genericW with ranges := [⟨0, 4, by decide⟩] },
        { Event.plain (0, 0, 0) 0 2 .mbarArrive with bar := some 64 }]),
      (((0, 0, 0), 1), [{ Event.plain (0, 0, 0) 1 0 .mbarWait with
          bar := some 64, token := .value 0, success := some true },
        { Event.plain (0, 0, 0) 1 1 .genericR with ranges := [⟨0, 4, by decide⟩] }])]
    (by decide) (by decide)

/-- The second arrive, of phase 1, is linked to the wait for phase 0. -/
theorem lost_arrive_overclaims :
    lostArriveTrace.Emitted ∧
      (∀ ev ∈ (rebaseClusterAddresses lostArriveTrace).all, Faithful oneBarrier ev) ∧
      (handshake (rebaseClusterAddresses lostArriveTrace)
        (barriers (rebaseClusterAddresses lostArriveTrace)) ⟨(0, 0, 0), 0, 1, 1, 1⟩).link =
          some .linked ∧
      ¬ oneBarrier.NeverOverclaims (rebaseClusterAddresses lostArriveTrace) := by
  refine ⟨by decide, ?_, by decide, ?_⟩
  · intro ev hev
    refine faithful_oneBarrier ?_ ?_
    · revert ev
      decide
    · revert ev
      decide
  · rintro ⟨hlinks, -⟩
    obtain ⟨q, hq, hle⟩ := hlinks (0, 0, 0) 0 2 (1, 0) (by decide) (.mbar 64) 1 (by decide)
    have hphase : oneBarrier.acquirePhase (rebaseClusterAddresses lostArriveTrace) (0, 0, 0) 1 0
        (.mbar 64) = some 0 := by decide
    rw [hphase] at hq
    cases hq
    omega

/-- Two arrives with addresses, and two waits of which the first was not seen to
succeed: the numbers are kept. -/
def lostWaitTrace : PerWarp :=
  .ofEntries
    [(((0, 0, 0), 0), [{ Event.plain (0, 0, 0) 0 0 .mbarArrive with bar := some 64 },
        { Event.plain (0, 0, 0) 0 1 .mbarArrive with bar := some 64 }]),
      (((0, 0, 0), 1), [{ Event.plain (0, 0, 0) 1 0 .mbarWait with
          bar := some 64, token := .value 0 },
        { Event.plain (0, 0, 0) 1 1 .mbarWait with
          bar := some 64, token := oddToken, success := some true }])]
    (by decide) (by decide)

theorem lostWaitTrace_never_overclaims :
    oneBarrier.NeverOverclaims (rebaseClusterAddresses lostWaitTrace) := by
  have hfaithful : ∀ ev ∈ (rebaseClusterAddresses lostWaitTrace).all, Faithful oneBarrier ev := by
    intro ev hev
    refine faithful_oneBarrier ?_ ?_
    · revert ev
      decide
    · revert ev
      decide
  have hresolved : ∀ ev ∈ (rebaseClusterAddresses lostWaitTrace).all, ev.names ≠ [] := by decide
  refine (never_overclaims_iff oneBarrier lostWaitTrace (by decide) hfaithful).mpr ?_
  refine ordinalsKept_of_resolved hfaithful fun ev hev a => ?_
  simp [Truth.unresolvedArrive, hresolved ev hev]

end CuTracer.MemoryModel
