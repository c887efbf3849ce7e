import CuTracer.MemoryModel.Handshake

/-! What a handshake's evidence says. The chain it reports is a route of recorded
events, joined lane by lane at every hop unless it says otherwise; a joined fence
stands before the route's release; and a route that has both is never passed over
for one that lacks either. -/

namespace CuTracer.MemoryModel

/-! ### Hops -/

/-- Lanes are ordered with `anchor` between two positions: its mask covers them, or
a warp-wide sync strictly between the positions covers both lane sets. -/
inductive Hop (evs : List Event) (lo hi lanes : ℕ) (anchor : Event) : List Event → Prop
  | covered (h : covers anchor.mask lanes = true) : Hop evs lo hi lanes anchor []
  | synced {s : Event} {i : ℕ} (hget : evs[i]? = some s) (hlo : lo < i) (hhi : i < hi)
      (hkind : s.kind = some .barSync ∨ s.kind = some .warpSync)
      (hlanes : covers s.syncMask lanes = true) (hanchor : covers s.syncMask anchor.mask = true) :
      Hop evs lo hi lanes anchor [s]

theorem covers_or {mask a b : ℕ} :
    covers mask (a ||| b) = true ↔ covers mask a = true ∧ covers mask b = true := by
  simp only [covers, decide_eq_true_eq, Nat.eq_iff_testBit_eq, Nat.testBit_and, Nat.testBit_or]
  constructor
  · intro h
    constructor
    · intro i
      have := h i
      cases ha : a.testBit i <;> simp_all
    · intro i
      have := h i
      cases hb : b.testBit i <;> simp_all
  · rintro ⟨ha, hb⟩ i
    rw [Bool.and_or_distrib_left, ha, hb]

theorem syncs_iff {s : Event} {lanes mask : ℕ} :
    s.syncs (lanes ||| mask) = true ↔ (s.kind = some .barSync ∨ s.kind = some .warpSync) ∧
      covers s.syncMask lanes = true ∧ covers s.syncMask mask = true := by
  simp only [Event.syncs, decide_eq_true_eq, covers_or]

variable {evs : List Event}

/-- The events strictly between two positions. -/
theorem mem_between {lo hi : ℕ} {s : Event} :
    s ∈ (evs.take hi).drop (lo + 1) ↔ ∃ i, evs[i]? = some s ∧ lo < i ∧ i < hi := by
  simp only [List.mem_iff_getElem?, List.getElem?_drop, List.getElem?_take]
  constructor
  · rintro ⟨k, hk⟩
    split_ifs at hk with hlt
    exact ⟨lo + 1 + k, hk, by omega, hlt⟩
  · rintro ⟨i, hi', hlo, hhi⟩
    refine ⟨i - (lo + 1), ?_⟩
    rw [show lo + 1 + (i - (lo + 1)) = i by omega, if_pos hhi, hi']

theorem hop_of_join {lo hi lanes : ℕ} {anchor : Event} {syncs : List Event}
    (h : join evs lo hi lanes anchor = some syncs) : Hop evs lo hi lanes anchor syncs := by
  unfold join at h
  split_ifs at h with hcovers
  · cases h
    exact .covered hcovers
  · obtain ⟨s, hs, rfl⟩ := Option.map_eq_some_iff.mp h
    obtain ⟨i, hi', hlo, hhi⟩ := mem_between.mp (List.mem_of_find?_eq_some hs)
    have hsyncs := List.find?_some hs
    obtain ⟨hkind, hlanes, hanchor⟩ := syncs_iff.mp hsyncs
    exact .synced hi' hlo hhi hkind hlanes hanchor

/-- A hop is found whenever there is one. -/
theorem join_isSome_of_hop {lo hi lanes : ℕ} {anchor : Event} {syncs : List Event}
    (h : Hop evs lo hi lanes anchor syncs) : (join evs lo hi lanes anchor).isSome = true := by
  unfold join
  cases h with
  | covered h => rw [if_pos h]; rfl
  | synced hget hlo hhi hkind hlanes hanchor =>
    split_ifs
    · rfl
    · rw [Option.isSome_map, List.find?_isSome]
      exact ⟨_, mem_between.mpr ⟨_, hget, hlo, hhi⟩, syncs_iff.mpr ⟨hkind, hlanes, hanchor⟩⟩

theorem Hop.of_le {lo lo' hi lanes : ℕ} {anchor : Event} {syncs : List Event}
    (h : Hop evs lo' hi lanes anchor syncs) (hle : lo ≤ lo') :
    Hop evs lo hi lanes anchor syncs := by
  cases h with
  | covered h => exact .covered h
  | synced hget hlo hhi hkind hlanes hanchor =>
    exact .synced hget (by omega) hhi hkind hlanes hanchor

/-! ### Fences -/

/-- A proxy fence that every lane of the access executes, between the access and a
release, and that is itself joined to the release. -/
structure JoinedFence (evs : List Event) (p₁ : ℕ) (rel f : Event) : Prop where
  mem : f ∈ evs
  kind : f.kind = some .fenceS
  lanes : covers f.mask (maskAt evs p₁) = true
  after : p₁ < f.pos
  before : f.pos < rel.pos
  joined : ∃ syncs, Hop evs f.pos rel.pos (maskAt evs p₁) rel syncs

theorem mem_fencesAfter {p₁ : ℕ} {f : Event} :
    f ∈ fencesAfter evs p₁ ↔ f ∈ evs ∧ f.kind = some .fenceS ∧
      covers f.mask (maskAt evs p₁) = true ∧ p₁ < f.pos := by
  simp only [fencesAfter, List.mem_filter, Bool.and_eq_true, decide_eq_true_eq]
  tauto

theorem mem_takeWhile_lt (h : evs.Pairwise fun a b => a.pos < b.pos) {bound : ℕ} {f : Event}
    (hf : f ∈ evs) (hlt : f.pos < bound) : f ∈ evs.takeWhile fun e => e.pos < bound := by
  induction evs with
  | nil => simp at hf
  | cons e evs ih =>
    obtain ⟨hhead, htail⟩ := List.pairwise_cons.mp h
    rcases List.mem_cons.mp hf with rfl | hmem
    · simp [hlt]
    · have he : e.pos < bound := (hhead f hmem).trans hlt
      simp only [List.takeWhile_cons, he, decide_true, if_true]
      exact List.mem_cons_of_mem e (ih htail hmem)

theorem PerWarp.pairwise_pos (pw : PerWarp) (cta : Cta) (warp : ℕ) :
    (pw.events cta warp).Pairwise fun a b => a.pos < b.pos := by
  rw [List.pairwise_iff_getElem]
  intro i j hi hj hij
  rw [pos_of_getElem? i _ (List.getElem?_eq_getElem hi),
    pos_of_getElem? j _ (List.getElem?_eq_getElem hj)]
  exact hij

/-- What is known of a release before its links: a joined fence if there is one, and
the hop from the access or from that fence. -/
theorem releaseHead_cases (hsorted : evs.Pairwise fun a b => a.pos < b.pos) (p₁ : ℕ) (rel : Event) :
    (∃ f syncs, JoinedFence evs p₁ rel f ∧ Hop evs f.pos rel.pos (maskAt evs p₁) rel syncs ∧
      releaseHead evs p₁ rel = ⟨true, true, [f.step "fence"], some syncs⟩) ∨
    ((∀ f, ¬ JoinedFence evs p₁ rel f) ∧ ∃ (seen : Bool) (fences : List Event), releaseHead evs p₁ rel =
      ⟨seen, false, fences.map fun f => f.step "fence", join evs p₁ rel.pos (maskAt evs p₁) rel⟩) := by
  unfold releaseHead
  simp only
  set fences := (fencesAfter evs p₁).takeWhile fun f => f.pos < rel.pos with hfences
  cases hfind : fences.findSome? fun f =>
      (join evs f.pos rel.pos (maskAt evs p₁) rel).map fun j => (f, j) with
  | some found =>
    obtain ⟨f, hf, hj⟩ := List.exists_of_findSome?_eq_some hfind
    obtain ⟨syncs, hjoin, rfl⟩ := Option.map_eq_some_iff.mp hj
    have hbefore := List.mem_takeWhile_imp (p := fun f : Event => f.pos < rel.pos) hf
    obtain ⟨hmem, hkind, hlanes, hafter⟩ :=
      mem_fencesAfter.mp ((List.takeWhile_prefix _).subset hf)
    have hhop := hop_of_join hjoin
    exact Or.inl ⟨f, syncs, ⟨hmem, hkind, hlanes, hafter, of_decide_eq_true hbefore, syncs, hhop⟩,
      hhop, rfl⟩
  | none =>
    refine Or.inr ⟨?_, _, fences.take 1, rfl⟩
    rintro f ⟨hmem, hkind, hlanes, hafter, hbefore, syncs, hhop⟩
    -- the fences stand in order, so the search gets as far as `f`
    have hordered : (fencesAfter evs p₁).Pairwise fun a b => a.pos < b.pos :=
      (hsorted.filter _).filter _
    have hin := mem_takeWhile_lt hordered (mem_fencesAfter.mpr ⟨hmem, hkind, hlanes, hafter⟩) hbefore
    have hnone := List.findSome?_eq_none_iff.mp hfind f hin
    rw [Option.map_eq_none_iff] at hnone
    have hsome := join_isSome_of_hop hhop
    rw [hnone] at hsome
    cases hsome

/-! ### Routes -/

/-- The second half of a route through an intermediate warp. -/
structure Second where
  toRelease : List Event
  rel : Event
  acq : Event

/-- The events of a chain: the fence, the release of the first warp and its acquire,
in the second warp or in one that released again, with the syncs in between. -/
structure Route where
  fences : List Event
  toRelease : List Event
  rel : Event
  acq : Event
  second : Option Second
  toAccess : List Event

namespace Route

def last (r : Route) : Event :=
  match r.second with
  | none => r.acq
  | some s => s.acq

def link (r : Route) : Link :=
  match r.second with
  | none => .linked
  | some _ => .linkedDepth2

def secondSteps (r : Route) : List Step :=
  match r.second with
  | none => []
  | some s => s.toRelease.map (fun e => e.step "sync") ++ [s.rel.step "release", s.acq.step "acquire"]

def steps (r : Route) : List Step :=
  r.fences.map (fun f => f.step "fence") ++ r.toRelease.map (fun e => e.step "sync") ++
    [r.rel.step "release", r.acq.step "acquire"] ++ r.secondSteps ++
      r.toAccess.map fun e => e.step "sync"

end Route

/-- The acquire is an event that ordinal-matches the release. -/
def Acquires (pw : PerWarp) (cta : Cta) (rel acq : Event) : Prop :=
  acq ∈ pw.events cta acq.warp ∧
    (acq.warp, acq.pos) ∈ (barriers pw).linksFrom cta rel.warp rel.pos

/-- The route leads from the first access to the second: each release comes after
what it orders, and the last acquire before the second access. -/
structure Route.Leads (pw : PerWarp) (x : Accesses) (r : Route) : Prop where
  release : r.rel ∈ releasesAfter (pw.events x.cta x.w1) x.p1
  acquire : Acquires pw x.cta r.rel r.acq
  second : ∀ s, r.second = some s →
    s.rel ∈ releasesAfter (pw.events x.cta r.acq.warp) r.acq.pos ∧ Acquires pw x.cta s.rel s.acq
  warp : r.last.warp = x.w2
  before : r.last.pos < x.p2

/-- The lanes are joined at every hop of the route. -/
structure Route.Joined (pw : PerWarp) (x : Accesses) (r : Route) : Prop where
  toRelease : Hop (pw.events x.cta x.w1) x.p1 r.rel.pos (maskAt (pw.events x.cta x.w1) x.p1) r.rel
    r.toRelease
  second : ∀ s, r.second = some s →
    Hop (pw.events x.cta r.acq.warp) r.acq.pos s.rel.pos s.rel.mask r.acq s.toRelease
  toAccess : Hop (pw.events x.cta x.w2) r.last.pos x.p2 (maskAt (pw.events x.cta x.w2) x.p2) r.last
    r.toAccess

/-! ### One acquire in each warp -/

theorem arrivesAt_inj {ev : Event} {a a' : ℤ} (h : ev.arrivesAt a) (h' : ev.arrivesAt a') :
    a = a' := by
  simp only [Event.arrivesAt, decide_eq_true_eq] at h h'
  exact Option.some.inj (h.2.symm.trans h'.2)

theorem not_usesNamed_of_arrivesAt {ev : Event} {a : ℤ} {key : NamedKey} (h : ev.arrivesAt a) :
    ¬ ev.usesNamed key := by
  simp only [Event.arrivesAt, decide_eq_true_eq] at h
  simp [Event.usesNamed, Event.isNamed, h.1]

/-- A release links to one acquire of a warp at most: it is on one barrier, and the
ordinal picks one wait. -/
theorem linksFrom_unique {pw : PerWarp} {cta : Cta} {warp rel w i j : ℕ}
    (hi : (w, i) ∈ (barriers pw).linksFrom cta warp rel)
    (hj : (w, j) ∈ (barriers pw).linksFrom cta warp rel) : i = j := by
  rcases mem_linksFrom.mp hi with ⟨key, -, hkey⟩ | ⟨e, he, hlink⟩ <;>
    rcases mem_linksFrom.mp hj with ⟨key', -, hkey'⟩ | ⟨e', he', hlink'⟩
  · obtain ⟨⟨ev, hev, harrive⟩, -⟩ := mbarLink_ends hkey
    obtain ⟨⟨ev', hev', harrive'⟩, -⟩ := mbarLink_ends hkey'
    obtain rfl := Option.some.inj (hev.symm.trans hev')
    obtain ⟨hc, -, -, hphase⟩ := mem_mbarLinks.mp hkey
    obtain ⟨hc', -, -, hphase'⟩ := mem_mbarLinks.mp hkey'
    obtain rfl : key = key' := Prod.ext (hc.trans hc'.symm) (arrivesAt_inj harrive harrive')
    exact Option.some.inj (hphase.symm.trans hphase')
  · obtain ⟨⟨ev, hev, harrive⟩, -⟩ := mbarLink_ends hkey
    obtain ⟨⟨ev', hev', huse⟩, -⟩ := namedLink_ordinal he' hlink'
    obtain rfl := Option.some.inj (hev.symm.trans hev')
    exact absurd huse (not_usesNamed_of_arrivesAt harrive)
  · obtain ⟨⟨ev, hev, huse⟩, -⟩ := namedLink_ordinal he hlink
    obtain ⟨⟨ev', hev', harrive⟩, -⟩ := mbarLink_ends hkey'
    obtain rfl := Option.some.inj (hev.symm.trans hev')
    exact absurd huse (not_usesNamed_of_arrivesAt harrive)
  · obtain ⟨⟨ev, hev, huse⟩, -⟩ := namedLink_ordinal he hlink
    obtain ⟨⟨ev', hev', huse'⟩, -⟩ := namedLink_ordinal he' hlink'
    obtain rfl := Option.some.inj (hev.symm.trans hev')
    obtain ⟨hc, -, -, -, -, hget⟩ := mem_namedLinks he hlink
    obtain ⟨hc', -, -, -, -, hget'⟩ := mem_namedLinks he' hlink'
    have hkey : e.1 = e'.1 := by
      simp only [Event.usesNamed, decide_eq_true_eq] at huse huse'
      exact Prod.ext (hc.trans hc'.symm)
        (Prod.ext (huse.2.1.symm.trans huse'.2.1) (huse.2.2.symm.trans huse'.2.2))
    rw [← hkey, hget] at hget'
    exact (Prod.mk.inj (Option.some.inj hget')).1

/-! ### The links of one release -/

section Release

variable {pw : PerWarp} {x : Accesses} {rel : Event}

/-- The link of a release is a route; a joined one unless it says otherwise. -/
structure Evidences (pw : PerWarp) (x : Accesses) (rel : Event) (joined : Bool) (link : Link)
    (chain : List Step) (r : Route) : Prop where
  release : r.rel = rel
  leads : r.Leads pw x
  chain : chain = r.steps
  lanes : link ≠ .lanesUnresolved → r.Joined pw x ∧ link = r.link
  fence : joined = true →
    ∃ f, r.fences = [f] ∧ JoinedFence (pw.events x.cta x.w1) x.p1 rel f

theorem head_route (pw : PerWarp) (x : Accesses) (rel : Event) :
    ∃ fences : List Event,
      (releaseHead (pw.events x.cta x.w1) x.p1 rel).steps = fences.map (fun f => f.step "fence") ∧
      ((releaseHead (pw.events x.cta x.w1) x.p1 rel).joined = true →
        ∃ f, fences = [f] ∧ JoinedFence (pw.events x.cta x.w1) x.p1 rel f) ∧
      ∀ syncs, (releaseHead (pw.events x.cta x.w1) x.p1 rel).toRelease = some syncs →
        Hop (pw.events x.cta x.w1) x.p1 rel.pos (maskAt (pw.events x.cta x.w1) x.p1) rel syncs := by
  rcases releaseHead_cases (pw.pairwise_pos x.cta x.w1) x.p1 rel with
    ⟨f, syncs, hf, hhop, hhead⟩ | ⟨-, seen, fences, hhead⟩
  · rw [hhead]
    refine ⟨[f], rfl, fun _ => ⟨f, rfl, hf⟩, ?_⟩
    rintro syncs' h
    cases h
    exact hhop.of_le hf.after.le
  · rw [hhead]
    exact ⟨fences, rfl, fun h => absurd h Bool.false_ne_true, fun syncs h => hop_of_join h⟩

theorem some_getD {j : Option (List Event)} (h : j.isSome = true) : j = some (j.getD []) := by
  cases j with
  | none => cases h
  | some syncs => rfl

theorem directLink_route {head : Head} {acq : Event}
    (hhead : head = releaseHead (pw.events x.cta x.w1) x.p1 rel)
    (hrel : rel ∈ releasesAfter (pw.events x.cta x.w1) x.p1)
    (hlink : (x.w2, acq.pos) ∈ (barriers pw).linksFrom x.cta x.w1 rel.pos) (hlt : acq.pos < x.p2)
    (hacq : (pw.events x.cta x.w2)[acq.pos]? = some acq) :
    ∃ r, Evidences pw x rel head.joined (directLink pw x head rel acq).1
      (directLink pw x head rel acq).2 r := by
  obtain ⟨fences, hsteps, hfence, hhop⟩ := head_route pw x rel
  rw [← hhead] at hsteps hfence hhop
  have hwarp : acq.warp = x.w2 := (PerWarp.mem_events hacq).2.1
  have hrelWarp : rel.warp = x.w1 := (PerWarp.mem_events (mem_releasesAfter hrel).2).2.1
  set jAcq := join (pw.events x.cta x.w2) acq.pos x.p2 (maskAt (pw.events x.cta x.w2) x.p2) acq
    with hjAcq
  refine ⟨⟨fences, head.toRelease.getD [], rel, acq, none, jAcq.getD []⟩, rfl, ?_, ?_, ?_, hfence⟩
  · refine ⟨hrel, ⟨?_, ?_⟩, ?_, hwarp, hlt⟩
    · rw [hwarp]
      exact List.mem_of_getElem? hacq
    · rw [hwarp, hrelWarp]
      exact hlink
    · intro s hs
      cases hs
  · simp [directLink, Route.steps, Route.secondSteps, syncSteps, hsteps, hjAcq]
  · intro hne
    simp only [directLink, ← hjAcq] at hne ⊢
    split_ifs at hne ⊢ with hok
    · refine ⟨⟨hhop _ (some_getD hok.1), ?_, hop_of_join (some_getD hok.2)⟩, rfl⟩
      intro s hs
      cases hs
    · exact absurd rfl hne

theorem depth2Link_route {head : Head} {wx mid : ℕ} {acq rel2 acq2 : Event}
    (hhead : head = releaseHead (pw.events x.cta x.w1) x.p1 rel)
    (hrel : rel ∈ releasesAfter (pw.events x.cta x.w1) x.p1)
    (hlink : (wx, mid) ∈ (barriers pw).linksFrom x.cta x.w1 rel.pos)
    (hacq : (pw.events x.cta wx)[mid]? = some acq)
    (hrel2 : rel2 ∈ releasesAfter (pw.events x.cta wx) mid)
    (hlink2 : (x.w2, acq2.pos) ∈ (barriers pw).linksFrom x.cta wx rel2.pos) (hlt : acq2.pos < x.p2)
    (hacq2 : (pw.events x.cta x.w2)[acq2.pos]? = some acq2) :
    ∃ r, Evidences pw x rel head.joined (depth2Link pw x head rel wx acq rel2 acq2).1
      (depth2Link pw x head rel wx acq rel2 acq2).2 r := by
  obtain ⟨fences, hsteps, hfence, hhop⟩ := head_route pw x rel
  rw [← hhead] at hsteps hfence hhop
  obtain ⟨-, rfl, rfl, -⟩ := PerWarp.mem_events hacq
  have hwarp2 : acq2.warp = x.w2 := (PerWarp.mem_events hacq2).2.1
  have hrelWarp : rel.warp = x.w1 := (PerWarp.mem_events (mem_releasesAfter hrel).2).2.1
  have hrelWarp2 : rel2.warp = acq.warp := (PerWarp.mem_events (mem_releasesAfter hrel2).2).2.1
  set jMid := join (pw.events x.cta acq.warp) acq.pos rel2.pos rel2.mask acq with hjMid
  set jAcq := join (pw.events x.cta x.w2) acq2.pos x.p2 (maskAt (pw.events x.cta x.w2) x.p2) acq2
    with hjAcq
  refine ⟨⟨fences, head.toRelease.getD [], rel, acq, some ⟨jMid.getD [], rel2, acq2⟩,
    jAcq.getD []⟩, rfl, ?_, ?_, ?_, hfence⟩
  · refine ⟨hrel, ⟨List.mem_of_getElem? hacq, hrelWarp ▸ hlink⟩, ?_, hwarp2, hlt⟩
    rintro s ⟨⟩
    refine ⟨hrel2, ?_, ?_⟩
    · rw [hwarp2]
      exact List.mem_of_getElem? hacq2
    · rw [hwarp2, hrelWarp2]
      exact hlink2
  · simp [depth2Link, Route.steps, Route.secondSteps, syncSteps, hsteps, hjMid, hjAcq]
  · intro hne
    simp only [depth2Link, ← hjMid, ← hjAcq] at hne ⊢
    split_ifs at hne ⊢ with hok
    · refine ⟨⟨hhop _ (some_getD hok.1), ?_, hop_of_join (some_getD hok.2.2)⟩, rfl⟩
      rintro s ⟨⟩
      exact hop_of_join (some_getD hok.2.1)
    · exact absurd rfl hne

theorem releaseLink_route {link : Link} {chain : List Step}
    (hrel : rel ∈ releasesAfter (pw.events x.cta x.w1) x.p1)
    (h : releaseLink pw (barriers pw) x (releaseHead (pw.events x.cta x.w1) x.p1 rel) rel =
      some (link, chain)) :
    ∃ r, Evidences pw x rel (releaseHead (pw.events x.cta x.w1) x.p1 rel).joined link chain r := by
  rcases releaseLink_cases h with hdirect | hdepth2
  · obtain ⟨acq, pos, hlink, hlt, hacq, hfound⟩ := firstDirect_eq hdirect
    obtain rfl := pos_of_getElem? pos acq hacq
    have hroute := directLink_route rfl hrel hlink hlt hacq
    rw [← hfound] at hroute
    exact hroute
  · obtain ⟨wx, mid, acq, rel2, pos, acq2, hlink, hacq, hrel2, hlink2, hlt, hacq2, hfound⟩ :=
      mem_allDepth2 hdepth2
    obtain rfl := pos_of_getElem? pos acq2 hacq2
    have hroute := depth2Link_route rfl hrel hlink hacq hrel2 hlink2 hlt hacq2
    rw [← hfound] at hroute
    exact hroute

/-! ### No better link is passed over -/

theorem le_better (best : Option (Link × List Step)) (cand : Link × List Step) :
    ∃ found, better best cand = some found ∧ cand.1.rank ≤ found.1.rank ∧
      ∀ old, best = some old → old.1.rank ≤ found.1.rank := by
  cases best with
  | none => exact ⟨cand, rfl, le_refl _, fun old h => by cases h⟩
  | some old =>
    simp only [better]
    split_ifs with hlt
    · refine ⟨cand, rfl, le_refl _, ?_⟩
      rintro old' ⟨⟩
      exact hlt.le
    · refine ⟨old, rfl, not_lt.mp hlt, ?_⟩
      rintro old' ⟨⟩
      exact le_refl _

theorem le_foldl_better {cands : List (Link × List Step)} {best : Option (Link × List Step)}
    {old : Link × List Step} (h : best = some old ∨ old ∈ cands) :
    ∃ found, cands.foldl better best = some found ∧ old.1.rank ≤ found.1.rank := by
  induction cands generalizing best old with
  | nil =>
    rcases h with hbest | hmem
    · exact ⟨old, hbest, le_refl _⟩
    · simp at hmem
  | cons cand cands ih =>
    obtain ⟨next, hnext, hcand, hold⟩ := le_better best cand
    obtain ⟨found, hfound, hle⟩ := ih (Or.inl hnext)
    rcases h with hbest | hmem
    · exact ⟨found, hfound, (hold old hbest).trans hle⟩
    · rcases List.mem_cons.mp hmem with rfl | hmem
      · exact ⟨found, hfound, hcand.trans hle⟩
      · exact ih (Or.inr hmem)

/-- A joined fence also joins the access to the release. -/
theorem head_of_joinedFence {f : Event}
    (hf : JoinedFence (pw.events x.cta x.w1) x.p1 rel f) :
    (releaseHead (pw.events x.cta x.w1) x.p1 rel).joined = true ∧
      (releaseHead (pw.events x.cta x.w1) x.p1 rel).toRelease.isSome = true := by
  rcases releaseHead_cases (pw.pairwise_pos x.cta x.w1) x.p1 rel with
    ⟨f, syncs, -, -, hhead⟩ | ⟨hnone, -⟩
  · rw [hhead]
    exact ⟨rfl, rfl⟩
  · exact absurd hf (hnone f)

/-- The direct link is the one that is there: the search stops at the only acquire
of the second warp. -/
theorem firstDirect_of_link {head : Head} {acq : Event}
    (hlink : (x.w2, acq.pos) ∈ (barriers pw).linksFrom x.cta x.w1 rel.pos) (hlt : acq.pos < x.p2)
    (hacq : (pw.events x.cta x.w2)[acq.pos]? = some acq) :
    firstDirect pw (barriers pw) x head rel = some (directLink pw x head rel acq) := by
  unfold firstDirect
  cases hfind : ((barriers pw).linksFrom x.cta x.w1 rel.pos).find?
      fun l => l.1 = x.w2 ∧ l.2 < x.p2 with
  | none =>
    have hno := List.find?_eq_none.mp hfind _ hlink
    simp [hlt] at hno
  | some l =>
    have hl := List.find?_some hfind
    simp only [decide_eq_true_eq] at hl
    have hmem := List.mem_of_find?_eq_some hfind
    obtain ⟨w, pos⟩ := l
    obtain ⟨rfl, -⟩ := hl
    obtain rfl := linksFrom_unique hmem hlink
    simp [hacq]

theorem depth2Link_mem {head : Head} {wx mid pos : ℕ} {acq rel2 acq2 : Event}
    (hlink : (wx, mid) ∈ (barriers pw).linksFrom x.cta x.w1 rel.pos)
    (hacq : (pw.events x.cta wx)[mid]? = some acq)
    (hrel2 : rel2 ∈ releasesAfter (pw.events x.cta wx) mid)
    (hlink2 : (x.w2, pos) ∈ (barriers pw).linksFrom x.cta wx rel2.pos) (hlt : pos < x.p2)
    (hacq2 : (pw.events x.cta x.w2)[pos]? = some acq2) :
    depth2Link pw x head rel wx acq rel2 acq2 ∈ allDepth2 pw (barriers pw) x head rel := by
  refine List.mem_flatMap.mpr ⟨(wx, mid), hlink, ?_⟩
  refine List.mem_flatMap.mpr ⟨acq, by simp [hacq], ?_⟩
  refine List.mem_flatMap.mpr ⟨rel2, hrel2, ?_⟩
  exact List.mem_filterMap.mpr ⟨(x.w2, pos), hlink2, by simp [hlt, hacq2]⟩

theorem rank_le_two (link : Link) : link.rank ≤ 2 := by
  cases link <;> decide

/-- A release's link ranks no lower than any that it tried. -/
theorem rank_le_releaseLink {b : Barriers} {head : Head} {old : Link × List Step}
    (h : firstDirect pw b x head rel = some old ∨ old ∈ allDepth2 pw b x head rel) :
    ∃ found, releaseLink pw b x head rel = some found ∧ old.1.rank ≤ found.1.rank := by
  unfold releaseLink
  split
  · exact ⟨_, rfl, rank_le_two old.1⟩
  · exact le_foldl_better h

theorem getElem?_of_mem_events {cta : Cta} {warp : ℕ} {ev : Event}
    (h : ev ∈ pw.events cta warp) : (pw.events cta warp)[ev.pos]? = some ev := by
  obtain ⟨i, hi⟩ := List.mem_iff_getElem?.mp h
  rw [pos_of_getElem? i ev hi]
  exact hi

/-- A release with a joined route and a joined fence gets a link that holds by lane. -/
theorem releaseLink_of_route {r : Route} {f : Event} (hleads : r.Leads pw x)
    (hjoined : r.Joined pw x) (hf : JoinedFence (pw.events x.cta x.w1) x.p1 r.rel f) :
    ∃ found, releaseLink pw (barriers pw) x
      (releaseHead (pw.events x.cta x.w1) x.p1 r.rel) r.rel = some found ∧ 0 < found.1.rank := by
  obtain ⟨-, hto⟩ := head_of_joinedFence hf
  set head := releaseHead (pw.events x.cta x.w1) x.p1 r.rel
  have hrelWarp : r.rel.warp = x.w1 := (PerWarp.mem_events (mem_releasesAfter hleads.release).2).2.1
  have hacq := getElem?_of_mem_events hleads.acquire.1
  have hlink := hleads.acquire.2
  rw [hrelWarp] at hlink
  have haccess := hjoined.toAccess
  have hlt := hleads.before
  have hwarp := hleads.warp
  cases hs : r.second with
  | none =>
    have hlast : r.last = r.acq := by simp [Route.last, hs]
    rw [hlast] at haccess hlt hwarp
    rw [hwarp] at hacq hlink
    have hlinked : (directLink pw x head r.rel r.acq).1 = .linked := by
      unfold directLink
      simp only
      rw [if_pos ⟨hto, join_isSome_of_hop haccess⟩]
    obtain ⟨found, hfound, hle⟩ := rank_le_releaseLink (Or.inl (firstDirect_of_link hlink hlt hacq))
    rw [hlinked] at hle
    exact ⟨found, hfound, Nat.lt_of_lt_of_le Nat.zero_lt_two hle⟩
  | some s =>
    have hlast : r.last = s.acq := by simp [Route.last, hs]
    rw [hlast] at haccess hlt hwarp
    obtain ⟨hrel2, hacq2, hlink2⟩ := hleads.second s hs
    have hrelWarp2 : s.rel.warp = r.acq.warp :=
      (PerWarp.mem_events (mem_releasesAfter hrel2).2).2.1
    rw [hwarp] at hacq2
    rw [hwarp, hrelWarp2] at hlink2
    have hlinked : (depth2Link pw x head r.rel r.acq.warp r.acq s.rel s.acq).1 = .linkedDepth2 := by
      unfold depth2Link
      simp only
      rw [if_pos ⟨hto, join_isSome_of_hop (hjoined.second s hs), join_isSome_of_hop haccess⟩]
    have hmem : depth2Link pw x head r.rel r.acq.warp r.acq s.rel s.acq ∈
        allDepth2 pw (barriers pw) x head r.rel :=
      depth2Link_mem hlink hacq hrel2 hlink2 hlt (getElem?_of_mem_events hacq2)
    obtain ⟨found, hfound, hle⟩ := rank_le_releaseLink (Or.inr hmem)
    rw [hlinked] at hle
    exact ⟨found, hfound, Nat.lt_of_lt_of_le Nat.zero_lt_one hle⟩

end Release

/-! ### The best release -/

/-- What a search holds: the link of one of the releases, with its score. -/
def IsLinkOf (pw : PerWarp) (x : Accesses) (rel : Event) (found : ℕ × Handshake) : Prop :=
  ∃ link chain, releaseLink pw (barriers pw) x
      (releaseHead (pw.events x.cta x.w1) x.p1 rel) rel = some (link, chain) ∧
    found.1 = linkScore found.2.fenceJoined link ∧ found.2.link = some link ∧
      found.2.chain = chain ∧
        found.2.fenceJoined = (releaseHead (pw.events x.cta x.w1) x.p1 rel).joined

theorem linkScore_le (joined : Bool) (link : Link) : linkScore joined link ≤ linkScore true .linked := by
  cases joined <;> cases link <;> decide

theorem IsLinkOf.score_eq {pw : PerWarp} {x : Accesses} {rel : Event} {found found' : ℕ × Handshake}
    (h : IsLinkOf pw x rel found) (h' : IsLinkOf pw x rel found') : found.1 = found'.1 := by
  obtain ⟨link, chain, hlink, hscore, -, -, hjoined⟩ := h
  obtain ⟨link', chain', hlink', hscore', -, -, hjoined'⟩ := h'
  obtain ⟨rfl, -⟩ := Prod.mk.inj (Option.some.inj (hlink.symm.trans hlink'))
  rw [hscore, hscore', hjoined, hjoined']

/-- One release: no link, a better one, at which the search may end, or none better. -/
theorem bestRelease_cons (pw : PerWarp) (x : Accesses) (rel : Event) (rels : List Event) (best : Option (ℕ × Handshake)) :
    ((∀ cand, ¬ IsLinkOf pw x rel cand) ∧ bestRelease pw (barriers pw) x (rel :: rels) best =
      bestRelease pw (barriers pw) x rels best) ∨
    ∃ new, IsLinkOf pw x rel new ∧
      ((∀ old, best = some old → old.1 ≤ new.1) ∧
          (new.1 = linkScore true .linked ∧
              bestRelease pw (barriers pw) x (rel :: rels) best = some new ∨
            bestRelease pw (barriers pw) x (rel :: rels) best =
              bestRelease pw (barriers pw) x rels (some new)) ∨
        (∃ old, best = some old ∧ new.1 ≤ old.1) ∧
          bestRelease pw (barriers pw) x (rel :: rels) best =
            bestRelease pw (barriers pw) x rels best) := by
  set head := releaseHead (pw.events x.cta x.w1) x.p1 rel with hhead
  cases hlink : releaseLink pw (barriers pw) x head rel with
  | none =>
    refine Or.inl ⟨?_, ?_⟩
    · rintro cand ⟨link, chain, h, -⟩
      rw [← hhead, hlink] at h
      cases h
    · simp only [bestRelease, ← hhead, hlink]
  | some found =>
    obtain ⟨link, chain⟩ := found
    refine Or.inr ⟨(linkScore head.joined link, ⟨head.fence, head.joined, some link, chain⟩),
      ⟨link, chain, hlink, rfl, rfl, rfl, rfl⟩, ?_⟩
    simp only [bestRelease, ← hhead, hlink]
    cases best with
    | none =>
      refine Or.inl ⟨fun old h => absurd h (Option.some_ne_none old).symm, ?_⟩
      simp only [if_true]
      split_ifs with htop
      · exact Or.inl ⟨by rw [htop.1, htop.2], rfl⟩
      · exact Or.inr rfl
    | some old =>
      simp only [decide_eq_true_eq]
      split_ifs with hlt htop
      · refine Or.inl ⟨?_, Or.inl ⟨by rw [htop.1, htop.2], rfl⟩⟩
        rintro old' ⟨⟩
        exact hlt.le
      · refine Or.inl ⟨?_, Or.inr rfl⟩
        rintro old' ⟨⟩
        exact hlt.le
      · exact Or.inr ⟨⟨old, rfl, not_lt.mp hlt⟩, rfl⟩

section Best

variable {pw : PerWarp} {x : Accesses}

theorem bestRelease_isLinkOf {rels : List Event} {best : Option (ℕ × Handshake)}
    {found : ℕ × Handshake} (h : bestRelease pw (barriers pw) x rels best = some found) :
    best = some found ∨ ∃ rel ∈ rels, IsLinkOf pw x rel found := by
  induction rels generalizing best with
  | nil => exact Or.inl h
  | cons rel rels ih =>
    have hrest : (∃ rel' ∈ rels, IsLinkOf pw x rel' found) →
        ∃ rel' ∈ rel :: rels, IsLinkOf pw x rel' found := by
      rintro ⟨rel', hmem, hrel'⟩
      exact ⟨rel', List.mem_cons_of_mem rel hmem, hrel'⟩
    rcases bestRelease_cons pw x rel rels best with
      ⟨-, heq⟩ | ⟨new, hnew, ⟨-, ⟨-, heq⟩ | heq⟩ | ⟨-, heq⟩⟩
    · exact (ih (heq ▸ h)).imp_right hrest
    · obtain rfl := Option.some.inj (heq.symm.trans h)
      exact Or.inr ⟨rel, List.mem_cons_self, hnew⟩
    · rcases ih (heq ▸ h) with hbest | hmem
      · cases hbest
        exact Or.inr ⟨rel, List.mem_cons_self, hnew⟩
      · exact Or.inr (hrest hmem)
    · exact (ih (heq ▸ h)).imp_right hrest

/-- The score only grows. -/
theorem le_bestRelease (rels : List Event) (old : ℕ × Handshake) :
    ∃ found, bestRelease pw (barriers pw) x rels (some old) = some found ∧ old.1 ≤ found.1 := by
  induction rels generalizing old with
  | nil => exact ⟨old, rfl, le_refl _⟩
  | cons rel rels ih =>
    rcases bestRelease_cons pw x rel rels (some old) with
      ⟨-, heq⟩ | ⟨new, -, ⟨hle, ⟨-, heq⟩ | heq⟩ | ⟨-, heq⟩⟩
    · rw [heq]
      exact ih old
    · exact ⟨new, heq, hle old rfl⟩
    · obtain ⟨found, hfound, hnew⟩ := ih new
      exact ⟨found, heq.trans hfound, (hle old rfl).trans hnew⟩
    · rw [heq]
      exact ih old

/-- No release has a higher score than the best. The search ends early only at the
highest score there is. -/
theorem score_le_bestRelease {rels : List Event} (best : Option (ℕ × Handshake)) {rel : Event}
    (hrel : rel ∈ rels) {cand : ℕ × Handshake} (hcand : IsLinkOf pw x rel cand) :
    ∃ found, bestRelease pw (barriers pw) x rels best = some found ∧ cand.1 ≤ found.1 := by
  induction rels generalizing best with
  | nil => simp at hrel
  | cons rel' rels ih =>
    rcases bestRelease_cons pw x rel' rels best with
      ⟨hnone, heq⟩ | ⟨new, hnew, ⟨-, ⟨htop, heq⟩ | heq⟩ | ⟨⟨old, rfl, hold⟩, heq⟩⟩
    · rcases List.mem_cons.mp hrel with rfl | hmem
      · exact absurd hcand (hnone cand)
      · rw [heq]
        exact ih best hmem
    · obtain ⟨link, chain, -, hscore, -⟩ := hcand
      refine ⟨new, heq, ?_⟩
      rw [hscore, htop]
      exact linkScore_le _ _
    · rw [heq]
      rcases List.mem_cons.mp hrel with rfl | hmem
      · rw [hcand.score_eq hnew]
        exact le_bestRelease rels new
      · exact ih (some new) hmem
    · rw [heq]
      rcases List.mem_cons.mp hrel with rfl | hmem
      · obtain ⟨found, hfound, hle⟩ := le_bestRelease rels old
        refine ⟨found, hfound, ?_⟩
        rw [hcand.score_eq hnew]
        exact hold.trans hle
      · exact ih (some old) hmem

/-- Only a joined fence with a link that holds by lane scores as much as another. -/
theorem resolved_of_linkScore {joined : Bool} {link link' : Link} (hlink : 0 < link.rank)
    (hle : linkScore true link ≤ linkScore joined link') : joined = true ∧ 0 < link'.rank := by
  cases joined <;> cases link <;> cases link' <;> simp_all [linkScore, Link.rank]

theorem handshake_isLinkOf {link : Link} (h : (handshake pw (barriers pw) x).link = some link) :
    ∃ rel ∈ releasesAfter (pw.events x.cta x.w1) x.p1, ∃ score,
      IsLinkOf pw x rel (score, handshake pw (barriers pw) x) := by
  unfold handshake at h ⊢
  simp only at h ⊢
  split at h
  · rename_i score found hbest
    rcases bestRelease_isLinkOf hbest with hnone | ⟨rel, hrel, hlink⟩
    · cases hnone
    · exact ⟨rel, hrel, score, hlink⟩
  · cases h

theorem handshake_of_bestRelease {found : ℕ × Handshake}
    (h : bestRelease pw (barriers pw) x (releasesAfter (pw.events x.cta x.w1) x.p1) none =
      some found) : handshake pw (barriers pw) x = found.2 := by
  unfold handshake
  simp only
  rw [h]

end Best

/-! ### The evidence of a handshake -/

/-- A reported link is a route, which holds lane by lane unless it says otherwise, and
a reported fence is a joined one before its release; where some release has both a
joined route and a joined fence, so has the result. -/
theorem handshake_evidence (pw : PerWarp) (x : Accesses) :
    (∀ link, (handshake pw (barriers pw) x).link = some link → ∃ r : Route, r.Leads pw x ∧
      (handshake pw (barriers pw) x).chain = r.steps ∧
      (link = .linked ∨ link = .linkedDepth2 → r.Joined pw x ∧ link = r.link) ∧
      ((handshake pw (barriers pw) x).fenceJoined = true →
        ∃ f, r.fences = [f] ∧ JoinedFence (pw.events x.cta x.w1) x.p1 r.rel f)) ∧
    ((handshake pw (barriers pw) x).fenceJoined = true →
      (handshake pw (barriers pw) x).link.isSome = true) ∧
    ∀ (r : Route) (f : Event), r.Leads pw x → r.Joined pw x →
      JoinedFence (pw.events x.cta x.w1) x.p1 r.rel f →
      (handshake pw (barriers pw) x).fenceJoined = true ∧
        ((handshake pw (barriers pw) x).link = some .linked ∨
          (handshake pw (barriers pw) x).link = some .linkedDepth2) := by
  refine ⟨?_, ?_, ?_⟩
  · intro link h
    obtain ⟨rel, hrel, score, link', chain, hlink, -, hlink', hchain, hjoined⟩ :=
      handshake_isLinkOf h
    simp only at hlink' hchain hjoined
    obtain rfl : link = link' := Option.some.inj (h.symm.trans hlink')
    obtain ⟨r, hr⟩ := releaseLink_route hrel hlink
    refine ⟨r, hr.leads, hchain.trans hr.chain, ?_, ?_⟩
    · rintro (rfl | rfl)
      · exact hr.lanes Link.noConfusion
      · exact hr.lanes Link.noConfusion
    · intro hf
      rw [hr.release]
      exact hr.fence (hjoined.symm.trans hf)
  · intro h
    unfold handshake at h ⊢
    simp only at h ⊢
    split at h
    · rename_i score found hbest
      rcases bestRelease_isLinkOf hbest with hnone | ⟨rel, hrel, link, chain, -, -, hlink, -⟩
      · cases hnone
      · rw [hlink]
        rfl
    · cases h
  · intro r f hleads hjoined hf
    obtain ⟨⟨link, chain⟩, hlink, hrank⟩ := releaseLink_of_route hleads hjoined hf
    set head := releaseHead (pw.events x.cta x.w1) x.p1 r.rel with hhead
    have hcand : IsLinkOf pw x r.rel
        (linkScore true link, ⟨head.fence, true, some link, chain⟩) :=
      ⟨link, chain, hlink, rfl, rfl, rfl, (head_of_joinedFence hf).1.symm⟩
    obtain ⟨found, hfound, hle⟩ := score_le_bestRelease none hleads.release hcand
    rw [handshake_of_bestRelease hfound]
    rcases bestRelease_isLinkOf hfound with hnone | ⟨rel, -, link', chain', -, hscore, hlink', -⟩
    · cases hnone
    · rw [hscore] at hle
      obtain ⟨hfence, hpos⟩ := resolved_of_linkScore hrank hle
      refine ⟨hfence, ?_⟩
      rw [hlink']
      cases link' with
      | lanesUnresolved => cases hpos
      | linkedDepth2 => exact Or.inr rfl
      | linked => exact Or.inl rfl

end CuTracer.MemoryModel
