import CuTracer.MemoryModel.Handshake

/-! A remote arrive excludes its barrier in every CTA. Renaming gives the
barrier a different name in each CTA, but every name is one of three: the
encoded address, its offset, or the address above the cluster window. All three
are excluded, whatever rank the vote gives a CTA. -/

namespace CuTracer.MemoryModel

def nameIn (pw : PerWarp) (cta : Cta) (a : ℤ) : ℤ :=
  (ownRank pw cta).elim a fun own => localName own a

/-- Every name of an address is excluded with it. -/
theorem localName_mem_excludedNames (own : ℤ) {a : ℤ} {raw : List ℤ} (ha : a ∈ raw) :
    localName own a ∈ excludedNames raw := by
  refine List.mem_flatMap.mpr ⟨a, ha, ?_⟩
  unfold localName
  by_cases hrange : InWindow a
  · rw [if_pos hrange, if_pos hrange]
    split_ifs with hown
    · have : a - own * sharedLimit = a % sharedLimit := by
        rw [← hown, Int.emod_def, Int.mul_comm]
      simp [this]
    · simp
  · rw [if_neg hrange, if_neg hrange]
    exact List.mem_singleton_self a

theorem nameIn_mem_excludedNames (pw : PerWarp) (c : Cta) {a : ℤ} {raw : List ℤ} (ha : a ∈ raw) :
    nameIn pw c a ∈ excludedNames raw := by
  unfold nameIn
  cases ownRank pw c with
  | none =>
    refine List.mem_flatMap.mpr ⟨a, ha, ?_⟩
    show a ∈ _
    split_ifs <;> simp
  | some own => exact localName_mem_excludedNames own ha

/-- So is its offset, the name in the target CTA. -/
theorem offset_mem_excludedNames {a : ℤ} {raw : List ℤ} (ha : a ∈ raw) (hrange : InWindow a) :
    a % sharedLimit ∈ excludedNames raw := by
  refine List.mem_flatMap.mpr ⟨a, ha, ?_⟩
  rw [if_pos hrange]
  simp

theorem mem_all_rebase {pw : PerWarp} {ev : Event} (h : ev ∈ pw.all) :
    (ownRank pw ev.cta).elim ev (fun own => renameEvent own ev) ∈ (rebaseClusterAddresses pw).all := by
  obtain ⟨⟨key, evs⟩, hentry, hmem⟩ := List.mem_flatMap.mp h
  obtain ⟨i, hi⟩ := List.mem_iff_getElem?.mp hmem
  obtain ⟨hc, -, -⟩ := pw.placed key evs hentry i ev hi
  refine List.mem_flatMap.mpr ⟨(key, renameEvents (ownRank pw key.1) evs),
    List.mem_map.mpr ⟨_, hentry, rfl⟩, ?_⟩
  rw [hc]
  cases ownRank pw key.1 with
  | none => exact hmem
  | some own => exact List.mem_map.mpr ⟨ev, hmem, rfl⟩

theorem ctas_rebase (pw : PerWarp) : (rebaseClusterAddresses pw).ctas = pw.ctas := by
  simp only [PerWarp.ctas, rebaseClusterAddresses, Dict.keys_mapValues]

/-- The problems that one event records are problems of the trace. -/
theorem excluded_of_mem {pw : PerWarp} {ev : Event} {key : ProblemKey} {reason : String}
    (hev : ev ∈ pw.all) (hp : (key, reason) ∈ eventProblems pw ev) :
    (barriers pw).excluded key = true := by
  refine List.any_eq_true.mpr ⟨(key, reason), ?_, by simp⟩
  exact List.mem_append_left _ (List.mem_append_left _ (List.mem_flatMap.mpr ⟨ev, hev, hp⟩))

/-- A remote arrive excludes its names in every CTA. -/
theorem remote_excluded {pw : PerWarp} {ev : Event} {c : Cta} {name : ℤ} (hev : ev ∈ pw.all)
    (hkind : ev.kind = some .mbarRemote) (hraw : ev.rawBars = none) (hc : c ∈ pw.ctas)
    (hname : name ∈ excludedNames (ev.bar.toList ++ ev.barSet)) :
    (barriers (rebaseClusterAddresses pw)).mbarOk (c, name) = false := by
  have hrenamed := mem_all_rebase hev
  set ev' := (ownRank pw ev.cta).elim ev fun own => renameEvent own ev with hev'
  have hkind' : ev'.kind = some .mbarRemote := by
    rw [hev', (elim_renameEvent (ownRank pw ev.cta) ev).2.2.2.2, hkind]
  -- the renamed event still knows the encoded addresses
  have hraw' : ev'.rawBars.getD (ev'.bar.toList ++ ev'.barSet) = ev.bar.toList ++ ev.barSet := by
    rw [hev']
    cases ownRank pw ev.cta with
    | none => simp [hraw]
    | some own => simp [renameEvent, hkind]
  have hproblem : (ProblemKey.mbar (c, name), "remote_arrive") ∈
      eventProblems (rebaseClusterAddresses pw) ev' := by
    refine List.mem_append_left _ (List.mem_append_right _ ?_)
    rw [if_pos hkind', ctas_rebase, hraw']
    exact List.mem_flatMap.mpr ⟨name, hname, List.mem_map.mpr ⟨c, hc, rfl⟩⟩
  rw [Barriers.mbarOk, excluded_of_mem hrenamed hproblem]
  rfl

/-! ### Excluded barriers -/

theorem mbarLinks_of_excluded {b : Barriers} {c : Cta} {name : ℤ} (h : b.mbarOk (c, name) = false)
    (warp rel : ℕ) : b.mbarLinks c warp rel (c, name) = [] := by
  unfold Barriers.mbarLinks
  exact if_pos (Or.inr (Or.inr (by simp [h])))

theorem linksFrom_of_excluded {pw : PerWarp} {c : Cta} {name : ℤ} {warp rel : ℕ} {ev : Event}
    (h : (barriers pw).mbarOk (c, name) = false) (hev : (pw.events c warp)[rel]? = some ev)
    (harrive : ev.arrivesAt name) : (barriers pw).linksFrom c warp rel = [] := by
  refine List.eq_nil_iff_forall_not_mem.mpr fun link hlink => ?_
  simp only [Event.arrivesAt, decide_eq_true_eq] at harrive
  rcases mem_linksFrom.mp hlink with ⟨key, -, hm⟩ | ⟨e, he, hn⟩
  · obtain ⟨⟨ev', hev', hrel⟩, -⟩ := mbarLink_ends hm
    obtain ⟨rfl, hok, -⟩ := mem_mbarLinks.mp hm
    obtain rfl := Option.some.inj (hev.symm.trans hev')
    simp only [Event.arrivesAt, decide_eq_true_eq] at hrel
    obtain ⟨cta, a⟩ := key
    obtain rfl : name = a := Option.some.inj (harrive.2.symm.trans hrel.2)
    rw [h] at hok
    exact Bool.false_ne_true hok
  · obtain ⟨⟨ev', hev', huse⟩, -⟩ := namedLink_ordinal he hn
    obtain rfl := Option.some.inj (hev.symm.trans hev')
    simp [Event.usesNamed, Event.isNamed, harrive.1] at huse

/-- No link ends in a wait on an excluded barrier. -/
theorem not_acquiresAt_of_excluded {pw : PerWarp} {c : Cta} {name : ℤ} {warp rel : ℕ}
    {link : ℕ × ℕ} {ev : Event} (h : (barriers pw).mbarOk (c, name) = false)
    (hlink : link ∈ (barriers pw).linksFrom c warp rel)
    (hev : (pw.events c link.1)[link.2]? = some ev) : ¬ ev.acquiresAt name := by
  intro hacquire
  simp only [Event.acquiresAt, decide_eq_true_eq] at hacquire
  rcases mem_linksFrom.mp hlink with ⟨key, -, hm⟩ | ⟨e, he, hn⟩
  · obtain ⟨-, ev', hev', hacq⟩ := mbarLink_ends hm
    obtain ⟨rfl, hok, -⟩ := mem_mbarLinks.mp hm
    obtain rfl := Option.some.inj (hev.symm.trans hev')
    simp only [Event.acquiresAt, decide_eq_true_eq] at hacq
    obtain ⟨cta, a⟩ := key
    obtain rfl : name = a := Option.some.inj (hacquire.2.2.symm.trans hacq.2.2)
    rw [h] at hok
    exact Bool.false_ne_true hok
  · obtain ⟨-, ⟨ev', hev', -, hsync⟩, -⟩ := namedLink_ordinal he hn
    obtain rfl := Option.some.inj (hev.symm.trans hev')
    simp [hacquire.1] at hsync

theorem waitLink_of_excluded {b : Barriers} {c : Cta} {name : ℤ} (h : b.mbarOk (c, name) = false)
    (pw : PerWarp) (ww wpos rw' rpos : ℕ) :
    waitLink pw b c ww wpos (some name) rw' rpos = (.undecided, []) := by
  unfold waitLink
  exact if_pos (Or.inl (by simp [h]))

/-- No link goes through the barrier that a remote arrive addresses, under its name
in any CTA or as the offset in the target CTA. -/
theorem remote_arrive_disables_barrier (pw : PerWarp) (ev : Event) (hev : ev ∈ pw.all)
    (hkind : ev.kind = some .mbarRemote) (hraw : ev.rawBars = none) (lanes : List ℤ)
    (uniform : Option ℤ) (hoperand : (ev.bar, ev.barSet) = mbarOperand lanes uniform) (a : ℤ)
    (ha : ResolvesTo lanes uniform a) (c : Cta) (hc : c ∈ pw.ctas) (name : ℤ)
    (hname : name = nameIn pw c a ∨ name = a % sharedLimit) :
    let pw' := rebaseClusterAddresses pw
    let b := barriers pw'
    (∀ warp rel, b.mbarLinks c warp rel (c, name) = []) ∧
      (∀ warp rel rel', (pw'.events c warp)[rel]? = some rel' → rel'.arrivesAt name →
        b.linksFrom c warp rel = []) ∧
      (∀ warp rel link acq, link ∈ b.linksFrom c warp rel →
        (pw'.events c link.1)[link.2]? = some acq → ¬ acq.acquiresAt name) ∧
      ∀ ww wpos rw' rpos, waitLink pw' b c ww wpos (some name) rw' rpos = (.undecided, []) := by
  have hmem : a ∈ ev.bar.toList ++ ev.barSet := by
    have := mem_mbarOperand ha
    rwa [← hoperand] at this
  have hnames : name ∈ excludedNames (ev.bar.toList ++ ev.barSet) := by
    rcases hname with rfl | rfl
    · exact nameIn_mem_excludedNames pw c hmem
    · exact offset_mem_excludedNames hmem ha.1
  have hexcluded := remote_excluded hev hkind hraw hc hnames
  refine ⟨mbarLinks_of_excluded hexcluded, ?_, ?_, ?_⟩
  · intro warp rel rel' hget harrive
    exact linksFrom_of_excluded hexcluded hget harrive
  · intro warp rel link acq hlink hget
    exact not_acquiresAt_of_excluded hexcluded hlink hget
  · exact waitLink_of_excluded hexcluded _

/-- One CTA arrives and waits on its barrier at 64; another arrives on it remotely. -/
def remoteArrive : Event := { Event.plain (1, 0, 0) 0 1 .mbarRemote with bar := some 64 }

def remoteTrace : PerWarp :=
  .ofEntries
    [(((0, 0, 0), 0), [{ Event.plain (0, 0, 0) 0 0 .mbarArrive with bar := some 64 }]),
      (((0, 0, 0), 1), [{ Event.plain (0, 0, 0) 1 0 .mbarWait with
        bar := some 64, token := .value 0, success := some true }]),
      (((1, 0, 0), 0), [{ Event.plain (1, 0, 0) 0 0 .genericR with
        ranges := [⟨0x1000000, 0x1000004, by decide⟩] }, remoteArrive])]
    (by decide) (by decide)

theorem remoteTrace_no_link :
    (barriers (rebaseClusterAddresses remoteTrace)).linksFrom (0, 0, 0) 0 0 = [] := by
  have hdisabled := remote_arrive_disables_barrier remoteTrace remoteArrive (by decide) rfl rfl
    [64] none (by decide) 64 (by simp [ResolvesTo, InWindow, clusterWindow, sharedLimit])
    (0, 0, 0) (by decide) 64 (Or.inr (by decide))
  exact hdisabled.2.1 0 0 _ rfl (by decide)

end CuTracer.MemoryModel
