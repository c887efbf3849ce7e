import CuTracer.MemoryModel.Barriers
import Mathlib.Data.List.TakeWhile

/-! The evidence for one pair of accesses. A handshake is a release of the first
warp that the second observably acquired, directly or through one intermediate
warp, with the lanes joined at every hop; a wait link is the wait of a reader on
the barrier that an async write completes. -/

namespace CuTracer.MemoryModel

def covers (mask lanes : ℕ) : Bool := mask &&& lanes = lanes

def Event.isRelease (ev : Event) : Bool :=
  ev.kind = some .mbarArrive ∨ ev.kind = some .barSync ∨ ev.kind = some .barArv

variable (evs : List Event)

def releasesAfter (pos : ℕ) : List Event :=
  (evs.drop (pos + 1)).filter Event.isRelease

/-- The lanes that a warp-wide sync joins: all that are active in a `BAR.SYNC`,
those of the members that are active in a `WARPSYNC`. -/
def Event.syncMask (ev : Event) : ℕ :=
  match ev.kind with
  | some .barSync => ev.mask
  | some .warpSync => ev.mask &&& ev.members
  | _ => 0

def Event.syncs (ev : Event) (lanes : ℕ) : Bool :=
  (ev.kind = some .barSync ∨ ev.kind = some .warpSync) ∧ covers ev.syncMask lanes

/-- `join`: evidence that the lanes are ordered with `anchor`, which sits between
two positions: its mask covers them, or a sync between the positions covers both. -/
def join (lo hi lanes : ℕ) (anchor : Event) : Option (List Event) :=
  if covers anchor.mask lanes then some []
  else
    (((evs.take hi).drop (lo + 1)).find? fun e => e.syncs (lanes ||| anchor.mask)).map fun e => [e]

structure Step where
  role : String
  warp : ℕ
  pc : String
  mask : ℕ
  t : Option ℤ
  deriving DecidableEq

def Event.step (ev : Event) (role : String) : Step := ⟨role, ev.warp, ev.pc, ev.mask, ev.t⟩

def syncSteps (j : Option (List Event)) : List Step := (j.getD []).map fun e => e.step "sync"

inductive Link where
  | lanesUnresolved | linkedDepth2 | linked
  deriving DecidableEq

def Link.rank : Link → ℕ
  | .lanesUnresolved => 0
  | .linkedDepth2 => 1
  | .linked => 2

def maskAt (pos : ℕ) : ℕ := ((evs[pos]?).map Event.mask).getD 0

/-! ### One release -/

structure Accesses where
  cta : Cta
  w1 : ℕ
  p1 : ℕ
  w2 : ℕ
  p2 : ℕ

/-- What is known before the links are tried: the fence steps, whether a fence is
joined to the release, and how the access is joined to it. -/
structure Head where
  fence : Bool
  joined : Bool
  steps : List Step
  toRelease : Option (List Event)

/-- The proxy fences after the access that all its lanes execute. -/
def fencesAfter (p1 : ℕ) : List Event :=
  (evs.filter fun e => decide (e.kind = some .fenceS) && covers e.mask (maskAt evs p1)).filter
    fun e => p1 < e.pos

/-- The first fence before the release that is joined to it, else the first. -/
def releaseHead (p1 : ℕ) (rel : Event) : Head :=
  let lanes := maskAt evs p1
  let before := (fencesAfter evs p1).takeWhile fun f => f.pos < rel.pos
  match before.findSome? fun f => (join evs f.pos rel.pos lanes rel).map fun j => (f, j) with
  | some (f, j) => ⟨true, true, [f.step "fence"], some j⟩
  | none =>
    ⟨before ≠ [], false, (before.take 1).map fun f => f.step "fence",
      join evs p1 rel.pos lanes rel⟩

variable (pw : PerWarp)

/-- A link through one release and the acquire `acq` of the second warp. -/
def directLink (x : Accesses) (head : Head) (rel acq : Event) : Link × List Step :=
  let evs2 := pw.events x.cta x.w2
  let jAcq := join evs2 acq.pos x.p2 (maskAt evs2 x.p2) acq
  (if head.toRelease.isSome ∧ jAcq.isSome then .linked else .lanesUnresolved,
    head.steps ++ syncSteps head.toRelease ++ [rel.step "release", acq.step "acquire"] ++
      syncSteps jAcq)

/-- A link through two releases, the second in the intermediate warp `wx`. -/
def depth2Link (x : Accesses) (head : Head) (rel : Event) (wx : ℕ) (acq rel2 acq2 : Event) :
    Link × List Step :=
  let evx := pw.events x.cta wx
  let evs2 := pw.events x.cta x.w2
  let jMid := join evx acq.pos rel2.pos rel2.mask acq
  let jAcq := join evs2 acq2.pos x.p2 (maskAt evs2 x.p2) acq2
  (if head.toRelease.isSome ∧ jMid.isSome ∧ jAcq.isSome then .linkedDepth2 else .lanesUnresolved,
    head.steps ++ syncSteps head.toRelease ++ [rel.step "release", acq.step "acquire"] ++
      syncSteps jMid ++ [rel2.step "release", acq2.step "acquire"] ++ syncSteps jAcq)

def firstDirect (b : Barriers) (x : Accesses) (head : Head) (rel : Event) :
    Option (Link × List Step) :=
  ((b.linksFrom x.cta x.w1 rel.pos).find? fun l => l.1 = x.w2 ∧ l.2 < x.p2).bind fun l =>
    ((pw.events x.cta x.w2)[l.2]?).map (directLink pw x head rel)

/-- All links of a release through an intermediate warp. -/
def allDepth2 (b : Barriers) (x : Accesses) (head : Head) (rel : Event) : List (Link × List Step) :=
  (b.linksFrom x.cta x.w1 rel.pos).flatMap fun l =>
    ((pw.events x.cta l.1)[l.2]?).toList.flatMap fun acq =>
      (releasesAfter (pw.events x.cta l.1) l.2).flatMap fun rel2 =>
        (b.linksFrom x.cta l.1 rel2.pos).filterMap fun l2 =>
          if l2.1 = x.w2 ∧ l2.2 < x.p2 then
            ((pw.events x.cta x.w2)[l2.2]?).map (depth2Link pw x head rel l.1 acq rel2)
          else none

/-- Keep the first link of the highest rank. -/
def better (best : Option (Link × List Step)) (cand : Link × List Step) : Option (Link × List Step) :=
  match best with
  | none => some cand
  | some old => if old.1.rank < cand.1.rank then some cand else some old

def releaseLink (b : Barriers) (x : Accesses) (head : Head) (rel : Event) :
    Option (Link × List Step) :=
  match firstDirect pw b x head rel with
  | some (.linked, chain) => some (.linked, chain)
  | direct => (allDepth2 pw b x head rel).foldl better direct

/-! ### All releases -/

/-- `handshake`'s result. -/
structure Handshake where
  fenceSeen : Bool
  fenceJoined : Bool
  link : Option Link
  chain : List Step
  deriving DecidableEq

/-- A link that holds by lane comes first, then a joined fence, then a direct
link; the tuple of the three as one number. -/
def linkScore (joined : Bool) (link : Link) : ℕ :=
  (if 0 < link.rank then 8 else 0) + (if joined then 4 else 0) + link.rank

/-- The best of the releases, the first among equals. A direct link with a joined
fence ends the search. -/
def bestRelease (pw : PerWarp) (b : Barriers) (x : Accesses) :
    List Event → Option (ℕ × Handshake) → Option (ℕ × Handshake)
  | [], best => best
  | rel :: rels, best =>
    let head := releaseHead (pw.events x.cta x.w1) x.p1 rel
    match releaseLink pw b x head rel with
    | none => bestRelease pw b x rels best
    | some (link, chain) =>
      let score := linkScore head.joined link
      let worse := match best with | none => true | some old => old.1 < score
      if worse then
        let found := (score, (⟨head.fence, head.joined, some link, chain⟩ : Handshake))
        if head.joined ∧ link = .linked then some found else bestRelease pw b x rels (some found)
      else bestRelease pw b x rels best

def handshake (b : Barriers) (x : Accesses) : Handshake :=
  let evs1 := pw.events x.cta x.w1
  let rels := releasesAfter evs1 x.p1
  match bestRelease pw b x rels none with
  | some (_, found) => found
  | none =>
    ⟨(rels.head?.map fun rel => (releaseHead evs1 x.p1 rel).fence).getD false, false, none, []⟩

/-! ### What a reported link says -/

theorem mem_releasesAfter {pw : PerWarp} {cta : Cta} {warp pos : ℕ} {rel : Event}
    (h : rel ∈ releasesAfter (pw.events cta warp) pos) :
    pos < rel.pos ∧ (pw.events cta warp)[rel.pos]? = some rel := by
  obtain ⟨k, hk⟩ := List.mem_iff_getElem?.mp (List.mem_of_mem_filter h)
  rw [List.getElem?_drop] at hk
  have hpos := pos_of_getElem? _ _ hk
  rw [hpos]
  exact ⟨by omega, hk⟩

/-- The access is joined to the release from its own place or a later fence. -/
theorem toRelease_releaseHead {evs : List Event} {p₁ : ℕ} {rel : Event} (hlt : p₁ < rel.pos)
    (h : (releaseHead evs p₁ rel).toRelease.isSome = true) :
    ∃ lo, p₁ ≤ lo ∧ lo < rel.pos ∧ (join evs lo rel.pos (maskAt evs p₁) rel).isSome = true := by
  unfold releaseHead at h
  simp only at h
  split at h
  · rename_i f j hf
    obtain ⟨f', hf', hj⟩ := List.exists_of_findSome?_eq_some hf
    obtain ⟨j', hj', he⟩ := Option.map_eq_some_iff.mp hj
    have hbefore := List.mem_takeWhile_imp (p := fun f : Event => f.pos < rel.pos) hf'
    have hfence : f' ∈ fencesAfter evs p₁ := (List.takeWhile_prefix _).subset hf'
    have hafter : p₁ < f'.pos := by simpa using (List.mem_filter.mp hfence).2
    exact ⟨f'.pos, hafter.le, of_decide_eq_true hbefore, by rw [hj']; rfl⟩
  · exact ⟨p₁, le_refl p₁, hlt, h⟩

variable {found : Link × List Step}

theorem foldl_better {cands : List (Link × List Step)} {best : Option (Link × List Step)}
    (h : cands.foldl better best = some found) : best = some found ∨ found ∈ cands := by
  induction cands generalizing best with
  | nil => exact Or.inl h
  | cons cand cands ih =>
    rcases ih h with hbest | hmem
    · cases best with
      | none =>
        cases hbest
        exact Or.inr List.mem_cons_self
      | some old =>
        simp only [better] at hbest
        split_ifs at hbest
        · cases hbest
          exact Or.inr List.mem_cons_self
        · exact Or.inl hbest
    · exact Or.inr (List.mem_cons_of_mem cand hmem)

theorem firstDirect_eq {pw : PerWarp} {b : Barriers} {x : Accesses} {head : Head} {rel : Event}
    (h : firstDirect pw b x head rel = some found) :
    ∃ acq pos, (x.w2, pos) ∈ b.linksFrom x.cta x.w1 rel.pos ∧ pos < x.p2 ∧
      (pw.events x.cta x.w2)[pos]? = some acq ∧ found = directLink pw x head rel acq := by
  obtain ⟨⟨w, pos⟩, hfind, hmap⟩ := Option.bind_eq_some_iff.mp h
  obtain ⟨acq, hacq, rfl⟩ := Option.map_eq_some_iff.mp hmap
  have hlt := List.find?_some hfind
  simp only [decide_eq_true_eq] at hlt
  obtain ⟨rfl, hlt⟩ := hlt
  exact ⟨acq, pos, List.mem_of_find?_eq_some hfind, hlt, hacq, rfl⟩

theorem mem_allDepth2 {pw : PerWarp} {b : Barriers} {x : Accesses} {head : Head} {rel : Event}
    (h : found ∈ allDepth2 pw b x head rel) :
    ∃ wx mid acq rel2 pos acq2, (wx, mid) ∈ b.linksFrom x.cta x.w1 rel.pos ∧
      (pw.events x.cta wx)[mid]? = some acq ∧ rel2 ∈ releasesAfter (pw.events x.cta wx) mid ∧
      (x.w2, pos) ∈ b.linksFrom x.cta wx rel2.pos ∧ pos < x.p2 ∧
      (pw.events x.cta x.w2)[pos]? = some acq2 ∧
      found = depth2Link pw x head rel wx acq rel2 acq2 := by
  obtain ⟨⟨wx, mid⟩, hlink, h⟩ := List.mem_flatMap.mp h
  obtain ⟨acq, hacq, h⟩ := List.mem_flatMap.mp h
  obtain ⟨rel2, hrel2, h⟩ := List.mem_flatMap.mp h
  obtain ⟨⟨w, pos⟩, hlink2, h⟩ := List.mem_filterMap.mp h
  simp only at h
  split_ifs at h with hend
  obtain ⟨rfl, hlt⟩ := hend
  obtain ⟨acq2, hacq2, rfl⟩ := Option.map_eq_some_iff.mp h
  exact ⟨wx, mid, acq, rel2, pos, acq2, hlink, by simpa using hacq, hrel2, hlink2, hlt, hacq2, rfl⟩

/-- A release's link is direct or through an intermediate warp. -/
theorem releaseLink_cases {pw : PerWarp} {b : Barriers} {x : Accesses} {head : Head} {rel : Event}
    (h : releaseLink pw b x head rel = some found) :
    firstDirect pw b x head rel = some found ∨ found ∈ allDepth2 pw b x head rel := by
  unfold releaseLink at h
  split at h
  · rename_i hd
    rw [hd]
    exact Or.inl h
  · exact foldl_better h

theorem bestRelease_cases {pw : PerWarp} {b : Barriers} {x : Accesses} {rels : List Event}
    {best : Option (ℕ × Handshake)} {found : ℕ × Handshake}
    (h : bestRelease pw b x rels best = some found) :
    best = some found ∨ ∃ rel ∈ rels, ∃ link chain,
      releaseLink pw b x (releaseHead (pw.events x.cta x.w1) x.p1 rel) rel = some (link, chain) ∧
        found.2.link = some link := by
  induction rels generalizing best with
  | nil => exact Or.inl h
  | cons rel rels ih =>
    have hrest : ∀ {best' : Option (ℕ × Handshake)}, bestRelease pw b x rels best' = some found →
        best' = some found ∨ ∃ rel' ∈ rel :: rels, ∃ link chain,
          releaseLink pw b x (releaseHead (pw.events x.cta x.w1) x.p1 rel') rel' =
            some (link, chain) ∧ found.2.link = some link := by
      intro best' h'
      rcases ih h' with hbest | ⟨rel', hmem, hrel'⟩
      · exact Or.inl hbest
      · exact Or.inr ⟨rel', List.mem_cons_of_mem rel hmem, hrel'⟩
    simp only [bestRelease] at h
    split at h
    · exact hrest h
    · rename_i link chain hlink
      split_ifs at h
      · cases h
        exact Or.inr ⟨rel, List.mem_cons_self, link, chain, hlink, rfl⟩
      · rcases hrest h with hbest | hmem
        · cases hbest
          exact Or.inr ⟨rel, List.mem_cons_self, link, chain, hlink, rfl⟩
        · exact Or.inr hmem
      · exact hrest h

/-- A handshake that reports a link has it from one release after the access. -/
theorem handshake_cases {pw : PerWarp} {b : Barriers} {x : Accesses} {link : Link}
    (h : (handshake pw b x).link = some link) :
    ∃ rel ∈ releasesAfter (pw.events x.cta x.w1) x.p1, ∃ chain,
      releaseLink pw b x (releaseHead (pw.events x.cta x.w1) x.p1 rel) rel = some (link, chain) := by
  unfold handshake at h
  simp only at h
  split at h
  · rename_i score found hbest
    rcases bestRelease_cases hbest with hnone | ⟨rel, hrel, link', chain, hlink, hfound⟩
    · contradiction
    · obtain rfl : link' = link := Option.some.inj (hfound.symm.trans h)
      exact ⟨rel, hrel, chain, hlink⟩
  · simp at h

/-! ### Wait links -/

inductive WaitLink where
  | undecided | noWait | lanesUnresolved | linked
  deriving DecidableEq

/-- `wait_link`: whether the reader waited for the phase that an async write
completes. -/
def waitLink (b : Barriers) (cta : Cta) (ww wpos : ℕ) (bar : Option ℤ) (rw rpos : ℕ) :
    WaitLink × List Step :=
  match bar with
  | none => (.undecided, [])
  | some a =>
    let issues := b.issue.group (cta, a) ww
    if ¬ b.mbarOk (cta, a) ∨ wpos ∉ issues then (.undecided, [])
    else
      let evs := pw.events cta rw
      match b.phaseWait (cta, a) rw (issues.idxOf wpos) with
      | none => (.noWait, [])
      | some pos =>
        if rpos ≤ pos then (.noWait, [])
        else
          match evs[pos]? with
          | none => (.noWait, [])
          | some wait =>
            let j := join evs pos rpos (maskAt evs rpos) wait
            (if j.isSome then .linked else .lanesUnresolved, wait.step "wait" :: syncSteps j)

end CuTracer.MemoryModel
