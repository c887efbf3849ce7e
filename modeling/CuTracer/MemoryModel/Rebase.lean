import CuTracer.MemoryModel.Event
import Mathlib.Data.List.MinMax

/-! Renaming shared addresses per CTA. Each CTA takes its own rank to be the one
most of its addresses carry; an address of that rank becomes an offset, any
other moves above the cluster window. -/

namespace CuTracer.MemoryModel

/-- Kinds that can only address the issuing CTA. -/
def Event.isLocal (ev : Event) : Bool :=
  match ev.kind with
  | some .genericR | some .genericW | some .genericRw | some .cpasyncW | some .mbarWait => true
  | _ => false

/-- The ranks an event's addresses carry. -/
def Event.votes (ev : Event) : List ℤ :=
  ev.ranges.map (fun r => r.lo / sharedLimit) ++ ev.bar.toList.map fun a => a / sharedLimit

/-- The rank a CTA votes for: the first most common one of its local addresses,
or of the others where it has none. -/
def ownRank (pw : PerWarp) (cta : Cta) : Option ℤ :=
  let evs := pw.all.filter fun ev => ev.cta = cta
  let localVotes := (evs.filter Event.isLocal).flatMap Event.votes
  let otherVotes := (evs.filter fun ev => !ev.isLocal).flatMap Event.votes
  let votes := if localVotes ≠ [] then localVotes else otherVotes
  votes.argmax votes.count

/-- The name of an address in a CTA of rank `own`. -/
def localName (own a : ℤ) : ℤ :=
  if InWindow a then
    if a / sharedLimit = own then a - own * sharedLimit else clusterWindow + a
  else a

/-- A range moves with its first byte. -/
def renameRange (own : ℤ) (r : Range) : Range where
  lo := localName own r.lo
  hi := localName own r.lo + (r.hi - r.lo)
  lt := Int.lt_add_of_pos_right _ (Int.sub_pos_of_lt r.lt)

/-- The renamed event; a remote arrive keeps its encoded targets. -/
def renameEvent (own : ℤ) (ev : Event) : Event :=
  { ev with
    rawBars := if ev.kind = some .mbarRemote then some (ev.bar.toList ++ ev.barSet) else ev.rawBars
    flags :=
      if ev.ranges.any (fun r => r.lo / sharedLimit ≠ own) ∧ .remoteShared ∉ ev.flags then
        ev.flags ++ [.remoteShared]
      else ev.flags
    ranges := ev.ranges.map (renameRange own)
    bar := ev.bar.map (localName own)
    srcBar := ev.srcBar.map (localName own)
    barSet := ev.barSet.map (localName own) }

def renameEvents (own : Option ℤ) (evs : List Event) : List Event :=
  match own with
  | none => evs
  | some own => evs.map (renameEvent own)

theorem getElem?_renameEvents {own : Option ℤ} {evs : List Event} {i : ℕ} {ev : Event}
    (h : (renameEvents own evs)[i]? = some ev) :
    ∃ ev₀, evs[i]? = some ev₀ ∧ ev = own.elim ev₀ fun r => renameEvent r ev₀ := by
  cases own with
  | none => exact ⟨ev, h, rfl⟩
  | some own =>
    simp only [renameEvents, List.getElem?_map, Option.map_eq_some_iff] at h
    obtain ⟨ev₀, h₀, rfl⟩ := h
    exact ⟨ev₀, h₀, rfl⟩

theorem manyAsync_renameEvent (own : Option ℤ) (ev : Event) :
    (own.elim ev fun r => renameEvent r ev).manyAsync = ev.manyAsync := by
  cases own with
  | none => rfl
  | some own => simp [Event.manyAsync, renameEvent]

theorem elim_renameEvent (own : Option ℤ) (ev : Event) :
    let ev' := own.elim ev fun r => renameEvent r ev
    ev'.cta = ev.cta ∧ ev'.warp = ev.warp ∧ ev'.pos = ev.pos ∧ ev'.mask = ev.mask ∧
      ev'.kind = ev.kind := by
  cases own <;> exact ⟨rfl, rfl, rfl, rfl, rfl⟩

def rebaseClusterAddresses (pw : PerWarp) : PerWarp where
  warps := pw.warps.mapValues fun key evs => renameEvents (ownRank pw key.1) evs
  placed := by
    rintro key evs hentry i ev hev
    obtain ⟨⟨key₀, evs₀⟩, hentry₀, he⟩ := List.mem_map.mp hentry
    cases he
    obtain ⟨ev₀, h₀, rfl⟩ := getElem?_renameEvents hev
    obtain ⟨hc, hw, hp, -, -⟩ := elim_renameEvent (ownRank pw key₀.1) ev₀
    obtain ⟨hc₀, hw₀, hp₀⟩ := pw.placed key₀ evs₀ hentry₀ i ev₀ h₀
    exact ⟨hc.trans hc₀, hw.trans hw₀, hp.trans hp₀⟩
  active := by
    rintro key evs hentry ev hev
    obtain ⟨⟨key₀, evs₀⟩, hentry₀, he⟩ := List.mem_map.mp hentry
    cases he
    obtain ⟨i, hi⟩ := List.mem_iff_getElem?.mp hev
    obtain ⟨ev₀, h₀, rfl⟩ := getElem?_renameEvents hi
    rw [(elim_renameEvent (ownRank pw key₀.1) ev₀).2.2.2.1]
    exact pw.active key₀ evs₀ hentry₀ ev₀ (List.mem_of_getElem? h₀)
  single := by
    rintro key evs hentry ev hev
    obtain ⟨⟨key₀, evs₀⟩, hentry₀, he⟩ := List.mem_map.mp hentry
    cases he
    obtain ⟨i, hi⟩ := List.mem_iff_getElem?.mp hev
    obtain ⟨ev₀, h₀, rfl⟩ := getElem?_renameEvents hi
    rw [manyAsync_renameEvent]
    exact pw.single key₀ evs₀ hentry₀ ev₀ (List.mem_of_getElem? h₀)

end CuTracer.MemoryModel
