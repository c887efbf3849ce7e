import CuTracer.MemoryModel.Build

/-! What merging the records of an instruction keeps of its addresses. Of several memory records
only the first one reaches the event; the addresses that the others add to it are not read. Each
event stands where the checks require it. -/

namespace CuTracer.MemoryModel

variable {static : Dict ℕ StaticInfo} {lines : List (Option Record)} {perWarp : Dict WarpKey (List Event)} {key : WarpKey}

/-- What the listing says about an instruction, if it is a generic access or a `cp.async`. -/
def SharedInfo (static : Dict ℕ StaticInfo) (i : Instruction) (info : StaticInfo) : Prop :=
  ∃ rec kind, i.record = some rec ∧ static.get? rec.opcodeId = some info ∧ info.kind = some kind ∧ kind.isShared

/-- Every shared address of an active lane, in any memory record of the instruction, is in a range of the event. -/
def Covers (static : Dict ℕ StaticInfo) (i : Instruction) (ev : Event) : Prop :=
  ∀ info, SharedInfo static i info → ∀ m ∈ i.mems, ∀ a ∈ m.lanes, InWindow a → ∃ r ∈ ev.ranges, r.lo ≤ a ∧ a < r.hi

structure MergedWithoutLoss (static : Dict ℕ StaticInfo) (lines : List (Option Record))
    (perWarp : Dict WarpKey (List Event)) : Prop where
  /-- The instructions of a warp divide its records, in order. -/
  records : ∀ key, (instructions (recordsOf key lines)).flatMap Instruction.records = recordsOf key lines
  /-- Each becomes one event, made from its register record if it has one. -/
  order : ∀ key, List.Forall₂ (Emits static key) (instructions (recordsOf key lines)).zipIdx (eventsOf perWarp key)
  covered : ∀ key, List.Forall₂ (Covers static) (instructions (recordsOf key lines)) (eventsOf perWarp key)

/-- The later memory records of an access touch only bytes that its first one does. -/
def FirstCovers (static : Dict ℕ StaticInfo) (i : Instruction) : Prop :=
  ∀ info, SharedInfo static i info → ∀ m ∈ i.mems.tail, ∀ a ∈ m.lanes, InWindow a →
    ∃ first ∈ i.mems.head?, ∃ b ∈ first.lanes, InWindow b ∧ b ≤ a ∧ a < b + info.byteSize

/-- So it is for every instruction of the trace. -/
def FirstRecordCovers (static : Dict ℕ StaticInfo) (lines : List (Option Record)) : Prop :=
  ∀ key, ∀ i ∈ instructions (recordsOf key lines), FirstCovers static i

theorem mem_footprint {info : StaticInfo} {shared : List ℤ} {a : ℤ} :
    (∃ r ∈ footprint info shared, r.lo ≤ a ∧ a < r.hi) ↔ ∃ b ∈ shared, b ≤ a ∧ a < b + info.byteSize := by
  simp [footprint, rangeOfSize, mem_sortedSet]

theorem emit_ranges {i : Instruction × ℕ} {ev : Event} (h : Emits static key i ev) {info : StaticInfo}
    (hinfo : SharedInfo static i.1 info) :
    ev.ranges = footprint info ((i.1.mems.head?.elim [] MemAddrTrace.lanes).filter fun a => InWindow a) := by
  obtain ⟨rec, hrec, hemit⟩ := h
  obtain ⟨rec', kind, hrec', hget, hkind, hshared⟩ := hinfo
  obtain rfl := Option.some.inj (hrec.symm.trans hrec')
  rw [emit, hget] at hemit
  dsimp only at hemit
  have hlanes : activeLanes (maskOf (i.1.mems.head?.elim rec.activeMask MemAddrTrace.activeMask))
      (i.1.mems.head?.elim [] MemAddrTrace.addrs) = i.1.mems.head?.elim [] MemAddrTrace.lanes := by
    cases i.1.mems.head? <;> rfl
  rw [hlanes, hkind] at hemit
  cases kind <;> first | (obtain rfl := Except.ok.inj hemit; rfl) | cases hshared

/-- The first memory record always reaches its event. -/
theorem covers_iff {i : Instruction × ℕ} {ev : Event} (h : Emits static key i ev) :
    Covers static i.1 ev ↔ FirstCovers static i.1 := by
  apply forall₂_congr
  intro info hinfo
  rw [emit_ranges h hinfo]
  simp only [mem_footprint, List.mem_filter, decide_eq_true_eq]
  cases hmems : i.1.mems with
  | nil => simp
  | cons first more =>
    simp only [List.head?_cons, Option.elim_some, List.tail_cons, Option.mem_def, Option.some.injEq, exists_eq_left',
      List.forall_mem_cons, and_assoc]
    refine and_iff_right_of_imp fun _ a ha hwindow => ⟨a, ha, hwindow, le_refl a, ?_⟩
    have := info.byteSize_pos
    omega

/-- A property of items and what they are made into that only the items decide. -/
theorem forall₂_zipIdx_iff {α β : Type} {R : α × ℕ → β → Prop} {S : α → β → Prop} {P : α → Prop} {xs : List α} {ys : List β}
    {k : ℕ} (h : List.Forall₂ R (xs.zipIdx k) ys) (hiff : ∀ x y, R x y → (S x.1 y ↔ P x.1)) :
    List.Forall₂ S xs ys ↔ ∀ x ∈ xs, P x := by
  induction xs generalizing ys k with
  | nil =>
    cases h
    simp
  | cons x xs ih =>
    rw [List.zipIdx_cons] at h
    cases h with
    | cons hxy h => rw [List.forall₂_cons, List.forall_mem_cons, hiff _ _ hxy, ih h]

theorem covered_iff (h : buildEvents static lines = .ok perWarp) (key : WarpKey) :
    List.Forall₂ (Covers static) (instructions (recordsOf key lines)) (eventsOf perWarp key) ↔
      ∀ i ∈ instructions (recordsOf key lines), FirstCovers static i :=
  forall₂_zipIdx_iff (buildEvents_emits h key) fun _ _ hemits => covers_iff hemits

/-- Merging loses nothing if and only if no later memory record of an access adds bytes to the first. -/
theorem buildEvents_merged_iff (h : buildEvents static lines = .ok perWarp) :
    MergedWithoutLoss static lines perWarp ↔ FirstRecordCovers static lines := by
  constructor
  · exact fun hmerged key => (covered_iff h key).mp (hmerged.covered key)
  · exact fun hfirst => ⟨fun key => instructions_records _, buildEvents_emits h, fun key => (covered_iff h key).mpr (hfirst key)⟩

/-! ### A store with two memory records -/

def storeRecord (addr : ℤ) : Record := .mem ⟨(0, 0, 0), 0, "0x10", 1, none, some 1, [addr], []⟩

def storeRegisters : Record := .reg ⟨(0, 0, 0), 0, "0x10", 1, none, some 1, [], [], [], []⟩

def storeInfo : StaticInfo where
  sass := "STS [R2], R3 ;"
  guard := none
  mn := "STS".toList
  ops := "[R2], R3".toList
  kind := some .genericW
  size := none

def storeStatic : Dict ℕ StaticInfo := ⟨[(1, storeInfo)], List.nodup_singleton 1⟩

theorem loadStatic_store : loadStatic [(1, "STS [R2], R3 ;")] = .ok storeStatic := by
  have hinfo : staticInfo "STS [R2], R3 ;" = .ok storeInfo := by decide +kernel
  rw [loadStatic, List.foldlM_cons, hinfo]
  rfl

def storeLines (addrs : List ℤ) : List (Option Record) := (addrs.map storeRecord ++ [storeRegisters]).map some

example : (buildEvents storeStatic (storeLines [64, 128])).map (fun perWarp =>
    (eventsOf perWarp ((0, 0, 0), 0)).map fun ev => ev.ranges.map fun r => (r.lo, r.hi)) = .ok [[(64, 68)]] := by
  decide +kernel

theorem buildEvents_store (addrs : List ℤ) (h : (buildEvents storeStatic (storeLines addrs)).toOption.isSome) :
    ∃ perWarp, buildEvents storeStatic (storeLines addrs) = .ok perWarp := by
  cases hbuild : buildEvents storeStatic (storeLines addrs) with
  | error e =>
    rw [hbuild] at h
    cases h
  | ok perWarp => exact ⟨perWarp, rfl⟩

theorem buildEvents_merged_iff_store : ∃ perWarp, buildEvents storeStatic (storeLines [64, 66]) = .ok perWarp ∧
    (MergedWithoutLoss storeStatic (storeLines [64, 66]) perWarp ↔
      FirstRecordCovers storeStatic (storeLines [64, 66])) := by
  obtain ⟨perWarp, hbuild⟩ := buildEvents_store [64, 66] (by decide +kernel)
  exact ⟨perWarp, hbuild, buildEvents_merged_iff hbuild⟩

/-- The address of the second memory record is in no range. -/
theorem second_memory_record_lost : ∃ static perWarp, loadStatic [(1, "STS [R2], R3 ;")] = .ok static ∧
    buildEvents static (storeLines [64, 128]) = .ok perWarp ∧
    ¬ MergedWithoutLoss static (storeLines [64, 128]) perWarp := by
  obtain ⟨perWarp, hbuild⟩ := buildEvents_store [64, 128] (by decide +kernel)
  refine ⟨storeStatic, perWarp, loadStatic_store, hbuild, fun hmerged => ?_⟩
  have hfirst := (covered_iff hbuild ((0, 0, 0), 0)).mp (hmerged.covered _)
  have hinstructions : instructions (recordsOf ((0, 0, 0), 0) (storeLines [64, 128])) =
      [⟨[⟨(0, 0, 0), 0, "0x10", 1, none, some 1, [64], []⟩, ⟨(0, 0, 0), 0, "0x10", 1, none, some 1, [128], []⟩],
        some ⟨(0, 0, 0), 0, "0x10", 1, none, some 1, [], [], [], []⟩⟩] := by decide +kernel
  rw [hinstructions] at hfirst
  obtain ⟨first, hhead, b, hb, -, hle, hlt⟩ := hfirst _ (List.mem_singleton_self _) storeInfo
    ⟨_, .genericW, rfl, rfl, rfl, rfl⟩ _ (List.mem_singleton_self _) 128 (by decide) (by decide)
  cases hhead
  obtain rfl : b = 64 := by simpa [MemAddrTrace.lanes, activeLanes, maskOf] using hb
  have hsize : storeInfo.byteSize = 4 := by decide +kernel
  rw [hsize] at hlt
  exact absurd hlt (by decide)

/-! ### The events that the checks require -/

/-- Events of a trace whose masks are not empty are as the checks require them. -/
theorem buildEvents_perWarp (h : buildEvents static lines = .ok perWarp)
    (hmask : ∀ rec ∈ lines.reduceOption, maskOf rec.activeMask ≠ 0) : ∃ pw : PerWarp, pw.warps = perWarp := by
  have hok : PerWarp.placedOk perWarp.entries = true := by
    simp only [PerWarp.placedOk, List.all_eq_true, decide_eq_true_eq]
    intro e he x hx
    have hevents : eventsOf perWarp e.1 = e.2 := by
      rw [eventsOf, (perWarp.get?_eq_some_iff e.1 e.2).mpr he, Option.getD_some]
    have hemits := buildEvents_emits h e.1
    rw [hevents] at hemits
    obtain ⟨i, hi, rec, hrec, hemit⟩ := mem_zipIdx_of_forall₂ hemits hx
    obtain ⟨hcta, hwarp, hpos, hm, hsingle⟩ := emit_place hemit
    refine ⟨hcta, hwarp, hpos, ?_, hsingle⟩
    rw [hm]
    cases hmems : i.mems with
    | cons m more =>
      exact hmask (.mem m) (instruction_records_mem hi (by simp [Instruction.records, hmems]))
    | nil =>
      refine hmask rec (instruction_records_mem hi ?_)
      cases hreg : i.reg with
      | none => simp [Instruction.record, hmems, hreg] at hrec
      | some r =>
        obtain rfl : Record.reg r = rec := by simpa [Instruction.record, hreg] using hrec
        simp [Instruction.records, hreg]
  exact ⟨PerWarp.ofEntries perWarp.entries perWarp.nodup hok, rfl⟩

theorem buildEvents_perWarp_store : ∃ perWarp, buildEvents storeStatic (storeLines [64, 66]) = .ok perWarp ∧
    ∃ pw : PerWarp, pw.warps = perWarp := by
  obtain ⟨perWarp, hbuild⟩ := buildEvents_store [64, 66] (by decide +kernel)
  exact ⟨perWarp, hbuild, buildEvents_perWarp hbuild (by decide +kernel)⟩

end CuTracer.MemoryModel
