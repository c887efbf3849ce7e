import CuTracer.Library.Fallible
import CuTracer.MemoryModel.Records

/-! `build_events`: the records of all warps in the order they arrived become the events of each warp.
A memory record waits in its warp's slot for the register record of its instruction. The records of
a warp fall into dynamic instructions, and each of them becomes one event, in order. -/

namespace CuTracer.MemoryModel

/-! ### The loop -/

structure BuildState where
  perWarp : Dict WarpKey (List Event)
  pendingMem : Dict WarpKey MemAddrTrace

def BuildState.events (st : BuildState) (key : WarpKey) : List Event := (st.perWarp.get? key).getD []

/-- `emit(key, rec, mem)`. -/
def BuildState.emit (st : BuildState) (static : Dict ℕ StaticInfo) (key : WarpKey) (rec : Record)
    (mem : Option MemAddrTrace) : Except TraceError BuildState := do
  let ev ← MemoryModel.emit static key (st.events key).length rec mem
  .ok { st with perWarp := st.perWarp.upsert key fun evs => evs.getD [] ++ [ev] }

/-- `pending_mem.pop(key, None)` -/
def BuildState.pop (st : BuildState) (key : WarpKey) : BuildState :=
  { st with pendingMem := st.pendingMem.filter fun k _ => k ≠ key }

def BuildState.setPending (st : BuildState) (key : WarpKey) (mem : MemAddrTrace) : BuildState :=
  { st with pendingMem := st.pendingMem.insert key mem }

def BuildState.step (static : Dict ℕ StaticInfo) (st : BuildState) (rec : Record) : Except TraceError BuildState :=
  match rec with
  | .mem m =>
    match st.pendingMem.get? rec.key with
    | none => .ok (st.setPending rec.key m)
    | some old =>
      if old.pc = m.pc then
        -- the same dictionary, under the same key
        .ok (st.setPending rec.key { old with extraAddrs := old.extraAddrs ++ m.lanes })
      else do
        let st ← (st.pop rec.key).emit static rec.key (.mem old) (some old)
        .ok (st.setPending rec.key m)
  | .reg r =>
    match st.pendingMem.get? rec.key with
    | none => st.emit static rec.key rec none
    | some mem =>
      if mem.pc = r.pc then (st.pop rec.key).emit static rec.key rec (some mem)
      else do
        let st ← (st.pop rec.key).emit static rec.key (.mem mem) (some mem)
        st.emit static rec.key rec none

/-- The slots that are still full at the end of the file. -/
def BuildState.flush (static : Dict ℕ StaticInfo) (st : BuildState) : Except TraceError BuildState :=
  st.pendingMem.entries.foldlM (fun st e => st.emit static e.1 (.mem e.2) (some e.2)) st

/-- `build_events` up to rebasing; a line that is `none` has another type. -/
def buildEvents (static : Dict ℕ StaticInfo) (lines : List (Option Record)) : Except TraceError (Dict WarpKey (List Event)) := do
  let st ← lines.reduceOption.foldlM (BuildState.step static) ⟨.empty, .empty⟩
  let st ← st.flush static
  .ok st.perWarp

/-! ### Dynamic instructions -/

/-- The records of one dynamic instruction: memory records, and then its register record. -/
structure Instruction where
  mems : List MemAddrTrace
  reg : Option RegTrace
  deriving DecidableEq

namespace Instruction

def records (i : Instruction) : List Record := i.mems.map .mem ++ i.reg.toList.map .reg

def pc (i : Instruction) : Option String := i.records.head?.map Record.pc

end Instruction

/-- A memory record belongs to the instruction after it in its warp if that has its PC. -/
def attach (m : MemAddrTrace) : List Instruction → List Instruction
  | [] => [⟨[m], none⟩]
  | i :: is => if i.pc = some m.pc then { i with mems := m :: i.mems } :: is else ⟨[m], none⟩ :: i :: is

def instructions : List Record → List Instruction
  | [] => []
  | .reg r :: rest => ⟨[], some r⟩ :: instructions rest
  | .mem m :: rest => attach m (instructions rest)

def recordsOf (key : WarpKey) (lines : List (Option Record)) : List Record :=
  lines.reduceOption.filter fun rec => rec.key = key

/-- No record is lost or moved. -/
theorem instructions_records (recs : List Record) : (instructions recs).flatMap Instruction.records = recs := by
  induction recs with
  | nil => rfl
  | cons rec recs ih =>
    cases rec with
    | reg r => rw [instructions, List.flatMap_cons, ih]; rfl
    | mem m =>
      rw [instructions]
      cases h : instructions recs with
      | nil =>
        rw [h] at ih
        rw [← ih]
        rfl
      | cons i is =>
        rw [h] at ih
        rw [attach, ← ih]
        split_ifs <;> simp [Instruction.records]

theorem attach_head (m : MemAddrTrace) (is : List Instruction) :
    (attach m is).head?.bind Instruction.pc = some m.pc := by
  cases is with
  | nil => rfl
  | cons i is =>
    rw [attach]
    split_ifs <;> rfl

theorem instructions_head (recs : List Record) :
    (instructions recs).head?.bind Instruction.pc = recs.head?.map Record.pc := by
  cases recs with
  | nil => rfl
  | cons rec recs =>
    cases rec with
    | reg r => rfl
    | mem m => exact attach_head m (instructions recs)

/-- Memory records before an instruction with their PC. -/
theorem instructions_join {ms : List MemAddrTrace} {recs : List Record} {i : Instruction} {is : List Instruction}
    (hrecs : instructions recs = i :: is) (hpc : ∀ m ∈ ms, i.pc = some m.pc) :
    instructions (ms.map .mem ++ recs) = { i with mems := ms ++ i.mems } :: is := by
  induction ms with
  | nil => exact hrecs
  | cons m ms ih =>
    have hrest := ih fun m' hm' => hpc m' (List.mem_cons_of_mem m hm')
    have hsame : Instruction.pc { i with mems := ms ++ i.mems } = some m.pc := by
      have hm := hpc m List.mem_cons_self
      cases ms with
      | nil => exact hm
      | cons m' ms =>
        have hm' := hpc m' (List.mem_cons_of_mem m List.mem_cons_self)
        rw [hm] at hm'
        exact hm'.symm
    rw [List.map_cons, List.cons_append, instructions, hrest, attach, if_pos hsame]
    rfl

/-- Memory records of one PC before an instruction of another, or at the end. -/
theorem instructions_apart {m : MemAddrTrace} {more : List MemAddrTrace} {recs : List Record}
    (hsame : ∀ m' ∈ more, m'.pc = m.pc) (hpc : ∀ rec ∈ recs.head?, rec.pc ≠ m.pc) :
    instructions ((m :: more).map .mem ++ recs) = ⟨m :: more, none⟩ :: instructions recs := by
  induction more generalizing m with
  | nil =>
    have hhead := instructions_head recs
    rw [List.map_singleton, List.singleton_append, instructions]
    cases hrecs : instructions recs with
    | nil => rfl
    | cons i is =>
      rw [hrecs] at hhead
      rw [attach, if_neg]
      intro hi
      rw [List.head?_cons, Option.bind_some, hi] at hhead
      obtain ⟨rec, hrec, heq⟩ := Option.map_eq_some_iff.mp hhead.symm
      exact hpc rec hrec heq
  | cons m' more ih =>
    have hm' := hsame m' List.mem_cons_self
    have hrest := ih (m := m') (fun m'' hm'' => by rw [hsame m'' (List.mem_cons_of_mem m' hm''), hm']) fun rec hrec => by
      rw [hm']
      exact hpc rec hrec
    rw [List.map_cons, List.cons_append, instructions, hrest, attach, if_pos]
    rw [← hm']
    rfl

/-! ### What one record does -/

namespace BuildState

variable {static : Dict ℕ StaticInfo} {st st' : BuildState} {key key' : WarpKey} {rec : Record}

theorem emit_ok {mem : Option MemAddrTrace} (h : st.emit static key rec mem = .ok st') :
    st'.pendingMem = st.pendingMem ∧ ∃ ev, MemoryModel.emit static key (st.events key).length rec mem = .ok ev ∧
      ∀ key', st'.events key' = st.events key' ++ if key' = key then [ev] else [] := by
  obtain ⟨ev, hev, h⟩ := bind_ok h
  cases h
  refine ⟨rfl, ev, hev, fun key' => ?_⟩
  rw [events, Dict.get?_upsert]
  by_cases hkey : key' = key
  · rw [if_pos hkey, if_pos hkey, hkey]
    rfl
  · rw [if_neg hkey, if_neg hkey, List.append_nil]
    rfl

theorem pop_get? (key key' : WarpKey) :
    (st.pop key).pendingMem.get? key' = if key' = key then none else st.pendingMem.get? key' := by
  apply Option.ext
  intro m
  rw [pop, Dict.get?_filter, decide_eq_true_eq]
  split_ifs with hkey
  · simp [hkey]
  · simp [hkey]

theorem setPending_get? (mem : MemAddrTrace) (key key' : WarpKey) :
    (st.setPending key mem).pendingMem.get? key' = if key' = key then some mem else st.pendingMem.get? key' := by
  rw [setPending, Dict.insert, Dict.get?_upsert]

end BuildState

/-- The record that the event of an instruction is made from. -/
def Instruction.record (i : Instruction) : Option Record :=
  (i.reg.map Record.reg).or (i.mems.head?.map Record.mem)

/-- An event is emitted for an instruction at a position. -/
def Emits (static : Dict ℕ StaticInfo) (key : WarpKey) (i : Instruction × ℕ) (ev : Event) : Prop :=
  ∃ rec, i.1.record = some rec ∧ emit static key i.2 rec i.1.mems.head? = .ok ev

/-- The memory records that a slot stands for: the first of them is kept. -/
inductive Waiting : Option MemAddrTrace → List MemAddrTrace → Prop
  | empty : Waiting none []
  | full {m : MemAddrTrace} {more : List MemAddrTrace} {extra : List ℤ} (same : ∀ m' ∈ more, m'.pc = m.pc) :
    Waiting (some { m with extraAddrs := extra }) (m :: more)

/-- What a record adds to its own warp. -/
structure Advances (static : Dict ℕ StaticInfo) (key : WarpKey) (st : BuildState) (ms : List MemAddrTrace)
    (recs : List Record) (st' : BuildState) (ms' : List MemAddrTrace) (recs' : List Record) : Prop where
  waiting : Waiting (st'.pendingMem.get? key) ms'
  emitted : ∃ is evs, instructions (ms.map .mem ++ recs) = is ++ instructions (ms'.map .mem ++ recs') ∧
    st'.events key = st.events key ++ evs ∧
    List.Forall₂ (Emits static key) (is.zipIdx (st.events key).length) evs

namespace BuildState

variable {static : Dict ℕ StaticInfo} {st st' : BuildState} {key key' : WarpKey} {rec : Record}

/-- A record leaves other warps alone. -/
theorem step_other (h : st.step static rec = .ok st') (hkey : key ≠ rec.key) :
    st'.events key = st.events key ∧ st'.pendingMem.get? key = st.pendingMem.get? key := by
  have hpop : (st.pop rec.key).pendingMem.get? key = st.pendingMem.get? key := by rw [pop_get?, if_neg hkey]
  have hemit : ∀ {st₁ st₂ : BuildState} {rec' : Record} {mem : Option MemAddrTrace},
      st₁.emit static rec.key rec' mem = .ok st₂ →
      st₂.events key = st₁.events key ∧ st₂.pendingMem.get? key = st₁.pendingMem.get? key := by
    intro st₁ st₂ rec' mem h
    obtain ⟨hpending, ev, -, hevents⟩ := emit_ok h
    rw [hevents, if_neg hkey, List.append_nil, hpending]
    exact ⟨rfl, rfl⟩
  have hset : ∀ (st₁ : BuildState) (mem : MemAddrTrace), (st₁.setPending rec.key mem).events key = st₁.events key ∧
      (st₁.setPending rec.key mem).pendingMem.get? key = st₁.pendingMem.get? key := by
    intro st₁ mem
    rw [setPending_get?, if_neg hkey]
    exact ⟨rfl, rfl⟩
  cases rec with
  | mem m =>
    rw [step] at h
    cases hslot : st.pendingMem.get? (Record.mem m).key with
    | none =>
      rw [hslot] at h
      cases h
      exact hset st m
    | some old =>
      simp only [hslot] at h
      split_ifs at h
      · cases h
        exact hset st _
      · obtain ⟨st₁, hfirst, h⟩ := bind_ok h
        cases h
        obtain ⟨hevents, hpending⟩ := hemit hfirst
        rw [(hset st₁ m).1, (hset st₁ m).2, hevents, hpending, hpop]
        exact ⟨rfl, rfl⟩
  | reg r =>
    rw [step] at h
    cases hslot : st.pendingMem.get? (Record.reg r).key with
    | none =>
      rw [hslot] at h
      exact hemit h
    | some mem =>
      simp only [hslot] at h
      split_ifs at h
      · obtain ⟨hevents, hpending⟩ := hemit h
        rw [hevents, hpending, hpop]
        exact ⟨rfl, rfl⟩
      · obtain ⟨st₁, hfirst, h⟩ := bind_ok h
        obtain ⟨hevents, hpending⟩ := hemit hfirst
        obtain ⟨hevents', hpending'⟩ := hemit h
        rw [hevents', hpending', hevents, hpending, hpop]
        exact ⟨rfl, rfl⟩

theorem emit_own {mem : Option MemAddrTrace} (h : st.emit static key rec mem = .ok st') :
    ∃ ev, MemoryModel.emit static key (st.events key).length rec mem = .ok ev ∧
      st'.events key = st.events key ++ [ev] ∧ st'.pendingMem = st.pendingMem := by
  obtain ⟨hpending, ev, hev, hevents⟩ := emit_ok h
  refine ⟨ev, hev, ?_, hpending⟩
  rw [hevents, if_pos rfl]

theorem step_own (h : st.step static rec = .ok st') {ms : List MemAddrTrace} (hms : Waiting (st.pendingMem.get? rec.key) ms)
    (recs : List Record) : ∃ ms', Advances static rec.key st ms (rec :: recs) st' ms' recs := by
  have hself : ∀ m : MemAddrTrace, Waiting (some m) [m] := fun m =>
    @Waiting.full m [] m.extraAddrs fun _ hm => absurd hm List.not_mem_nil
  cases rec with
  | mem m =>
    rw [step] at h
    generalize hslot : st.pendingMem.get? (Record.mem m).key = slot at hms h
    cases hms with
    | empty =>
      cases h
      refine ⟨[m], ?_, [], [], rfl, (List.append_nil _).symm, .nil⟩
      rw [setPending_get?, if_pos rfl]
      exact hself m
    | @full m₀ more extra same =>
      dsimp only at h
      split_ifs at h with hpc
      · cases h
        refine ⟨m₀ :: (more ++ [m]), ?_, [], [], ?_, (List.append_nil _).symm, .nil⟩
        · rw [setPending_get?, if_pos rfl]
          refine Waiting.full fun m' hm' => ?_
          rcases List.mem_append.mp hm' with hm' | hm'
          · exact same m' hm'
          · rw [List.mem_singleton.mp hm']
            exact hpc.symm
        · simp
      · obtain ⟨st₁, hfirst, h⟩ := bind_ok h
        cases h
        obtain ⟨ev, hev, hevents, -⟩ := emit_own hfirst
        refine ⟨[m], ?_, [⟨m₀ :: more, none⟩], [ev], ?_, hevents, .cons ⟨_, rfl, hev⟩ .nil⟩
        · rw [setPending_get?, if_pos rfl]
          exact hself m
        · rw [instructions_apart same]
          · rfl
          · intro rec hrec hsame
            cases hrec
            exact hpc hsame.symm
  | reg r =>
    rw [step] at h
    have hpop : (st.pop (Record.reg r).key).pendingMem.get? (Record.reg r).key = none := by rw [pop_get?, if_pos rfl]
    generalize hslot : st.pendingMem.get? (Record.reg r).key = slot at hms h
    cases hms with
    | empty =>
      obtain ⟨ev, hev, hevents, hpending⟩ := emit_own h
      refine ⟨[], ?_, [⟨[], some r⟩], [ev], rfl, hevents, .cons ⟨_, rfl, hev⟩ .nil⟩
      rw [hpending, hslot]
      exact .empty
    | @full m₀ more extra same =>
      dsimp only at h
      split_ifs at h with hpc
      · obtain ⟨ev, hev, hevents, hpending⟩ := emit_own h
        refine ⟨[], ?_, [⟨m₀ :: more, some r⟩], [ev], ?_, hevents, .cons ⟨_, rfl, hev⟩ .nil⟩
        · rw [hpending, hpop]
          exact .empty
        · rw [instructions_join (i := ⟨[], some r⟩) rfl]
          · simp
          · intro m hm
            rcases List.mem_cons.mp hm with rfl | hm
            · exact congrArg some hpc.symm
            · exact congrArg some (hpc.symm.trans (same m hm).symm)
      · obtain ⟨st₁, hfirst, h⟩ := bind_ok h
        obtain ⟨ev, hev, hevents, hpending⟩ := emit_own hfirst
        obtain ⟨ev', hev', hevents', hpending'⟩ := emit_own h
        rw [hevents] at hev' hevents'
        rw [List.append_assoc] at hevents'
        refine ⟨[], ?_, [⟨m₀ :: more, none⟩, ⟨[], some r⟩], [ev, ev'], ?_, hevents', .cons ⟨_, rfl, hev⟩ (.cons ⟨_, rfl, ?_⟩ .nil)⟩
        · rw [hpending', hpending, hpop]
          exact .empty
        · rw [instructions_apart same]
          · rfl
          · intro rec hrec hsame
            cases hrec
            exact hpc hsame.symm
        · rw [List.length_append] at hev'
          exact hev'

/-- The slots that are flushed, each once. -/
theorem flush_entries {es : List (WarpKey × MemAddrTrace)} (hnodup : (es.map Prod.fst).Nodup)
    (h : es.foldlM (fun st e => BuildState.emit st static e.1 (.mem e.2) (some e.2)) st = .ok st') (key : WarpKey) :
    (Dict.lookup key es = none → st'.events key = st.events key) ∧
      ∀ m, Dict.lookup key es = some m → ∃ ev, MemoryModel.emit static key (st.events key).length (.mem m) (some m) = .ok ev ∧
        st'.events key = st.events key ++ [ev] := by
  induction es generalizing st with
  | nil =>
    cases h
    exact ⟨fun _ => rfl, fun m hm => by cases hm⟩
  | cons e es ih =>
    rw [List.map_cons, List.nodup_cons] at hnodup
    rw [List.foldlM_cons] at h
    obtain ⟨st₁, hfirst, h⟩ := bind_ok h
    obtain ⟨hnone, hsome⟩ := ih hnodup.2 h
    obtain ⟨-, ev, hev, hevents⟩ := emit_ok hfirst
    rw [Dict.lookup]
    by_cases hkey : e.1 = key
    · have hrest : Dict.lookup key es = none := by
        cases hlookup : Dict.lookup key es with
        | none => rfl
        | some m => exact absurd (List.mem_map_of_mem (Dict.mem_of_lookup hlookup)) (hkey ▸ hnodup.1)
      rw [if_pos hkey, hnone hrest, hevents, if_pos hkey.symm]
      refine ⟨fun h => absurd h (Option.some_ne_none _), fun m hm => ?_⟩
      cases hm
      rw [← hkey]
      exact ⟨ev, hev, rfl⟩
    · rw [if_neg hkey]
      rw [hevents, if_neg fun h => hkey h.symm, List.append_nil] at hnone hsome
      exact ⟨hnone, hsome⟩

/-- A whole file, from any state. -/
theorem run_ok {st₁ : BuildState} {recs : List Record} (hrun : recs.foldlM (step static) st = .ok st₁)
    (hflush : st₁.flush static = .ok st') (key : WarpKey) {ms : List MemAddrTrace}
    (hms : Waiting (st.pendingMem.get? key) ms) :
    ∃ evs, st'.events key = st.events key ++ evs ∧
      List.Forall₂ (Emits static key)
        ((instructions (ms.map .mem ++ recs.filter fun rec => rec.key = key)).zipIdx (st.events key).length) evs := by
  induction recs generalizing st ms with
  | nil =>
    obtain rfl := Except.ok.inj hrun
    obtain ⟨hnone, hsome⟩ := flush_entries st.pendingMem.nodup hflush key
    rw [Dict.get?] at hms
    rw [List.filter_nil]
    generalize Dict.lookup key st.pendingMem.entries = slot at hms hnone hsome
    cases hms with
    | empty => exact ⟨[], by rw [hnone rfl, List.append_nil], .nil⟩
    | @full m more extra same =>
      obtain ⟨ev, hev, hevents⟩ := hsome _ rfl
      refine ⟨[ev], hevents, ?_⟩
      rw [instructions_apart same fun _ h => by cases h]
      exact .cons ⟨_, rfl, hev⟩ .nil
  | cons rec recs ih =>
    rw [List.foldlM_cons] at hrun
    obtain ⟨st₂, hstep, hrun⟩ := bind_ok hrun
    by_cases hkey : rec.key = key
    · subst hkey
      obtain ⟨ms', hwaiting, is, evs, his, hevents, hemits⟩ := step_own hstep hms (recs.filter fun rec' => rec'.key = rec.key)
      obtain ⟨evs', hevents', hemits'⟩ := ih hrun hwaiting
      refine ⟨evs ++ evs', by rw [hevents', hevents, List.append_assoc], ?_⟩
      rw [List.filter_cons_of_pos (by simp), his, List.zipIdx_append]
      rw [hevents, List.length_append, ← hemits.length_eq, List.length_zipIdx] at hemits'
      exact List.rel_append hemits hemits'
    · obtain ⟨hevents, hpending⟩ := step_other hstep (Ne.symm hkey)
      rw [List.filter_cons_of_neg (by simpa using hkey), ← hevents]
      exact ih hrun (hpending ▸ hms)

end BuildState

/-! ### Merging -/

/-- `per_warp[key]` -/
def eventsOf (perWarp : Dict WarpKey (List Event)) (key : WarpKey) : List Event := (perWarp.get? key).getD []

variable {static : Dict ℕ StaticInfo} {lines : List (Option Record)} {perWarp : Dict WarpKey (List Event)} {key : WarpKey}

/-- The events of a warp are made from its dynamic instructions, one from each and in order. -/
theorem buildEvents_emits (h : buildEvents static lines = .ok perWarp) (key : WarpKey) :
    List.Forall₂ (Emits static key) (instructions (recordsOf key lines)).zipIdx (eventsOf perWarp key) := by
  obtain ⟨st, hrun, h⟩ := bind_ok h
  obtain ⟨st', hflush, h⟩ := bind_ok h
  cases h
  obtain ⟨evs, hevents, hemits⟩ := BuildState.run_ok hrun hflush key .empty
  rw [show eventsOf st'.perWarp key = evs from hevents]
  exact hemits

/-! ### The events as the checks take them -/

/-- An event keeps its place while its operands are filled in, and an async one gets at most one range. -/
structure SamePlace (ev ev' : Event) : Prop where
  cta : ev'.cta = ev.cta
  warp : ev'.warp = ev.warp
  pos : ev'.pos = ev.pos
  mask : ev'.mask = ev.mask
  single : ev'.manyAsync = false

variable {info : StaticInfo} {rec : Record} {mask : ℕ} {lanes : List ℤ} {uregs : List (ℕ × ℕ)} {ev ev' : Event}

theorem manyAsync_of_nil (h : ev.ranges = []) : ev.manyAsync = false := by simp [Event.manyAsync, h]

theorem emitAsync_place (hnil : ev.ranges = []) (h : emitAsync info uregs ev = .ok ev') : SamePlace ev ev' := by
  obtain ⟨base, -, h⟩ := bind_ok h
  obtain ⟨srcBar, -, h⟩ := bind_ok h
  cases hbase : base.filter fun a => InWindow a with
  | none =>
    rw [hbase] at h
    cases h
    exact ⟨rfl, rfl, rfl, rfl, manyAsync_of_nil hnil⟩
  | some a =>
    rw [hbase] at h
    cases h
    exact ⟨rfl, rfl, rfl, rfl, by simp [Event.manyAsync]⟩

theorem emitMbar_place (hnil : ev.ranges = []) (h : emitMbar info rec mask lanes ev = .ok ev') : SamePlace ev ev' := by
  obtain ⟨uniform, -, h⟩ := bind_ok h
  obtain ⟨token, -, h⟩ := bind_ok h
  cases h
  exact ⟨rfl, rfl, rfl, rfl, manyAsync_of_nil hnil⟩

theorem emitWarpSync_place (hnil : ev.ranges = []) (h : emitWarpSync info rec mask ev = .ok ev') : SamePlace ev ev' := by
  obtain ⟨members, -, h⟩ := bind_ok h
  cases h
  exact ⟨rfl, rfl, rfl, rfl, manyAsync_of_nil hnil⟩

theorem emitBar_place (hnil : ev.ranges = []) (h : emitBar info rec mask ev = .ok ev') : SamePlace ev ev' := by
  obtain ⟨vals, -, h⟩ := bind_ok h
  cases h
  exact ⟨rfl, rfl, rfl, rfl, manyAsync_of_nil hnil⟩

theorem emitShared_place (hkind : ev.kind.any Kind.isAsync = false) : SamePlace ev (emitShared info lanes ev) := by
  refine ⟨rfl, rfl, rfl, rfl, ?_⟩
  rw [Event.manyAsync, emitShared]
  dsimp only
  split_ifs
  · rfl
  · rw [hkind, Bool.false_and]

theorem emit_place {pos : ℕ} {mem : Option MemAddrTrace} (h : emit static key pos rec mem = .ok ev) :
    ev.cta = key.1 ∧ ev.warp = key.2 ∧ ev.pos = pos ∧
      ev.mask = maskOf (mem.elim rec.activeMask MemAddrTrace.activeMask) ∧ ev.manyAsync = false := by
  have hplace : ∀ {base ev : Event}, SamePlace base ev → ev.cta = base.cta ∧ ev.warp = base.warp ∧ ev.pos = base.pos ∧
      ev.mask = base.mask ∧ ev.manyAsync = false := fun h => ⟨h.cta, h.warp, h.pos, h.mask, h.single⟩
  rw [emit] at h
  cases hget : static.get? rec.opcodeId with
  | none =>
    rw [hget] at h
    cases h
  | some info =>
    rw [hget] at h
    dsimp only at h
    split at h
    any_goals
      rename_i hkind
      cases h
      exact hplace (emitShared_place (by rw [hkind]; rfl))
    any_goals exact hplace (emitAsync_place rfl h)
    any_goals exact hplace (emitMbar_place rfl h)
    any_goals exact hplace (emitWarpSync_place rfl h)
    any_goals exact hplace (emitBar_place rfl h)
    cases h
    exact ⟨rfl, rfl, rfl, rfl, manyAsync_of_nil rfl⟩

theorem mem_zipIdx_of_forall₂ {α β : Type} {R : α × ℕ → β → Prop} {xs : List α} {ys : List β} {k : ℕ}
    (h : List.Forall₂ R (xs.zipIdx k) ys) {y : β × ℕ} (hy : y ∈ ys.zipIdx k) : ∃ x ∈ xs, R (x, y.2) y.1 := by
  induction xs generalizing ys k with
  | nil =>
    cases h
    cases hy
  | cons x xs ih =>
    rw [List.zipIdx_cons] at h
    cases h with
    | cons hxy h =>
      rw [List.zipIdx_cons, List.mem_cons] at hy
      rcases hy with rfl | hy
      · exact ⟨x, List.mem_cons_self, hxy⟩
      · obtain ⟨x', hx', hR⟩ := ih h hy
        exact ⟨x', List.mem_cons_of_mem x hx', hR⟩

theorem instruction_records_mem {i : Instruction} (hi : i ∈ instructions (recordsOf key lines))
    {rec : Record} (hrec : rec ∈ i.records) : rec ∈ lines.reduceOption := by
  have hmem : rec ∈ (instructions (recordsOf key lines)).flatMap Instruction.records := List.mem_flatMap.mpr ⟨i, hi, hrec⟩
  rw [instructions_records] at hmem
  exact List.mem_of_mem_filter hmem

end CuTracer.MemoryModel
