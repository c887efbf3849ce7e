import CuTracer.Amdgcn.Exact
import Mathlib.Data.List.Induction

/-! Whole replays: instructions and reads in any order, from a snapshot. The
replay's bits are the machine's, its exact values are right while no overflow
is recorded, and the first overflow names the instruction whose result did not
fit. -/

namespace CuTracer.Amdgcn

/-- What a caller does with a lane. -/
inductive Action where
  | run (index : ℕ) (asm : Text)
  | pair (token : Text) (index : ℕ)
  | operand (token : Text) (signed : Bool)

def Lane.act (lane : Lane) : Action → Except ReplayError Lane
  | .run index asm => lane.run index asm
  | .pair token index => (lane.pair token index).map Prod.snd
  | .operand token signed => (lane.operand token signed).map Prod.snd

def replay (leaf : Text → Option ℤ) (acts : List Action) : Except ReplayError Lane :=
  acts.foldlM Lane.act (Lane.new leaf)

/-- The machine runs the instructions; reads change nothing. -/
def Machine.act (m : Machine) : Action → Option Machine
  | .run _ asm => m.run asm
  | .pair _ _ | .operand _ _ => some m

def Machine.replay (leaf : Text → Option ℤ) (acts : List Action) : Option Machine :=
  acts.foldlM Machine.act (Machine.new leaf)

/-- The exact result of an instruction that was just run. -/
def Lane.resultOf (lane : Lane) (asm : Text) : Option ℤ :=
  match split asm with
  | .ok instruction => lane.result instruction.operands
  | .error _ => none

/-- Instruction `i` of a replay had the exact result `v`. -/
def HasResult (leaf : Text → Option ℤ) (acts : List Action) (i : ℕ) (v : ℤ) : Prop :=
  ∃ pre asm post lane lane', acts = pre ++ .run i asm :: post ∧ replay leaf pre = .ok lane ∧
    lane.run i asm = .ok lane' ∧ lane'.resultOf asm = some v

/-! ### One step -/

theorem handlers_sound {P : ℕ → ℤ → Prop} {lane lane' : Lane} {index : ℕ} {ops : List Text}
    {opcode : Text} {handler : Lane → ℕ → List Text → Except ReplayError Lane} (h : lane.Sound P)
    (hmem : (opcode, handler) ∈ Lane.handlers) (hrun : handler lane index ops = .ok lane')
    (hresult : ∀ v, lane'.result ops = some v → P index v) : lane'.Sound P := by
  simp only [Lane.handlers, List.mem_cons, Prod.mk.injEq, List.not_mem_nil, or_false] at hmem
  rcases hmem with ⟨-, rfl⟩ | ⟨-, rfl⟩ | ⟨-, rfl⟩ | ⟨-, rfl⟩ | ⟨-, rfl⟩
  · exact h.bitwise hrun
  · exact h.bitwise hrun
  · exact h.mulLo hrun hresult
  · exact h.ashr hrun hresult
  · exact h.lshlAdd64 hrun

theorem Lane.Sound.run {P : ℕ → ℤ → Prop} {lane lane' : Lane} {index : ℕ} {asm : Text}
    (h : lane.Sound P) (hrun : lane.run index asm = .ok lane')
    (hresult : ∀ v, lane'.resultOf asm = some v → P index v) : lane'.Sound P := by
  obtain ⟨instruction, hsplit, hrun⟩ := bind_ok hrun
  cases hl : Dict.lookup instruction.opcode Lane.handlers with
  | none => simp [hl] at hrun
  | some handler =>
    simp only [hl] at hrun
    refine handlers_sound h (Dict.mem_of_lookup hl) hrun fun v hv => hresult v ?_
    simpa [Lane.resultOf, hsplit] using hv

/-- What one action does to the bits. -/
theorem Agree.act {lane lane' : Lane} {m : Machine} {a : Action} (hm : Agree lane m)
    (h : lane.act a = .ok lane') : ∃ m', m.act a = some m' ∧ Agree lane' m' := by
  cases a with
  | run index asm => exact hm.run h
  | pair token index =>
    obtain ⟨⟨⟨bits, exact⟩, lane₁⟩, hread, rfl⟩ := map_ok h
    exact ⟨m, rfl, (hm.pair hread).2⟩
  | operand token signed =>
    obtain ⟨⟨o, lane₁⟩, hread, rfl⟩ := map_ok h
    exact ⟨m, rfl, (hm.operand hread).2⟩

/-! ### Whole replays -/

variable {leaf : Text → Option ℤ}

theorem replay_append {acts : List Action} {a : Action} {lane : Lane}
    (h : replay leaf (acts ++ [a]) = .ok lane) :
    ∃ lane₁, replay leaf acts = .ok lane₁ ∧ lane₁.act a = .ok lane := by
  unfold replay at h
  rw [List.foldlM_append] at h
  obtain ⟨lane₁, h₁, h₂⟩ := bind_ok h
  refine ⟨lane₁, h₁, ?_⟩
  rw [List.foldlM_cons] at h₂
  obtain ⟨lane₂, hact, hnil⟩ := bind_ok h₂
  cases hnil
  exact hact

theorem HasResult.append {acts : List Action} {i : ℕ} {v : ℤ} (h : HasResult leaf acts i v)
    (a : Action) : HasResult leaf (acts ++ [a]) i v := by
  obtain ⟨pre, asm, post, lane, lane', rfl, hrest⟩ := h
  exact ⟨pre, asm, post ++ [a], lane, lane', by simp, hrest⟩

/-- Every accepted replay keeps the invariant. -/
theorem replay_sound {acts : List Action} {lane : Lane} (h : replay leaf acts = .ok lane) :
    lane.Sound (HasResult leaf acts) := by
  induction acts using List.reverseRecOn generalizing lane with
  | nil =>
    cases h
    exact Lane.sound_new leaf
  | append_singleton acts a ih =>
    obtain ⟨lane₁, h₁, ha⟩ := replay_append h
    have hsound := (ih h₁).mono fun i v hv => HasResult.append hv a
    cases a with
    | run index asm =>
      exact hsound.run ha fun v hv => ⟨acts, asm, [], lane₁, lane, rfl, h₁, ha, hv⟩
    | pair token index =>
      obtain ⟨⟨⟨bits, exact⟩, lane₂⟩, hread, rfl⟩ := map_ok ha
      exact (hsound.pair hread).1
    | operand token signed =>
      obtain ⟨⟨o, lane₂⟩, hread, rfl⟩ := map_ok ha
      exact (hsound.operand hread).1

/-- Every accepted replay runs on the machine, with the same bits. -/
theorem replay_agrees {acts : List Action} {lane : Lane} (h : replay leaf acts = .ok lane) :
    ∃ m, Machine.replay leaf acts = some m ∧ Agree lane m := by
  induction acts using List.reverseRecOn generalizing lane with
  | nil =>
    cases h
    exact ⟨_, rfl, agree_new leaf⟩
  | append_singleton acts a ih =>
    obtain ⟨lane₁, h₁, ha⟩ := replay_append h
    obtain ⟨m₁, hm₁, hagree₁⟩ := ih h₁
    obtain ⟨m, hm, hagree⟩ := hagree₁.act ha
    refine ⟨m, ?_, hagree⟩
    unfold Machine.replay at hm₁ ⊢
    rw [List.foldlM_append, hm₁]
    simpa using hm

/-- A replay never hides a wrapped address. -/
theorem replay_never_hides_wrap (leaf : Text → Option ℤ) (acts : List Action) (lane : Lane)
    (h : replay leaf acts = .ok lane) :
    (∃ m, Machine.replay leaf acts = some m ∧ Agree lane m) ∧
      (∀ token index bits exact lane', lane.pair token index = .ok ((bits, exact), lane') →
        lane'.overflows = [] → exact ≡ bits [ZMOD 0x10000000000000000]) ∧
      (lane.overflows = [] → ∀ name w, lane.words.get? name = some w → w.kind = .word →
        w.exact ≡ w.hw [ZMOD 0x100000000]) ∧
      ∀ o rest, lane.overflows = o :: rest →
        ∃ i, o.producer = some i ∧ HasResult leaf acts i o.value ∧ ¬ Fits o.value := by
  have hsound := replay_sound h
  refine ⟨replay_agrees h, ?_, ?_, hsound.first⟩
  · intro token index bits exact lane' hpair hempty
    exact ((hsound.pair hpair).2 hempty).2
  · intro hempty
    exact (hsound.exact hempty).word

/-- A product of 2^31, and its sign extension read as an address. -/
def wrappedStore : List Action :=
  [.run 5 "v_mul_lo_u32 v130, v139, s52".toList, .run 6 "v_ashrrev_i32_e32 v131, 31, v130".toList,
    .pair "v[130:131]".toList 7]

def storeLeaf (name : Text) : Option ℤ :=
  if name = "v139".toList then some 32768 else if name = "s52".toList then some 65536 else none

theorem wrappedStore_names_product : HasResult storeLeaf wrappedStore 5 0x80000000 := by
  obtain ⟨lane, hlane, hover⟩ : ∃ lane, replay storeLeaf wrappedStore = .ok lane ∧
      lane.overflows = [⟨7, some 5, 0x80000000⟩] := ⟨_, rfl, rfl⟩
  obtain ⟨i, hi, hresult, -⟩ :=
    (replay_never_hides_wrap storeLeaf wrappedStore lane hlane).2.2.2 _ _ hover
  cases hi
  exact hresult

end CuTracer.Amdgcn
