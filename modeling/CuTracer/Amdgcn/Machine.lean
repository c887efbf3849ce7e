import CuTracer.Amdgcn.Lane
import CuTracer.Library.Fallible

/-! A plain machine for the same instructions: 32-bit registers and wrapping
arithmetic, with no exact values. The bits of a replay are its bits. -/

namespace CuTracer.Amdgcn

/-- The registers; `none` for one that the snapshot does not have. -/
abbrev Machine := Text → Option (BitVec 32)

namespace Machine

def new (leaf : Text → Option ℤ) : Machine := fun name => (leaf name).map (BitVec.ofInt 32)

def read32 (m : Machine) (token : Text) : Option (BitVec 32) :=
  match immediate token with
  | some value => some (BitVec.ofInt 32 value)
  | none =>
    match registers token with
    | some [name] => m name
    | _ => none

def read64 (m : Machine) (token : Text) : Option (BitVec 64) :=
  match immediate token with
  | some value => some (BitVec.ofInt 64 value)
  | none =>
    match registers token with
    | some [lo, hi] => (m lo).bind fun low => (m hi).map fun high => high ++ low
    | _ => none

def write32 (m : Machine) (token : Text) (value : BitVec 32) : Option Machine :=
  match registers token with
  | some [name] => some (Function.update m name (some value))
  | _ => none

def write64 (m : Machine) (token : Text) (value : BitVec 64) : Option Machine :=
  match registers token with
  | some [lo, hi] =>
    some (Function.update (Function.update m lo (some (value.setWidth 32))) hi
      (some ((value >>> 32).setWidth 32)))
  | _ => none

/-- `dst, a, b` in 32 bits. -/
def binary (f : BitVec 32 → BitVec 32 → BitVec 32) (m : Machine) (ops : List Text) : Option Machine :=
  match ops with
  | dst :: a :: b :: _ =>
    (m.read32 a).bind fun x => (m.read32 b).bind fun y => m.write32 dst (f x y)
  | _ => none

/-- `dst[2], a[2], shift, b[2]`. -/
def shiftAdd (m : Machine) (ops : List Text) : Option Machine :=
  match ops with
  | dst :: a :: shift :: b :: _ =>
    (m.read64 a).bind fun x => (m.read32 shift).bind fun s => (m.read64 b).bind fun y =>
      m.write64 dst (x <<< s.toNat + y)
  | _ => none

def instructions : List (Text × (Machine → List Text → Option Machine)) :=
  [("v_and_b32".toList, binary (· &&& ·)), ("v_or_b32".toList, binary (· ||| ·)),
    ("v_mul_lo_u32".toList, binary (· * ·)),
    ("v_ashrrev_i32".toList, binary fun amount value => value.sshiftRight (amount.toNat % 32)),
    ("v_lshl_add_u64".toList, shiftAdd)]

def run (m : Machine) (asm : Text) : Option Machine :=
  match split asm with
  | .ok instruction =>
    (Dict.lookup instruction.opcode instructions).bind fun f => f m instruction.operands
  | .error _ => none

end Machine

/-! ### Results -/

theorem op_ok {ops : List Text} {i : ℕ} {token : Text} (h : Lane.op ops i = .ok token) :
    ops[i]? = some token := by
  unfold Lane.op at h
  cases hi : ops[i]? with
  | none => simp [hi] at h
  | some t => simp_all

theorem single_ok {token name : Text} (h : single token = .ok name) :
    registers token = some [name] := by
  unfold single at h
  split at h
  · rename_i n hn
    cases h
    exact hn
  · exact nomatch h

/-! ### Bits -/

namespace Lane

def bits (lane : Lane) (name : Text) : Option ℕ :=
  match lane.words.get? name with
  | some w => some w.hw
  | none => (lane.leaf name).map fun b => (b % 0x100000000).toNat

theorem get?_store (lane : Lane) (name n : Text) (hw : ℕ) (exact : ℤ) (kind : WordKind)
    (ref producer : Option ℕ) :
    (lane.store name hw exact kind ref producer).words.get? n =
      if n = name then some ⟨lane.next, hw, exact, kind, ref, producer⟩ else lane.words.get? n := by
  simp only [store, Dict.insert, Dict.get?_upsert]

theorem bits_store (lane : Lane) (name : Text) (hw : ℕ) (exact : ℤ) (kind : WordKind)
    (ref producer : Option ℕ) :
    (lane.store name hw exact kind ref producer).bits =
      Function.update lane.bits name (some hw) := by
  funext n
  by_cases hn : n = name
  · subst hn
    rw [Function.update_self, bits, get?_store, if_pos rfl]
  · rw [Function.update_of_ne hn, bits, get?_store, if_neg hn]
    rfl

@[simp] theorem bits_record (lane : Lane) (o : Overflow) : (lane.record o).bits = lane.bits := rfl

theorem word_bits {lane lane' : Lane} {name : Text} {w : Word}
    (h : lane.word name = .ok (w, lane')) : lane.bits name = some w.hw ∧ lane'.bits = lane.bits := by
  unfold word at h
  split at h
  · rename_i w' hw'
    cases h
    simp [bits, hw']
  · rename_i hnone
    split at h
    · cases h
    · rename_i b hb
      cases h
      have hbits : lane.bits name = some (b % 0x100000000).toNat := by simp [bits, hnone, hb]
      refine ⟨hbits, ?_⟩
      rw [bits_store, ← hbits, Function.update_eq_self]

theorem readPair_bits (lane : Lane) (low high : Word) (index : ℕ) :
    (lane.readPair low high index).1.1 = low.hw ||| high.hw <<< 32 ∧
      (lane.readPair low high index).2.bits = lane.bits := by
  unfold readPair
  dsimp only
  split_ifs <;> exact ⟨rfl, rfl⟩

end Lane

/-- A replay and a machine have the same bits. -/
def Agree (lane : Lane) (m : Machine) : Prop := ∀ name, lane.bits name = (m name).map BitVec.toNat

theorem agree_new (leaf : Text → Option ℤ) : Agree (Lane.new leaf) (Machine.new leaf) := by
  intro name
  show (leaf name).map _ = ((leaf name).map _).map _
  cases leaf name with
  | none => rfl
  | some b => simp

variable {lane lane' : Lane} {m : Machine} {token : Text} {index : ℕ}

theorem Agree.word {name : Text} {w : Word} (hm : Agree lane m)
    (h : lane.word name = .ok (w, lane')) :
    (∃ v, m name = some v ∧ v.toNat = w.hw) ∧ Agree lane' m := by
  obtain ⟨hw, hbits⟩ := Lane.word_bits h
  refine ⟨?_, fun n => by rw [hbits]; exact hm n⟩
  rw [hm name] at hw
  exact Option.map_eq_some_iff.mp hw

/-- A 32-bit operand has the bits that the machine reads. -/
theorem Agree.operand {signed : Bool} {o : Operand} (hm : Agree lane m)
    (h : lane.operand token signed = .ok (o, lane')) :
    (∃ v, m.read32 token = some v ∧ v.toNat = o.bits) ∧ Agree lane' m := by
  unfold Lane.operand at h
  unfold Machine.read32
  cases hi : immediate token with
  | some value =>
    simp only [hi] at h
    cases h
    exact ⟨⟨_, rfl, BitVec.toNat_ofInt value⟩, hm⟩
  | none =>
    simp only [hi] at h
    obtain ⟨name, hname, h⟩ := bind_ok h
    obtain ⟨⟨w, lane₁⟩, hw, h⟩ := bind_ok h
    cases h
    simp only [single_ok hname]
    exact hm.word hw

/-- So has a 64-bit operand. -/
theorem Agree.pair {bits : ℕ} {exact : ℤ} (hm : Agree lane m)
    (h : lane.pair token index = .ok ((bits, exact), lane')) :
    (∃ v, m.read64 token = some v ∧ v.toNat = bits) ∧ Agree lane' m := by
  unfold Lane.pair at h
  unfold Machine.read64
  cases hi : immediate token with
  | some value =>
    simp only [hi] at h
    obtain ⟨hv, rfl⟩ := Prod.mk.inj (Except.ok.inj h)
    obtain ⟨rfl, rfl⟩ := Prod.mk.inj hv
    exact ⟨⟨_, rfl, BitVec.toNat_ofInt value⟩, hm⟩
  | none =>
    simp only [hi] at h
    split at h
    · rename_i lo hi' hregs
      obtain ⟨⟨low, lane₁⟩, hlow, h⟩ := bind_ok h
      obtain ⟨⟨high, lane₂⟩, hhigh, h⟩ := bind_ok h
      obtain ⟨⟨v, hv, hvn⟩, hm₁⟩ := hm.word hlow
      obtain ⟨⟨u, hu, hun⟩, hm₂⟩ := hm₁.word hhigh
      obtain ⟨hbits, hlane⟩ := Lane.readPair_bits lane₂ low high index
      have hread := Except.ok.inj h
      rw [hread] at hbits hlane
      simp only [hregs, hv, hu, Option.bind_some, Option.map_some]
      refine ⟨⟨u ++ v, rfl, ?_⟩, fun n => by rw [hlane]; exact hm₂ n⟩
      rw [BitVec.toNat_append, hun, hvn, Nat.or_comm]
      exact hbits.symm
    · exact nomatch h

/-- A 32-bit write is the machine's. -/
theorem Agree.set {hw exact : ℤ} {kind : WordKind} {ref : Option ℕ} {v : BitVec 32}
    (hm : Agree lane m) (h : lane.set token hw exact index kind ref = .ok lane')
    (hv : (v.toNat : ℤ) = hw % 0x100000000) :
    ∃ m', m.write32 token v = some m' ∧ Agree lane' m' := by
  obtain ⟨name, hname, h⟩ := bind_ok h
  cases h
  refine ⟨Function.update m name (some v), by simp only [Machine.write32, single_ok hname], ?_⟩
  intro n
  rw [Lane.bits_store, ← hv, Int.toNat_natCast]
  by_cases hn : n = name
  · subst hn
    simp
  · simp only [Function.update_of_ne hn]
    exact hm n

theorem Agree.setPair {hw : ℕ} {exact : ℤ} {v : BitVec 64} (hm : Agree lane m)
    (h : lane.setPair token hw exact index = .ok lane') (hv : v.toNat = hw % 0x10000000000000000) :
    ∃ m', m.write64 token v = some m' ∧ Agree lane' m' := by
  unfold Lane.setPair at h
  split at h
  · rename_i lo hi hregs
    cases h
    refine ⟨_, by simp only [Machine.write64, hregs]; rfl, ?_⟩
    intro n
    rw [Lane.bits_store, Lane.bits_store]
    by_cases hhi : n = hi
    · subst hhi
      simp only [Function.update_self, Option.map_some, Option.some.injEq, BitVec.toNat_setWidth,
        BitVec.toNat_ushiftRight, hv]
      omega
    · by_cases hlo : n = lo
      · subst hlo
        simp only [Function.update_of_ne hhi, Function.update_self, Option.map_some,
          Option.some.injEq, BitVec.toNat_setWidth, hv]
        omega
      · simp only [Function.update_of_ne hhi, Function.update_of_ne hlo]
        exact hm n
  · exact nomatch h

/-! ### Instructions -/

theorem toInt_eq_signed32 (v : BitVec 32) : v.toInt = signed32 v.toNat := by
  rw [BitVec.toInt_eq_toNat_cond, signed32]
  have := v.isLt
  split_ifs <;> omega

theorem toNat_sshiftRight (v : BitVec 32) (n : ℕ) :
    ((v.sshiftRight n).toNat : ℤ) = signed32 v.toNat >>> n % 0x100000000 := by
  rw [← BitVec.ofInt_toInt (x := v.sshiftRight n), BitVec.toNat_ofInt, BitVec.toInt_sshiftRight, toInt_eq_signed32]
  omega

theorem operands_of_op {ops : List Text} {dst a b : Text} (hdst : Lane.op ops 0 = .ok dst)
    (ha : Lane.op ops 1 = .ok a) (hb : Lane.op ops 2 = .ok b) : ∃ rest, ops = dst :: a :: b :: rest := by
  have h₀ := op_ok hdst
  have h₁ := op_ok ha
  have h₂ := op_ok hb
  match ops, h₀, h₁, h₂ with
  | d :: x :: y :: rest, h₀, h₁, h₂ =>
    simp only [List.getElem?_cons_zero, List.getElem?_cons_succ, Option.some.injEq] at h₀ h₁ h₂
    exact ⟨rest, by rw [h₀, h₁, h₂]⟩

variable {ops : List Text}

theorem Agree.bitwise {f : ℕ → ℕ → ℕ} {g : BitVec 32 → BitVec 32 → BitVec 32} (hm : Agree lane m)
    (h : lane.bitwise f index ops = .ok lane')
    (hfg : ∀ x y, (g x y).toNat = f x.toNat y.toNat) :
    ∃ m', m.binary g ops = some m' ∧ Agree lane' m' := by
  obtain ⟨tokenA, hopA, h⟩ := bind_ok h
  obtain ⟨⟨a, lane₁⟩, ha, h⟩ := bind_ok h
  obtain ⟨tokenB, hopB, h⟩ := bind_ok h
  obtain ⟨⟨b, lane₂⟩, hb, h⟩ := bind_ok h
  obtain ⟨dst, hopD, h⟩ := bind_ok h
  obtain ⟨rest, rfl⟩ := operands_of_op hopD hopA hopB
  obtain ⟨⟨x, hx, hxa⟩, hm₁⟩ := hm.operand ha
  obtain ⟨⟨y, hy, hyb⟩, hm₂⟩ := hm₁.operand hb
  have hbits : ((g x y).toNat : ℤ) = (f a.bits b.bits : ℤ) % 0x100000000 := by
    have hlt := (g x y).isLt
    rw [hfg, hxa, hyb] at hlt ⊢
    omega
  obtain ⟨m', hm', hagree⟩ := hm₂.set h hbits
  exact ⟨m', by rw [Machine.binary, hx, hy]; exact hm', hagree⟩

theorem Agree.mulLo (hm : Agree lane m) (h : lane.mulLo index ops = .ok lane') :
    ∃ m', m.binary (· * ·) ops = some m' ∧ Agree lane' m' := by
  obtain ⟨tokenA, hopA, h⟩ := bind_ok h
  obtain ⟨⟨a, lane₁⟩, ha, h⟩ := bind_ok h
  obtain ⟨tokenB, hopB, h⟩ := bind_ok h
  obtain ⟨⟨b, lane₂⟩, hb, h⟩ := bind_ok h
  obtain ⟨dst, hopD, h⟩ := bind_ok h
  obtain ⟨rest, rfl⟩ := operands_of_op hopD hopA hopB
  obtain ⟨⟨x, hx, hxa⟩, hm₁⟩ := hm.operand ha
  obtain ⟨⟨y, hy, hyb⟩, hm₂⟩ := hm₁.operand hb
  have hbits : ((x * y).toNat : ℤ) = ((a.bits * b.bits : ℕ) : ℤ) % 0x100000000 := by
    rw [BitVec.toNat_mul, hxa, hyb]
    rfl
  obtain ⟨m', hm', hagree⟩ := hm₂.set h hbits
  exact ⟨m', by rw [Machine.binary, hx, hy]; exact hm', hagree⟩

theorem agree_recordShift (hm : Agree lane m) (value : Operand) :
    Agree (lane.recordShift value index) m := by
  unfold Lane.recordShift
  split
  · split_ifs
    · exact hm
    · exact hm
  · exact hm

/-- Either way the shifted bits are written. -/
theorem writeShift_ok {dst : Text} {value : Operand} {shift : ℕ}
    (h : lane.writeShift dst value shift index = .ok lane') :
    ∃ lane₁ exact kind ref, (lane₁ = lane ∨ lane₁ = lane.recordShift value index) ∧
      lane₁.set dst (signed32 value.bits >>> shift) exact index kind ref = .ok lane' := by
  unfold Lane.writeShift at h
  split at h
  · rename_i hshift
    obtain rfl := of_decide_eq_true hshift
    exact ⟨lane, _, _, _, Or.inl rfl, h⟩
  · exact ⟨_, _, _, _, Or.inr rfl, h⟩

theorem Agree.ashr (hm : Agree lane m) (h : lane.ashr index ops = .ok lane') :
    ∃ m', m.binary (fun amount value => value.sshiftRight (amount.toNat % 32)) ops = some m' ∧
      Agree lane' m' := by
  obtain ⟨tokenV, hopV, h⟩ := bind_ok h
  obtain ⟨⟨value, lane₁⟩, hv, h⟩ := bind_ok h
  obtain ⟨tokenS, hopS, h⟩ := bind_ok h
  obtain ⟨⟨amount, lane₂⟩, hs, h⟩ := bind_ok h
  obtain ⟨dst, hopD, h⟩ := bind_ok h
  obtain ⟨lane₃, exact, kind, ref, hlane, hset⟩ := writeShift_ok h
  obtain ⟨rest, rfl⟩ := operands_of_op hopD hopS hopV
  obtain ⟨⟨x, hx, hxv⟩, hm₁⟩ := hm.operand hv
  obtain ⟨⟨y, hy, hys⟩, hm₂⟩ := hm₁.operand hs
  have hm₃ : Agree lane₃ m := by
    rcases hlane with rfl | rfl
    · exact hm₂
    · exact agree_recordShift hm₂ value
  have hbits : ((x.sshiftRight (y.toNat % 32)).toNat : ℤ) =
      signed32 value.bits >>> (amount.bits % 32) % 0x100000000 := by
    rw [toNat_sshiftRight, hxv, hys]
  obtain ⟨m', hm', hagree⟩ := hm₃.set hset hbits
  exact ⟨m', by rw [Machine.binary, hx, hy]; exact hm', hagree⟩

theorem Agree.lshlAdd64 (hm : Agree lane m) (h : lane.lshlAdd64 index ops = .ok lane') :
    ∃ m', m.shiftAdd ops = some m' ∧ Agree lane' m' := by
  obtain ⟨tokenA, hopA, h⟩ := bind_ok h
  obtain ⟨⟨⟨aBits, a⟩, lane₁⟩, ha, h⟩ := bind_ok h
  obtain ⟨tokenS, hopS, h⟩ := bind_ok h
  obtain ⟨⟨amount, lane₂⟩, hs, h⟩ := bind_ok h
  obtain ⟨shift, hshift, h⟩ := bind_ok h
  obtain ⟨tokenB, hopB, h⟩ := bind_ok h
  obtain ⟨⟨⟨bBits, b⟩, lane₃⟩, hb, h⟩ := bind_ok h
  obtain ⟨dst, hopD, hset⟩ := bind_ok h
  obtain rfl : amount.bits = shift := by
    unfold Lane.checkShift at hshift
    split_ifs at hshift
    exact Except.ok.inj hshift
  obtain ⟨rest, rfl⟩ := operands_of_op hopD hopA hopS
  obtain ⟨tokenB', rest', rfl⟩ : ∃ b' r', rest = b' :: r' := by
    cases rest with
    | nil => simp [Lane.op] at hopB
    | cons b' r' => exact ⟨b', r', rfl⟩
  obtain rfl : tokenB' = tokenB := by simpa using op_ok hopB
  obtain ⟨⟨x, hx, hxa⟩, hm₁⟩ := hm.pair ha
  obtain ⟨⟨s, hs', hsa⟩, hm₂⟩ := hm₁.operand hs
  obtain ⟨⟨y, hy, hyb⟩, hm₃⟩ := hm₂.pair hb
  have hbits : (x <<< s.toNat + y).toNat =
      (aBits <<< amount.bits + bBits) % 0x10000000000000000 := by
    rw [BitVec.toNat_add, BitVec.toNat_shiftLeft, hxa, hyb, hsa]
    omega
  obtain ⟨m', hm', hagree⟩ := hm₃.setPair hset hbits
  exact ⟨m', by rw [Machine.shiftAdd, hx, hs', hy]; exact hm', hagree⟩

/-- A handler does to the bits what an instruction of the machine does. -/
def Simulates (handler : Lane → ℕ → List Text → Except ReplayError Lane)
    (f : Machine → List Text → Option Machine) : Prop :=
  ∀ {lane lane' : Lane} {m : Machine} {index : ℕ} {ops : List Text}, Agree lane m →
    handler lane index ops = .ok lane' → ∃ m', f m ops = some m' ∧ Agree lane' m'

theorem handlers_simulate :
    List.Forall₂ (fun e f => e.1 = f.1 ∧ Simulates e.2 f.2) Lane.handlers Machine.instructions := by
  refine .cons ⟨rfl, ?_⟩ (.cons ⟨rfl, ?_⟩ (.cons ⟨rfl, ?_⟩ (.cons ⟨rfl, ?_⟩ (.cons ⟨rfl, ?_⟩ .nil))))
  · exact fun hm h => hm.bitwise h BitVec.toNat_and
  · exact fun hm h => hm.bitwise h BitVec.toNat_or
  · exact fun hm h => hm.mulLo h
  · exact fun hm h => hm.ashr h
  · exact fun hm h => hm.lshlAdd64 h

/-- One accepted instruction does to the bits what the machine does. -/
theorem Agree.run {asm : Text} (hm : Agree lane m) (h : lane.run index asm = .ok lane') :
    ∃ m', m.run asm = some m' ∧ Agree lane' m' := by
  obtain ⟨instruction, hsplit, h⟩ := bind_ok h
  unfold Machine.run
  rw [hsplit]
  dsimp only at h ⊢
  cases hl : Dict.lookup instruction.opcode Lane.handlers with
  | none => simp [hl] at h
  | some handler =>
    obtain ⟨f, hf, hsim⟩ := Dict.lookup_forall₂ handlers_simulate hl
    simp only [hl] at h
    simp only [hf, Option.bind_some]
    exact hsim hm h

end CuTracer.Amdgcn
