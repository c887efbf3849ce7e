import CuTracer.Amdgcn.Machine
import Mathlib.Data.Finset.Insert

/-! The registers that an instruction reads and writes, as a slice takes them from
its text, against what a replay of the instruction does: outside the writes no
register changes, and the reads decide the writes and the recorded overflows. -/

namespace CuTracer.Amdgcn

def twoDestinations : List Text :=
  ["v_add_co_u32".toList, "v_sub_co_u32".toList, "v_subrev_co_u32".toList, "v_addc_co_u32".toList,
    "v_subb_co_u32".toList, "v_subbrev_co_u32".toList, "v_add_co_ci_u32".toList,
    "v_sub_co_ci_u32".toList, "v_mad_u64_u32".toList, "v_mad_i64_i32".toList]

structure Effects where
  reads : Finset Text
  writes : Finset Text
  deriving DecidableEq

/-- `registers(token) or []`. -/
def operandRegisters (token : Text) : List Text := (registers token).getD []

def Instruction.noRegisterWrite (i : Instruction) : Bool :=
  decide ("store".toList <:+: i.opcode) || "ds_write".toList.isPrefixOf i.opcode ||
    decide ("lds".toList <:+: i.opcode) || i.modifiers.contains "lds".toList ||
    (decide ("atomic".toList <:+: i.opcode) &&
      !(i.modifiers.contains "glc".toList || i.modifiers.contains "sc0".toList))

def Instruction.effects (i : Instruction) : Effects :=
  let names := i.operands.map operandRegisters
  if names = [] then ⟨∅, ∅⟩
  else if i.noRegisterWrite then ⟨names.flatten.toFinset, ∅⟩
  else
    let destinations := if i.opcode ∈ twoDestinations then 2 else 1
    ⟨(names.drop destinations).flatten.toFinset, (names.take destinations).flatten.toFinset⟩

def effects (asm : Text) : Except ReplayError Effects := (split asm).map Instruction.effects

example : effects "v_mad_u64_u32 v[0:1], s[2:3], v4, v5, v[0:1]".toList =
    .ok ⟨{"v4".toList, "v5".toList, "v0".toList, "v1".toList},
      {"v0".toList, "v1".toList, "s2".toList, "s3".toList}⟩ := rfl

example : effects "global_load_lds_dwordx4 v[2:3], off".toList =
    .ok ⟨{"v2".toList, "v3".toList}, ∅⟩ := rfl

/-! ### What reads see of a lane -/

/-- A word without its identity. -/
structure Value where
  hw : ℕ
  exact : ℤ
  kind : WordKind
  producer : Option ℕ
  deriving DecidableEq

def Word.data (w : Word) : Value := { w with }

theorem Word.value_congr {w w' : Word} (h : w.data = w'.data) (signed : Bool) :
    w.value signed = w'.value signed := by
  cases w
  cases w'
  cases h
  rfl

namespace Lane

/-- The value of a register, from the snapshot where it has no word yet. -/
def value (lane : Lane) (name : Text) : Option Value :=
  match lane.words.get? name with
  | some w => some w.data
  | none => (lane.leaf name).map fun bits =>
      ⟨(bits % 0x100000000).toNat, (bits % 0x100000000).toNat, .word, none⟩

/-- The high word knows the word of the low register. -/
def Linked (lane : Lane) (hi lo : Text) : Prop :=
  ∃ high low, lane.words.get? hi = some high ∧ lane.words.get? lo = some low ∧
    high.ref = some low.uid

/-- Every register's word is an object of its own, and links go to objects that exist. -/
structure Wf (lane : Lane) : Prop where
  uid_lt : ∀ n w, lane.words.get? n = some w → w.uid < lane.next
  ref_lt : ∀ n w u, lane.words.get? n = some w → w.ref = some u → u < lane.next
  distinct : ∀ n w n' w', lane.words.get? n = some w → lane.words.get? n' = some w' →
    w.uid = w'.uid → n = n'

/-- Reads of registers in `S` see the same in both lanes. -/
structure SameOn (S : Set Text) (lane lane' : Lane) : Prop where
  value : ∀ n ∈ S, lane.value n = lane'.value n
  linked : ∀ hi ∈ S, ∀ lo ∈ S, lane.Linked hi lo ↔ lane'.Linked hi lo

/-- Nothing changed outside `W`, apart from words that were read from the snapshot. -/
structure Kept (W : Set Text) (lane lane' : Lane) : Prop where
  wf : lane'.Wf
  leaf : lane'.leaf = lane.leaf
  words : ∀ n ∉ W, ∀ w, lane.words.get? n = some w → lane'.words.get? n = some w
  same : SameOn Wᶜ lane lane'

variable {S W : Set Text} {lane lane' lane₁ lane₂ : Lane}

theorem SameOn.symm (h : SameOn S lane lane') : SameOn S lane' lane :=
  ⟨fun n hn => (h.value n hn).symm, fun hi hhi lo hlo => (h.linked hi hhi lo hlo).symm⟩

theorem SameOn.trans (h : SameOn S lane lane₁) (h' : SameOn S lane₁ lane₂) : SameOn S lane lane₂ :=
  ⟨fun n hn => (h.value n hn).trans (h'.value n hn),
    fun hi hhi lo hlo => (h.linked hi hhi lo hlo).trans (h'.linked hi hhi lo hlo)⟩

theorem SameOn.subset {S' : Set Text} (h : SameOn S lane lane') (hS : S' ⊆ S) :
    SameOn S' lane lane' :=
  ⟨fun n hn => h.value n (hS hn), fun hi hhi lo hlo => h.linked hi (hS hhi) lo (hS hlo)⟩

theorem Wf.kept_refl (h : lane.Wf) : Kept W lane lane :=
  ⟨h, rfl, fun _ _ _ hw => hw, ⟨fun _ _ => rfl, fun _ _ _ _ => Iff.rfl⟩⟩

theorem Kept.trans (h : Kept W lane lane₁) (h' : Kept W lane₁ lane₂) : Kept W lane lane₂ :=
  ⟨h'.wf, h'.leaf.trans h.leaf, fun n hn w hw => h'.words n hn w (h.words n hn w hw),
    h.same.trans h'.same⟩

theorem Kept.mono {W' : Set Text} (h : Kept W lane lane') (hW : W ⊆ W') : Kept W' lane lane' :=
  ⟨h.wf, h.leaf, fun n hn => h.words n fun hn' => hn (hW hn'),
    h.same.subset (Set.compl_subset_compl.mpr hW)⟩

theorem wf_new (leaf : Text → Option ℤ) : (Lane.new leaf).Wf := by
  constructor <;> simp [Lane.new]

/-! ### Writing a word -/

section Store

variable {name : Text} {hw : ℕ} {exact : ℤ} {kind : WordKind} {ref producer : Option ℕ}

theorem Wf.store (h : lane.Wf) (href : ∀ u, ref = some u → u < lane.next) :
    (lane.store name hw exact kind ref producer).Wf where
  uid_lt n w hw' := by
    rw [get?_store] at hw'
    split_ifs at hw' with hn
    · cases hw'
      exact Nat.lt_succ_self _
    · exact Nat.lt_succ_of_lt (h.uid_lt n w hw')
  ref_lt n w u hw' hu := by
    rw [get?_store] at hw'
    split_ifs at hw' with hn
    · cases hw'
      exact Nat.lt_succ_of_lt (href u hu)
    · exact Nat.lt_succ_of_lt (h.ref_lt n w u hw' hu)
  distinct n w n' w' hw₁ hw₂ hu := by
    rw [get?_store] at hw₁ hw₂
    split_ifs at hw₁ hw₂ with hn hn' hn'
    · exact hn.trans hn'.symm
    · cases hw₁
      exact absurd (hu ▸ h.uid_lt n' w' hw₂) (Nat.lt_irrefl _)
    · cases hw₂
      exact absurd (hu ▸ h.uid_lt n w hw₁) (Nat.lt_irrefl _)
    · exact h.distinct n w n' w' hw₁ hw₂ hu

theorem value_store (n : Text) : (lane.store name hw exact kind ref producer).value n =
    if n = name then some ⟨hw, exact, kind, producer⟩ else lane.value n := by
  rw [value, get?_store]
  split_ifs <;> rfl

theorem linked_store_self (href : ∀ u, ref = some u → u < lane.next) (lo : Text) :
    (lane.store name hw exact kind ref producer).Linked name lo ↔
      lo ≠ name ∧ ∃ low, lane.words.get? lo = some low ∧ ref = some low.uid := by
  simp only [Linked, get?_store, if_true, Option.some.injEq]
  constructor
  · rintro ⟨high, low, rfl, hlow, hr⟩
    split_ifs at hlow with hlo
    · -- the new word is no older word's link
      cases hlow
      exact absurd (href _ hr) (Nat.lt_irrefl _)
    · exact ⟨hlo, low, hlow, hr⟩
  · rintro ⟨hlo, low, hlow, hr⟩
    exact ⟨_, low, rfl, by rw [if_neg hlo]; exact hlow, hr⟩

theorem linked_store_of_ne (hwf : lane.Wf) {hi : Text} (hhi : hi ≠ name) (lo : Text) :
    (lane.store name hw exact kind ref producer).Linked hi lo ↔ lo ≠ name ∧ lane.Linked hi lo := by
  simp only [Linked, get?_store, if_neg hhi]
  constructor
  · rintro ⟨high, low, hhigh, hlow, hr⟩
    split_ifs at hlow with hlo
    · cases hlow
      exact absurd (hwf.ref_lt hi high _ hhigh hr) (Nat.lt_irrefl _)
    · exact ⟨hlo, high, low, hhigh, hlow, hr⟩
  · rintro ⟨hlo, high, low, hhigh, hlow, hr⟩
    exact ⟨high, low, hhigh, by rw [if_neg hlo]; exact hlow, hr⟩

/-- A write keeps every other register. -/
theorem Wf.kept_store (h : lane.Wf) (href : ∀ u, ref = some u → u < lane.next) :
    Kept {name} lane (lane.store name hw exact kind ref producer) where
  wf := h.store href
  leaf := rfl
  words n hn w hw' := by
    rw [get?_store, if_neg (show n ≠ name from hn)]
    exact hw'
  same :=
    ⟨fun n hn => by rw [value_store, if_neg (show n ≠ name from hn)], fun hi hhi lo hlo => by
      rw [linked_store_of_ne h hhi]
      exact (and_iff_right hlo).symm⟩

end Store

theorem Wf.kept_record (h : lane.Wf) (o : Overflow) : Kept W lane (lane.record o) :=
  ⟨{ h with }, rfl, fun _ _ _ hw => hw,
    ⟨fun _ _ => rfl, fun _ _ _ _ => Iff.rfl⟩⟩

/-! ### Reads change nothing -/

theorem Wf.word {name : Text} {w : Word} (h : lane.Wf) (hw : lane.word name = .ok (w, lane')) :
    Kept ∅ lane lane' ∧ lane'.words.get? name = some w ∧ lane.value name = some w.data ∧
      lane'.overflows = lane.overflows := by
  unfold Lane.word at hw
  split at hw
  · rename_i w' hw'
    cases hw
    exact ⟨h.kept_refl, hw', by simp only [value, hw'], rfl⟩
  · rename_i hnone
    split at hw
    · cases hw
    · rename_i b hb
      cases hw
      have hvalue : lane.value name = some ⟨(b % 0x100000000).toNat, (b % 0x100000000).toNat,
          .word, none⟩ := by simp [value, hnone, hb]
      refine ⟨⟨h.store (by simp), rfl, ?_, ?_, ?_⟩, by rw [get?_store, if_pos rfl],
        hvalue, rfl⟩
      · intro n _ w' hw'
        rw [get?_store, if_neg, hw']
        rintro rfl
        cases hnone.symm.trans hw'
      · intro n _
        rw [value_store]
        split_ifs with hn
        · rw [hn, hvalue]
        · rfl
      · intro hi _ lo _
        have hno : ∀ lo', ¬ lane.Linked name lo' := by
          rintro lo' ⟨high, low, hhigh, -⟩
          cases hnone.symm.trans hhigh
        by_cases hhi : hi = name
        · subst hhi
          rw [linked_store_self (by simp)]
          simp [hno]
        · rw [linked_store_of_ne h hhi]
          refine ⟨fun hlink => ⟨?_, hlink⟩, And.right⟩
          rintro rfl
          obtain ⟨high, low, -, hlow, -⟩ := hlink
          cases hnone.symm.trans hlow

theorem Wf.readPair (h : lane.Wf) (low high : Word) (index : ℕ) :
    Kept ∅ lane (lane.readPair low high index).2 := by
  unfold Lane.readPair
  dsimp only
  split_ifs
  · exact h.kept_refl
  · exact h.kept_refl
  · exact h.kept_record _
  · exact h.kept_refl

theorem Wf.operand {token : Text} {signed : Bool} {o : Operand} (h : lane.Wf)
    (ho : lane.operand token signed = .ok (o, lane')) :
    Kept ∅ lane lane' ∧ ∀ w, o.word = some w → ∃ n, lane'.words.get? n = some w := by
  unfold Lane.operand at ho
  split at ho
  · cases ho
    exact ⟨h.kept_refl, fun w hw => by cases hw⟩
  · obtain ⟨name, -, ho⟩ := bind_ok ho
    obtain ⟨⟨w, lane₁⟩, hw, ho⟩ := bind_ok ho
    cases ho
    obtain ⟨hkept, hget, -⟩ := h.word hw
    refine ⟨hkept, fun w' hw' => ⟨name, ?_⟩⟩
    cases hw'
    exact hget

theorem Wf.pair {token : Text} {index : ℕ} {p : ℕ × ℤ} (h : lane.Wf)
    (hp : lane.pair token index = .ok (p, lane')) : Kept ∅ lane lane' := by
  unfold Lane.pair at hp
  split at hp
  · obtain ⟨-, rfl⟩ := Prod.mk.inj (Except.ok.inj hp)
    exact h.kept_refl
  · split at hp
    · obtain ⟨⟨low, lane₁⟩, hlow, hp⟩ := bind_ok hp
      obtain ⟨⟨high, lane₂⟩, hhigh, hp⟩ := bind_ok hp
      obtain ⟨hkept₁, -⟩ := h.word hlow
      obtain ⟨hkept₂, -⟩ := hkept₁.wf.word hhigh
      have hread := hkept₂.wf.readPair low high index
      rw [Except.ok.inj hp] at hread
      exact (hkept₁.trans hkept₂).trans hread
    · exact nomatch hp

/-! ### Writes change their destination -/

/-- The registers of the first operand. -/
def destinations (ops : List Text) : Set Text :=
  {n | ∃ token, ops[0]? = some token ∧ n ∈ operandRegisters token}

theorem mem_destinations {ops : List Text} {token n : Text} {names : List Text}
    (hop : op ops 0 = .ok token) (hnames : registers token = some names) (hn : n ∈ names) :
    n ∈ destinations ops := ⟨token, op_ok hop, by rwa [operandRegisters, hnames]⟩

section Write

variable {ops : List Text} {token : Text} {index : ℕ}

theorem Wf.set {hw exact : ℤ} {kind : WordKind} {ref : Option ℕ} (h : lane.Wf)
    (hop : op ops 0 = .ok token) (href : ∀ u, ref = some u → u < lane.next)
    (hset : lane.set token hw exact index kind ref = .ok lane') :
    Kept (destinations ops) lane lane' := by
  obtain ⟨name, hname, hset⟩ := bind_ok hset
  cases hset
  refine (h.kept_store href).mono fun n hn => ?_
  exact mem_destinations hop (single_ok hname) (List.mem_singleton.mpr hn)

theorem Wf.setPair {hw : ℕ} {exact : ℤ} (h : lane.Wf) (hop : op ops 0 = .ok token)
    (hset : lane.setPair token hw exact index = .ok lane') :
    Kept (destinations ops) lane lane' := by
  unfold Lane.setPair at hset
  split at hset
  · rename_i lo hi hregs
    cases hset
    have hlow : Kept {lo} lane (lane.store lo (hw % 0x100000000) exact .pairLo none (some index)) :=
      h.kept_store (by simp)
    refine (hlow.mono ?_).trans ((hlow.wf.kept_store ?_).mono ?_)
    · exact fun n hn => mem_destinations hop hregs (by simp [Set.mem_singleton_iff.mp hn])
    · intro u hu
      cases hu
      exact Nat.lt_succ_self _
    · exact fun n hn => mem_destinations hop hregs (by simp [Set.mem_singleton_iff.mp hn])
  · exact nomatch hset

theorem Wf.bitwise {f : ℕ → ℕ → ℕ} (h : lane.Wf) (hrun : lane.bitwise f index ops = .ok lane') :
    Kept (destinations ops) lane lane' := by
  obtain ⟨tokenA, -, hrun⟩ := bind_ok hrun
  obtain ⟨⟨a, lane₁⟩, ha, hrun⟩ := bind_ok hrun
  obtain ⟨tokenB, -, hrun⟩ := bind_ok hrun
  obtain ⟨⟨b, lane₂⟩, hb, hrun⟩ := bind_ok hrun
  obtain ⟨dst, hop, hset⟩ := bind_ok hrun
  obtain ⟨hkept₁, -⟩ := h.operand ha
  obtain ⟨hkept₂, -⟩ := hkept₁.wf.operand hb
  exact ((hkept₁.trans hkept₂).mono (Set.empty_subset _)).trans
    (hkept₂.wf.set hop (by simp) hset)

theorem Wf.mulLo (h : lane.Wf) (hrun : lane.mulLo index ops = .ok lane') :
    Kept (destinations ops) lane lane' := by
  obtain ⟨tokenA, -, hrun⟩ := bind_ok hrun
  obtain ⟨⟨a, lane₁⟩, ha, hrun⟩ := bind_ok hrun
  obtain ⟨tokenB, -, hrun⟩ := bind_ok hrun
  obtain ⟨⟨b, lane₂⟩, hb, hrun⟩ := bind_ok hrun
  obtain ⟨dst, hop, hset⟩ := bind_ok hrun
  obtain ⟨hkept₁, -⟩ := h.operand ha
  obtain ⟨hkept₂, -⟩ := hkept₁.wf.operand hb
  exact ((hkept₁.trans hkept₂).mono (Set.empty_subset _)).trans
    (hkept₂.wf.set hop (by simp) hset)

theorem Wf.recordShift (h : lane.Wf) (value : Operand) :
    Kept W lane (lane.recordShift value index) := by
  unfold Lane.recordShift
  split
  · split_ifs
    · exact h.kept_record _
    · exact h.kept_refl
  · exact h.kept_refl

theorem Wf.ashr (h : lane.Wf) (hrun : lane.ashr index ops = .ok lane') :
    Kept (destinations ops) lane lane' := by
  obtain ⟨tokenV, -, hrun⟩ := bind_ok hrun
  obtain ⟨⟨value, lane₁⟩, hv, hrun⟩ := bind_ok hrun
  obtain ⟨tokenS, -, hrun⟩ := bind_ok hrun
  obtain ⟨⟨amount, lane₂⟩, hs, hrun⟩ := bind_ok hrun
  obtain ⟨dst, hop, hwrite⟩ := bind_ok hrun
  obtain ⟨hkept₁, hword⟩ := h.operand hv
  obtain ⟨hkept₂, -⟩ := hkept₁.wf.operand hs
  refine ((hkept₁.trans hkept₂).mono (Set.empty_subset _)).trans ?_
  unfold Lane.writeShift at hwrite
  split at hwrite
  · rename_i w hw _
    obtain ⟨n, hn⟩ := hword w hw
    refine hkept₂.wf.set hop ?_ hwrite
    intro u hu
    cases hu
    exact hkept₂.wf.uid_lt n w (hkept₂.words n (Set.notMem_empty n) w hn)
  · have hrecord : Kept (destinations ops) lane₂ (lane₂.recordShift value index) :=
      hkept₂.wf.recordShift value
    exact hrecord.trans (hrecord.wf.set hop (by simp) hwrite)

theorem Wf.lshlAdd64 (h : lane.Wf) (hrun : lane.lshlAdd64 index ops = .ok lane') :
    Kept (destinations ops) lane lane' := by
  obtain ⟨tokenA, -, hrun⟩ := bind_ok hrun
  obtain ⟨⟨a, lane₁⟩, ha, hrun⟩ := bind_ok hrun
  obtain ⟨tokenS, -, hrun⟩ := bind_ok hrun
  obtain ⟨⟨amount, lane₂⟩, hs, hrun⟩ := bind_ok hrun
  obtain ⟨shift, -, hrun⟩ := bind_ok hrun
  obtain ⟨tokenB, -, hrun⟩ := bind_ok hrun
  obtain ⟨⟨b, lane₃⟩, hb, hrun⟩ := bind_ok hrun
  obtain ⟨dst, hop, hset⟩ := bind_ok hrun
  have hkept₁ := h.pair ha
  obtain ⟨hkept₂, -⟩ := hkept₁.wf.operand hs
  have hkept₃ := hkept₂.wf.pair hb
  exact (((hkept₁.trans hkept₂).trans hkept₃).mono (Set.empty_subset _)).trans
    (hkept₃.wf.setPair hop hset)

theorem Wf.handler {opcode : Text} {handler : Lane → ℕ → List Text → Except ReplayError Lane}
    (h : lane.Wf) (hmem : (opcode, handler) ∈ handlers) (hrun : handler lane index ops = .ok lane') :
    Kept (destinations ops) lane lane' := by
  simp only [handlers, List.mem_cons, Prod.mk.injEq, List.not_mem_nil, or_false] at hmem
  rcases hmem with ⟨-, rfl⟩ | ⟨-, rfl⟩ | ⟨-, rfl⟩ | ⟨-, rfl⟩ | ⟨-, rfl⟩
  · exact h.bitwise hrun
  · exact h.bitwise hrun
  · exact h.mulLo hrun
  · exact h.ashr hrun
  · exact h.lshlAdd64 hrun

end Write

end Lane

end CuTracer.Amdgcn
