import CuTracer.Amdgcn.Effects

/-! Two replays of one instruction from lanes that agree on the registers it reads.
They write the same values and links and record the same overflows. -/

namespace CuTracer.Amdgcn

namespace Lane

variable {S W : Set Text} {base : List Overflow × List Overflow} {lane₁ lane₂ lane₁' lane₂' : Lane}

/-- Two lanes that agree on `S` and recorded the same overflows after those in `base`. -/
structure Twins (S : Set Text) (base : List Overflow × List Overflow) (lane₁ lane₂ : Lane) :
    Prop where
  left : lane₁.Wf
  right : lane₂.Wf
  same : lane₁.SameOn S lane₂
  recorded : ∃ new, lane₁.overflows = base.1 ++ new ∧ lane₂.overflows = base.2 ++ new

/-- The words of one register in two lanes, alike but for their identity. -/
structure Held (name : Text) (lane₁ lane₂ : Lane) (w₁ w₂ : Word) : Prop where
  left : lane₁.words.get? name = some w₁
  right : lane₂.words.get? name = some w₂
  data : w₁.data = w₂.data

theorem Held.kept {name : Text} {w₁ w₂ : Word} (h : Held name lane₁ lane₂ w₁ w₂)
    (hkept₁ : Kept ∅ lane₁ lane₁') (hkept₂ : Kept ∅ lane₂ lane₂') : Held name lane₁' lane₂' w₁ w₂ :=
  ⟨hkept₁.words name (Set.notMem_empty name) w₁ h.left,
    hkept₂.words name (Set.notMem_empty name) w₂ h.right, h.data⟩

variable (h : Twins S base lane₁ lane₂)

include h in
theorem Twins.record (o : Overflow) :
    Twins S base (lane₁.record o) (lane₂.record o) where
  left := (h.left.kept_record (W := ∅) o).wf
  right := (h.right.kept_record (W := ∅) o).wf
  same := ⟨h.same.value, h.same.linked⟩
  recorded := by
    obtain ⟨new, hnew₁, hnew₂⟩ := h.recorded
    refine ⟨new ++ [o], ?_, ?_⟩
    · simp only [Lane.record, hnew₁, List.append_assoc]
    · simp only [Lane.record, hnew₂, List.append_assoc]

include h in
/-- Reads keep two lanes alike. -/
theorem Twins.kept (hkept₁ : Kept ∅ lane₁ lane₁') (hkept₂ : Kept ∅ lane₂ lane₂')
    (hover₁ : lane₁'.overflows = lane₁.overflows) (hover₂ : lane₂'.overflows = lane₂.overflows) :
    Twins S base lane₁' lane₂' where
  left := hkept₁.wf
  right := hkept₂.wf
  same := by
    have hS : S ⊆ (∅ : Set Text)ᶜ := fun n _ => Set.notMem_empty n
    exact ((hkept₁.same.subset hS).symm.trans h.same).trans (hkept₂.same.subset hS)
  recorded := by rw [hover₁, hover₂]; exact h.recorded

/-! ### Reads -/

theorem word_of_value {lane : Lane} {name : Text} {v : Value} (h : lane.value name = some v) :
    ∃ p, lane.word name = .ok p := by
  unfold Lane.value at h
  unfold Lane.word
  cases hget : lane.words.get? name with
  | some w => exact ⟨(w, lane), rfl⟩
  | none =>
    rw [hget] at h
    cases hleaf : lane.leaf name with
    | none => simp [hleaf] at h
    | some bits => exact ⟨_, rfl⟩

/-- What two reads of one register return. -/
structure WordTwins (S : Set Text) (base : List Overflow × List Overflow) (name : Text)
    (lane₁ lane₂ : Lane) (p q : Word × Lane) : Prop where
  left : Kept ∅ lane₁ p.2
  right : Kept ∅ lane₂ q.2
  twins : Twins S base p.2 q.2
  held : Held name p.2 q.2 p.1 q.1

include h in
theorem Twins.word {name : Text} (hn : name ∈ S) :
    Coupled (WordTwins S base name lane₁ lane₂) (lane₁.word name) (lane₂.word name) := by
  rintro ⟨w₁, lane₁'⟩ hw₁
  obtain ⟨hkept₁, hget₁, hvalue₁, hover₁⟩ := h.left.word hw₁
  have hvalue := h.same.value name hn
  obtain ⟨⟨w₂, lane₂'⟩, hw₂⟩ := word_of_value (hvalue.symm.trans hvalue₁)
  obtain ⟨hkept₂, hget₂, hvalue₂, hover₂⟩ := h.right.word hw₂
  have hdata : w₁.data = w₂.data := by
    rw [hvalue₁, hvalue₂] at hvalue
    exact Option.some.inj hvalue
  exact ⟨_, hw₂, hkept₁, hkept₂, h.kept hkept₁ hkept₂ hover₁ hover₂, hget₁, hget₂, hdata⟩

inductive WordsTwins (S : Set Text) (lane₁ lane₂ : Lane) : Option Word → Option Word → Prop
  | immediate : WordsTwins S lane₁ lane₂ none none
  | register {name : Text} {w₁ w₂ : Word} (hname : name ∈ S) (held : Held name lane₁ lane₂ w₁ w₂) :
    WordsTwins S lane₁ lane₂ (some w₁) (some w₂)

theorem WordsTwins.kept {o₁ o₂ : Option Word} (h : WordsTwins S lane₁ lane₂ o₁ o₂)
    (hkept₁ : Kept ∅ lane₁ lane₁') (hkept₂ : Kept ∅ lane₂ lane₂') :
    WordsTwins S lane₁' lane₂' o₁ o₂ := by
  cases h with
  | immediate => exact .immediate
  | register hname held => exact .register hname (held.kept hkept₁ hkept₂)

structure OperandTwins (S : Set Text) (base : List Overflow × List Overflow) (lane₁ lane₂ : Lane)
    (p q : Operand × Lane) : Prop where
  left : Kept ∅ lane₁ p.2
  right : Kept ∅ lane₂ q.2
  twins : Twins S base p.2 q.2
  bits : p.1.bits = q.1.bits
  exact : p.1.exact = q.1.exact
  word : WordsTwins S p.2 q.2 p.1.word q.1.word

/-- The registers of an operand are in `S`. -/
def Covers (S : Set Text) (token : Text) : Prop := ∀ n ∈ operandRegisters token, n ∈ S

theorem Covers.mem {token : Text} {names : List Text} (h : Covers S token)
    (hnames : registers token = some names) : ∀ n ∈ names, n ∈ S := by
  intro n hn
  exact h n (by rwa [operandRegisters, hnames])

include h in
theorem Twins.operand {token : Text} {signed : Bool} (hS : Covers S token) :
    Coupled (OperandTwins S base lane₁ lane₂) (lane₁.operand token signed)
      (lane₂.operand token signed) := by
  unfold Lane.operand
  cases immediate token with
  | some value => exact .ok ⟨h.left.kept_refl, h.right.kept_refl, h, rfl, rfl, .immediate⟩
  | none =>
    have hname : Coupled (fun n n' => n = n' ∧ n ∈ S) (single token) (single token) :=
      .same fun n hn => ⟨rfl, hS.mem (single_ok hn) n (List.mem_singleton_self n)⟩
    refine hname.bind ?_
    rintro name _ ⟨rfl, hmem⟩
    refine (h.word hmem).bind ?_
    rintro ⟨w₁, l₁⟩ ⟨w₂, l₂⟩ hw
    have hdata := hw.held.data
    exact .ok ⟨hw.left, hw.right, hw.twins, congrArg Value.hw hdata,
      Word.value_congr hdata signed, .register hmem hw.held⟩

include h in
/-- A link between two registers that are alike is seen in both lanes. -/
theorem Twins.ref_iff {lo hi : Text} {low₁ low₂ high₁ high₂ : Word} (hlo : lo ∈ S) (hhi : hi ∈ S)
    (hlow : Held lo lane₁ lane₂ low₁ low₂) (hhigh : Held hi lane₁ lane₂ high₁ high₂) :
    high₁.ref = some low₁.uid ↔ high₂.ref = some low₂.uid := by
  have hlinked₁ : lane₁.Linked hi lo ↔ high₁.ref = some low₁.uid := by
    simp [Linked, hlow.left, hhigh.left]
  have hlinked₂ : lane₂.Linked hi lo ↔ high₂.ref = some low₂.uid := by
    simp [Linked, hlow.right, hhigh.right]
  rw [← hlinked₁, ← hlinked₂]
  exact h.same.linked hi hhi lo hlo

theorem Twins.readPair {lo hi : Text} {low₁ low₂ high₁ high₂ : Word} (index : ℕ)
    (h : Twins S base lane₁ lane₂) (hlo : lo ∈ S) (hhi : hi ∈ S)
    (hlow : Held lo lane₁ lane₂ low₁ low₂) (hhigh : Held hi lane₁ lane₂ high₁ high₂) :
    (lane₁.readPair low₁ high₁ index).1 = (lane₂.readPair low₂ high₂ index).1 ∧
      Twins S base (lane₁.readPair low₁ high₁ index).2 (lane₂.readPair low₂ high₂ index).2 := by
  obtain ⟨hhw, hexact, -, hproducer⟩ := Value.mk.inj hlow.data
  obtain ⟨hhw', -, hkind', -⟩ := Value.mk.inj hhigh.data
  have href := h.ref_iff hlo hhi hlow hhigh
  have hvalue := Word.value_congr hlow.data true
  unfold Lane.readPair
  simp only [href, hhw, hhw', hkind', hexact, hvalue, hproducer]
  split_ifs
  · exact ⟨rfl, h⟩
  · exact ⟨rfl, h⟩
  · exact ⟨rfl, h.record _⟩
  · exact ⟨rfl, h⟩

include h in
theorem Twins.pair {token : Text} {index : ℕ} (hS : Covers S token) :
    Coupled (fun p q => p.1 = q.1 ∧ Twins S base p.2 q.2) (lane₁.pair token index)
      (lane₂.pair token index) := by
  unfold Lane.pair
  cases immediate token with
  | some value => exact .ok ⟨rfl, h⟩
  | none =>
    dsimp only
    split
    · rename_i lo hi hregs
      have hmem := hS.mem hregs
      have hlo : lo ∈ S := hmem lo (by simp)
      have hhi : hi ∈ S := hmem hi (by simp)
      refine (h.word hlo).bind ?_
      rintro ⟨low₁, l₁⟩ ⟨low₂, l₂⟩ hlow
      refine (hlow.twins.word hhi).bind ?_
      rintro ⟨high₁, m₁⟩ ⟨high₂, m₂⟩ hhigh
      exact .ok (hhigh.twins.readPair index hlo hhi (hlow.held.kept hhigh.left hhigh.right)
        hhigh.held)
    · exact .error _

/-! ### Writes -/

/-- The links of two words that are written. -/
inductive RefTwins (S : Set Text) (lane₁ lane₂ : Lane) : Option ℕ → Option ℕ → Prop
  | none : RefTwins S lane₁ lane₂ none none
  | word {name : Text} {w₁ w₂ : Word} (hname : name ∈ S) (held : Held name lane₁ lane₂ w₁ w₂) :
    RefTwins S lane₁ lane₂ (some w₁.uid) (some w₂.uid)

theorem RefTwins.lt {ref₁ ref₂ : Option ℕ} (href : RefTwins S lane₁ lane₂ ref₁ ref₂)
    (hwf₁ : lane₁.Wf) (hwf₂ : lane₂.Wf) :
    (∀ u, ref₁ = some u → u < lane₁.next) ∧ ∀ u, ref₂ = some u → u < lane₂.next := by
  cases href with
  | none => simp
  | @word name w₁ w₂ hname held =>
    constructor
    · intro u hu
      cases hu
      exact hwf₁.uid_lt name w₁ held.left
    · intro u hu
      cases hu
      exact hwf₂.uid_lt name w₂ held.right

/-- The register that a new word is linked to. -/
theorem RefTwins.linked_iff {ref₁ ref₂ : Option ℕ} (href : RefTwins S lane₁ lane₂ ref₁ ref₂)
    (hwf₁ : lane₁.Wf) (hwf₂ : lane₂.Wf) (lo : Text) :
    (∃ low, lane₁.words.get? lo = some low ∧ ref₁ = some low.uid) ↔
      ∃ low, lane₂.words.get? lo = some low ∧ ref₂ = some low.uid := by
  cases href with
  | none => simp
  | @word name w₁ w₂ hname held =>
    constructor
    · rintro ⟨low, hlow, hu⟩
      obtain rfl := hwf₁.distinct _ _ _ _ held.left hlow (Option.some.inj hu)
      exact ⟨w₂, held.right, rfl⟩
    · rintro ⟨low, hlow, hu⟩
      obtain rfl := hwf₂.distinct _ _ _ _ held.right hlow (Option.some.inj hu)
      exact ⟨w₁, held.left, rfl⟩

include h in
theorem Twins.store {name : Text} {hw : ℕ} {exact : ℤ} {kind : WordKind} {ref₁ ref₂ : Option ℕ}
    {producer : Option ℕ} (href : RefTwins S lane₁ lane₂ ref₁ ref₂) :
    Twins (S ∪ {name}) base (lane₁.store name hw exact kind ref₁ producer)
      (lane₂.store name hw exact kind ref₂ producer) := by
  obtain ⟨hlt₁, hlt₂⟩ := href.lt h.left h.right
  refine ⟨h.left.store hlt₁, h.right.store hlt₂, ⟨?_, ?_⟩, h.recorded⟩
  · intro n hn
    rw [value_store, value_store]
    split_ifs with heq
    · rfl
    · exact h.same.value n (hn.resolve_right heq)
  · intro hi hhi lo hlo
    by_cases heq : hi = name
    · subst heq
      rw [linked_store_self hlt₁, linked_store_self hlt₂, href.linked_iff h.left h.right]
    · rw [linked_store_of_ne h.left heq, linked_store_of_ne h.right heq]
      refine and_congr_right fun hne => ?_
      exact h.same.linked hi (hhi.resolve_right heq) lo (hlo.resolve_right hne)

include h in
theorem Twins.subset {S' : Set Text} (hS : S' ⊆ S) :
    Twins S' base lane₁ lane₂ := ⟨h.left, h.right, h.same.subset hS, h.recorded⟩

theorem destinations_eq {ops names : List Text} {token : Text} (hop : op ops 0 = .ok token)
    (hnames : registers token = some names) : destinations ops = {n | n ∈ names} := by
  ext n
  simp [destinations, op_ok hop, operandRegisters, hnames]

section Run

variable {ops : List Text} {token : Text} {index : ℕ}

theorem Twins.set {hw exact : ℤ} {kind : WordKind} {ref₁ ref₂ : Option ℕ}
    (h : Twins S base lane₁ lane₂) (hop : op ops 0 = .ok token)
    (href : RefTwins S lane₁ lane₂ ref₁ ref₂) :
    Coupled (Twins (S ∪ destinations ops) base) (lane₁.set token hw exact index kind ref₁)
      (lane₂.set token hw exact index kind ref₂) := by
  have hname : Coupled (fun n n' => n = n' ∧ registers token = some [n]) (single token)
      (single token) := .same fun n hn => ⟨rfl, single_ok hn⟩
  refine hname.bind ?_
  rintro name _ ⟨rfl, hregs⟩
  refine .ok ((h.store href).subset ?_)
  rw [destinations_eq hop hregs]
  exact Set.union_subset_union_right S fun n hn => List.mem_singleton.mp hn

theorem Twins.setPair {hw : ℕ} {exact : ℤ} (h : Twins S base lane₁ lane₂)
    (hop : op ops 0 = .ok token) :
    Coupled (Twins (S ∪ destinations ops) base) (lane₁.setPair token hw exact index)
      (lane₂.setPair token hw exact index) := by
  unfold Lane.setPair
  split
  · rename_i lo hi hregs
    have hlow : Twins (S ∪ {lo}) base
        (lane₁.store lo (hw % 0x100000000) exact .pairLo none (some index))
        (lane₂.store lo (hw % 0x100000000) exact .pairLo none (some index)) := h.store .none
    have hheld : Held lo (lane₁.store lo (hw % 0x100000000) exact .pairLo none (some index))
        (lane₂.store lo (hw % 0x100000000) exact .pairLo none (some index))
        ⟨lane₁.next, hw % 0x100000000, exact, .pairLo, none, some index⟩
        ⟨lane₂.next, hw % 0x100000000, exact, .pairLo, none, some index⟩ :=
      ⟨by rw [get?_store, if_pos rfl], by rw [get?_store, if_pos rfl], rfl⟩
    refine .ok ((hlow.store (.word (Or.inr rfl) hheld)).subset ?_)
    rw [destinations_eq hop hregs, Set.union_assoc]
    refine Set.union_subset_union_right S fun n hn => ?_
    simpa [or_comm] using hn
  · exact .error _

/-- Every operand after the first has its registers in `S`. -/
def CoversReads (S : Set Text) (ops : List Text) : Prop :=
  ∀ i token, ops[i + 1]? = some token → Covers S token

theorem op_read (hS : CoversReads S ops) (i : ℕ) :
    Coupled (fun t t' => t = t' ∧ Covers S t) (op ops (i + 1)) (op ops (i + 1)) :=
  .same fun t ht => ⟨rfl, hS i t (op_ok ht)⟩

theorem op_destination (ops : List Text) :
    Coupled (fun t t' => t = t' ∧ op ops 0 = .ok t) (op ops 0) (op ops 0) :=
  .same fun _ ht => ⟨rfl, ht⟩

theorem Twins.bitwise (f : ℕ → ℕ → ℕ) (h : Twins S base lane₁ lane₂) (hS : CoversReads S ops) :
    Coupled (Twins (S ∪ destinations ops) base) (lane₁.bitwise f index ops)
      (lane₂.bitwise f index ops) := by
  refine (op_read hS 0).bind ?_
  rintro tokenA _ ⟨rfl, hA⟩
  refine (h.operand hA).bind ?_
  rintro ⟨a₁, l₁⟩ ⟨a₂, l₂⟩ ha
  refine (op_read hS 1).bind ?_
  rintro tokenB _ ⟨rfl, hB⟩
  refine (ha.twins.operand hB).bind ?_
  rintro ⟨b₁, m₁⟩ ⟨b₂, m₂⟩ hb
  refine (op_destination ops).bind ?_
  rintro dst _ ⟨rfl, hop⟩
  rw [ha.bits, hb.bits]
  exact hb.twins.set hop .none

theorem Twins.mulLo (h : Twins S base lane₁ lane₂) (hS : CoversReads S ops) :
    Coupled (Twins (S ∪ destinations ops) base) (lane₁.mulLo index ops)
      (lane₂.mulLo index ops) := by
  refine (op_read hS 0).bind ?_
  rintro tokenA _ ⟨rfl, hA⟩
  refine (h.operand hA).bind ?_
  rintro ⟨a₁, l₁⟩ ⟨a₂, l₂⟩ ha
  refine (op_read hS 1).bind ?_
  rintro tokenB _ ⟨rfl, hB⟩
  refine (ha.twins.operand hB).bind ?_
  rintro ⟨b₁, m₁⟩ ⟨b₂, m₂⟩ hb
  refine (op_destination ops).bind ?_
  rintro dst _ ⟨rfl, hop⟩
  rw [ha.bits, hb.bits, ha.exact, hb.exact]
  exact hb.twins.set hop .none

theorem Twins.recordShift {value₁ value₂ : Operand} (h : Twins S base lane₁ lane₂) (index : ℕ)
    (hbits : value₁.bits = value₂.bits) (hexact : value₁.exact = value₂.exact)
    (hword : WordsTwins S lane₁ lane₂ value₁.word value₂.word) :
    Twins S base (lane₁.recordShift value₁ index) (lane₂.recordShift value₂ index) := by
  unfold Lane.recordShift
  rw [hbits, hexact]
  generalize value₁.word = word₁ at hword ⊢
  generalize value₂.word = word₂ at hword ⊢
  cases hword with
  | immediate => exact h
  | register hname held =>
    obtain ⟨-, -, -, hproducer⟩ := Value.mk.inj held.data
    dsimp only
    rw [hproducer]
    split_ifs
    · exact h.record _
    · exact h

theorem Twins.writeShift {value₁ value₂ : Operand} {dst : Text} {shift : ℕ}
    (h : Twins S base lane₁ lane₂) (hop : op ops 0 = .ok dst) (hbits : value₁.bits = value₂.bits)
    (hexact : value₁.exact = value₂.exact)
    (hword : WordsTwins S lane₁ lane₂ value₁.word value₂.word) :
    Coupled (Twins (S ∪ destinations ops) base) (lane₁.writeShift dst value₁ shift index)
      (lane₂.writeShift dst value₂ shift index) := by
  have hrecord := h.recordShift index hbits hexact hword
  unfold Lane.writeShift
  rw [hbits, hexact]
  generalize value₁.word = word₁ at hword ⊢
  generalize value₂.word = word₂ at hword ⊢
  cases hword with
  | immediate => exact hrecord.set hop .none
  | register hname held =>
    by_cases hshift : shift = 31
    · simp only [hshift, decide_true]
      exact h.set hop (.word hname held)
    · simp only [hshift, decide_false]
      exact hrecord.set hop .none

theorem Twins.ashr (h : Twins S base lane₁ lane₂) (hS : CoversReads S ops) :
    Coupled (Twins (S ∪ destinations ops) base) (lane₁.ashr index ops)
      (lane₂.ashr index ops) := by
  refine (op_read hS 1).bind ?_
  rintro tokenV _ ⟨rfl, hV⟩
  refine (h.operand hV).bind ?_
  rintro ⟨v₁, l₁⟩ ⟨v₂, l₂⟩ hv
  refine (op_read hS 0).bind ?_
  rintro tokenS _ ⟨rfl, hT⟩
  refine (hv.twins.operand hT).bind ?_
  rintro ⟨s₁, m₁⟩ ⟨s₂, m₂⟩ hs
  refine (op_destination ops).bind ?_
  rintro dst _ ⟨rfl, hop⟩
  rw [hs.bits]
  exact hs.twins.writeShift hop hv.bits hv.exact (hv.word.kept hs.left hs.right)

theorem Twins.lshlAdd64 (h : Twins S base lane₁ lane₂) (hS : CoversReads S ops) :
    Coupled (Twins (S ∪ destinations ops) base) (lane₁.lshlAdd64 index ops)
      (lane₂.lshlAdd64 index ops) := by
  refine (op_read hS 0).bind ?_
  rintro tokenA _ ⟨rfl, hA⟩
  refine (h.pair hA).bind ?_
  rintro ⟨⟨aBits, a⟩, l₁⟩ ⟨_, l₂⟩ ⟨rfl, ha⟩
  refine (op_read hS 1).bind ?_
  rintro tokenT _ ⟨rfl, hT⟩
  refine (ha.operand hT).bind ?_
  rintro ⟨s₁, m₁⟩ ⟨s₂, m₂⟩ hs
  have hshift : Coupled Eq (checkShift s₁.bits) (checkShift s₂.bits) := by
    rw [show s₁.bits = s₂.bits from hs.bits]
    exact .same fun _ _ => rfl
  refine hshift.bind ?_
  rintro shift _ rfl
  refine (op_read hS 2).bind ?_
  rintro tokenB _ ⟨rfl, hB⟩
  refine (hs.twins.pair hB).bind ?_
  rintro ⟨⟨bBits, b⟩, n₁⟩ ⟨_, n₂⟩ ⟨rfl, hb⟩
  refine (op_destination ops).bind ?_
  rintro dst _ ⟨rfl, hop⟩
  exact hb.setPair hop

theorem Twins.handler {opcode : Text} {handler : Lane → ℕ → List Text → Except ReplayError Lane}
    (h : Twins S base lane₁ lane₂) (hS : CoversReads S ops) (hmem : (opcode, handler) ∈ handlers) :
    Coupled (Twins (S ∪ destinations ops) base) (handler lane₁ index ops)
      (handler lane₂ index ops) := by
  simp only [handlers, List.mem_cons, Prod.mk.injEq, List.not_mem_nil, or_false] at hmem
  rcases hmem with ⟨-, rfl⟩ | ⟨-, rfl⟩ | ⟨-, rfl⟩ | ⟨-, rfl⟩ | ⟨-, rfl⟩
  · exact h.bitwise _ hS
  · exact h.bitwise _ hS
  · exact h.mulLo hS
  · exact h.ashr hS
  · exact h.lshlAdd64 hS

end Run

/-! ### Slices -/

/-- What a slice relies on: `effects` lists what `run` changes, and what decides it. -/
def SlicingSound (index : ℕ) (asm : Text) : Prop :=
  ∀ lane lane', lane.Wf → lane.run index asm = .ok lane' →
    ∃ e, effects asm = .ok e ∧ Kept ↑e.writes lane lane' ∧
      ∀ (S : Set Text) (twin : Lane), ↑e.reads ⊆ S → twin.Wf → lane.SameOn S twin →
        ∃ twin', twin.run index asm = .ok twin' ∧ lane'.SameOn (S ∪ ↑e.writes) twin' ∧
          ∃ new, lane'.overflows = lane.overflows ++ new ∧
            twin'.overflows = twin.overflows ++ new

/-- No modelled opcode stores, targets LDS or has two destinations by its name. -/
theorem handlers_write {opcode : Text}
    {handler : Lane → ℕ → List Text → Except ReplayError Lane} (h : (opcode, handler) ∈ handlers)
    (operands modifiers : List Text) :
    (Instruction.mk opcode operands modifiers).noRegisterWrite =
      modifiers.contains "lds".toList ∧ opcode ∉ twoDestinations := by
  have hopcode : opcode ∈ handlers.map Prod.fst := List.mem_map_of_mem h
  have hnames : ∀ o ∈ handlers.map Prod.fst, decide ("store".toList <:+: o) = false ∧
      "ds_write".toList.isPrefixOf o = false ∧ decide ("lds".toList <:+: o) = false ∧
      decide ("atomic".toList <:+: o) = false ∧ o ∉ twoDestinations := by decide
  obtain ⟨hstore, hwrite, hlds, hatomic, htwo⟩ := hnames opcode hopcode
  simp only [Instruction.noRegisterWrite, hstore, hwrite, hlds, hatomic, Bool.false_or,
    Bool.false_and, Bool.or_false]
  exact ⟨trivial, htwo⟩

/-- The effects of a modelled instruction: the first operand is written, the others are read. -/
theorem effects_ordinary {i : Instruction} (hwrite : i.noRegisterWrite = false)
    (htwo : i.opcode ∉ twoDestinations) :
    (↑i.effects.writes : Set Text) = destinations i.operands ∧
      CoversReads ↑i.effects.reads i.operands := by
  unfold Instruction.effects
  cases hops : i.operands with
  | nil => exact ⟨by ext n; simp [destinations], fun i token h => nomatch h⟩
  | cons dst rest =>
    simp only [List.map_cons, hwrite, htwo, if_false, Bool.false_eq_true, reduceCtorEq]
    constructor
    · ext n
      simp [destinations]
    · intro i token h n hn
      have hmem : token ∈ rest := List.mem_of_getElem? h
      simp only [List.drop_one, List.tail_cons, Finset.mem_coe, List.mem_toFinset,
        List.mem_flatten, List.mem_map]
      exact ⟨_, ⟨token, hmem, rfl⟩, hn⟩

/-- Slicing by `effects` is sound for every accepted instruction without an `lds` modifier. -/
theorem slicing_sound (index : ℕ) (asm : Text)
    (hlds : ∀ i, split asm = .ok i → "lds".toList ∉ i.modifiers) : SlicingSound index asm := by
  intro lane lane' hwf hrun
  obtain ⟨i, hsplit, hrun⟩ := bind_ok hrun
  cases hl : Dict.lookup i.opcode handlers with
  | none => simp [hl] at hrun
  | some handler =>
    simp only [hl] at hrun
    have hmem := Dict.mem_of_lookup hl
    obtain ⟨hwrite, htwo⟩ := handlers_write hmem i.operands i.modifiers
    have hno : i.noRegisterWrite = false := by
      rw [hwrite]
      simpa using hlds i hsplit
    obtain ⟨hwrites, hreads⟩ := effects_ordinary hno htwo
    refine ⟨i.effects, by rw [effects, hsplit]; rfl, ?_, ?_⟩
    · rw [hwrites]
      exact hwf.handler hmem hrun
    · intro S twin hS htwin hsame
      have htwins : Twins S (lane.overflows, twin.overflows) lane twin :=
        ⟨hwf, htwin, hsame, [], by simp, by simp⟩
      have hcovers : CoversReads S i.operands := fun k t h n hn => hS (hreads k t h n hn)
      obtain ⟨twin', hrun', htwins'⟩ := htwins.handler hcovers hmem lane' hrun
      refine ⟨twin', ?_, by rw [hwrites]; exact htwins'.same, htwins'.recorded⟩
      simp only [Lane.run, hsplit, bind, Except.bind, hl]
      exact hrun'

/-- A product is written to a register of its own. -/
theorem slicing_sound_product : SlicingSound 5 "v_mul_lo_u32 v130, v139, s52".toList :=
  slicing_sound 5 _ fun i hi => by
    cases hi
    decide

/-- With an `lds` modifier the destination is not listed as written. -/
theorem lds_modifier_hides_write : ¬ ∀ index asm, SlicingSound index asm := by
  intro h
  obtain ⟨lane', hrun, hvalue⟩ : ∃ lane',
      (Lane.new fun _ => some 1).run 0 "v_and_b32 v0, v1, v2 lds".toList = .ok lane' ∧
        lane'.value "v0".toList = some ⟨1, 1, .bits, some 0⟩ := ⟨_, rfl, by decide⟩
  obtain ⟨e, he, hkept, -⟩ := h 0 _ (Lane.new fun _ => some 1) lane' (wf_new _) hrun
  obtain rfl : e = ⟨{"v0".toList, "v1".toList, "v2".toList}, ∅⟩ := (Except.ok.inj he).symm
  have hsame := hkept.same.value "v0".toList (by simp)
  rw [hvalue] at hsame
  exact absurd hsame (by decide)

end Lane

end CuTracer.Amdgcn
