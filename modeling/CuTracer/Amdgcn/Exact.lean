import CuTracer.Amdgcn.Machine
import Mathlib.Data.Int.ModEq

/-! What the exact values of a replay are worth. While no overflow is recorded,
every arithmetic word is congruent to its bits, and a pair that is read through
the link of its high word to its low word is congruent to its 64 bits. The
first overflow names an instruction whose exact result does not fit. -/

namespace CuTracer.Amdgcn

/-! ### Arithmetic -/

theorem signed32_modEq (bits : ℕ) : signed32 bits ≡ bits [ZMOD 0x100000000] := by
  unfold signed32 Int.ModEq
  split_ifs <;> omega

theorem signed64_modEq (bits : ℕ) : signed64 bits ≡ bits [ZMOD 0x10000000000000000] := by
  unfold signed64 Int.ModEq
  split_ifs <;> omega

theorem fits_signed32 {bits : ℕ} (h : bits < 0x100000000) : Fits (signed32 bits) := by
  unfold signed32 Fits
  split_ifs <;> omega

/-- A value that fits is the signed reading of its bits. -/
theorem eq_signed32_of_fits {value : ℤ} {bits : ℕ} (hlt : bits < 0x100000000) (hfits : Fits value)
    (h : value ≡ bits [ZMOD 0x100000000]) : value = signed32 bits := by
  unfold Int.ModEq at h
  unfold Fits at hfits
  unfold signed32
  split_ifs <;> omega

def signWord (bits : ℕ) : ℕ := if 0x80000000 ≤ bits then 0xffffffff else 0

theorem signed32_shift {bits : ℕ} (h : bits < 0x100000000) :
    (signed32 bits >>> (31 : ℕ) % 0x100000000).toNat = signWord bits := by
  rw [Int.shiftRight_eq_div_pow]
  unfold signed32 signWord
  split_ifs <;> omega

theorem or_shift_eq {low : ℕ} (high : ℕ) (h : low < 0x100000000) :
    low ||| high <<< 32 = low + 0x100000000 * high := by
  rw [Nat.or_comm, ← Nat.shiftLeft_add_eq_or_of_lt (by omega), Nat.shiftLeft_eq]
  omega

theorem signExtended_modEq (low : ℕ) :
    signed32 low ≡ (low + 0x100000000 * signWord low : ℕ) [ZMOD 0x10000000000000000] := by
  unfold signed32 signWord Int.ModEq
  split_ifs <;> omega

/-! ### The invariant -/

namespace Lane

/-- Words have 32 bits and an identity of their own, and a sign word that knows its
low word has its sign. -/
structure Inv (lane : Lane) : Prop where
  hw_lt : ∀ n w, lane.words.get? n = some w → w.hw < 0x100000000
  uid_lt : ∀ n w, lane.words.get? n = some w → w.uid < lane.next
  ref_lt : ∀ n w u, lane.words.get? n = some w → w.ref = some u → u < lane.next
  uid_inj : ∀ n w n' w', lane.words.get? n = some w → lane.words.get? n' = some w' →
    w.uid = w'.uid → w = w'
  sext : ∀ n w n' w', lane.words.get? n = some w → lane.words.get? n' = some w' →
    w.kind = .sext → w.ref = some w'.uid → w.hw = signWord w'.hw

/-- Exact values are congruent to bits. -/
structure Exact (lane : Lane) : Prop where
  word : ∀ n w, lane.words.get? n = some w → w.kind = .word → w.exact ≡ w.hw [ZMOD 0x100000000]
  pair : ∀ n w n' w', lane.words.get? n = some w → lane.words.get? n' = some w' →
    w.kind = .pairHi → w.ref = some w'.uid →
    w'.exact ≡ (w'.hw + 0x100000000 * w.hw : ℕ) [ZMOD 0x10000000000000000]

/-- The invariant of a replay in which `P i v` says that instruction `i` had the exact
result `v`. -/
structure Sound (P : ℕ → ℤ → Prop) (lane : Lane) : Prop where
  inv : lane.Inv
  exact : lane.overflows = [] → lane.Exact
  made : ∀ n w, lane.words.get? n = some w → w.Computed → ∃ i, w.producer = some i ∧ P i w.exact
  first : ∀ o rest, lane.overflows = o :: rest →
    ∃ i, o.producer = some i ∧ P i o.value ∧ ¬ Fits o.value

variable {P : ℕ → ℤ → Prop} {lane lane' : Lane}

theorem Sound.mono {Q : ℕ → ℤ → Prop} (h : lane.Sound P) (hPQ : ∀ i v, P i v → Q i v) :
    lane.Sound Q where
  inv := h.inv
  exact := h.exact
  made n w hw hc := by
    obtain ⟨i, hi, hP⟩ := h.made n w hw hc
    exact ⟨i, hi, hPQ i _ hP⟩
  first o rest ho := by
    obtain ⟨i, hi, hP, hfits⟩ := h.first o rest ho
    exact ⟨i, hi, hPQ i _ hP, hfits⟩

theorem sound_new (leaf : Text → Option ℤ) : (Lane.new leaf).Sound P where
  inv := by constructor <;> simp [Lane.new]
  exact _ := by constructor <;> simp [Lane.new]
  made := by simp [Lane.new]
  first := by simp [Lane.new]

section Store

variable {name : Text} {hw : ℕ} {exact : ℤ} {kind : WordKind} {ref producer : Option ℕ}

theorem Inv.store (h : lane.Inv) (hhw : hw < 0x100000000)
    (href : ∀ u, ref = some u → u < lane.next)
    (hsext : kind = .sext → ∀ n w, lane.words.get? n = some w → ref = some w.uid →
      hw = signWord w.hw) : (lane.store name hw exact kind ref producer).Inv where
  hw_lt n w hw' := by
    rw [get?_store] at hw'
    split_ifs at hw' with hn
    · cases hw'
      exact hhw
    · exact h.hw_lt n w hw'
  uid_lt n w hw' := by
    rw [get?_store] at hw'
    split_ifs at hw' with hn
    · cases hw'
      exact Nat.lt_succ_self _
    · exact Nat.lt_succ_of_lt (h.uid_lt n w hw')
  ref_lt n w u hw' hu := by
    rw [get?_store] at hw'
    split_ifs at hw' with hn
    · cases hw'
      exact Nat.lt_succ_of_lt (href u hu)
    · exact Nat.lt_succ_of_lt (h.ref_lt n w u hw' hu)
  uid_inj n w n' w' hw₁ hw₂ hu := by
    rw [get?_store] at hw₁ hw₂
    split_ifs at hw₁ hw₂ with hn hn' hn'
    · exact Option.some.inj (hw₁.symm.trans hw₂)
    · cases hw₁
      exact absurd (hu ▸ h.uid_lt n' w' hw₂) (Nat.lt_irrefl _)
    · cases hw₂
      exact absurd (hu ▸ h.uid_lt n w hw₁) (Nat.lt_irrefl _)
    · exact h.uid_inj n w n' w' hw₁ hw₂ hu
  sext n w n' w' hw₁ hw₂ hkind hr := by
    rw [get?_store] at hw₁ hw₂
    split_ifs at hw₁ hw₂ with hn hn' hn'
    · cases hw₁
      cases hw₂
      exact absurd (href _ hr) (Nat.lt_irrefl _)
    · cases hw₁
      exact hsext hkind n' w' hw₂ hr
    · -- no old word refers to the new one
      cases hw₂
      exact absurd (h.ref_lt n w _ hw₁ hr) (Nat.lt_irrefl _)
    · exact h.sext n w n' w' hw₁ hw₂ hkind hr

theorem Exact.store (h : lane.Exact) (hinv : lane.Inv) (href : ∀ u, ref = some u → u < lane.next)
    (hword : kind = .word → exact ≡ hw [ZMOD 0x100000000])
    (hpair : kind = .pairHi → ∀ n w, lane.words.get? n = some w → ref = some w.uid →
      w.exact ≡ (w.hw + 0x100000000 * hw : ℕ) [ZMOD 0x10000000000000000]) :
    (lane.store name hw exact kind ref producer).Exact where
  word n w hw' hkind := by
    rw [get?_store] at hw'
    split_ifs at hw' with hn
    · cases hw'
      exact hword hkind
    · exact h.word n w hw' hkind
  pair n w n' w' hw₁ hw₂ hkind hr := by
    rw [get?_store] at hw₁ hw₂
    split_ifs at hw₁ hw₂ with hn hn' hn'
    · cases hw₁
      cases hw₂
      exact absurd (href _ hr) (Nat.lt_irrefl _)
    · cases hw₁
      exact hpair hkind n' w' hw₂ hr
    · cases hw₂
      exact absurd (hinv.ref_lt n w _ hw₁ hr) (Nat.lt_irrefl _)
    · exact h.pair n w n' w' hw₁ hw₂ hkind hr

/-- A new word keeps the invariant if it is right on its own. -/
theorem Sound.store (h : lane.Sound P) (hhw : hw < 0x100000000)
    (href : ∀ u, ref = some u → u < lane.next)
    (hsext : kind = .sext → ∀ n w, lane.words.get? n = some w → ref = some w.uid →
      hw = signWord w.hw)
    (hword : kind = .word → lane.overflows = [] → exact ≡ hw [ZMOD 0x100000000])
    (hpair : kind = .pairHi → lane.overflows = [] → ∀ n w, lane.words.get? n = some w →
      ref = some w.uid → w.exact ≡ (w.hw + 0x100000000 * hw : ℕ) [ZMOD 0x10000000000000000])
    (hmade : kind = .word → ∀ i, producer = some i → P i exact) :
    (lane.store name hw exact kind ref producer).Sound P where
  inv := h.inv.store hhw href hsext
  exact hempty := (h.exact hempty).store h.inv href (fun hk => hword hk hempty)
    fun hk => hpair hk hempty
  made n w hw' hc := by
    rw [get?_store] at hw'
    split_ifs at hw' with hn
    · cases hw'
      obtain ⟨i, hi⟩ := Option.ne_none_iff_exists'.mp hc.1
      exact ⟨i, hi, hmade hc.2 i hi⟩
    · exact h.made n w hw' hc
  first := h.first

end Store

/-- The first overflow must be of a computed word that does not fit. -/
theorem Sound.record (h : lane.Sound P) {o : Overflow}
    (ho : lane.overflows = [] → ∃ i, o.producer = some i ∧ P i o.value ∧ ¬ Fits o.value) :
    (lane.record o).Sound P where
  inv := ⟨h.inv.hw_lt, h.inv.uid_lt, h.inv.ref_lt, h.inv.uid_inj, h.inv.sext⟩
  exact hempty := by simp [Lane.record] at hempty
  made := h.made
  first o' rest hrest := by
    cases hov : lane.overflows with
    | nil =>
      simp only [Lane.record, hov, List.nil_append, List.cons.injEq] at hrest
      rw [← hrest.1]
      exact ho hov
    | cons first others =>
      simp only [Lane.record, hov, List.cons_append, List.cons.injEq] at hrest
      rw [← hrest.1]
      exact h.first first others hov

/-! ### Reads -/

/-- A read caches words of the snapshot and changes no other. -/
def Grows (lane lane' : Lane) : Prop :=
  ∀ n w, lane.words.get? n = some w → lane'.words.get? n = some w

theorem Sound.word {name : Text} {w : Word} (h : lane.Sound P)
    (hw : lane.word name = .ok (w, lane')) :
    lane'.Sound P ∧ lane'.words.get? name = some w ∧ lane'.overflows = lane.overflows ∧
      lane.Grows lane' := by
  unfold Lane.word at hw
  split at hw
  · rename_i w' hw'
    cases hw
    exact ⟨h, hw', rfl, fun n w h => h⟩
  · rename_i hnone
    split at hw
    · cases hw
    · rename_i b hb
      cases hw
      have hlt : (b % 0x100000000).toNat < 0x100000000 := by omega
      refine ⟨?_, by rw [get?_store, if_pos rfl], rfl, ?_⟩
      · exact h.store hlt (fun u hu => by cases hu) (fun hk => by cases hk)
          (fun _ _ => Int.ModEq.refl _) (fun hk => by cases hk) fun _ i hi => by cases hi
      · intro n w' hw'
        have hn : n ≠ name := by
          rintro rfl
          cases hnone.symm.trans hw'
        rwa [get?_store, if_neg hn]

/-- What an operand says: its bits, and where its exact value comes from. -/
structure OperandOk (lane : Lane) (signed : Bool) (o : Operand) : Prop where
  bits_lt : o.bits < 0x100000000
  immediate : o.word = none → signed = true → o.exact = signed32 o.bits
  register : ∀ w, o.word = some w →
    (∃ n, lane.words.get? n = some w) ∧ o.bits = w.hw ∧ o.exact = w.value signed

theorem Sound.operand {token : Text} {signed : Bool} {o : Operand} (h : lane.Sound P)
    (ho : lane.operand token signed = .ok (o, lane')) :
    lane'.Sound P ∧ lane'.overflows = lane.overflows ∧ lane.Grows lane' ∧
      OperandOk lane' signed o := by
  unfold Lane.operand at ho
  split at ho
  · cases ho
    refine ⟨h, rfl, fun n w h => h, ?_, ?_, ?_⟩
    · show (_ % (0x100000000 : ℤ)).toNat < _
      omega
    · rintro - rfl
      rfl
    · exact fun w hw => nomatch hw
  · obtain ⟨name, -, ho⟩ := bind_ok ho
    obtain ⟨⟨w, lane₁⟩, hw, ho⟩ := bind_ok ho
    cases ho
    obtain ⟨hsound, hget, hover, hgrows⟩ := h.word hw
    refine ⟨hsound, hover, hgrows, hsound.inv.hw_lt name w hget, by simp, ?_⟩
    intro w' hw'
    cases hw'
    exact ⟨⟨name, hget⟩, rfl, rfl⟩

/-- A word that was not computed by arithmetic reads as its signed bits. -/
theorem value_of_not_computed {w : Word} (h : ¬ w.Computed) : w.value true = signed32 w.hw := by
  rw [Word.value, if_neg h, if_pos rfl]

theorem value_of_computed {w : Word} (h : w.Computed) (signed : Bool) : w.value signed = w.exact := by
  rw [Word.value, if_pos h]

/-- While nothing overflowed, a word reads as a value congruent to its bits. -/
theorem Sound.value_modEq (h : lane.Sound P) (hempty : lane.overflows = []) {n : Text} {w : Word}
    (hw : lane.words.get? n = some w) : w.value true ≡ w.hw [ZMOD 0x100000000] := by
  by_cases hc : w.Computed
  · rw [value_of_computed hc]
    exact (h.exact hempty).word n w hw hc.2
  · rw [value_of_not_computed hc]
    exact signed32_modEq w.hw

theorem Sound.operand_modEq (h : lane.Sound P) (hempty : lane.overflows = []) {o : Operand}
    (ho : OperandOk lane true o) : o.exact ≡ o.bits [ZMOD 0x100000000] := by
  cases hword : o.word with
  | none =>
    rw [ho.immediate hword rfl]
    exact signed32_modEq o.bits
  | some w =>
    obtain ⟨⟨n, hw⟩, hbits, hexact⟩ := ho.register w hword
    rw [hbits, hexact]
    exact h.value_modEq hempty hw

/-- The pair of two words: its exact value is congruent to its bits while nothing
overflowed. -/
theorem Sound.readPair (h : lane.Sound P) {lo hi : Text} {low high : Word} (index : ℕ)
    (hlow : lane.words.get? lo = some low) (hhigh : lane.words.get? hi = some high) :
    (lane.readPair low high index).2.Sound P ∧
      ((lane.readPair low high index).2.overflows = [] → lane.overflows = [] ∧
        (lane.readPair low high index).1.2 ≡ (lane.readPair low high index).1.1
          [ZMOD 0x10000000000000000]) := by
  have hbits := or_shift_eq high.hw (h.inv.hw_lt lo low hlow)
  unfold Lane.readPair
  dsimp only
  rw [hbits]
  split_ifs with hpair hsext hfits
  · exact ⟨h, fun hempty =>
      ⟨hempty, (h.exact hempty).pair hi high lo low hhigh hlow hpair.2 hpair.1⟩⟩
  · refine ⟨h, fun hempty => ⟨hempty, ?_⟩⟩
    have hvalue := eq_signed32_of_fits (h.inv.hw_lt lo low hlow) hfits (h.value_modEq hempty hlow)
    rw [hvalue, h.inv.sext hi high lo low hhigh hlow hsext.2 hsext.1]
    exact signExtended_modEq low.hw
  · -- only a computed word can fail to fit
    have hc : low.Computed := by
      by_contra hc
      rw [value_of_not_computed hc] at hfits
      exact hfits (fits_signed32 (h.inv.hw_lt lo low hlow))
    refine ⟨h.record fun _ => ?_, fun hempty => by simp [Lane.record] at hempty⟩
    obtain ⟨i, hi, hP⟩ := h.made lo low hlow hc
    rw [value_of_computed hc] at hfits ⊢
    exact ⟨i, hi, hP, hfits⟩
  · exact ⟨h, fun hempty => ⟨hempty, signed64_modEq _⟩⟩

theorem Sound.pair {token : Text} {index bits : ℕ} {exact : ℤ} (h : lane.Sound P)
    (hp : lane.pair token index = .ok ((bits, exact), lane')) :
    lane'.Sound P ∧ (lane'.overflows = [] → lane.overflows = [] ∧
      exact ≡ bits [ZMOD 0x10000000000000000]) := by
  unfold Lane.pair at hp
  split at hp
  · rename_i value _
    obtain ⟨hv, rfl⟩ := Prod.mk.inj (Except.ok.inj hp)
    cases hv
    refine ⟨h, fun hempty => ⟨hempty, ?_⟩⟩
    unfold Int.ModEq
    omega
  · split at hp
    · rename_i lo hi _
      obtain ⟨⟨low, lane₁⟩, hlow, hp⟩ := bind_ok hp
      obtain ⟨⟨high, lane₂⟩, hhigh, hp⟩ := bind_ok hp
      obtain ⟨hsound₁, hget₁, hover₁, -⟩ := h.word hlow
      obtain ⟨hsound₂, hget₂, hover₂, hgrows₂⟩ := hsound₁.word hhigh
      have hread := hsound₂.readPair index (hgrows₂ lo low hget₁) hget₂
      rw [Except.ok.inj hp, hover₂, hover₁] at hread
      exact hread
    · exact nomatch hp

/-! ### Writes -/

section Write

variable {token : Text} {hw exact : ℤ} {index : ℕ} {kind : WordKind} {ref : Option ℕ}

/-- The word that a write leaves. -/
theorem set_ok (h : lane.set token hw exact index kind ref = .ok lane') :
    ∃ name, single token = .ok name ∧
      lane' = lane.store name (hw % 0x100000000).toNat exact kind ref (some index) := by
  obtain ⟨name, hname, h⟩ := bind_ok h
  exact ⟨name, hname, (Except.ok.inj h).symm⟩

/-- A word write of an instruction whose exact result is recorded. -/
theorem Sound.set (h : lane.Sound P) (hset : lane.set token hw exact index kind ref = .ok lane')
    (hkind : kind ≠ .pairHi) (href : ∀ u, ref = some u → u < lane.next)
    (hsext : kind = .sext → ∀ n w, lane.words.get? n = some w → ref = some w.uid →
      (hw % 0x100000000).toNat = signWord w.hw)
    (hword : kind = .word → lane.overflows = [] → exact ≡ hw [ZMOD 0x100000000])
    (hmade : kind = .word → P index exact) : lane'.Sound P := by
  obtain ⟨name, -, rfl⟩ := set_ok hset
  refine h.store (by omega) href hsext ?_ (fun hk => absurd hk hkind) ?_
  · intro hk hempty
    have hmod := hword hk hempty
    unfold Int.ModEq at hmod ⊢
    omega
  · rintro hk i hi
    cases hi
    exact hmade hk

/-- A pair write: the high word knows its low word. -/
theorem Sound.setPair (h : lane.Sound P) {hw : ℕ}
    (hset : lane.setPair token hw exact index = .ok lane')
    (hmod : lane.overflows = [] → exact ≡ hw [ZMOD 0x10000000000000000]) : lane'.Sound P := by
  unfold Lane.setPair at hset
  split at hset
  · rename_i lo hi _
    cases hset
    have hlow : (lane.store lo (hw % 0x100000000) exact .pairLo none (some index)).Sound P :=
      h.store (by omega) (fun u hu => by cases hu) (fun hk => by cases hk) (fun hk => by cases hk)
        (fun hk => by cases hk) fun hk => by cases hk
    refine hlow.store (by omega) ?_ (fun hk => by cases hk) (fun hk => by cases hk) ?_
      fun hk => by cases hk
    · intro u hu
      cases hu
      exact Nat.lt_succ_self _
    · -- only the new low word has the identity that the high word refers to
      intro _ hempty n w hw' hr
      rw [get?_store] at hw'
      split_ifs at hw' with hn
      · cases hw'
        have hexact := hmod hempty
        rw [Nat.shiftRight_eq_div_pow]
        unfold Int.ModEq at hexact ⊢
        dsimp only
        omega
      · have huid := h.inv.uid_lt n w hw'
        rw [← Option.some.inj hr] at huid
        exact absurd huid (Nat.lt_irrefl _)
  · cases hset

end Write

/-! ### Instructions -/

/-- The exact result that an instruction left in its destination register. -/
def result (lane : Lane) (ops : List Text) : Option ℤ :=
  match ops with
  | dst :: _ =>
    match registers dst with
    | some [name] => (lane.words.get? name).map Word.exact
    | _ => none
  | [] => none

theorem result_of_set {ops : List Text} {token : Text} {hw exact : ℤ} {index : ℕ} {kind : WordKind}
    {ref : Option ℕ} (hop : op ops 0 = .ok token)
    (h : lane.set token hw exact index kind ref = .ok lane') : lane'.result ops = some exact := by
  obtain ⟨name, hname, rfl⟩ := set_ok h
  have hops := op_ok hop
  cases ops with
  | nil => simp at hops
  | cons dst rest =>
    obtain rfl : dst = token := by simpa using hops
    simp [result, single_ok hname, get?_store]

variable {ops : List Text} {index : ℕ}

theorem Sound.bitwise {f : ℕ → ℕ → ℕ} (h : lane.Sound P)
    (hrun : lane.bitwise f index ops = .ok lane') : lane'.Sound P := by
  obtain ⟨tokenA, hopA, hrun⟩ := bind_ok hrun
  obtain ⟨⟨a, lane₁⟩, ha, hrun⟩ := bind_ok hrun
  obtain ⟨tokenB, hopB, hrun⟩ := bind_ok hrun
  obtain ⟨⟨b, lane₂⟩, hb, hrun⟩ := bind_ok hrun
  obtain ⟨dst, hopD, hset⟩ := bind_ok hrun
  obtain ⟨hsound₁, -⟩ := h.operand ha
  obtain ⟨hsound₂, -⟩ := hsound₁.operand hb
  exact hsound₂.set hset (by simp) (fun u hu => nomatch hu) (fun hk => nomatch hk)
    (fun hk => nomatch hk) fun hk => nomatch hk

theorem Sound.mulLo (h : lane.Sound P) (hrun : lane.mulLo index ops = .ok lane')
    (hresult : ∀ v, lane'.result ops = some v → P index v) : lane'.Sound P := by
  obtain ⟨tokenA, hopA, hrun⟩ := bind_ok hrun
  obtain ⟨⟨a, lane₁⟩, ha, hrun⟩ := bind_ok hrun
  obtain ⟨tokenB, hopB, hrun⟩ := bind_ok hrun
  obtain ⟨⟨b, lane₂⟩, hb, hrun⟩ := bind_ok hrun
  obtain ⟨dst, hopD, hset⟩ := bind_ok hrun
  obtain ⟨hsound₁, hover₁, -, hokA⟩ := h.operand ha
  obtain ⟨hsound₂, hover₂, -, hokB⟩ := hsound₁.operand hb
  refine hsound₂.set hset (by simp) (fun u hu => nomatch hu) (fun hk => nomatch hk) ?_
    fun _ => hresult _ (result_of_set hopD hset)
  intro _ hempty
  rw [hover₂] at hempty
  have hmodA := hsound₁.operand_modEq hempty hokA
  have hmodB := hsound₂.operand_modEq (hover₂.trans hempty) hokB
  rw [Nat.cast_mul]
  exact hmodA.mul hmodB

/-- A shift of a register by 31 writes the sign of its bits. -/
theorem Sound.signShift (h : lane.Sound P) {dst : Text} {value : Operand} {w : Word} {exact : ℤ}
    (hok : OperandOk lane true value) (hw : value.word = some w)
    (hset : lane.set dst (signed32 value.bits >>> (31 : ℕ)) exact index .sext (some w.uid) = .ok lane') :
    lane'.Sound P := by
  obtain ⟨⟨n, hn⟩, hbits, -⟩ := hok.register w hw
  refine h.set hset (by simp) ?_ ?_ (fun hk => nomatch hk) fun hk => nomatch hk
  · intro u hu
    cases hu
    exact h.inv.uid_lt n w hn
  · intro _ n' w' hw' hr
    obtain rfl := h.inv.uid_inj n w n' w' hn hw' (Option.some.inj hr)
    rw [signed32_shift hok.bits_lt, hbits]

/-- Before any other shift a wrapped value is recorded. -/
theorem Sound.recordShift (h : lane.Sound P) {value : Operand} (hok : OperandOk lane true value)
    (index : ℕ) :
    (lane.recordShift value index).Sound P ∧
      ((lane.recordShift value index).overflows = [] → value.exact = signed32 value.bits) := by
  unfold Lane.recordShift
  cases hword : value.word with
  | none => exact ⟨h, fun _ => hok.immediate hword rfl⟩
  | some w =>
    obtain ⟨⟨n, hn⟩, hbits, hexact⟩ := hok.register w hword
    dsimp only
    split_ifs with hwrapped
    · have hc : w.Computed := by
        by_contra hc
        rw [hexact, hbits, value_of_not_computed hc] at hwrapped
        exact hwrapped.2 rfl
      refine ⟨h.record fun hempty => ?_, fun hempty => by simp [Lane.record] at hempty⟩
      obtain ⟨i, hi, hP⟩ := h.made n w hn hc
      rw [hexact, value_of_computed hc] at hwrapped ⊢
      refine ⟨i, hi, hP, fun hfits => hwrapped.2 ?_⟩
      have hmod := h.value_modEq hempty hn
      rw [value_of_computed hc, ← hbits] at hmod
      exact (eq_signed32_of_fits hok.bits_lt hfits hmod).symm
    · refine ⟨h, fun _ => ?_⟩
      by_cases hc : w.Computed
      · by_contra hne
        exact hwrapped ⟨hc.1, Ne.symm hne⟩
      · rw [hexact, hbits, value_of_not_computed hc]

theorem Sound.ashr (h : lane.Sound P) (hrun : lane.ashr index ops = .ok lane')
    (hresult : ∀ v, lane'.result ops = some v → P index v) : lane'.Sound P := by
  obtain ⟨tokenV, hopV, hrun⟩ := bind_ok hrun
  obtain ⟨⟨value, lane₁⟩, hv, hrun⟩ := bind_ok hrun
  obtain ⟨tokenS, hopS, hrun⟩ := bind_ok hrun
  obtain ⟨⟨amount, lane₂⟩, hs, hrun⟩ := bind_ok hrun
  obtain ⟨dst, hopD, hwrite⟩ := bind_ok hrun
  obtain ⟨hsound₁, -, -, hok₁⟩ := h.operand hv
  obtain ⟨hsound₂, -, hgrows, -⟩ := hsound₁.operand hs
  have hok : OperandOk lane₂ true value :=
    ⟨hok₁.bits_lt, hok₁.immediate, fun w hw => by
      obtain ⟨⟨n, hn⟩, hrest⟩ := hok₁.register w hw
      exact ⟨⟨n, hgrows n w hn⟩, hrest⟩⟩
  unfold Lane.writeShift at hwrite
  split at hwrite
  · rename_i w hw _
    exact hsound₂.signShift hok hw hwrite
  · obtain ⟨hsound₃, hexact⟩ := hsound₂.recordShift hok index
    refine hsound₃.set hwrite (by simp) (fun u hu => nomatch hu) (fun hk => nomatch hk) ?_
      fun _ => hresult _ (result_of_set hopD hwrite)
    intro _ hempty
    rw [hexact hempty]

theorem Sound.lshlAdd64 (h : lane.Sound P) (hrun : lane.lshlAdd64 index ops = .ok lane') :
    lane'.Sound P := by
  obtain ⟨tokenA, hopA, hrun⟩ := bind_ok hrun
  obtain ⟨⟨⟨aBits, a⟩, lane₁⟩, ha, hrun⟩ := bind_ok hrun
  obtain ⟨tokenS, hopS, hrun⟩ := bind_ok hrun
  obtain ⟨⟨amount, lane₂⟩, hs, hrun⟩ := bind_ok hrun
  obtain ⟨shift, hshift, hrun⟩ := bind_ok hrun
  obtain ⟨tokenB, hopB, hrun⟩ := bind_ok hrun
  obtain ⟨⟨⟨bBits, b⟩, lane₃⟩, hb, hrun⟩ := bind_ok hrun
  obtain ⟨dst, hopD, hset⟩ := bind_ok hrun
  obtain ⟨hsound₁, hmodA⟩ := h.pair ha
  obtain ⟨hsound₂, hover₂, -⟩ := hsound₁.operand hs
  obtain ⟨hsound₃, hmodB⟩ := hsound₂.pair hb
  refine hsound₃.setPair hset fun hempty => ?_
  obtain ⟨hempty₂, hmod₂⟩ := hmodB hempty
  obtain ⟨-, hmod₁⟩ := hmodA (hover₂.symm.trans hempty₂)
  rw [Nat.cast_add, Nat.shiftLeft_eq, Int.shiftLeft_eq, Nat.cast_mul, Nat.cast_pow]
  exact (hmod₁.mul_right _).add hmod₂

end Lane

end CuTracer.Amdgcn
