import CuTracer.Library.JsonObject
import CuTracer.Service.PromptArtifacts
import Mathlib.Algebra.Group.Prod

/-! Documents that are shortened to limits, and the log of what was left out. The log is held against
the documents: under a section and a reason it counts what a shortened document lacks of its original. -/

namespace CuTracer.Service.Prompt

/-! ### The log -/

inductive OmissionReason where
  | stringSampled | listSampled | mappingSampled | deduplicatedAsSessionUnit | invalidOrOutOfRangePcOffset
  | olderEvidence | olderDecisionHistory | representedByCountAndEvidence | representedByCount
  deriving DecidableEq

def OmissionReason.value : OmissionReason → String
  | .stringSampled => "string_sampled"
  | .listSampled => "list_sampled"
  | .mappingSampled => "mapping_sampled"
  | .deduplicatedAsSessionUnit => "deduplicated_as_session_unit"
  | .invalidOrOutOfRangePcOffset => "invalid_or_out_of_range_pc_offset"
  | .olderEvidence => "older_evidence"
  | .olderDecisionHistory => "older_decision_history"
  | .representedByCountAndEvidence => "represented_by_count_and_evidence"
  | .representedByCount => "represented_by_count"

/-- The reasons of documents that are shortened. -/
def OmissionReason.sampled : OmissionReason → Bool
  | .stringSampled | .listSampled | .mappingSampled => true
  | _ => false

abbrev OmissionKey := String × OmissionReason

/-- `omitted_count` and `omitted_bytes`. -/
abbrev Omitted := ℕ × ℕ

abbrev OmissionLog := Dict OmissionKey Omitted

/-- `_OmissionLog.add`. -/
def OmissionLog.add (log : OmissionLog) (key : OmissionKey) (omitted : Omitted) : OmissionLog :=
  log.upsert key fun old => old.getD 0 + omitted

def omissionJson (key : OmissionKey) (omitted : Omitted) : Json :=
  .obj ([("section", .str key.1), ("reason", .str key.2.value)] ++
    (if omitted.1 = 0 then [] else [("omitted_count", .int omitted.1)]) ++
    if omitted.2 = 0 then [] else [("omitted_bytes", .int omitted.2)])

/-- `_OmissionLog.to_list`. -/
def OmissionLog.toList (log : OmissionLog) : List Json :=
  (log.entries.insertionSort fun e f => e.1.1 < f.1.1 ∨ e.1.1 = f.1.1 ∧ e.1.2.value ≤ f.1.2.value).map
    fun e => omissionJson e.1 e.2

/-- What the log counts under a section and a reason. -/
def OmissionLog.amount (log : OmissionLog) (key : OmissionKey) : Omitted := (log.get? key).getD 0

theorem amount_empty (key : OmissionKey) : OmissionLog.amount Dict.empty key = 0 := rfl

theorem amount_add (log : OmissionLog) (key k : OmissionKey) (omitted : Omitted) :
    (log.add key omitted).amount k = log.amount k + if key = k then omitted else 0 := by
  unfold OmissionLog.add OmissionLog.amount
  rw [Dict.get?_upsert]
  by_cases h : k = key
  · simp [h]
  · rw [if_neg h, if_neg (Ne.symm h), add_zero]

theorem mem_toList {log : OmissionLog} {key : OmissionKey} (h : log.amount key ≠ 0) :
    omissionJson key (log.amount key) ∈ log.toList := by
  unfold OmissionLog.amount at h ⊢
  cases hget : log.get? key with
  | none =>
    rw [hget] at h
    exact absurd rfl h
  | some omitted =>
    refine List.mem_map.mpr ⟨(key, omitted), ?_, rfl⟩
    rw [List.mem_insertionSort]
    exact (Dict.get?_eq_some_iff log key omitted).mp hget

/-- What projects a part of a session, and adds to the log. -/
abbrev Projecting := StateM OmissionLog

def addOmission (key : OmissionKey) (omitted : Omitted) : Projecting Unit := modify fun log => log.add key omitted

/-! ### Shortening -/

structure DetailLimits where
  maxListItems : ℕ
  maxStringBytes : ℕ

section Sampling

variable (limits : DetailLimits)

mutual

/-- `_sample_value`, of a document whose dictionaries are in the order of their keys. -/
def sampleValue : String → Json → Projecting Json
  | sec, .str s =>
    if Utf8.size s.toList ≤ limits.maxStringBytes then pure (.str s)
    else do
      let sampled := Utf8.fitting limits.maxStringBytes s.toList
      addOmission (sec, .stringSampled) (0, Utf8.size s.toList - Utf8.size sampled)
      return .str (String.ofList sampled)
  | sec, .arr items => do
    if items.length > limits.maxListItems then
      addOmission (sec, .listSampled) (items.length - limits.maxListItems, 0)
    return .arr (← sampleItems (sec ++ "[]") limits.maxListItems items)
  | sec, .obj fields => do
    if fields.length > limits.maxListItems then
      addOmission (sec, .mappingSampled) (fields.length - limits.maxListItems, 0)
    return .obj (← sampleFields sec limits.maxListItems fields)
  | _, v => pure v

def sampleItems : String → ℕ → List Json → Projecting (List Json)
  | sec, n + 1, v :: vs => do return (← sampleValue sec v) :: (← sampleItems sec n vs)
  | _, _, _ => pure []

def sampleFields : String → ℕ → List (String × Json) → Projecting (List (String × Json))
  | sec, n + 1, (key, v) :: fs => do
    return (key, ← sampleValue (sec ++ "." ++ key) v) :: (← sampleFields sec n fs)
  | _, _, _ => pure []

end

end Sampling

/-! ### Documents that are shortened -/

mutual

/-- A document with the first items of the lists, the first fields of the dictionaries and the starts of the
strings of its original, which comes last. -/
inductive Shortened : Json → Json → Prop
  | same (v : Json) : Shortened v v
  | str {t s : String} : t.toList <+: s.toList → Shortened (.str t) (.str s)
  | arr {ws vs : List Json} : ShortenedItems ws vs → Shortened (.arr ws) (.arr vs)
  | obj {gs fs : List (String × Json)} : ShortenedFields gs fs → Shortened (.obj gs) (.obj fs)

inductive ShortenedItems : List Json → List Json → Prop
  | nil (vs : List Json) : ShortenedItems [] vs
  | cons {w v : Json} {ws vs : List Json} : Shortened w v → ShortenedItems ws vs →
      ShortenedItems (w :: ws) (v :: vs)

inductive ShortenedFields : List (String × Json) → List (String × Json) → Prop
  | nil (fs : List (String × Json)) : ShortenedFields [] fs
  | cons {key : String} {w v : Json} {gs fs : List (String × Json)} : Shortened w v → ShortenedFields gs fs →
      ShortenedFields ((key, w) :: gs) ((key, v) :: fs)

end

/-- Whatever the log holds, a program gives a value with a property. -/
def Gives {α : Type} (m : Projecting α) (p : α → Prop) : Prop := ∀ log : OmissionLog, p (m.run log).1

section Shortened

variable (limits : DetailLimits)

theorem shortened_sampleItems {vs : List Json} (sec : String) (n : ℕ)
    (hvs : ∀ v ∈ vs, ∀ sec, Gives (sampleValue limits sec v) fun w => Shortened w v) :
    Gives (sampleItems limits sec n vs) fun ws => ShortenedItems ws vs := by
  induction vs generalizing n with
  | nil => cases n <;> exact fun _ => .nil _
  | cons v vs ih =>
    cases n with
    | zero => exact fun _ => .nil _
    | succ n =>
      obtain ⟨hv, hvs⟩ := List.forall_mem_cons.mp hvs
      exact fun log => .cons (hv sec log) (ih n hvs _)

theorem shortened_sampleFields {fs : List (String × Json)} (sec : String) (n : ℕ)
    (hfs : ∀ f ∈ fs, ∀ sec, Gives (sampleValue limits sec f.2) fun w => Shortened w f.2) :
    Gives (sampleFields limits sec n fs) fun gs => ShortenedFields gs fs := by
  induction fs generalizing n with
  | nil => cases n <;> exact fun _ => .nil _
  | cons f fs ih =>
    cases n with
    | zero => exact fun _ => .nil _
    | succ n =>
      obtain ⟨hf, hfs⟩ := List.forall_mem_cons.mp hfs
      exact fun log => .cons (hf _ log) (ih n hfs _)

theorem shortened_sampleValue (v : Json) (sec : String) :
    Gives (sampleValue limits sec v) fun w => Shortened w v := by
  induction v using Json.induct generalizing sec with
  | null => exact fun _ => .same _
  | bool b => exact fun _ => .same _
  | int i => exact fun _ => .same _
  | float bits => exact fun _ => .same _
  | str s =>
    intro log
    rw [sampleValue]
    split_ifs
    · exact .same _
    · refine .str ?_
      rw [String.toList_ofList]
      exact Utf8.fitting_prefix _ _
  | arr items ih =>
    intro log
    rw [sampleValue]
    split_ifs <;> exact .arr (shortened_sampleItems limits _ _ ih _)
  | obj fields ih =>
    intro log
    rw [sampleValue]
    split_ifs <;> exact .obj (shortened_sampleFields limits _ _ ih _)

end Shortened

/-! ### What a document lacks of its original -/

section LeftOut

variable (k : OmissionKey)

mutual

/-- What is left out under a section and a reason of an original, which comes last, where it is shortened. -/
def leftOut : String → Json → Json → Omitted
  | sec, .str t, .str s => if (sec, .stringSampled) = k then (0, s.utf8ByteSize - t.utf8ByteSize) else 0
  | sec, .arr ws, .arr vs =>
    (if (sec, .listSampled) = k then (vs.length - ws.length, 0) else 0) + leftOutItems (sec ++ "[]") ws vs
  | sec, .obj gs, .obj fs =>
    (if (sec, .mappingSampled) = k then (fs.length - gs.length, 0) else 0) + leftOutFields sec gs fs
  | _, _, _ => 0

def leftOutItems : String → List Json → List Json → Omitted
  | sec, w :: ws, v :: vs => leftOut sec w v + leftOutItems sec ws vs
  | _, _, _ => 0

/-- The fields of the original are found by their keys. -/
def leftOutFields : String → List (String × Json) → List (String × Json) → Omitted
  | sec, (key, w) :: gs, fs =>
    (match Json.field fs key with
      | some v => leftOut (sec ++ "." ++ key) w v
      | none => 0) + leftOutFields sec gs fs
  | _, [], _ => 0

end

variable {k} {sec : String}

@[simp] theorem leftOutItems_nil (vs : List Json) : leftOutItems k sec [] vs = 0 := by
  rw [leftOutItems]
  nofun

@[simp] theorem leftOutItems_cons (w v : Json) (ws vs : List Json) :
    leftOutItems k sec (w :: ws) (v :: vs) = leftOut k sec w v + leftOutItems k sec ws vs := by
  rw [leftOutItems]

theorem leftOut_arr {ws vs : List Json} (h : ws.length = vs.length) :
    leftOut k sec (.arr ws) (.arr vs) = leftOutItems k (sec ++ "[]") ws vs := by
  have hnone : (if (sec, .listSampled) = k then ((0, 0) : Omitted) else 0) = 0 := ite_self _
  rw [leftOut, h, Nat.sub_self, hnone, zero_add]

theorem leftOut_obj {gs fs : List (String × Json)} (h : gs.length = fs.length) :
    leftOut k sec (.obj gs) (.obj fs) = leftOutFields k sec gs fs := by
  have hnone : (if (sec, .mappingSampled) = k then ((0, 0) : Omitted) else 0) = 0 := ite_self _
  rw [leftOut, h, Nat.sub_self, hnone, zero_add]

@[simp] theorem leftOut_nil : leftOut k sec (.arr []) (.arr []) = 0 := by
  rw [leftOut_arr rfl, leftOutItems_nil]

@[simp] theorem leftOut_singleton (w v : Json) :
    leftOut k sec (.arr [w]) (.arr [v]) = leftOut k (sec ++ "[]") w v := by
  rw [leftOut_arr (by rfl), leftOutItems_cons, leftOutItems_nil, add_zero]

theorem leftOutItems_self {vs : List Json} (h : ∀ v ∈ vs, ∀ sec, leftOut k sec v v = 0) :
    leftOutItems k sec vs vs = 0 := by
  induction vs with
  | nil => exact leftOutItems_nil _
  | cons v vs ih =>
    obtain ⟨hv, hvs⟩ := List.forall_mem_cons.mp h
    rw [leftOutItems_cons, hv, ih hvs, add_zero]

theorem leftOutFields_self {fs all : List (String × Json)} (hfs : ∀ f ∈ fs, ∀ sec, leftOut k sec f.2 f.2 = 0)
    (hall : ∀ f ∈ fs, Json.field all f.1 = some f.2) : leftOutFields k sec fs all = 0 := by
  induction fs with
  | nil => rw [leftOutFields]
  | cons f fs ih =>
    obtain ⟨key, v⟩ := f
    obtain ⟨hv, hfs⟩ := List.forall_mem_cons.mp hfs
    obtain ⟨hfield, hall⟩ := List.forall_mem_cons.mp hall
    rw [leftOutFields, hfield, ih hfs hall]
    dsimp only
    rw [hv, add_zero]

/-- Nothing is left out of a document that is as it was. -/
theorem leftOut_self {v : Json} (hv : v.Sorted) (sec : String) : leftOut k sec v v = 0 := by
  induction v using Json.induct generalizing sec with
  | null => rfl
  | bool b => rfl
  | int i => rfl
  | float bits => rfl
  | str s =>
    rw [leftOut, Nat.sub_self]
    exact ite_self _
  | arr items ih =>
    rw [leftOut_arr rfl]
    exact leftOutItems_self fun v hmem => ih v hmem (Json.sorted_arr.mp hv v hmem)
  | obj fields ih =>
    have hsorted := (Json.sorted_obj.mp hv).2
    rw [leftOut_obj rfl]
    exact leftOutFields_self (fun f hf => ih f hf (hsorted f hf)) fun f hf => hv.field hf

end LeftOut

/-! ### The log against the documents -/

section Accounts

variable {α β : Type} {k : OmissionKey}

theorem run_pure (a : α) (log : OmissionLog) : (pure a : Projecting α).run log = (a, log) := rfl

theorem run_bind (m : Projecting α) (f : α → Projecting β) (log : OmissionLog) :
    (m >>= f).run log = (f (m.run log).1).run (m.run log).2 := rfl

theorem run_addOmission (key : OmissionKey) (omitted : Omitted) (log : OmissionLog) :
    (addOmission key omitted).run log = ((), log.add key omitted) := rfl

/-- A program adds to what is counted under a key what its result lacks. -/
def Accounts (k : OmissionKey) (m : Projecting α) (left : α → Omitted) : Prop :=
  ∀ log : OmissionLog, (m.run log).2.amount k = log.amount k + left (m.run log).1

theorem accounts_pure {a : α} {left : α → Omitted} (h : left a = 0) : Accounts k (pure a) left := by
  intro log
  rw [run_pure, h, add_zero]

theorem Accounts.map {m : Projecting α} {left : α → Omitted} {f : α → β} {left' : β → Omitted}
    (h : Accounts k m left) (hleft : ∀ a, left' (f a) = left a) :
    Accounts k (do return f (← m)) left' := by
  intro log
  rw [run_bind, run_pure, h log, hleft]

/-- An omission that is noted before the rest is projected. -/
theorem Accounts.after {m : Projecting α} {left left' : α → Omitted} {key : OmissionKey} {omitted : Omitted}
    (h : Accounts k m left) (hleft : ∀ a, left' a = (if key = k then omitted else 0) + left a) :
    Accounts k (do addOmission key omitted; m) left' := by
  intro log
  rw [run_bind, run_addOmission, h, amount_add, hleft, add_assoc]

theorem Accounts.both {γ : Type} {m : Projecting α} {left : α → Omitted} {m' : Projecting β}
    {left' : β → Omitted} {g : α → β → γ} {leftBoth : γ → Omitted} (h : Accounts k m left)
    (h' : Accounts k m' left') (hleft : ∀ a b, leftBoth (g a b) = left a + left' b) :
    Accounts k (do return g (← m) (← m')) leftBoth := by
  intro log
  rw [run_bind, run_bind, run_pure, h', h, hleft, add_assoc]

/-- A list that is cut to a number of items. -/
theorem Accounts.cut {m : Projecting (List α)} {left : List α → Omitted} {f : List α → β} {left' : β → Omitted}
    {key : OmissionKey} {n len : ℕ} (h : Accounts k m left) (hlength : ∀ log, (m.run log).1.length = min n len)
    (hleft : ∀ as, left' (f as) = (if key = k then (len - as.length, 0) else 0) + left as) :
    Accounts k (do if len > n then addOmission key (len - n, 0)
                   return f (← m)) left' := by
  intro log
  split_ifs with hlong
  · rw [run_bind, run_addOmission, run_bind, run_pure, h, hleft, hlength, Nat.min_eq_left hlong.le, amount_add,
      add_assoc]
  · have hnone : (if key = k then ((0, 0) : Omitted) else 0) = 0 := ite_self _
    rw [run_bind, run_pure, h, hleft, hlength, Nat.min_eq_right (not_lt.mp hlong), Nat.sub_self, hnone, zero_add]

variable {limits : DetailLimits}

theorem length_sampleItems (sec : String) (n : ℕ) (vs : List Json) (log : OmissionLog) :
    ((sampleItems limits sec n vs).run log).1.length = min n vs.length := by
  induction vs generalizing n log with
  | nil => cases n <;> rfl
  | cons v vs ih =>
    cases n with
    | zero => rfl
    | succ n =>
      rw [sampleItems, run_bind, run_bind, run_pure, List.length_cons, ih, List.length_cons, Nat.add_min_add_right]

theorem length_sampleFields (sec : String) (n : ℕ) (fs : List (String × Json)) (log : OmissionLog) :
    ((sampleFields limits sec n fs).run log).1.length = min n fs.length := by
  induction fs generalizing n log with
  | nil => cases n <;> rfl
  | cons f fs ih =>
    cases n with
    | zero => rfl
    | succ n =>
      rw [sampleFields, run_bind, run_bind, run_pure, List.length_cons, ih, List.length_cons, Nat.add_min_add_right]

variable (limits) in
theorem accounts_sampleItems (sec : String) {vs : List Json} (n : ℕ)
    (hvs : ∀ v ∈ vs, ∀ sec, Accounts k (sampleValue limits sec v) fun w => leftOut k sec w v) :
    Accounts k (sampleItems limits sec n vs) fun ws => leftOutItems k sec ws vs := by
  induction vs generalizing n with
  | nil => cases n <;> exact accounts_pure rfl
  | cons v vs ih =>
    cases n with
    | zero => exact accounts_pure rfl
    | succ n =>
      obtain ⟨hv, hvs⟩ := List.forall_mem_cons.mp hvs
      exact (hv sec).both (g := List.cons) (ih n hvs) fun _ _ => rfl

variable (limits) in
/-- The fields of an original that are found under their keys. -/
theorem accounts_sampleFields (sec : String) {fs all : List (String × Json)} (n : ℕ)
    (hfs : ∀ f ∈ fs, ∀ sec, Accounts k (sampleValue limits sec f.2) fun w => leftOut k sec w f.2)
    (hall : ∀ f ∈ fs, Json.field all f.1 = some f.2) :
    Accounts k (sampleFields limits sec n fs) fun gs => leftOutFields k sec gs all := by
  induction fs generalizing n with
  | nil => cases n <;> exact accounts_pure rfl
  | cons f fs ih =>
    cases n with
    | zero => exact accounts_pure rfl
    | succ n =>
      obtain ⟨key, v⟩ := f
      obtain ⟨hv, hfs⟩ := List.forall_mem_cons.mp hfs
      obtain ⟨hfield, hall⟩ := List.forall_mem_cons.mp hall
      refine (hv (sec ++ "." ++ key)).both (g := fun w gs => (key, w) :: gs) (ih n hfs hall) ?_
      intro w gs
      rw [leftOutFields, hfield]

theorem accounts_sampleValue {v : Json} (hv : v.Sorted) (sec : String) :
    Accounts k (sampleValue limits sec v) fun w => leftOut k sec w v := by
  induction v using Json.induct generalizing sec with
  | null => exact accounts_pure rfl
  | bool b => exact accounts_pure rfl
  | int i => exact accounts_pure rfl
  | float bits => exact accounts_pure rfl
  | str s =>
    have hsize : s.utf8ByteSize = Utf8.size s.toList := by rw [← Utf8.utf8ByteSize_ofList, String.ofList_toList]
    rw [sampleValue]
    split_ifs with hshort
    · apply accounts_pure
      rw [leftOut, Nat.sub_self]
      exact ite_self _
    · intro log
      rw [run_bind, run_addOmission, run_pure, amount_add]
      dsimp only
      rw [leftOut, Utf8.utf8ByteSize_ofList, hsize]
  | arr items ih =>
    have hitems := accounts_sampleItems limits (sec ++ "[]") limits.maxListItems
      fun v hmem => ih v hmem (Json.sorted_arr.mp hv v hmem)
    rw [sampleValue]
    refine hitems.cut (fun log => length_sampleItems _ _ _ log) ?_
    intro ws
    rw [leftOut]
  | obj fields ih =>
    have hsorted := (Json.sorted_obj.mp hv).2
    have hfields := accounts_sampleFields limits sec limits.maxListItems
      (fun f hmem => ih f hmem (hsorted f hmem)) fun f hmem => hv.field hmem
    rw [sampleValue]
    refine hfields.cut (fun log => length_sampleFields _ _ _ log) ?_
    intro gs
    rw [leftOut]

end Accounts

end CuTracer.Service.Prompt
