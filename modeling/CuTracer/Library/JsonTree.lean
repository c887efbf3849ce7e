import CuTracer.Library.Json
import Mathlib.Algebra.BigOperators.Group.List.Basic
import Mathlib.Algebra.GroupWithZero.Nat
import Mathlib.Algebra.Ring.Int.Defs
import Mathlib.Data.List.Sort
import Mathlib.Data.String.Basic

/-! JSON documents as trees: equality is decidable, and a document is read event by
event in the order of its text. A document is sorted if every object is a map with
increasing keys, and plain if besides all its leaves are strings and 64-bit naturals. -/

namespace CuTracer

namespace Json

/-- Induction over a document, with all the items and all the fields of a node at once. -/
theorem induct {P : Json → Prop} (null : P .null) (bool : ∀ b, P (.bool b))
    (int : ∀ i, P (.int i)) (float : ∀ bits, P (.float bits)) (str : ∀ s, P (.str s))
    (arr : ∀ items, (∀ v ∈ items, P v) → P (.arr items))
    (obj : ∀ fields, (∀ f ∈ fields, P f.2) → P (.obj fields)) (v : Json) : P v :=
  @Json.rec P (fun items => ∀ v ∈ items, P v) (fun fields => ∀ f ∈ fields, P f.2)
    (fun f => P f.2) null bool int float str arr obj
    (fun _ h => by cases h) (fun _ _ hv hvs => List.forall_mem_cons.mpr ⟨hv, hvs⟩)
    (fun _ h => by cases h) (fun _ _ hf hfs => List.forall_mem_cons.mpr ⟨hf, hfs⟩)
    (fun _ _ hv => hv) v

/-! ### Equality -/

mutual

/-- Equality of two documents, computed. -/
def same : Json → Json → Bool
  | .null, .null => true
  | .bool a, .bool b => a = b
  | .int a, .int b => a = b
  | .float a, .float b => a = b
  | .str a, .str b => a = b
  | .arr a, .arr b => sameItems a b
  | .obj a, .obj b => sameFields a b
  | _, _ => false

def sameItems : List Json → List Json → Bool
  | [], [] => true
  | a :: as, b :: bs => same a b && sameItems as bs
  | _, _ => false

def sameFields : List (String × Json) → List (String × Json) → Bool
  | [], [] => true
  | (k, a) :: as, (l, b) :: bs => k = l && same a b && sameFields as bs
  | _, _ => false

end

attribute [local simp] same sameItems sameFields

theorem sameItems_iff {a : List Json} (h : ∀ v ∈ a, ∀ w, same v w ↔ v = w) (b : List Json) :
    sameItems a b ↔ a = b := by
  induction a generalizing b with
  | nil => cases b <;> simp
  | cons v vs ih =>
    obtain ⟨hv, hvs⟩ := List.forall_mem_cons.mp h
    cases b with
    | nil => simp
    | cons w ws => simp [hv, ih hvs]

theorem sameFields_iff {a : List (String × Json)} (h : ∀ f ∈ a, ∀ w, same f.2 w ↔ f.2 = w)
    (b : List (String × Json)) : sameFields a b ↔ a = b := by
  induction a generalizing b with
  | nil => cases b <;> simp
  | cons f fs ih =>
    obtain ⟨hf, hfs⟩ := List.forall_mem_cons.mp h
    cases b with
    | nil => simp
    | cons g gs => simp [hf, ih hfs, Prod.ext_iff]

theorem same_iff (v w : Json) : same v w ↔ v = w := by
  induction v using induct generalizing w with
  | null => cases w <;> simp
  | bool b => cases w <;> simp
  | int i => cases w <;> simp
  | float bits => cases w <;> simp
  | str s => cases w <;> simp
  | arr items ih => cases w <;> simp [sameItems_iff ih]
  | obj fields ih => cases w <;> simp [sameFields_iff ih]

instance : DecidableEq Json := fun v w => decidable_of_iff _ (same_iff v w)

/-! ### Nodes -/

mutual

/-- A predicate of every node of a document. -/
def everywhere (p : Json → Bool) : Json → Bool
  | .arr items => p (.arr items) && everywhereItems p items
  | .obj fields => p (.obj fields) && everywhereFields p fields
  | v => p v

def everywhereItems (p : Json → Bool) : List Json → Bool
  | [] => true
  | v :: vs => everywhere p v && everywhereItems p vs

def everywhereFields (p : Json → Bool) : List (String × Json) → Bool
  | [] => true
  | (_, v) :: fs => everywhere p v && everywhereFields p fs

end

attribute [local simp] everywhere everywhereItems everywhereFields

theorem everywhere_arr (p : Json → Bool) (items : List Json) :
    everywhere p (.arr items) ↔ p (.arr items) ∧ ∀ v ∈ items, everywhere p v := by
  have h : everywhereItems p items ↔ ∀ v ∈ items, everywhere p v := by
    induction items with
    | nil => simp
    | cons v vs ih => simp [ih]
  rw [everywhere, Bool.and_eq_true, h]

theorem everywhere_obj (p : Json → Bool) (fields : List (String × Json)) :
    everywhere p (.obj fields) ↔ p (.obj fields) ∧ ∀ f ∈ fields, everywhere p f.2 := by
  have h : everywhereFields p fields ↔ ∀ f ∈ fields, everywhere p f.2 := by
    induction fields with
    | nil => simp
    | cons f fs ih => simp only [everywhereFields, Bool.and_eq_true, ih, List.forall_mem_cons]
  rw [everywhere, Bool.and_eq_true, h]

theorem everywhere_mono {p q : Json → Bool} (hpq : ∀ v, p v → q v) (v : Json)
    (h : everywhere p v) : everywhere q v := by
  induction v using induct with
  | null => exact hpq _ h
  | bool b => exact hpq _ h
  | int i => exact hpq _ h
  | float bits => exact hpq _ h
  | str s => exact hpq _ h
  | arr items ih =>
    rw [everywhere_arr] at h ⊢
    exact ⟨hpq _ h.1, fun v hv => ih v hv (h.2 v hv)⟩
  | obj fields ih =>
    rw [everywhere_obj] at h ⊢
    exact ⟨hpq _ h.1, fun f hf => ih f hf (h.2 f hf)⟩

/-- Increasing keys, as a sorted map iterates them. -/
def keysIncrease (fields : List (String × Json)) : Bool :=
  (fields.map Prod.fst).Pairwise (· < ·)

def sortedNode : Json → Bool
  | .obj fields => keysIncrease fields
  | _ => true

def plainNode : Json → Bool
  | .obj fields => keysIncrease fields
  | .arr _ => true
  | .str _ => true
  | .int i => 0 ≤ i && i < 2 ^ 64
  | _ => false

def Sorted (v : Json) : Prop := everywhere sortedNode v

/-- A sorted document of strings and 64-bit naturals. -/
def Plain (v : Json) : Prop := everywhere plainNode v

attribute [local simp] Sorted Plain keysIncrease sortedNode plainNode

theorem Plain.sorted {v : Json} (h : v.Plain) : v.Sorted := by
  apply everywhere_mono _ v h
  intro w hw
  cases w <;> first | rfl | exact hw

theorem sorted_obj {fields : List (String × Json)} :
    Sorted (.obj fields) ↔
      (fields.map Prod.fst).Pairwise (· < ·) ∧ ∀ f ∈ fields, Sorted f.2 := by
  simp only [Sorted, everywhere_obj, sortedNode, keysIncrease, decide_eq_true_eq]

theorem sorted_arr {items : List Json} : Sorted (.arr items) ↔ ∀ v ∈ items, Sorted v := by
  simp only [Sorted, everywhere_arr, sortedNode, true_and]

@[simp] theorem plain_str (s : String) : Plain (.str s) := rfl

theorem plain_int {i : ℤ} : Plain (.int i) ↔ 0 ≤ i ∧ i < 2 ^ 64 := by
  simp only [Plain, everywhere, plainNode, Bool.and_eq_true, decide_eq_true_eq]

theorem plain_arr {items : List Json} : Plain (.arr items) ↔ ∀ v ∈ items, Plain v := by
  simp only [Plain, everywhere_arr, plainNode, true_and]

theorem plain_obj {fields : List (String × Json)} :
    Plain (.obj fields) ↔
      (fields.map Prod.fst).Pairwise (· < ·) ∧ ∀ f ∈ fields, Plain f.2 := by
  simp only [Plain, everywhere_obj, plainNode, keysIncrease, decide_eq_true_eq]

/-! ### Events -/

/-- What a parser reports as it reads a document. -/
inductive ParseEvent where
  | objectStart
  | objectEnd
  | arrayStart
  | arrayEnd
  | key (k : String)
  | value
  deriving DecidableEq

mutual

/-- The events of a document, each with the depth it is reported at. -/
def events (depth : ℕ) : Json → List (ℕ × ParseEvent)
  | .arr items => (depth, .arrayStart) :: (itemEvents (depth + 1) items ++ [(depth, .arrayEnd)])
  | .obj fields =>
    (depth, .objectStart) :: (fieldEvents (depth + 1) fields ++ [(depth, .objectEnd)])
  | _ => [(depth, .value)]

def itemEvents (depth : ℕ) : List Json → List (ℕ × ParseEvent)
  | [] => []
  | v :: vs => events depth v ++ itemEvents depth vs

def fieldEvents (depth : ℕ) : List (String × Json) → List (ℕ × ParseEvent)
  | [] => []
  | (k, v) :: fs => (depth, .key k) :: (events depth v ++ fieldEvents depth fs)

end

attribute [local simp] events itemEvents fieldEvents

theorem itemEvents_eq (depth : ℕ) (items : List Json) :
    itemEvents depth items = items.flatMap (events depth) := by
  induction items with
  | nil => rfl
  | cons v vs ih => rw [itemEvents, ih, List.flatMap_cons]

theorem fieldEvents_eq (depth : ℕ) (fields : List (String × Json)) :
    fieldEvents depth fields = fields.flatMap fun f => (depth, .key f.1) :: events depth f.2 := by
  induction fields with
  | nil => rfl
  | cons f fs ih => rw [fieldEvents, ih, List.flatMap_cons, List.cons_append]

def nodes (v : Json) : ℕ := (events 0 v).length

/-- The events of a document are as many at any depth. -/
theorem length_events (depth : ℕ) (v : Json) : (events depth v).length = nodes v := by
  rw [nodes]
  generalize 0 = other
  induction v using induct generalizing depth other with
  | null => rfl
  | bool b => rfl
  | int i => rfl
  | float bits => rfl
  | str s => rfl
  | arr items ih =>
    have h : items.map (fun v => (events (depth + 1) v).length) =
        items.map fun v => (events (other + 1) v).length :=
      List.map_congr_left fun v hv => ih v hv _ _
    simp [itemEvents_eq, List.length_flatMap, h]
  | obj fields ih =>
    have h : fields.map (fun f => (events (depth + 1) f.2).length + 1) =
        fields.map fun f => (events (other + 1) f.2).length + 1 :=
      List.map_congr_left fun f hf => congrArg (· + 1) (ih f hf _ _)
    simp [fieldEvents_eq, List.length_flatMap, h]

theorem nodes_arr (items : List Json) : nodes (.arr items) = (items.map nodes).sum + 2 := by
  rw [nodes, events, itemEvents_eq, List.length_cons, List.length_append, List.length_flatMap]
  simp [length_events]

theorem nodes_obj (fields : List (String × Json)) :
    nodes (.obj fields) = (fields.map fun f => nodes f.2 + 1).sum + 2 := by
  rw [nodes, events, fieldEvents_eq, List.length_cons, List.length_append, List.length_flatMap]
  simp [length_events]

/-- Every event is at most `n` levels below the document's own. -/
def Shallow (n : ℕ) (v : Json) : Prop := ∀ depth, ∀ e ∈ events depth v, e.1 ≤ depth + n

theorem shallow_arr {n : ℕ} {items : List Json} (h : ∀ v ∈ items, Shallow n v) :
    Shallow (n + 1) (.arr items) := by
  intro depth e he
  simp only [events, itemEvents_eq, List.mem_cons, List.mem_append, List.mem_flatMap,
    List.not_mem_nil, or_false] at he
  rcases he with rfl | ⟨v, hv, he⟩ | rfl
  · simp
  · have := h v hv _ e he
    omega
  · simp

theorem shallow_obj {n : ℕ} {fields : List (String × Json)} (h : ∀ f ∈ fields, Shallow n f.2) :
    Shallow (n + 1) (.obj fields) := by
  intro depth e he
  simp only [events, fieldEvents_eq, List.mem_cons, List.mem_append, List.mem_flatMap,
    List.not_mem_nil, or_false] at he
  rcases he with rfl | ⟨f, hf, rfl | he⟩ | rfl
  · simp
  · simp only; omega
  · have := h f hf _ e he
    omega
  · simp

theorem shallow_str (n : ℕ) (s : String) : Shallow n (.str s) := by
  intro depth e he
  obtain rfl := List.mem_singleton.mp he
  simp

theorem shallow_int (n : ℕ) (i : ℤ) : Shallow n (.int i) := by
  intro depth e he
  obtain rfl := List.mem_singleton.mp he
  simp

end Json

end CuTracer
