import CuTracer.Library.Fallible
import CuTracer.Library.JsonTree

/-! Rearranged documents. A shape says which arrays of a document may stand in another
order, which may besides repeat their items, and what is inside them; two documents of
one shape are rearrangements of each other. What reads one array item by item reads any
rearrangement of it. -/

namespace CuTracer

/-! ### Lists in another order -/

variable {α β γ δ ε : Type}

/-- The same items up to a relation, in any order. -/
def Shuffled (R : α → β → Prop) (xs : List α) (ys : List β) : Prop :=
  ∃ zs, xs.Perm zs ∧ List.Forall₂ R zs ys

/-- Each item has a related one on the other side. -/
def SameItems (R : α → β → Prop) (xs : List α) (ys : List β) : Prop :=
  (∀ x ∈ xs, ∃ y ∈ ys, R x y) ∧ ∀ y ∈ ys, ∃ x ∈ xs, R x y

namespace Shuffled

variable {R : α → β → Prop} {xs : List α} {ys : List β}

theorem length_eq (h : Shuffled R xs ys) : xs.length = ys.length := by
  obtain ⟨zs, hperm, hzs⟩ := h
  exact hperm.length_eq.trans hzs.length_eq

theorem of_forall₂ (h : List.Forall₂ R xs ys) : Shuffled R xs ys := ⟨xs, List.Perm.refl xs, h⟩

theorem imp {Q : α → β → Prop} (hRQ : ∀ x y, R x y → Q x y) (h : Shuffled R xs ys) :
    Shuffled Q xs ys := by
  obtain ⟨zs, hperm, hzs⟩ := h
  exact ⟨zs, hperm, hzs.imp fun x y => hRQ x y⟩

theorem symm {Q : β → α → Prop} (hRQ : ∀ x y, R x y → Q y x) (h : Shuffled R xs ys) :
    Shuffled Q ys xs := by
  obtain ⟨zs, hperm, hzs⟩ := h
  obtain ⟨us, hus, hperm'⟩ := List.perm_comp_forall₂ hperm hzs
  exact ⟨us, hperm'.symm, hus.flip.imp fun y x => hRQ x y⟩

theorem sameItems (h : Shuffled R xs ys) : SameItems R xs ys := by
  obtain ⟨zs, hperm, hzs⟩ := h
  constructor
  · intro x hx
    obtain ⟨y, hy, hxy⟩ := forall₂_mem_right hzs.flip (hperm.mem_iff.mp hx)
    exact ⟨y, hy, hxy⟩
  · intro y hy
    obtain ⟨x, hx, hxy⟩ := forall₂_mem_right hzs hy
    exact ⟨x, hperm.mem_iff.mpr hx, hxy⟩

/-- The related items are items of the list. -/
theorem with_mem (h : Shuffled R xs ys) : Shuffled (fun x y => R x y ∧ y ∈ ys) xs ys := by
  obtain ⟨zs, hperm, hzs⟩ := h
  refine ⟨zs, hperm, ?_⟩
  clear hperm
  induction hzs with
  | nil => exact .nil
  | cons hxy _ ih =>
    exact .cons ⟨hxy, List.mem_cons_self⟩
      (ih.imp fun x y hxy => ⟨hxy.1, List.mem_cons_of_mem _ hxy.2⟩)

theorem append {xs' : List α} {ys' : List β} (h : Shuffled R xs ys) (h' : Shuffled R xs' ys') :
    Shuffled R (xs ++ xs') (ys ++ ys') := by
  obtain ⟨zs, hperm, hzs⟩ := h
  obtain ⟨zs', hperm', hzs'⟩ := h'
  exact ⟨zs ++ zs', hperm.append hperm', List.rel_append hzs hzs'⟩

theorem flatten {xss : List (List α)} {yss : List (List β)}
    (h : Shuffled (Shuffled R) xss yss) : Shuffled R xss.flatten yss.flatten := by
  obtain ⟨zss, hperm, hzss⟩ := h
  have hflat : Shuffled R zss.flatten yss.flatten := by
    clear hperm
    induction hzss with
    | nil => exact .of_forall₂ .nil
    | cons h _ ih => exact h.append ih
  obtain ⟨zs, hzs, hrel⟩ := hflat
  exact ⟨zs, hperm.flatten.trans hzs, hrel⟩

theorem eq_iff {xs ys : List α} : Shuffled Eq xs ys ↔ xs.Perm ys := by
  constructor
  · rintro ⟨zs, hperm, hzs⟩
    rw [List.forall₂_eq_eq_eq] at hzs
    exact hzs ▸ hperm
  · exact fun h => ⟨ys, h, List.forall₂_refl ys⟩

/-- What is found for every item is found for the items in another order. -/
theorem exists_forall₂ {S : γ → δ → Prop} {P : α → γ → Prop} {Q : β → δ → Prop}
    (hPQ : ∀ x y c, R x y → P x c → ∃ d, Q y d ∧ S c d) (h : Shuffled R xs ys) {cs : List γ}
    (hcs : List.Forall₂ P xs cs) : ∃ ds, List.Forall₂ Q ys ds ∧ Shuffled S cs ds := by
  obtain ⟨zs, hperm, hzs⟩ := h
  obtain ⟨es, hes, hperm'⟩ := List.perm_comp_forall₂ hperm.symm hcs
  have hds : ∃ ds, List.Forall₂ Q ys ds ∧ List.Forall₂ S es ds := by
    clear hperm hperm' hcs
    induction hzs generalizing es with
    | nil =>
      cases hes
      exact ⟨[], .nil, .nil⟩
    | @cons z y zs ys hzy _ ih =>
      cases hes with
      | cons he hes =>
        obtain ⟨d, hd, hed⟩ := hPQ z y _ hzy he
        obtain ⟨ds, hds, hesds⟩ := ih _ hes
        exact ⟨d :: ds, .cons hd hds, .cons hed hesds⟩
  obtain ⟨ds, hds, hesds⟩ := hds
  exact ⟨ds, hds, es, hperm'.symm, hesds⟩

/-- Reading items in another order. -/
theorem mapM {S : γ → δ → Prop} {f : α → Except ε γ} {g : β → Except ε δ}
    (hfg : ∀ x y, R x y → Coupled S (f x) (g y)) (h : Shuffled R xs ys) :
    Coupled (Shuffled S) (xs.mapM f) (ys.mapM g) := by
  intro cs hcs
  obtain ⟨ds, hds, hcsds⟩ := h.exists_forall₂ (fun x y c hxy hc => hfg x y hxy c hc) (mapM_ok.mp hcs)
  exact ⟨ds, mapM_ok.mpr hds, hcsds⟩

end Shuffled

/-- Reading items with repetitions. -/
theorem SameItems.mapM {R : α → β → Prop} {xs : List α} {ys : List β} {S : γ → δ → Prop}
    {f : α → Except ε γ} {g : β → Except ε δ} (hfg : ∀ x y, R x y → Coupled S (f x) (g y))
    (h : SameItems R xs ys) : Coupled (SameItems S) (xs.mapM f) (ys.mapM g) := by
  intro cs hcs
  rw [mapM_ok] at hcs
  have hread : ∀ x ∈ xs, ∃ c ∈ cs, f x = .ok c := fun x hx => forall₂_mem_right hcs.flip hx
  have hback : ∀ y ∈ ys, ∃ d, g y = .ok d := fun y hy => by
    obtain ⟨x, hx, hxy⟩ := h.2 y hy
    obtain ⟨c, -, hc⟩ := hread x hx
    obtain ⟨d, hd, -⟩ := hfg x y hxy c hc
    exact ⟨d, hd⟩
  obtain ⟨ds, hds⟩ := CuTracer.exists_forall₂.mpr hback
  refine ⟨ds, mapM_ok.mpr hds, fun c hc => ?_, fun d hd => ?_⟩
  · obtain ⟨x, hx, hxc⟩ := forall₂_mem_right hcs hc
    obtain ⟨y, hy, hxy⟩ := h.1 x hx
    obtain ⟨d, hd, hcd⟩ := hfg x y hxy c hxc
    obtain ⟨e, he, hye⟩ := forall₂_mem_right hds.flip hy
    rw [hd] at hye
    exact ⟨d, Except.ok.inj hye ▸ he, hcd⟩
  · obtain ⟨y, hy, hyd⟩ := forall₂_mem_right hds hd
    obtain ⟨x, hx, hxy⟩ := h.2 y hy
    obtain ⟨c, hc, hxc⟩ := hread x hx
    obtain ⟨e, he, hce⟩ := hfg x y hxy c hxc
    rw [hyd] at he
    exact ⟨c, hc, Except.ok.inj he ▸ hce⟩

/-! ### Shapes -/

namespace Json

/-- What may be rearranged in a document. -/
inductive Shape where
  /-- Nothing. -/
  | exact
  /-- An array may stand in another order. -/
  | items (s : Shape)
  /-- An array may besides repeat its items. -/
  | repeats (s : Shape)
  /-- The fields of an object may be rearranged. -/
  | fields (f : String → Shape)

/-- Two documents are rearrangements of each other. -/
def Shape.Rel : Shape → Json → Json → Prop
  | .exact, a, b => a = b
  | .items s, a, b => a = b ∨ ∃ xs ys, a = .arr xs ∧ b = .arr ys ∧ Shuffled s.Rel xs ys
  | .repeats s, a, b => a = b ∨ ∃ xs ys, a = .arr xs ∧ b = .arr ys ∧ SameItems s.Rel xs ys
  | .fields f, a, b => a = b ∨ ∃ fs gs, a = .obj fs ∧ b = .obj gs ∧
      List.Forall₂ (fun p q => p.1 = q.1 ∧ (f p.1).Rel p.2 q.2) fs gs

theorem Shape.refl (s : Shape) (a : Json) : s.Rel a a := by
  cases s with
  | exact => exact rfl
  | items s => exact .inl rfl
  | repeats s => exact .inl rfl
  | fields f => exact .inl rfl

theorem Shape.symm (s : Shape) {a b : Json} (h : s.Rel a b) : s.Rel b a := by
  induction s generalizing a b with
  | exact => exact Eq.symm h
  | items s ih =>
    rcases h with rfl | ⟨xs, ys, rfl, rfl, h⟩
    · exact .inl rfl
    · exact .inr ⟨ys, xs, rfl, rfl, h.symm fun x y => ih⟩
  | repeats s ih =>
    rcases h with rfl | ⟨xs, ys, rfl, rfl, h⟩
    · exact .inl rfl
    · refine .inr ⟨ys, xs, rfl, rfl, fun y hy => ?_, fun x hx => ?_⟩
      · obtain ⟨x, hx, hxy⟩ := h.2 y hy
        exact ⟨x, hx, ih hxy⟩
      · obtain ⟨y, hy, hxy⟩ := h.1 x hx
        exact ⟨y, hy, ih hxy⟩
  | fields f ih =>
    rcases h with rfl | ⟨fs, gs, rfl, rfl, h⟩
    · exact .inl rfl
    · refine .inr ⟨gs, fs, rfl, rfl, h.flip.imp fun q p hpq => ⟨hpq.1.symm, ?_⟩⟩
      rw [← hpq.1]
      exact ih p.1 hpq.2

/-- A field of an object and of its rearrangement. -/
theorem Shape.field {f : String → Shape} {fs gs : List (String × Json)}
    (h : List.Forall₂ (fun p q => p.1 = q.1 ∧ (f p.1).Rel p.2 q.2) fs gs) (key : String) :
    (field fs key = none ∧ field gs key = none) ∨
      ∃ a b, field fs key = some a ∧ field gs key = some b ∧ (f key).Rel a b := by
  induction h with
  | nil => exact .inl ⟨rfl, rfl⟩
  | @cons p q fs gs hpq h ih =>
    obtain ⟨hkey, hrel⟩ := hpq
    simp only [Json.field, Dict.lookup, ← hkey] at ih ⊢
    split_ifs with hp
    · exact .inr ⟨p.2, q.2, rfl, rfl, hp ▸ hrel⟩
    · exact ih

end Json

end CuTracer
