import CuTracer.Library.JsonText

/-! A reader of the texts of documents without floats: with it, writing such a document loses
nothing. -/

namespace CuTracer.Json

variable {ascii : Bool} {v : Json}

def readWord (cs : List Char) : Option (Json × List Char) :=
  if "null".toList.isPrefixOf cs then some (.null, cs.drop 4)
  else if "true".toList.isPrefixOf cs then some (.bool true, cs.drop 4)
  else if "false".toList.isPrefixOf cs then some (.bool false, cs.drop 5)
  else none

def readAtom (cs : List Char) : Option (Json × List Char) :=
  if cs.head? = some '-' then
    some (.int (-(Nat.ofDigitChars 10 (cs.tail.takeWhile Char.isDigit) 0 : ℤ)), cs.tail.dropWhile Char.isDigit)
  else if (cs.head?.map Char.isDigit).getD false then readNat cs
  else readWord cs

def exactNode : Json → Bool
  | .float _ => false
  | _ => true

/-- No number of the document is a float. -/
def Exact (v : Json) : Prop := everywhere exactNode v

instance (v : Json) : Decidable (Exact v) := inferInstanceAs (Decidable (_ = true))


theorem write_neg (ascii : Bool) (n : ℕ) : write ascii (.int (-(n + 1 : ℤ))) = '-' :: Nat.toDigits 10 (n + 1) := by
  rw [write]
  have : (-(n + 1 : ℤ)) = Int.negSucc n := rfl
  rw [this]
  have : toString (Int.negSucc n) = "-" ++ (n + 1).repr := rfl
  rw [this, String.toList_append, Nat.toList_repr]
  rfl

theorem readsAtom_readAtom (hv : exactNode v) (ha : isAtom v) : ReadsAtom ascii readAtom v := by
  cases v with
  | str s => cases ha
  | arr items => cases ha
  | obj fields => cases ha
  | float bits => cases hv
  | null => exact ⟨fun _ => rfl, 'n', _, rfl, by decide⟩
  | bool b =>
    cases b with
    | true => exact ⟨fun _ => rfl, 't', _, rfl, by decide⟩
    | false => exact ⟨fun _ => rfl, 'f', _, rfl, by decide⟩
  | int i =>
    obtain ⟨n, rfl⟩ | ⟨n, rfl⟩ : (∃ n : ℕ, i = n) ∨ ∃ n : ℕ, i = -(n + 1 : ℤ) := by
      cases i with
      | ofNat n => exact .inl ⟨n, rfl⟩
      | negSucc n => exact .inr ⟨n, rfl⟩
    · obtain ⟨c, ds, hdigits, hc⟩ := toDigits_cons n
      refine ⟨fun {rest} hrest => ?_, (readsAtom_readNat n).head⟩
      have hread : readNat (write ascii (.int n) ++ rest) = _ := (readsAtom_readNat n).read hrest
      rw [write_nat, hdigits, List.cons_append] at hread ⊢
      rw [readAtom, List.head?_cons, if_neg, Option.map_some, Option.getD_some, if_pos hc, hread]
      rintro heq
      cases heq
      cases hc
    · refine ⟨fun {rest} hrest => ?_, '-', _, write_neg ascii n, by decide⟩
      have hall : ∀ d ∈ Nat.toDigits 10 (n + 1), d.isDigit = true := fun d hd =>
        Nat.isDigit_of_mem_toDigits (by decide) (by decide) hd
      obtain ⟨htake, hdrop⟩ := span_digits hall hrest
      rw [write_neg, List.cons_append, readAtom, List.head?_cons, if_pos rfl, List.tail_cons, htake, hdrop,
        Nat.ofDigitChars_ten_toDigits]
      rfl

def parse (text : String) : Option Json :=
  (readWith readAtom text.length text.toList).bind fun p => if p.2 = [] then some p.1 else none

theorem parse_dump (ascii : Bool) (hv : Exact v) : parse (dump ascii v) = some v := by
  have hread : readWith readAtom (write ascii v).length (write ascii v ++ []) = some (v, []) :=
    readWith_write (fun _ => readsAtom_readAtom) hv (le_refl _) (fun c hc => by cases hc)
  rw [List.append_nil] at hread
  rw [parse, dump, String.length_ofList, String.toList_ofList, hread]
  rfl

theorem dump_injective (ascii : Bool) {v w : Json} (hv : Exact v) (hw : Exact w)
    (h : dump ascii v = dump ascii w) : v = w := by
  apply Option.some.inj
  rw [← parse_dump ascii hv, h, parse_dump ascii hw]

end CuTracer.Json
