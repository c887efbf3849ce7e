import CuTracer.Plan.Contracts

/-! What the checks on JSON values accept: for each check, the values it accepts and
what it returns of them, and that the canonical form of what it returned is accepted
again and returned as it is. -/

namespace CuTracer.Plan

variable {j : Json}

/-! ### Objects -/

theorem fail_ne {α : Type} {detail : String} {a : α} : fail detail ≠ .ok a := fun h => by cases h

theorem member_obj_cons (k key : String) (value : Json) (fields : List (String × Json)) :
    member (.obj ((k, value) :: fields)) key =
      if k = key then .ok value else member (.obj fields) key := by
  by_cases h : k = key
  · simp [member, Json.field, Dict.lookup, h]
  · simp [member, Json.field, Dict.lookup, h]

theorem contains_obj_cons (k key : String) (value : Json) (fields : List (String × Json)) :
    contains (.obj ((k, value) :: fields)) key =
      if k = key then true else contains (.obj fields) key := by
  by_cases h : k = key
  · simp [contains, Json.field, Dict.lookup, h]
  · simp [contains, Json.field, Dict.lookup, h]

theorem isSome_field {fields : List (String × Json)} {key : String}
    (h : key ∈ fields.map Prod.fst) : (Json.field fields key).isSome = true := by
  induction fields with
  | nil => cases h
  | cons f fs ih =>
    rw [Json.field, Dict.lookup]
    split_ifs with hf
    · rfl
    · rcases List.mem_cons.mp h with h | h
      · exact absurd h.symm hf
      · exact ih h

/-- An object with the expected keys in any order. -/
theorem keys_obj {fields : List (String × Json)} {expected : List String} (names : List String)
    (hnames : fields.map Prod.fst = names) (h : expected.Perm names) :
    keys (.obj fields) expected = .ok () := by
  subst hnames
  have hlen : fields.length = expected.length := by simpa using h.length_eq.symm
  rw [keys, if_neg (by simpa using hlen)]
  have hall : ∀ key ∈ expected, (Json.field fields key).isSome = true := fun key hkey =>
    isSome_field (h.mem_iff.mp hkey)
  clear h hlen
  induction expected with
  | nil => rfl
  | cons key rest ih =>
    obtain ⟨hkey, hrest⟩ := List.forall_mem_cons.mp hall
    rw [List.forM_eq_forM, List.forM_cons, if_pos hkey, ok_bind]
    exact ih hrest

theorem member_ok {key : String} {w : Json} (h : member j key = .ok w) :
    ∃ fields, j = .obj fields ∧ Json.field fields key = some w := by
  unfold member at h
  split at h
  · next fields =>
    split at h
    · next hfield => exact ⟨fields, rfl, Except.ok.inj h ▸ hfield⟩
    · exact absurd h fail_ne
  · exact absurd h fail_ne

theorem mem_of_field {fields : List (String × Json)} {key : String} {w : Json}
    (h : Json.field fields key = some w) : (key, w) ∈ fields := by
  induction fields with
  | nil => cases h
  | cons f fs ih =>
    rw [Json.field, Dict.lookup] at h
    split_ifs at h with hf
    · cases h
      exact List.mem_cons.mpr (.inl (Prod.ext hf.symm rfl))
    · exact List.mem_cons_of_mem f (ih h)

/-! ### Scalars -/

/-- What `text` accepts. -/
structure IsText (value : String) : Prop where
  ne : value ≠ ""
  size : value.utf8ByteSize ≤ 1024
  no_nul : '\x00' ∉ value.toList

theorem text_ok {value : String} : text j = .ok value ↔ j = .str value ∧ IsText value := by
  constructor
  · intro h
    cases j with
    | str s =>
      simp only [text] at h
      split_ifs at h with hs
      · exact absurd h fail_ne
      · cases h
        push Not at hs
        exact ⟨rfl, hs.1, hs.2.1, hs.2.2⟩
    | _ => exact absurd h fail_ne
  · rintro ⟨rfl, hne, hsize, hnul⟩
    rw [text, if_neg]
    push Not
    exact ⟨hne, hsize, hnul⟩

theorem constant_ok {expected : String} :
    constant j expected = .ok () ↔ j = .str expected ∧ IsText expected := by
  constructor
  · intro h
    obtain ⟨value, hvalue, h⟩ := bind_ok h
    split_ifs at h with hne
    · exact absurd h fail_ne
    · rw [not_not] at hne
      exact hne ▸ text_ok.mp hvalue
  · intro h
    rw [constant, text_ok.mpr h, ok_bind, if_neg (not_not.mpr rfl)]

theorem integer_ok {low high n : ℕ} :
    integer j low high = .ok n ↔ j = .int n ∧ low ≤ n ∧ n ≤ high := by
  constructor
  · intro h
    cases j with
    | int i =>
      simp only [integer] at h
      split_ifs at h with hneg hrange
      · exact absurd h fail_ne
      · exact absurd h fail_ne
      · cases h
        push Not at hrange
        exact ⟨by rw [Int.toNat_of_nonneg (by omega)], hrange⟩
    | _ => exact absurd h fail_ne
  · rintro ⟨rfl, hlow, hhigh⟩
    rw [integer, if_neg (by omega), if_neg (by simp; omega), Int.toNat_natCast]

theorem array_ok {maximum : ℕ} {items : List Json} :
    array j maximum = .ok items ↔ j = .arr items ∧ items ≠ [] ∧ items.length ≤ maximum := by
  constructor
  · intro h
    cases j with
    | arr xs =>
      simp only [array] at h
      split_ifs at h with hxs
      · exact absurd h fail_ne
      · cases h
        push Not at hxs
        exact ⟨rfl, hxs⟩
    | _ => exact absurd h fail_ne
  · rintro ⟨rfl, hne, hlen⟩
    rw [array, if_neg]
    push Not
    exact ⟨hne, hlen⟩

/-! ### Selections -/

section UniqueSort

variable {α : Type} [LinearOrder α] {xs ys : List α}

theorem adjacentFind_eq_false (h : xs.Pairwise (· ≤ ·)) : adjacentFind xs = false ↔ xs.Nodup := by
  induction xs using adjacentFind.induct with
  | case1 x y rest ih =>
    obtain ⟨hx, hrest⟩ := List.pairwise_cons.mp h
    have hy := (List.pairwise_cons.mp hrest).1
    rw [adjacentFind, Bool.or_eq_false_iff, decide_eq_false_iff_not, ih hrest,
      List.nodup_cons (a := x)]
    constructor
    · rintro ⟨hne, hnodup⟩
      refine ⟨fun hmem => hne ?_, hnodup⟩
      rcases List.mem_cons.mp hmem with heq | hmem
      · exact heq
      · exact le_antisymm (hx y List.mem_cons_self) (hy x hmem)
    · rintro ⟨hmem, hnodup⟩
      exact ⟨fun heq => hmem (heq ▸ List.mem_cons_self), hnodup⟩
  | case2 zs hzs =>
    rcases zs with _ | ⟨x, _ | ⟨y, rest⟩⟩
    · simp [adjacentFind]
    · simp [adjacentFind]
    · exact absurd rfl (hzs x y rest)

theorem uniqueSort_ok : uniqueSort xs = .ok ys ↔ xs.Nodup ∧ ys = sortOn id xs := by
  have hsorted : (sortOn id xs).Pairwise (· ≤ ·) :=
    List.pairwise_insertionSort (· ≤ ·) xs
  have hiff : adjacentFind (sortOn id xs) = false ↔ xs.Nodup :=
    (adjacentFind_eq_false hsorted).trans (sortOn_perm id xs).nodup_iff
  unfold uniqueSort
  split_ifs with h
  · refine ⟨fun hfail => absurd hfail fail_ne, fun ⟨hnodup, _⟩ => ?_⟩
    rw [hiff.mpr hnodup] at h
    cases h
  · rw [Bool.not_eq_true, hiff] at h
    exact ⟨fun heq => ⟨h, (Except.ok.inj heq).symm⟩, fun ⟨_, heq⟩ => heq ▸ rfl⟩

end UniqueSort

structure IsSelection {α : Type} [LinearOrder α] (p : α → Prop) (values : List α) : Prop where
  ne : values ≠ []
  length : values.length ≤ kArrayMax
  all : ∀ x ∈ values, p x
  increasing : IncreasingBy id values

section Selection

variable {α : Type} [LinearOrder α] {p : α → Prop} {read : Json → Except PlanError α}
  {encode : α → Json}

omit [LinearOrder α] in
theorem forall₂_read (hread : ∀ j x, read j = .ok x ↔ j = encode x ∧ p x) {items : List Json}
    {xs : List α} :
    List.Forall₂ (fun j x => read j = .ok x) items xs ↔
      items = xs.map encode ∧ ∀ x ∈ xs, p x := by
  induction xs generalizing items with
  | nil => cases items <;> simp
  | cons x xs ih =>
    cases items with
    | nil => simp
    | cons i items =>
      rw [List.forall₂_cons, hread, ih, List.map_cons, List.cons.injEq, List.forall_mem_cons]
      tauto

variable (hread : ∀ j x, read j = .ok x ↔ j = encode x ∧ p x)

include hread in
theorem sortedArray_ok {values : List α} :
    sortedArray read j = .ok values ↔
      ∃ xs : List α, j = .arr (xs.map encode) ∧ xs ≠ [] ∧ xs.length ≤ kArrayMax ∧
        (∀ x ∈ xs, p x) ∧ xs.Nodup ∧ values = sortOn id xs := by
  constructor
  · intro h
    obtain ⟨items, hitems, hread'⟩ := bind_ok h
    obtain ⟨xs, hxs, hsort⟩ := bind_ok hread'
    obtain ⟨rfl, hne, hlen⟩ := array_ok.mp hitems
    obtain ⟨rfl, hp⟩ := (forall₂_read hread).mp (mapM_ok.mp hxs)
    obtain ⟨hnodup, rfl⟩ := uniqueSort_ok.mp hsort
    exact ⟨xs, rfl, by simpa using hne, by simpa using hlen, hp, hnodup, rfl⟩
  · rintro ⟨xs, rfl, hne, hlen, hp, hnodup, rfl⟩
    rw [sortedArray, array_ok.mpr ⟨rfl, by simpa using hne, by simpa using hlen⟩, ok_bind,
      mapM_ok.mpr ((forall₂_read hread).mpr ⟨rfl, hp⟩), ok_bind, uniqueSort_ok.mpr ⟨hnodup, rfl⟩]

include hread in
theorem isSelection_of_sortedArray {values : List α} (h : sortedArray read j = .ok values) :
    IsSelection p values := by
  obtain ⟨xs, -, hne, hlen, hp, hnodup, rfl⟩ := (sortedArray_ok hread).mp h
  refine ⟨?_, by rwa [length_sortOn], fun x hx => hp x (mem_sortOn.mp hx),
    sortOn_increasing (by simpa using hnodup)⟩
  rw [← List.length_pos_iff, length_sortOn]
  exact List.length_pos_iff.mpr hne

include hread in
theorem sortedArray_self {values : List α} (h : IsSelection p values) :
    sortedArray read (.arr (values.map encode)) = .ok values :=
  (sortedArray_ok hread).mpr ⟨values, rfl, h.ne, h.length, h.all,
    by simpa using h.increasing.nodup, (sortOn_eq_self h.increasing).symm⟩

end Selection

theorem read_integer {maximum : ℕ} (j : Json) (n : ℕ) :
    integer j 0 maximum = .ok n ↔ j = .int n ∧ n ≤ maximum := by
  rw [integer_ok]
  simp

theorem integers_self {maximum : ℕ} {values : List ℕ} (h : IsSelection (· ≤ maximum) values) :
    integers (ints values) maximum = .ok values :=
  sortedArray_self read_integer h

theorem isSelection_integers {maximum : ℕ} {values : List ℕ}
    (h : integers j maximum = .ok values) : IsSelection (· ≤ maximum) values :=
  isSelection_of_sortedArray read_integer h

theorem read_text (j : Json) (s : String) : text j = .ok s ↔ j = .str s ∧ IsText s := text_ok

theorem strings_self {values : List String} (h : IsSelection IsText values) :
    strings (strs values) = .ok values :=
  sortedArray_self read_text h

theorem isSelection_strings {values : List String} (h : strings j = .ok values) :
    IsSelection IsText values :=
  isSelection_of_sortedArray read_text h

/-! ### Byte offsets and registers -/

/-- A short string of ASCII letters and digits. -/
theorem isText_ofList {cs : List Char} (hne : cs ≠ []) (hlen : cs.length ≤ 1024)
    (hcs : ∀ c ∈ cs, 0 < c.toNat ∧ c.toNat < 128) : IsText (String.ofList cs) := by
  refine ⟨?_, ?_, ?_⟩
  · intro h
    apply hne
    simpa using congrArg String.toList h
  · rw [utf8ByteSize_ascii fun c hc => (hcs c hc).2]
    exact hlen
  · rw [String.toList_ofList]
    intro hnul
    exact absurd (hcs _ hnul).1 (by decide)

theorem ascii_of_isHexDigit {c : Char} (h : isHexDigit c = true) : 0 < c.toNat ∧ c.toNat < 128 := by
  simp only [isHexDigit, Bool.or_eq_true, Bool.and_eq_true, decide_eq_true_eq] at h
  have hle : ∀ a b : Char, a ≤ b → a.toNat ≤ b.toNat := fun _ _ hab => hab
  rcases h with ⟨hlow, hhigh⟩ | ⟨hlow, hhigh⟩
  · have hlow' : 48 ≤ c.toNat := hle _ _ hlow
    have hhigh' : c.toNat ≤ 57 := hle _ _ hhigh
    omega
  · have hlow' : 97 ≤ c.toNat := hle _ _ hlow
    have hhigh' : c.toNat ≤ 102 := hle _ _ hhigh
    omega

theorem hexPc_eq (n : ℕ) : hexPc n = String.ofList ('0' :: 'x' :: Nat.toDigits 16 n) := by
  rw [hexPc, show "0x" = String.ofList ['0', 'x'] from rfl, ← String.ofList_append]
  rfl

theorem pc_lt {n : ℕ} (h : pc j = .ok n) : n < 2 ^ 64 := by
  obtain ⟨value, -, h⟩ := bind_ok h
  simp only at h
  split_ifs at h with hform hlt
  · exact absurd h fail_ne
  · exact Except.ok.inj h ▸ hlt
  · exact absurd h fail_ne

/-- The canonical form of a byte offset is read as the offset. -/
theorem pc_hexPc {n : ℕ} (h : n < 2 ^ 64) : pc (.str (hexPc n)) = .ok n := by
  have hlen : (Nat.toDigits 16 n).length ≤ 16 :=
    (Nat.length_toDigits_le_iff (by omega) (by omega)).mpr (by omega)
  have hpos : 0 < (Nat.toDigits 16 n).length := Nat.length_toDigits_pos
  have hascii : ∀ c ∈ '0' :: 'x' :: Nat.toDigits 16 n, 0 < c.toNat ∧ c.toNat < 128 := by
    intro c hc
    rcases List.mem_cons.mp hc with rfl | hc
    · decide
    rcases List.mem_cons.mp hc with rfl | hc
    · decide
    · exact ascii_of_isHexDigit (isHexDigit_of_mem_toDigits hc)
  have hsize : (hexPc n).utf8ByteSize = (Nat.toDigits 16 n).length + 2 := by
    rw [hexPc_eq, utf8ByteSize_ascii fun c hc => (hascii c hc).2]
    rfl
  have htext : IsText (hexPc n) := by
    rw [hexPc_eq]
    exact isText_ofList (List.cons_ne_nil _ _) (by simp only [List.length_cons]; omega) hascii
  have hlist : (hexPc n).toList = '0' :: 'x' :: Nat.toDigits 16 n := by
    rw [hexPc_eq, String.toList_ofList]
  have hhex : hex (Nat.toDigits 16 n) = true :=
    List.all_eq_true.mpr fun c hc => isHexDigit_of_mem_toDigits hc
  have hform : ¬((hexPc n).utf8ByteSize < 3 ∨ 18 < (hexPc n).utf8ByteSize ∨
      (hexPc n).toList.take 2 ≠ ['0', 'x'] ∨ hex ((hexPc n).toList.drop 2) = false) := by
    rw [hsize, hlist]
    simp only [List.take_succ_cons, List.take_zero, List.drop_succ_cons, List.drop_zero, hhex,
      ne_eq, not_true_eq_false, Bool.true_eq_false, or_false]
    omega
  rw [pc, text_ok.mpr ⟨rfl, htext⟩, ok_bind]
  simp only
  rw [if_neg hform, hlist, List.drop_succ_cons, List.drop_succ_cons, List.drop_zero,
    hexValue_toDigits, if_pos h]

theorem regIndex_ok {bank : RegisterBank} {index : List Char} {r : Register}
    (h : regIndex bank index = .ok r) : r.index < 2 ^ 32 := by
  unfold regIndex at h
  split_ifs at h with hform hlt
  · exact absurd h fail_ne
  · exact Except.ok.inj h ▸ hlt
  · exact absurd h fail_ne

theorem reg_lt {r : Register} (h : reg j = .ok r) : r.index < 2 ^ 32 := by
  obtain ⟨value, -, h⟩ := bind_ok h
  simp only at h
  split_ifs at h
  · exact regIndex_ok h
  · exact regIndex_ok h
  · exact regIndex_ok h
  · exact regIndex_ok h
  · exact absurd h fail_ne

theorem toList_name (r : Register) :
    r.name.toList = r.bank.letters.toList ++ Nat.toDigits 10 r.index := by
  rw [Register.name, String.toList_append, Nat.toString_eq_repr, Nat.toList_repr]

theorem isDigit_toDigits {n : ℕ} {c : Char} (hc : c ∈ Nat.toDigits 10 n) : c.isDigit = true :=
  Nat.isDigit_of_mem_toDigits (by omega) (by omega) hc

theorem regIndex_toDigits (bank : RegisterBank) {n : ℕ} (h : n < 2 ^ 32) :
    regIndex bank (Nat.toDigits 10 n) = .ok ⟨bank, n⟩ := by
  have hall : (Nat.toDigits 10 n).all Char.isDigit = true :=
    List.all_eq_true.mpr fun c hc => isDigit_toDigits hc
  rw [regIndex, Nat.ofDigitChars_ten_toDigits, if_pos h, if_neg]
  rintro (hnil | hdigit)
  · exact Nat.toDigits_ne_nil hnil
  · rw [hall] at hdigit
    cases hdigit

theorem isText_name {r : Register} (h : r.index < 2 ^ 32) : IsText r.name := by
  have hlen : (Nat.toDigits 10 r.index).length ≤ 10 :=
    (Nat.length_toDigits_le_iff (by omega) (by omega)).mpr (by omega)
  have hname : r.name = String.ofList (r.bank.letters.toList ++ Nat.toDigits 10 r.index) := by
    rw [← toList_name, String.ofList_toList]
  have hbank : r.bank.letters.toList.length ≤ 2 := by cases r.bank <;> decide
  rw [hname]
  apply isText_ofList
  · exact fun hnil => Nat.toDigits_ne_nil (List.append_eq_nil_iff.mp hnil).2
  · rw [List.length_append]
    omega
  · intro c hc
    rcases List.mem_append.mp hc with hc | hc
    · have hall : ∀ bank : RegisterBank, bank.letters.toList.all
          (fun c => 0 < c.toNat && c.toNat < 128) = true := fun bank => by cases bank <;> rfl
      simpa using List.all_eq_true.mp (hall r.bank) c hc
    · have hdigit := isDigit_toDigits hc
      simp only [Char.isDigit, Bool.and_eq_true, decide_eq_true_eq] at hdigit
      have hlow : 48 ≤ c.toNat := hdigit.1
      have hhigh : c.toNat ≤ 57 := hdigit.2
      omega

/-- The first digit of a number is no letter of a bank. -/
theorem toDigits_head (n : ℕ) : ∃ c cs, Nat.toDigits 10 n = c :: cs ∧ c.isDigit = true := by
  cases h : Nat.toDigits 10 n with
  | nil => exact absurd h Nat.toDigits_ne_nil
  | cons c cs => exact ⟨c, cs, rfl, isDigit_toDigits (h ▸ List.mem_cons_self)⟩

theorem reg_name {r : Register} (h : r.index < 2 ^ 32) : reg (.str r.name) = .ok r := by
  obtain ⟨bank, index⟩ := r
  obtain ⟨c, cs, hdigits, hc⟩ := toDigits_head index
  have hR : c ≠ 'R' := by rintro rfl; cases hc
  have hP : c ≠ 'P' := by rintro rfl; cases hc
  have hindex := fun bank => regIndex_toDigits bank h
  rw [reg, text_ok.mpr ⟨rfl, isText_name h⟩, ok_bind]
  simp only [toList_name]
  rw [hdigits] at hindex ⊢
  cases bank <;>
    simp [RegisterBank.letters, hindex]

theorem name_injective : Function.Injective Register.name := by
  rintro ⟨bank, m⟩ ⟨bank', n⟩ h
  have hlist := congrArg String.toList h
  obtain ⟨c, cs, hm, hc⟩ := toDigits_head m
  obtain ⟨d, ds, hn, hd⟩ := toDigits_head n
  rw [toList_name, toList_name] at hlist
  have letter : ∀ {a : Char}, a.isDigit = true → ∀ b : Char, b.isDigit = false → a ≠ b := by
    rintro a ha _ hb rfl
    rw [ha] at hb
    cases hb
  have hletters : bank = bank' ∧ Nat.toDigits 10 m = Nat.toDigits 10 n := by
    rw [hm, hn] at hlist ⊢
    have hR : c ≠ 'R' ∧ d ≠ 'R' := ⟨letter hc _ rfl, letter hd _ rfl⟩
    have hP : c ≠ 'P' ∧ d ≠ 'P' := ⟨letter hc _ rfl, letter hd _ rfl⟩
    cases bank <;> cases bank' <;>
      simp_all [RegisterBank.letters]
  have hindex := congrArg (Nat.ofDigitChars 10 · 0) hletters.2
  simp only [Nat.ofDigitChars_ten_toDigits] at hindex
  rw [hletters.1, hindex]

end CuTracer.Plan
