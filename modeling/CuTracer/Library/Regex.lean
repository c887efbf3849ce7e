import Mathlib.Data.List.Infix

/-! Regular expressions with groups, matched by backtracking: the first match in the order of the
alternatives counts. What is repeated is one character of a class. -/

namespace CuTracer

inductive Regex where
  | text (s : List Char)
  /-- At least so many characters of a class, as few or as many as possible. -/
  | many (p : Char → Bool) (atLeast : ℕ) (lazy : Bool)
  | seq (r s : Regex)
  | alt (r s : Regex)
  | group (name : String) (r : Regex)
  /-- `$`: the end, or a last line feed. -/
  | atEnd
  /-- `\b`. -/
  | boundary (word : Char → Bool)

namespace Regex

/-- What the groups have matched, the last group first. -/
abbrev Groups := List (String × List Char)

variable {α : Type}

/-- Try the ways to repeat a class, and go on with the last character and the rest. -/
def runMany (p : Char → Bool) (lazy : Bool) (k : Option Char → List Char → Option α) :
    ℕ → Option Char → List Char → Option α
  | 0, before, [] => k before []
  | _ + 1, _, [] => none
  | 0, before, c :: cs =>
    if p c then
      if lazy then (k before (c :: cs)).or (runMany p lazy k 0 c cs)
      else (runMany p lazy k 0 c cs).or (k before (c :: cs))
    else k before (c :: cs)
  | n + 1, _, c :: cs => if p c then runMany p lazy k n c cs else none

/-- Match a text after a character, and go on with the last character, the rest and the groups. -/
def run : Regex → Option Char → List Char → Groups → (Option Char → List Char → Groups → Option α) →
    Option α
  | text s, before, cs, groups, k =>
    if s.isPrefixOf cs then k (s.getLast?.or before) (cs.drop s.length) groups else none
  | many p n lazy, before, cs, groups, k => runMany p lazy (fun b rest => k b rest groups) n before cs
  | seq r s, before, cs, groups, k => r.run before cs groups fun b rest gs => s.run b rest gs k
  | alt r s, before, cs, groups, k => (r.run before cs groups k).or (s.run before cs groups k)
  | group name r, before, cs, groups, k =>
    r.run before cs groups fun b rest gs => k b rest ((name, cs.take (cs.length - rest.length)) :: gs)
  | atEnd, before, cs, groups, k => if cs = [] ∨ cs = ['\n'] then k before cs groups else none
  | boundary word, before, cs, groups, k =>
    if before.any word ≠ cs.head?.any word then k before cs groups else none

/-- An optional part that is tried first. -/
def opt (r : Regex) : Regex := alt r (text [])

def chain : List Regex → Regex
  | [] => text []
  | [r] => r
  | r :: rs => seq r (chain rs)

/-! ### Groups -/

/-- The groups that every match has. -/
def captures : Regex → List String
  | text _ | many _ _ _ | atEnd | boundary _ => []
  | seq r s => r.captures ++ s.captures
  | alt r s => r.captures.filter s.captures.contains
  | group name r => name :: r.captures

variable {before : Option Char}

theorem runMany_some {p : Char → Bool} {lazy : Bool} {k : Option Char → List Char → Option α}
    {n : ℕ} {cs : List Char} {a : α} (h : runMany p lazy k n before cs = some a) :
    ∃ b rest, k b rest = some a := by
  fun_induction runMany p lazy k n before cs with
  | case1 before => exact ⟨before, [], h⟩
  | case2 => cases h
  | case3 before c cs hc hlazy ih =>
    rcases Option.or_eq_some_iff.mp h with h | ⟨-, h⟩
    · exact ⟨before, c :: cs, h⟩
    · exact ih h
  | case4 before c cs hc hlazy ih =>
    rcases Option.or_eq_some_iff.mp h with h | ⟨-, h⟩
    · exact ih h
    · exact ⟨before, c :: cs, h⟩
  | case5 before c cs hc => exact ⟨before, c :: cs, h⟩
  | case6 n before c cs hc ih => exact ih h
  | case7 => cases h

/-- A match keeps the groups it began with and adds its own. -/
theorem run_some {r : Regex} {cs : List Char} {groups : Groups}
    {k : Option Char → List Char → Groups → Option α} {a : α}
    (h : r.run before cs groups k = some a) :
    ∃ b rest gs, k b rest gs = some a ∧ (∀ g ∈ groups, g ∈ gs) ∧
      ∀ name ∈ r.captures, ∃ s, (name, s) ∈ gs := by
  induction r generalizing before cs groups k with
  | text s =>
    rw [run] at h
    split_ifs at h
    exact ⟨_, _, groups, h, fun _ hg => hg, by simp [captures]⟩
  | many p n lazy =>
    obtain ⟨b, rest, hk⟩ := runMany_some h
    exact ⟨b, rest, groups, hk, fun _ hg => hg, by simp [captures]⟩
  | seq r s ihr ihs =>
    obtain ⟨b, rest, gs, hs, hkept, hr⟩ := ihr h
    obtain ⟨b', rest', gs', hk, hkept', hs⟩ := ihs hs
    refine ⟨b', rest', gs', hk, fun g hg => hkept' g (hkept g hg), fun name hname => ?_⟩
    rcases List.mem_append.mp hname with hname | hname
    · obtain ⟨t, ht⟩ := hr name hname
      exact ⟨t, hkept' _ ht⟩
    · exact hs name hname
  | alt r s ihr ihs =>
    rcases Option.or_eq_some_iff.mp h with h | ⟨-, h⟩
    · obtain ⟨b, rest, gs, hk, hkept, hr⟩ := ihr h
      exact ⟨b, rest, gs, hk, hkept, fun name hname => hr name (List.mem_of_mem_filter hname)⟩
    · obtain ⟨b, rest, gs, hk, hkept, hs⟩ := ihs h
      exact ⟨b, rest, gs, hk, hkept, fun name hname => hs name (by simpa using (List.mem_filter.mp hname).2)⟩
  | group name r ih =>
    obtain ⟨b, rest, gs, hk, hkept, hr⟩ := ih h
    refine ⟨b, rest, _, hk, fun g hg => List.mem_cons_of_mem _ (hkept g hg), fun name' hname => ?_⟩
    rcases List.mem_cons.mp hname with rfl | hname
    · exact ⟨_, List.mem_cons_self⟩
    · obtain ⟨t, ht⟩ := hr name' hname
      exact ⟨t, List.mem_cons_of_mem _ ht⟩
  | atEnd =>
    rw [run] at h
    split_ifs at h
    exact ⟨_, _, groups, h, fun _ hg => hg, by simp [captures]⟩
  | boundary word =>
    rw [run] at h
    split_ifs at h
    exact ⟨_, _, groups, h, fun _ hg => hg, by simp [captures]⟩

/-! ### Matches -/

/-- What a pattern has matched: its groups, and the rest of the text. -/
structure Match (r : Regex) where
  groups : Groups
  rest : List Char
  captured : ∀ name ∈ r.captures, (groups.lookup name).isSome

/-- A group, where the pattern may have one. -/
def Match.get? {r : Regex} (m : Match r) (name : String) : Option (List Char) := m.groups.lookup name

def Match.get {r : Regex} (m : Match r) (name : String) (h : name ∈ r.captures) : List Char :=
  (m.groups.lookup name).get (m.captured name h)

theorem isSome_lookup {groups : Groups} {name : String} {s : List Char} (h : (name, s) ∈ groups) :
    (groups.lookup name).isSome := by
  rw [List.lookup_isSome_iff]
  exact ⟨(name, s), h, beq_self_eq_true name⟩

/-- `re.match`, with what is left for `accept` to accept. -/
def matchWhere (r : Regex) (accept : List Char → Bool) (before : Option Char) (cs : List Char) :
    Option (Match r) :=
  match h : r.run before cs [] fun _ rest groups =>
      if accept rest then some (groups, rest) else none with
  | none => none
  | some (groups, rest) => some ⟨groups, rest, by
      obtain ⟨b, rest', gs, hk, -, hcaptured⟩ := run_some h
      split_ifs at hk
      cases hk
      exact fun name hname => isSome_lookup (hcaptured name hname).choose_spec⟩

/-- `re.match`. -/
def matchStart (r : Regex) (cs : List Char) : Option (Match r) := r.matchWhere (fun _ => true) none cs

/-- `re.fullmatch`. -/
def fullMatch (r : Regex) (cs : List Char) : Option (Match r) := r.matchWhere List.isEmpty none cs

/-- `re.search`: what is before the leftmost match, the match, and what is after it. -/
def search (r : Regex) (before : Option Char) (cs : List Char) : Option (List Char × List Char × List Char) :=
  match r.matchWhere (fun _ => true) before cs with
  | some m => some ([], cs.take (cs.length - m.rest.length), m.rest)
  | none =>
    match cs with
    | [] => none
    | c :: cs => (r.search c cs).map fun (pre, found, rest) => (c :: pre, found, rest)

/-! ### What a match begins with -/

theorem run_text {s : List Char} {cs : List Char} {groups : Groups}
    {k : Option Char → List Char → Groups → Option α} {a : α}
    (h : (text s).run before cs groups k = some a) :
    ∃ rest, cs = s ++ rest ∧ k (s.getLast?.or before) rest groups = some a := by
  rw [run] at h
  split_ifs at h with hs
  obtain ⟨rest, rfl⟩ := List.isPrefixOf_iff_prefix.mp hs
  rw [List.drop_left] at h
  exact ⟨rest, rfl, h⟩

theorem run_of_matchWhere {r : Regex} {accept : List Char → Bool} {cs : List Char}
    (h : (r.matchWhere accept before cs).isSome) :
    ∃ found, (r.run before cs [] fun _ rest groups => if accept rest then some (groups, rest) else none) =
      some found := by
  unfold matchWhere at h
  split at h
  · cases h
  · exact ⟨_, ‹_›⟩

theorem chain_cons (r s : Regex) (rs : List Regex) : chain (r :: s :: rs) = seq r (chain (s :: rs)) := rfl

/-- What a pattern that begins with a text matches begins with it. -/
theorem prefix_of_match {s : List Char} {r : Regex} {accept : List Char → Bool} {cs : List Char}
    (h : ((seq (text s) r).matchWhere accept before cs).isSome) : s <+: cs := by
  obtain ⟨found, hfound⟩ := run_of_matchWhere h
  rw [run] at hfound
  obtain ⟨rest, rfl, -⟩ := run_text hfound
  exact List.prefix_append s rest

end Regex

end CuTracer
