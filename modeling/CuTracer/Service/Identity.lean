import CuTracer.Service.Policy
import Mathlib.Data.List.Basic

/-! Experiments of one session have different identifiers, as long as the digest
behind them is injective. -/

namespace CuTracer.Service

/-- What identifiers rely on: a digest is hexadecimal, and no two inputs share one. -/
structure Hashes.Ideal (h : Hashes) : Prop where
  injective : Function.Injective h.id
  hex : ∀ raw, ∀ c ∈ (h.id raw).toList, c ∈ "0123456789abcdef".toList

/-- A prefix without the separator can be read off. -/
theorem separator_inj {α : Type} {c : α} {p q s t : List α} (hp : c ∉ p) (hq : c ∉ q)
    (h : p ++ c :: s = q ++ c :: t) : p = q ∧ s = t := by
  induction p generalizing q with
  | nil =>
    cases q with
    | nil => exact ⟨rfl, (List.cons.inj h).2⟩
    | cons d q =>
      rw [← (List.cons.inj h).1] at hq
      exact absurd List.mem_cons_self hq
  | cons a p ih =>
    cases q with
    | nil =>
      rw [(List.cons.inj h).1] at hp
      exact absurd List.mem_cons_self hp
    | cons d q =>
      obtain ⟨rfl, hrest⟩ := List.cons.inj h
      obtain ⟨rfl, hst⟩ := ih (fun hc => hp (List.mem_cons_of_mem _ hc))
        (fun hc => hq (List.mem_cons_of_mem _ hc)) hrest
      exact ⟨rfl, hst⟩

/-- Texts before a colon can be read off if they have no colon themselves. -/
theorem colon_inj {a b x y : String} (ha : ':' ∉ a.toList) (hb : ':' ∉ b.toList)
    (h : a ++ ":" ++ x = b ++ ":" ++ y) : a = b ∧ x = y := by
  have hlist : a.toList ++ ':' :: x.toList = b.toList ++ ':' :: y.toList := by
    simpa using congrArg String.toList h
  obtain ⟨hab, hxy⟩ := separator_inj ha hb hlist
  exact ⟨String.ext hab, String.ext hxy⟩

theorem colon_notMem_nat (n : ℕ) : ':' ∉ (toString n).toList := by
  intro h
  rw [Nat.toString_eq_repr, Nat.toList_repr] at h
  exact absurd (Nat.isDigit_of_mem_toDigits (by decide) (by decide) h) (by decide)

theorem toString_nat_inj {m n : ℕ} (h : toString m = toString n) : m = n := by
  have hdigits := congrArg String.toList h
  simp only [Nat.toString_eq_repr, Nat.toList_repr] at hdigits
  rw [← Nat.ofDigitChars_ten_toDigits (n := m), hdigits, Nat.ofDigitChars_ten_toDigits]

theorem rawExperimentId_inj {sessionId : String} {phase phase' : ExperimentPhase} {n n' : ℕ}
    {kind kind' : ExperimentKind} {d d' : String}
    (h : rawExperimentId sessionId phase n kind d = rawExperimentId sessionId phase' n' kind' d') :
    phase = phase' ∧ n = n' ∧ kind = kind' ∧ d = d' := by
  have hrest : phase.value ++ ":" ++ (toString n ++ ":" ++ (kind.value ++ ":" ++ d)) =
      phase'.value ++ ":" ++ (toString n' ++ ":" ++ (kind'.value ++ ":" ++ d')) := by
    have hlist := congrArg String.toList h
    simp only [rawExperimentId, String.toList_append, List.append_assoc,
      List.append_cancel_left_eq] at hlist
    exact String.ext (by simpa using hlist)
  obtain ⟨hphase, hrest⟩ := colon_inj (by cases phase <;> decide) (by cases phase' <;> decide) hrest
  obtain ⟨hn, hrest⟩ := colon_inj (colon_notMem_nat n) (colon_notMem_nat n') hrest
  obtain ⟨hkind, hd⟩ := colon_inj (by cases kind <;> decide) (by cases kind' <;> decide) hrest
  refine ⟨?_, toString_nat_inj hn, ?_, hd⟩
  · cases phase <;> cases phase' <;> first | rfl | exact absurd hphase (by decide)
  · cases kind <;> cases kind' <;> first | rfl | exact absurd hkind (by decide)

variable {h : Hashes} {sessionId : String}

/-- Phase, round, kind and discriminator can be read off an identifier. -/
theorem experimentId_inj (hideal : h.Ideal) {phase phase' : ExperimentPhase} {n n' : ℕ}
    {kind kind' : ExperimentKind} {d d' : String}
    (heq : experimentId h sessionId phase n kind d = experimentId h sessionId phase' n' kind' d') :
    phase = phase' ∧ n = n' ∧ kind = kind' ∧ d = d' := by
  have hlist := congrArg String.toList heq
  simp only [experimentId, String.toList_append, List.append_cancel_left_eq] at hlist
  exact rawExperimentId_inj (hideal.injective (String.ext hlist))

/-- The discovery experiment's identifier is no digest. -/
theorem experimentId_ne_discovery (hideal : h.Ideal) (phase : ExperimentPhase) (n : ℕ)
    (kind : ExperimentKind) (d : String) :
    experimentId h sessionId phase n kind d ≠ sessionId ++ "-kernel-discovery" := by
  intro heq
  have hlist := congrArg (fun s => s.toList.reverse.head?) heq
  simp only [experimentId, String.toList_append, List.reverse_append, List.head?_append] at hlist
  have hy : ("-kernel-discovery".toList.reverse).head? = some 'y' := by decide
  have hdash : ("exp-".toList.reverse).head? = some '-' := by decide
  rw [hy, hdash, Option.some_or] at hlist
  cases hlast : (h.id (rawExperimentId sessionId phase n kind d)).toList.reverse.head? with
  | none => simp [hlast] at hlist
  | some c =>
    rw [hlast, Option.some_or] at hlist
    have hmem := List.mem_reverse.mp (List.mem_of_mem_head? hlast)
    rw [Option.some.inj hlist] at hmem
    exact absurd (hideal.hex _ _ hmem) (by decide)

theorem fingerprint_inj {kind kind' : ExperimentKind} {d d' : String}
    (heq : fingerprint kind d = fingerprint kind' d') : kind = kind' ∧ d = d' := by
  obtain ⟨hkind, hd⟩ := colon_inj (by cases kind <;> decide) (by cases kind' <;> decide) heq
  refine ⟨?_, hd⟩
  cases kind <;> cases kind' <;> first | rfl | exact absurd hkind (by decide)

/-! ### An injective digest -/

def unary (raw : List Char) : List Char :=
  raw.flatMap fun c => List.replicate c.toNat 'a' ++ ['b']

theorem unary_cons (c : Char) (raw : List Char) :
    unary (c :: raw) = List.replicate c.toNat 'a' ++ 'b' :: unary raw := by simp [unary]

theorem mem_unary {raw : List Char} {c : Char} (h : c ∈ unary raw) : c = 'a' ∨ c = 'b' := by
  obtain ⟨d, -, hc⟩ := List.mem_flatMap.mp h
  rcases List.mem_append.mp hc with hc | hc
  · exact Or.inl (List.eq_of_mem_replicate hc)
  · exact Or.inr (List.mem_singleton.mp hc)

theorem unary_inj {raw raw' : List Char} (h : unary raw = unary raw') : raw = raw' := by
  induction raw generalizing raw' with
  | nil =>
    cases raw' with
    | nil => rfl
    | cons d raw' =>
      rw [unary_cons] at h
      exact absurd h.symm (by simp [unary])
  | cons c raw ih =>
    cases raw' with
    | nil =>
      rw [unary_cons] at h
      exact absurd h (by simp [unary])
    | cons d raw' =>
      rw [unary_cons, unary_cons] at h
      have hnot : ∀ n, 'b' ∉ List.replicate n 'a' := fun n hb =>
        absurd (List.eq_of_mem_replicate hb) (by decide)
      obtain ⟨hcd, hrest⟩ := separator_inj (hnot _) (hnot _) h
      have hnat : c.toNat = d.toNat := by simpa using congrArg List.length hcd
      rw [Char.toNat_inj.mp hnat, ih hrest]

/-- The digest of one text, and unary for every other one. -/
def oneDigest (known digest : String) : Hashes where
  id raw := if raw = known then digest else String.ofList (unary raw.toList)
  sha256 raw := raw

theorem oneDigest_ideal {known digest : String}
    (hhex : (digest.toList.all fun c => "0123456789abcdef".toList.contains c) = true)
    (hnew : (digest.toList.any fun c => c ≠ 'a' && c ≠ 'b') = true) : (oneDigest known digest).Ideal := by
  have hother : ∀ raw : String, String.ofList (unary raw.toList) ≠ digest := by
    rintro raw rfl
    obtain ⟨c, hc, hne⟩ := List.any_eq_true.mp hnew
    rw [String.toList_ofList] at hc
    rcases mem_unary hc with rfl | rfl <;> exact nomatch hne
  refine ⟨fun raw raw' heq => ?_, fun raw c hc => ?_⟩
  · simp only [oneDigest] at heq
    split_ifs at heq with h h'
    · rw [h, h']
    · exact absurd heq.symm (hother raw')
    · exact absurd heq (hother raw)
    · have hlist := congrArg String.toList heq
      rw [String.toList_ofList, String.toList_ofList] at hlist
      exact String.ext (unary_inj hlist)
  · simp only [oneDigest] at hc
    split_ifs at hc
    · exact List.contains_iff_mem.mp (List.all_eq_true.mp hhex c hc)
    · rw [String.toList_ofList] at hc
      rcases mem_unary hc with rfl | rfl <;> decide

end CuTracer.Service
