import CuTracer.Library.Fallible
import CuTracer.Library.Simt
import CuTracer.MemoryModel.Records
import Mathlib.Data.List.TakeWhile

/-! Whether a wait succeeded. `mark_wait_success` looks for the branch on the wait's predicate and
reads off the next records whether it was taken. The lanes of a warp run in groups, which are
issued in any order: an instruction whose guard is true in no lane of its group leaves no record,
and the branch before a record of other lanes may still be ahead of the lanes that waited. -/

namespace CuTracer.MemoryModel

open Amdgcn (Text isSpace strip digits prefixed fields)

/-! ### The code -/

/-- `int(text, 16)` of a PC, which has no sign. -/
def hexInt (text : Text) : Option ℕ :=
  match strip text with
  | '0' :: 'x' :: rest => prefixed 16 rest
  | '0' :: 'X' :: rest => prefixed 16 rest
  | s => digits 16 0 false s

/-- `int(ev.pc, 16)` -/
def Event.pcInt (ev : Event) : Except TraceError ℕ :=
  match hexInt ev.pc.toList with
  | some pc => .ok pc
  | none => .error .valueError

/-- `ev.guard`, which the event has from its instruction. -/
def Event.guard (ev : Event) : Option Text :=
  match staticInfo ev.sass with
  | .ok info => info.guard
  | .error _ => none

/-- `ev.ops` -/
def Event.ops (ev : Event) : Text :=
  match staticInfo ev.sass with
  | .ok info => info.ops
  | .error _ => []

/-- `re.match(r"(P\d+)", ops)` -/
def waitPredicate (ops : Text) : Option Text :=
  match ops with
  | 'P' :: rest =>
    let digits := rest.takeWhile Char.isDigit
    if digits = [] then none else some ('P' :: digits)
  | _ => none

/-- Control flow that may skip the branch; a `BRA` starts with `BR`. -/
def isControl (mn : Text) : Bool :=
  ["BR", "JM", "CALL", "RET", "EXIT", "KILL", "BPT", "BSSY", "BSYNC", "WARPSYNC"].any fun word => hasPrefix word mn

def redefines (ops pred : Text) : Bool :=
  let operands := (ops.splitOn ',').map fun o => (strip o).dropWhile (· = '!')
  operands.contains pred || operands.contains "PR".toList || operands.contains "UPR".toList

structure GuardedBranch where
  pc : ℕ
  guard : Text
  target : Option Text
  deriving DecidableEq

/-- `guarded_branch`, with the rest of the window. -/
def guardedBranch (pcSass : Dict ℕ StaticInfo) (pred : Text) : ℕ → ℕ → Option GuardedBranch
  | 0, _ => none
  | window + 1, pc =>
    match pcSass.get? (pc + 16) with
    | none => none
    | some info =>
      if info.mn.takeWhile (· ≠ '.') = "BRA".toList then
        if info.mn = "BRA".toList ∧ ',' ∉ info.ops then
          if info.guard = some ('@' :: pred) then some ⟨pc + 16, '@' :: pred, (fields info.ops).head?⟩
          else if info.guard = some ('@' :: '!' :: pred) then
            some ⟨pc + 16, '@' :: '!' :: pred, (fields info.ops).head?⟩
          else none
        else none
      else if isControl info.mn then none
      else if redefines info.ops pred then none
      else guardedBranch pcSass pred window (pc + 16)

/-- The straight-line instructions between the wait and the branch, and the event after them. -/
def lookAhead (pc bra : ℕ) : List Event → Except TraceError (Option (List Event × Event))
  | [] => .ok none
  | e :: rest => do
    let p ← e.pcInt
    if pc < p ∧ p < bra then do
      let found ← lookAhead pc bra rest
      .ok (found.map fun f => (e :: f.1, f.2))
    else .ok (some ([], e))

/-- What the event after the straight-line instructions shows, at the PC `p`. -/
def branchShown (br : GuardedBranch) (ev nxt : Event) (p : ℕ) : Option Bool :=
  let taken : Bool := p = br.pc
  if taken = true ∧ nxt.mask ≠ ev.mask then none
  else if taken = false ∧ ¬(br.pc < p ∧ p ≤ br.pc + 16 * 8) then none
  else some (if hasPrefix "@!" br.guard then !taken else taken)

/-- `ev.success` of a wait, from the events after it. -/
def waitSuccess (pcSass : Dict ℕ StaticInfo) (ev : Event) (rest : List Event) : Except TraceError (Option Bool) :=
  match waitPredicate ev.ops with
  | none => .ok none
  | some pred => do
    let pc ← ev.pcInt
    match guardedBranch pcSass pred 32 pc with
    | none => .ok none
    | some br => do
      match ← lookAhead pc br.pc rest with
      | none => .ok none
      | some (straight, nxt) =>
        -- a guarded instruction's own predicate may shrink its mask
        if (straight ++ [nxt]).any (fun e => e.guard = none ∧ e.mask ≠ ev.mask) then .ok none
        else do
          let p ← nxt.pcInt
          .ok (branchShown br ev nxt p)

def eventSuccess (pcSass : Dict ℕ StaticInfo) (ev : Event) (rest : List Event) : Except TraceError (Option Bool) :=
  if ev.kind = some .mbarWait then waitSuccess pcSass ev rest else .ok ev.success

/-- `mark_wait_success` on the events of one warp. -/
def markWaits (pcSass : Dict ℕ StaticInfo) : List Event → Except TraceError (List Event)
  | [] => .ok []
  | ev :: rest => do
    let success ← eventSuccess pcSass ev rest
    let rest ← markWaits pcSass rest
    .ok ({ ev with success := success } :: rest)

/-! ### What the code finds -/

variable {pcSass : Dict ℕ StaticInfo}

/-- The branch that is found is guarded on the predicate, after straight-line code that leaves it. -/
theorem guardedBranch_ok {pred : Text} {window pc : ℕ} {br : GuardedBranch}
    (h : guardedBranch pcSass pred window pc = some br) :
    ∃ n, 0 < n ∧ br.pc = pc + 16 * n ∧
      (br.guard = '@' :: pred ∨ br.guard = '@' :: '!' :: pred) ∧
      (∃ info, pcSass.get? br.pc = some info ∧ info.guard = some br.guard) ∧
      ∀ k, 0 < k → k < n → ∃ info, pcSass.get? (pc + 16 * k) = some info ∧
        isControl info.mn = false ∧ redefines info.ops pred = false := by
  induction window generalizing pc with
  | zero => cases h
  | succ window ih =>
    unfold guardedBranch at h
    split at h
    · cases h
    next info hinfo =>
    split_ifs at h with hbra hplain hpos hneg hcontrol hredefines
    · cases h
      exact ⟨1, Nat.one_pos, rfl, .inl rfl, ⟨info, hinfo, hpos⟩, fun k hk hk' => by omega⟩
    · cases h
      exact ⟨1, Nat.one_pos, rfl, .inr rfl, ⟨info, hinfo, hneg⟩, fun k hk hk' => by omega⟩
    · obtain ⟨n, hn, hpc, hguard, hbranch, hbetween⟩ := ih h
      refine ⟨n + 1, by omega, by omega, hguard, hbranch, fun k hk hk' => ?_⟩
      obtain ⟨k, rfl⟩ : ∃ j, k = j + 1 := ⟨k - 1, by omega⟩
      rcases Nat.eq_zero_or_pos k with rfl | hk
      · exact ⟨info, hinfo, by simpa using hcontrol, by simpa using hredefines⟩
      · obtain ⟨info', hinfo', hrest⟩ := hbetween k hk (by omega)
        refine ⟨info', ?_, hrest⟩
        rwa [show pc + 16 * (k + 1) = pc + 16 + 16 * k by omega]

theorem lookAhead_ok {pc bra : ℕ} {rest straight : List Event} {nxt : Event}
    (h : lookAhead pc bra rest = .ok (some (straight, nxt))) :
    ∃ after, rest = straight ++ nxt :: after ∧
      (∀ e ∈ straight, ∃ p, e.pcInt = .ok p ∧ pc < p ∧ p < bra) ∧
      ∃ p, nxt.pcInt = .ok p ∧ ¬(pc < p ∧ p < bra) := by
  induction rest generalizing straight with
  | nil => cases h
  | cons e rest ih =>
    obtain ⟨p, hp, h⟩ := bind_ok h
    split_ifs at h with hinside
    · obtain ⟨found, hfound, h⟩ := bind_ok h
      cases found with
      | none => cases h
      | some f =>
        cases h
        obtain ⟨after, rfl, hstraight, hnxt⟩ := ih hfound
        exact ⟨after, rfl, List.forall_mem_cons.mpr ⟨⟨p, hp, hinside⟩, hstraight⟩, hnxt⟩
    · cases h
      exact ⟨rest, rfl, by simp, p, hp, hinside⟩

theorem branchShown_ok {br : GuardedBranch} {ev nxt : Event} {p : ℕ} {b : Bool}
    (h : branchShown br ev nxt p = some b) :
    p = br.pc ∧ nxt.mask = ev.mask ∧ b = !hasPrefix "@!" br.guard ∨
      (br.pc < p ∧ p ≤ br.pc + 16 * 8) ∧ b = hasPrefix "@!" br.guard := by
  unfold branchShown at h
  by_cases htaken : p = br.pc
  · simp only [htaken, decide_true, true_and, reduceCtorEq, false_and, if_false] at h
    split_ifs at h with hmask hfail
    · exact .inl ⟨htaken, not_not.mp hmask, by rw [hfail]; exact (Option.some.inj h).symm⟩
    · exact .inl ⟨htaken, not_not.mp hmask, by simp [hfail, ← Option.some.inj h]⟩
  · simp only [htaken, decide_false, reduceCtorEq, false_and, if_false, true_and] at h
    split_ifs at h with hfar hfail
    · exact .inr ⟨hfar, by rw [hfail]; exact (Option.some.inj h).symm⟩
    · exact .inr ⟨hfar, by simp [hfail, ← Option.some.inj h]⟩

/-- A success was read off the branch, recorded in all lanes of the wait, or off a record after it. -/
theorem waitSuccess_ok {ev : Event} {rest : List Event} {pred : Text} {b : Bool}
    (hpred : waitPredicate ev.ops = some pred) (h : waitSuccess pcSass ev rest = .ok (some b)) :
    ∃ pc br straight nxt after p, ev.pcInt = .ok pc ∧ guardedBranch pcSass pred 32 pc = some br ∧
      rest = straight ++ nxt :: after ∧ (∀ e ∈ straight, ∃ p, e.pcInt = .ok p ∧ pc < p ∧ p < br.pc) ∧
      nxt.pcInt = .ok p ∧ (∀ e ∈ straight ++ [nxt], e.guard = none → e.mask = ev.mask) ∧
      (p = br.pc ∧ nxt.mask = ev.mask ∧ b = !hasPrefix "@!" br.guard ∨
        (br.pc < p ∧ p ≤ br.pc + 16 * 8) ∧ b = hasPrefix "@!" br.guard) := by
  unfold waitSuccess at h
  rw [hpred] at h
  obtain ⟨pc, hpc, h⟩ := bind_ok h
  split at h
  · cases h
  next br hbr =>
  obtain ⟨found, hfound, h⟩ := bind_ok h
  split at h
  · cases h
  next straight nxt =>
  split at h
  · cases h
  next hmasks =>
  obtain ⟨p, hp, h⟩ := bind_ok h
  obtain ⟨after, hrest, hstraight, -⟩ := lookAhead_ok hfound
  refine ⟨pc, br, straight, nxt, after, p, hpc, hbr, hrest, hstraight, hp, ?_,
    branchShown_ok (Except.ok.inj h)⟩
  intro e he hguard
  by_contra hmask
  exact hmasks (List.any_eq_true.mpr ⟨e, he, decide_eq_true ⟨hguard, hmask⟩⟩)

theorem markWaits_get {evs marked : List Event} (h : markWaits pcSass evs = .ok marked) {i : ℕ}
    {ev ev' : Event} (hev : evs[i]? = some ev) (hev' : marked[i]? = some ev')
    (hkind : ev.kind = some .mbarWait) :
    waitSuccess pcSass ev (evs.drop (i + 1)) = .ok ev'.success := by
  induction evs generalizing marked i with
  | nil => cases hev
  | cons e rest ih =>
    rw [markWaits] at h
    obtain ⟨success, hsuccess, h⟩ := bind_ok h
    obtain ⟨marked', hrest, h⟩ := bind_ok h
    cases h
    cases i with
    | zero =>
      rw [List.getElem?_cons_zero, Option.some.injEq] at hev hev'
      rw [hev, eventSuccess, if_pos hkind] at hsuccess
      rw [← hev']
      exact hsuccess
    | succ i =>
      rw [List.getElem?_cons_succ] at hev hev'
      exact ih hrest hev hev'

/-! ### The execution of a warp -/

def guardTrue (guard : Option Text) (preds : Text → Bool) : Bool :=
  match guard with
  | none => true
  | some ('@' :: '!' :: pred) => !preds pred
  | some ('@' :: pred) => preds pred
  | some pred => preds pred

variable (code : ℕ → Option StaticInfo)

/-- A warp that runs some code: a lane's predicates are changed only by an instruction that it
executes and that names them, `PR` or `UPR`. -/
def warp : Simt.Machine ℕ StaticInfo (ℕ → Text → Bool) where
  fetch := code
  width := 16
  width_pos := by decide
  Control info := isControl info.mn = true
  Guard info preds l := guardTrue info.guard (preds l) = true
  Effect info lanes preds preds' := ∀ l pred, waitPredicate pred = some pred → preds' l pred ≠ preds l pred →
    l ∈ lanes ∧ redefines info.ops pred = true

/-- The event of an executed instruction carries the lanes that executed it. -/
structure IsEvent (ev : Event) (r : Simt.Record ℕ StaticInfo) : Prop where
  pc : ev.pcInt = .ok r.pc
  sass : staticInfo ev.sass = .ok r.instr
  kind : ev.kind = some .mbarWait → r.instr.kind = some .mbarWait
  lanes : {l | ev.mask.testBit l = true} = r.lanes

/-- A run of a warp emits the events, and its state is `u` after the instruction of the `i`-th. -/
def AfterEvent (evs : List Event) (i : ℕ) (u : Simt.State ℕ (ℕ → Text → Bool)) : Prop :=
  ∃ s t v pre post r, pre.length = i ∧ (warp code).Run s pre t ∧ (warp code).Step t u (some r) ∧
    (warp code).Run u post v ∧ List.Forall₂ IsEvent evs (pre ++ r :: post)

/-- If the `i`-th event is a wait that is marked, its predicate was as marked in all lanes of its mask. -/
def MarkedTruly (pcSass : Dict ℕ StaticInfo) (evs : List Event) (i : ℕ) : Prop :=
  ∀ marked ev ev' pred b u, markWaits pcSass evs = .ok marked → evs[i]? = some ev → ev.kind = some .mbarWait →
    waitPredicate ev.ops = some pred → marked[i]? = some ev' → ev'.success = some b → AfterEvent code evs i u →
      ∀ l, ev.mask.testBit l = true → u.regs l pred = b

/-- The first event past the branch shares a lane with the wait, if it is guarded and read as one that passed:
it is at one of the next 8 instructions, and the unguarded events have the mask of the wait. -/
def OwnLanes (pcSass : Dict ℕ StaticInfo) (evs : List Event) (i : ℕ) : Prop :=
  ∀ ev pc pred br, evs[i]? = some ev → ev.pcInt = .ok pc → waitPredicate ev.ops = some pred →
    guardedBranch pcSass pred 32 pc = some br → ∀ straight nxt after, evs.drop (i + 1) = straight ++ nxt :: after →
      (∀ e ∈ straight, ∃ p, e.pcInt = .ok p ∧ pc < p ∧ p < br.pc) →
        (∃ p, nxt.pcInt = .ok p ∧ br.pc < p ∧ p ≤ br.pc + 16 * 8) →
          (∀ e ∈ straight ++ [nxt], e.guard = none → e.mask = ev.mask) → nxt.guard ≠ none →
            ∃ l, ev.mask.testBit l = true ∧ nxt.mask.testBit l = true

theorem waitPredicate_self {ops pred : Text} (h : waitPredicate ops = some pred) : waitPredicate pred = some pred := by
  unfold waitPredicate at h
  split at h
  next rest =>
    simp only at h
    split_ifs at h with hdigits
    cases h
    simp [waitPredicate, List.takeWhile_idem, hdigits]
  · cases h

theorem not_isControl_wait {sass : String} {info : StaticInfo} (h : staticInfo sass = .ok info)
    (hkind : info.kind = some .mbarWait) : isControl info.mn = false := by
  obtain ⟨⟨guard, mn, ops⟩, -, h⟩ := bind_ok h
  cases h
  simp only [classify, Option.map_map, Option.map_eq_some_iff] at hkind
  obtain ⟨entry, hfind, hentry⟩ := hkind
  have htest := List.find?_some hfind
  have hmem := List.mem_of_find?_eq_some hfind
  have hphase : hasPrefix "SYNCS.PHASECHK" mn = true := by
    simp only [opcodes, List.mem_cons, List.not_mem_nil, or_false] at hmem
    rcases hmem with rfl | rfl | rfl | rfl | rfl | rfl | rfl | rfl | rfl | rfl | rfl | rfl | rfl | rfl | rfl | rfl |
      rfl | rfl | rfl | rfl | rfl
    all_goals first
      | (cases hentry; done)
      | exact htest
  obtain ⟨rest, rfl⟩ := List.isPrefixOf_iff_prefix.mp hphase
  rfl

theorem guardTrue_iff {pred guard : Text} (hpred : waitPredicate pred = some pred)
    (hguard : guard = '@' :: pred ∨ guard = '@' :: '!' :: pred) (preds : Text → Bool) :
    guardTrue (some guard) preds = true ↔ preds pred = !hasPrefix "@!" guard := by
  obtain ⟨rest, rfl⟩ : ∃ rest, pred = 'P' :: rest := by
    unfold waitPredicate at hpred
    split at hpred
    · exact ⟨_, rfl⟩
    · cases hpred
  rcases hguard with rfl | rfl
  · simp [guardTrue, hasPrefix, List.isPrefixOf]
  · simp [guardTrue, hasPrefix, List.isPrefixOf]

/-- The code from a wait to its branch is straight-line code that leaves the predicate. -/
theorem straight_of_guardedBranch {code : ℕ → Option StaticInfo}
    (hcode : ∀ pc info, pcSass.get? pc = some info → code pc = some info) {pred : Text}
    (hpred : waitPredicate pred = some pred) {pc window : ℕ} {br : GuardedBranch}
    (hbr : guardedBranch pcSass pred window pc = some br) (M : Set ℕ) (regs : ℕ → Text → Bool) :
    ∃ n info, 0 < n ∧ br.pc = pc + 16 * n ∧ info.guard = some br.guard ∧
      (warp code).Straight M (fun preds => ∀ l ∈ M, preds l pred = regs l pred) pc n info := by
  obtain ⟨n, hn, hpc, -, ⟨info, hinfo, hguard⟩, hbetween⟩ := guardedBranch_ok hbr
  refine ⟨n, info, hn, hpc, hguard, ?_, ?_, ?_⟩
  · intro k hk hkn i hi
    obtain ⟨i', hi', hcontrol, hredefines⟩ := hbetween k hk hkn
    obtain rfl := Option.some.inj (hi.symm.trans (hcode _ _ hi'))
    refine ⟨by simp [warp, hcontrol], fun E preds preds' hK heffect l hl => ?_⟩
    rw [← hK l hl]
    by_contra hchanged
    have := (heffect l pred hpred hchanged).2
    rw [hredefines] at this
    cases this
  · rw [hpc] at hinfo
    exact hcode _ _ hinfo
  · intro i E preds preds' hdisjoint hK heffect l hl
    rw [← hK l hl]
    by_contra hchanged
    exact Set.disjoint_left.mp hdisjoint (heffect l pred hpred hchanged).1 hl

/-- A wait that is marked was as marked in all lanes of its mask, where the first event past the
branch is its own lanes'. -/
theorem markWaits_own {code : ℕ → Option StaticInfo} {pcSass : Dict ℕ StaticInfo} {evs : List Event} {i : ℕ}
    (hcode : ∀ pc info, pcSass.get? pc = some info → code pc = some info) (hown : OwnLanes pcSass evs i) :
    MarkedTruly code pcSass evs i := by
  rintro marked ev ev' pred b u hmark hev hkind hpred hev' hsuccess
    ⟨s, t, v, pre, post, r, rfl, hbefore, hwait, hafter, hevs⟩
  have hwaited := markWaits_get hmark hev hev' hkind
  rw [hsuccess] at hwaited
  obtain ⟨pc, br, straight, nxt, after, p, hpc, hbr, hrest, hstraight, hp, hunguarded, hshown⟩ :=
    waitSuccess_ok hpred hwaited
  -- the events are those of the records
  obtain ⟨before, others, hbefore', hothers, rfl⟩ := forall₂_append_left hevs.flip
  have hlength := hbefore'.length_eq
  cases hothers with
  | @cons _ ev₀ _ rest hr hpost =>
  have hev₀ : ev₀ = ev := by
    rw [hlength, List.getElem?_append_right (le_refl _), Nat.sub_self] at hev
    exact Option.some.inj hev
  subst hev₀
  have hdrop : (before ++ ev₀ :: rest).drop (pre.length + 1) = rest := by
    rw [hlength, List.drop_append, List.drop_eq_nil_of_le (by omega)]
    simp
  rw [hdrop] at hrest
  subst hrest
  obtain ⟨qs, qs', hqs, hqs', rfl⟩ := forall₂_append_left hpost.flip
  cases hqs' with
  | @cons _ q _ qs' hq hqs' =>
  have hrevent : IsEvent ev₀ r := hr
  have hqevent : IsEvent nxt q := hq
  obtain rfl := Except.ok.inj (hpc.symm.trans hrevent.pc)
  obtain rfl := Except.ok.inj (hp.symm.trans hqevent.pc)
  have hself := waitPredicate_self hpred
  have hcontrol : ¬(warp code).Control r.instr := by
    have := not_isControl_wait hrevent.sass (hrevent.kind hkind)
    simp [warp, this]
  obtain ⟨-, hnonempty, -, g, htogether⟩ := hwait.together hcontrol
  obtain ⟨n, info, hn, hbrpc, hguard, hstr⟩ := straight_of_guardedBranch hcode hself hbr r.lanes u.regs
  have hbefore₀ : (warp code).Before r.lanes (fun preds => ∀ l ∈ r.lanes, preds l pred = u.regs l pred) r.pc n u :=
    ⟨fun _ _ => rfl, 1, g, Nat.one_pos, hn, htogether⟩
  have hinside : ∀ x ∈ qs, r.pc < x.pc ∧ x.pc < r.pc + (warp code).width * n := by
    intro x hx
    obtain ⟨e, he, hevent⟩ := forall₂_mem_right hqs hx
    have hevent' : IsEvent e x := hevent
    obtain ⟨p, hp, hlt⟩ := hstraight e he
    obtain rfl := Except.ok.inj (hp.symm.trans hevent'.pc)
    rwa [hbrpc] at hlt
  have houtside : ¬(r.pc < q.pc ∧ q.pc < r.pc + (warp code).width * n) := by
    have hwidth : br.pc = r.pc + (warp code).width * n := hbrpc
    rcases hshown with ⟨hpc', -⟩ | ⟨hlt, -⟩ <;> omega
  have hguards : ∀ preds : Text → Bool, guardTrue info.guard preds = true ↔ preds pred = !hasPrefix "@!" br.guard :=
    fun preds => hguard ▸ guardTrue_iff hself (guardedBranch_ok hbr).choose_spec.2.2.1 preds
  obtain ⟨l₀, hl₀⟩ := hnonempty
  intro l hl
  have hlane : l ∈ r.lanes := hrevent.lanes ▸ hl
  rcases hshown with ⟨hqpc, hmask, rfl⟩ | ⟨hqpc, rfl⟩
  · -- the branch, recorded in all lanes of the wait
    have hlanes : q.lanes = r.lanes := by rw [← hqevent.lanes, ← hrevent.lanes, hmask]
    rcases hafter.shows hstr (.inl hbefore₀) rfl hinside houtside with
      hdisjoint | ⟨-, preds, hK, htaken⟩ | ⟨hne, -⟩
    · exact absurd (hlanes ▸ hl₀) (Set.disjoint_right.mp hdisjoint hl₀)
    · rw [← hK l hlane]
      exact (hguards (preds l)).mp ((htaken l hlane).mp (hlanes ▸ hlane))
    · exact absurd (hqpc.trans hbrpc) hne
  · -- a record past the branch
    rcases hafter.shows hstr (.inl hbefore₀) rfl hinside houtside with
      hdisjoint | ⟨heq, -⟩ | ⟨-, preds, hK, hpassed⟩
    · exfalso
      rw [← hqevent.lanes, ← hrevent.lanes] at hdisjoint
      rw [← hrevent.lanes] at hl₀
      by_cases hnone : nxt.guard = none
      · rw [hunguarded nxt (by simp) hnone] at hdisjoint
        exact Set.disjoint_left.mp hdisjoint hl₀ hl₀
      · obtain ⟨l', hwait', hnxt'⟩ := hown _ _ _ _ hev hpc hpred hbr straight nxt after hdrop hstraight
          ⟨_, hp, hqpc⟩ hunguarded hnone
        exact Set.disjoint_left.mp hdisjoint hnxt' hwait'
    · have hwidth : q.pc = r.pc + 16 * n := heq
      omega
    · have hnot := mt (hguards (preds l)).mpr (hpassed l hlane)
      rw [hK l hlane] at hnot
      simpa using hnot

/-! ### A wait marked by other lanes -/

def infoOf (sass : String) : StaticInfo :=
  match staticInfo sass with
  | .ok info => info
  | .error _ => ⟨sass, none, [], [], none, none⟩

def retryWait : String := "SYNCS.PHASECHK.TRANS64.TRYWAIT P0, [R2], R3"

def retryBranch : String := "@!P0 BRA 0x0"

def retryStore : String := "@P1 STS [R4], R5"

/-- A wait in a retry loop, and a guarded store after it. -/
def retryLoop : Dict ℕ StaticInfo where
  entries := [(0, infoOf retryWait), (16, infoOf retryBranch),
    (32, infoOf retryStore)]
  nodup := by decide

def retryEvent (pos : ℕ) (kind : Option Kind) (pc sass : String) (mask : ℕ) : Event :=
  { Event.plain (0, 0, 0) 0 pos .mbarWait with kind := kind, pc := pc, sass := sass, mask := mask }

/-- The low lanes retry, and before their branch the high lanes store. -/
def retryEvents : List Event := [
  retryEvent 0 (some .mbarWait) "0x0" retryWait 0xffffffff,
  retryEvent 1 none "0x10" retryBranch 0xffff,
  retryEvent 2 (some .mbarWait) "0x0" retryWait 0xffff,
  retryEvent 3 (some .genericW) "0x20" retryStore 0xffff0000]

/-- The high lanes pass the branch and store. -/
def passingEvents : List Event := [
  retryEvent 0 (some .mbarWait) "0x0" retryWait 0xffff0000,
  retryEvent 1 (some .genericW) "0x20" retryStore 0xffff0000]

theorem marked_by_own_lanes : MarkedTruly retryLoop.get? retryLoop passingEvents 0 := by
  apply markWaits_own fun _ _ h => h
  intro ev pc pred br hev _ _ _ straight nxt after hdrop _ _ _ _
  cases hev
  cases straight with
  | nil =>
    obtain ⟨rfl, -⟩ := List.cons.inj hdrop
    exact ⟨16, by decide, by decide⟩
  | cons e straight =>
    obtain ⟨-, hnil⟩ := List.cons.inj hdrop
    cases straight <;> cases hnil

/-- The low and the high lanes at some places; both predicates are true in the high lanes. -/
def lanesAt (low high : Simt.Place) : Simt.State ℕ (ℕ → Text → Bool) where
  place l := if l < 16 then some low else if l < 32 then some high else none
  regs l _ := decide (16 ≤ l)

theorem testBit_low (l : ℕ) : Nat.testBit 0xffff l = decide (l < 16) := Nat.testBit_two_pow_sub_one 16 l

theorem testBit_all (l : ℕ) : Nat.testBit 0xffffffff l = decide (l < 32) := Nat.testBit_two_pow_sub_one 32 l

theorem testBit_high (l : ℕ) : Nat.testBit 0xffff0000 l = decide (16 ≤ l ∧ l < 32) := by
  rw [show 0xffff0000 = (2 ^ 16 - 1) <<< 16 by decide, Nat.testBit_shiftLeft, Nat.testBit_two_pow_sub_one]
  by_cases h : 16 ≤ l
  · simp [h]
    omega
  · simp [h]

/-- Where lanes at `place` go when the group at `p` is issued an instruction: they move on, or take a branch. -/
def Goes (info : StaticInfo) (p place place' : Simt.Place) (preds : Text → Bool) : Prop :=
  place = p ∧ (place' = (p.1 + 16, p.2) ∨ isControl info.mn = true ∧ guardTrue info.guard preds = true) ∨
    place ≠ p ∧ place' = place

instance (info : StaticInfo) (p place place' : Simt.Place) (preds : Text → Bool) :
    Decidable (Goes info p place place' preds) :=
  inferInstanceAs (Decidable (_ ∨ _))

/-- A group is issued an instruction that changes no predicate. -/
theorem retry_step (low high low' high' p : Simt.Place) {info : StaticInfo}
    (hinfo : retryLoop.get? p.1 = some info)
    (hsome : ∃ l, (lanesAt low high).place l = some p ∧ guardTrue info.guard (fun _ => decide (16 ≤ l)) = true)
    (hlow : Goes info p low low' fun _ => false) (hhigh : Goes info p high high' fun _ => true) :
    (warp retryLoop.get?).Step (lanesAt low high) (lanesAt low' high')
      (some ⟨p.1, info, (warp retryLoop.get?).executed (lanesAt low high) info p⟩) := by
  have hregs : ∀ l, (fun _ => decide (16 ≤ l) : Text → Bool) = if l < 16 then fun _ => false else fun _ => true := by
    intro l
    split_ifs with h
    · funext _
      exact decide_eq_false (by omega)
    · funext _
      exact decide_eq_true (by omega)
  refine .issue p info hinfo hsome (fun l pred _ hne => absurd rfl hne) ?_ ?_
  · intro l hl
    by_cases h₁ : l < 16
    · simp only [lanesAt, h₁, if_true, ne_eq, Option.some.injEq] at hl ⊢
      exact (hlow.resolve_left fun h => hl h.1).2
    · by_cases h₂ : l < 32
      · simp only [lanesAt, h₁, h₂, if_true, if_false, ne_eq, Option.some.injEq] at hl ⊢
        exact (hhigh.resolve_left fun h => hl h.1).2
      · simp only [lanesAt, h₁, h₂, if_false]
  · intro l hl hcontrol
    have hexecuted : ¬(isControl info.mn = true ∧ guardTrue info.guard (fun _ => decide (16 ≤ l)) = true) :=
      fun h => hcontrol ⟨h.1, hl, h.2⟩
    rw [hregs] at hexecuted
    by_cases h₁ : l < 16
    · simp only [lanesAt, h₁, if_true, Option.some.injEq] at hl hexecuted ⊢
      exact (hlow.resolve_right fun h => h.1 hl).2.resolve_right hexecuted
    · by_cases h₂ : l < 32
      · simp only [lanesAt, h₁, h₂, if_true, if_false, Option.some.injEq] at hl hexecuted ⊢
        exact (hhigh.resolve_right fun h => h.1 hl).2.resolve_right hexecuted
      · simp [lanesAt, h₁, h₂] at hl

theorem retry_event (low high p : Simt.Place) {pos mask : ℕ} {kind : Option Kind} {pc sass : String}
    {info : StaticInfo} (hpc : hexInt pc.toList = some p.1) (hsass : staticInfo sass = .ok info)
    (hkind : kind = some .mbarWait → info.kind = some .mbarWait)
    (hmask : ∀ l, mask.testBit l = if l < 16 then decide (low = p) && guardTrue info.guard (fun _ => false)
      else decide (l < 32) && (decide (high = p) && guardTrue info.guard (fun _ => true))) :
    IsEvent (retryEvent pos kind pc sass mask)
      ⟨p.1, info, (warp retryLoop.get?).executed (lanesAt low high) info p⟩ := by
  refine ⟨?_, hsass, hkind, ?_⟩
  · show Event.pcInt (retryEvent pos kind pc sass mask) = .ok p.1
    simp only [Event.pcInt, retryEvent, hpc]
  · ext l
    show mask.testBit l = true ↔
      (lanesAt low high).place l = some p ∧ guardTrue info.guard (fun _ => decide (16 ≤ l)) = true
    rw [hmask]
    by_cases h₁ : l < 16
    · simp [lanesAt, h₁, not_le.mpr h₁]
    · by_cases h₂ : l < 32
      · simp [lanesAt, h₁, h₂, not_lt.mp h₁]
      · simp [lanesAt, h₁, h₂]

/-- The lanes that retry are marked as having succeeded, by the store of the others. -/
theorem marked_by_other_lanes : ¬MarkedTruly retryLoop.get? retryLoop retryEvents 2 := by
  intro htruly
  let m := warp retryLoop.get?
  have hwait : retryLoop.get? 0 = some (infoOf retryWait) := rfl
  have hbranch : retryLoop.get? 16 = some (infoOf retryBranch) := rfl
  have hstore : retryLoop.get? 32 = some (infoOf retryStore) := rfl
  have h₁ : m.Step (lanesAt (0, 0) (0, 0)) (lanesAt (16, 0) (16, 0))
      (some ⟨0, infoOf retryWait, m.executed (lanesAt (0, 0) (0, 0)) (infoOf retryWait) (0, 0)⟩) :=
    retry_step (0, 0) (0, 0) (16, 0) (16, 0) (0, 0) hwait ⟨0, by decide, by decide +kernel⟩ (by decide +kernel)
      (by decide +kernel)
  have h₂ : m.Step (lanesAt (16, 0) (16, 0)) (lanesAt (0, 1) (32, 0))
      (some ⟨16, infoOf retryBranch, m.executed (lanesAt (16, 0) (16, 0)) (infoOf retryBranch) (16, 0)⟩) :=
    retry_step (16, 0) (16, 0) (0, 1) (32, 0) (16, 0) hbranch ⟨0, by decide, by decide +kernel⟩ (by decide +kernel)
      (by decide +kernel)
  have h₃ : m.Step (lanesAt (0, 1) (32, 0)) (lanesAt (16, 1) (32, 0))
      (some ⟨0, infoOf retryWait, m.executed (lanesAt (0, 1) (32, 0)) (infoOf retryWait) (0, 1)⟩) :=
    retry_step (0, 1) (32, 0) (16, 1) (32, 0) (0, 1) hwait ⟨0, by decide, by decide +kernel⟩ (by decide +kernel)
      (by decide +kernel)
  have h₄ : m.Step (lanesAt (16, 1) (32, 0)) (lanesAt (16, 1) (48, 0))
      (some ⟨32, infoOf retryStore, m.executed (lanesAt (16, 1) (32, 0)) (infoOf retryStore) (32, 0)⟩) :=
    retry_step (16, 1) (32, 0) (16, 1) (48, 0) (32, 0) hstore ⟨16, by decide, by decide +kernel⟩ (by decide +kernel)
      (by decide +kernel)
  have hevs : List.Forall₂ IsEvent retryEvents
      ([⟨0, infoOf retryWait, m.executed (lanesAt (0, 0) (0, 0)) (infoOf retryWait) (0, 0)⟩,
        ⟨16, infoOf retryBranch, m.executed (lanesAt (16, 0) (16, 0)) (infoOf retryBranch) (16, 0)⟩] ++
        ⟨0, infoOf retryWait, m.executed (lanesAt (0, 1) (32, 0)) (infoOf retryWait) (0, 1)⟩ ::
        [⟨32, infoOf retryStore, m.executed (lanesAt (16, 1) (32, 0)) (infoOf retryStore) (32, 0)⟩]) := by
    have hguards : guardTrue (infoOf retryWait).guard = (fun _ => true) ∧
        guardTrue (infoOf retryBranch).guard = (fun preds => !preds "P0".toList) ∧
        guardTrue (infoOf retryStore).guard = (fun preds => preds "P1".toList) := ⟨rfl, rfl, rfl⟩
    obtain ⟨hwaits, hbranches, hstores⟩ := hguards
    have hsass : staticInfo retryWait = .ok (infoOf retryWait) ∧
        staticInfo retryBranch = .ok (infoOf retryBranch) ∧
        staticInfo retryStore = .ok (infoOf retryStore) := by decide +kernel
    refine .cons (retry_event (0, 0) (0, 0) (0, 0) ?_ hsass.1 ?_ fun l => ?_)
      (.cons (retry_event (16, 0) (16, 0) (16, 0) ?_ hsass.2.1 ?_ fun l => ?_)
      (.cons (retry_event (0, 1) (32, 0) (0, 1) ?_ hsass.1 ?_ fun l => ?_)
      (.cons (retry_event (16, 1) (32, 0) (32, 0) ?_ hsass.2.2 ?_ fun l => ?_) .nil)))
    · decide +kernel
    · decide +kernel
    · rw [testBit_all, hwaits]
      by_cases hl : l < 16
      · simp [hl]
        omega
      · simp [hl]
    · decide +kernel
    · decide +kernel
    · rw [testBit_low, hbranches]
      by_cases hl : l < 16 <;> simp [hl]
    · decide +kernel
    · decide +kernel
    · rw [testBit_low, hwaits]
      by_cases hl : l < 16 <;> simp [hl]
    · decide +kernel
    · decide +kernel
    · rw [testBit_high, hstores]
      by_cases hl : l < 16
      · simp [hl]
      · simp [hl, not_lt.mp hl]
  have hresult : (markWaits retryLoop retryEvents).toOption.map (fun marked => marked[2]?.map Event.success) =
      some (some (some true)) := by decide +kernel
  obtain ⟨marked, hmarked, hget⟩ := Option.map_eq_some_iff.mp hresult
  obtain ⟨ev', hev', hsuccess⟩ := Option.map_eq_some_iff.mp hget
  have hmark : markWaits retryLoop retryEvents = .ok marked := by
    cases hcase : markWaits retryLoop retryEvents with
    | error e =>
      rw [hcase] at hmarked
      cases hmarked
    | ok m =>
      rw [hcase] at hmarked
      exact congrArg Except.ok (Option.some.inj hmarked)
  have htrue := htruly marked _ ev' "P0".toList true _ hmark rfl rfl (by decide +kernel) hev' hsuccess
    ⟨_, _, _, _, _, _, rfl, .record h₁ (.record h₂ (.nil _)), h₃, .record h₄ (.nil _), hevs⟩ 0 (by decide)
  exact absurd htrue (by decide)

end CuTracer.MemoryModel
