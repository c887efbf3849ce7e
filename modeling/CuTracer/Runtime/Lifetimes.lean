import CuTracer.Runtime.Actions

/-! The ledger never serves a dead lifetime. What is live refers to what is live: a
module to its context, a function to its module, a pending launch to its context. The
launch IDs that are retired are not pending, and the keys of lifetimes differ as long as
the digest does not collide on what was digested. -/

namespace CuTracer.Runtime

variable {digest : Json → String} {sink : ℕ → Bool} {w w' : World}

/-! ### What is live -/

def IsModule (modules : Dict HandleKey Module) (ctx : ℕ) (key : String) : Prop :=
  ∃ module known, modules.get? (ctx, module) = some known ∧ known.key = key

/-- Every entry refers to live entries. -/
structure Placed (contexts : Dict ℕ Context) (modules : Dict HandleKey Module)
    (functions : Dict HandleKey Fields) (failed : Dict HandleKey String)
    (pending : Dict ℕ Launch) : Prop where
  module : ∀ k m, modules.get? k = some m → k.1 ∈ contexts.keys
  function : ∀ k f, functions.get? k = some f →
    ∃ key, moduleOf f = some (.str key) ∧ IsModule modules k.1 key
  unavailable : ∀ k key, failed.get? k = some key → IsModule modules k.1 key
  served : ∀ k ∈ functions.keys, k ∉ failed.keys
  launch : ∀ id l, pending.get? id = some l → l.context ∈ contexts.keys

abbrev World.Placed (w : World) : Prop :=
  CuTracer.Runtime.Placed w.contexts w.modules w.functions w.failedFunctions w.pending

section Placed

variable {contexts : Dict ℕ Context} {modules : Dict HandleKey Module}
  {functions : Dict HandleKey Fields} {failed : Dict HandleKey String} {pending : Dict ℕ Launch}

theorem IsModule.insert {ctx : ℕ} {key : String} (h : IsModule modules ctx key) {k : HandleKey}
    (hnew : k ∉ modules.keys) (m : Module) : IsModule (modules.insert k m) ctx key := by
  obtain ⟨module, known, hknown, hkey⟩ := h
  refine ⟨module, known, ?_, hkey⟩
  have hne : (ctx, module) ≠ k := fun heq => hnew (heq ▸ Dict.mem_keys_of_get? hknown)
  rw [Dict.get?_insert, if_neg hne, hknown]

variable (h : Placed contexts modules functions failed pending)

include h in
/-- A context may begin or count; what was live stays live. -/
theorem Placed.insertContext (handle : ℕ) (context : Context) :
    Placed (contexts.insert handle context) modules functions failed pending := by
  have hmono : ∀ k ∈ contexts.keys, k ∈ (contexts.insert handle context).keys := fun k hk =>
    (Dict.mem_keys_insert ..).mpr (.inr hk)
  exact ⟨fun k m hm => hmono _ (h.module k m hm), h.function, h.unavailable, h.served,
    fun id l hl => hmono _ (h.launch id l hl)⟩

include h in
theorem Placed.insertModule {k : HandleKey} (hctx : k.1 ∈ contexts.keys) (hnew : k ∉ modules.keys)
    (m : Module) :
    Placed contexts (modules.insert k m) functions failed pending where
  module k' m' hm' := by
    rw [Dict.get?_insert] at hm'
    split_ifs at hm' with hk
    · exact hk ▸ hctx
    · exact h.module k' m' hm'
  function k' f hf := by
    obtain ⟨key, hkey, hmodule⟩ := h.function k' f hf
    exact ⟨key, hkey, hmodule.insert hnew m⟩
  unavailable k' key hkey := (h.unavailable k' key hkey).insert hnew m
  served := h.served
  launch := h.launch

include h in
/-- What belongs to a context goes with it. -/
theorem Placed.endContext (handle : ℕ) :
    Placed (contexts.filter fun k _ => k ≠ handle) (modules.filter fun k _ => k.1 ≠ handle)
      (functions.filter fun k _ => k.1 ≠ handle) (failed.filter fun k _ => k.1 ≠ handle)
      (pending.filter fun _ l => l.context ≠ handle) := by
  have hkeep : ∀ k ∈ contexts.keys, k ≠ handle →
      k ∈ (contexts.filter fun k _ => k ≠ handle).keys := by
    intro k hk hne
    obtain ⟨context, hcontext⟩ := (Dict.mem_keys_iff _ _).mp hk
    exact Dict.mem_keys_filter.mpr ⟨context, hcontext, by simpa using hne⟩
  have hmodule : ∀ ctx key, ctx ≠ handle → IsModule modules ctx key →
      IsModule (modules.filter fun k _ => k.1 ≠ handle) ctx key := by
    rintro ctx key hne ⟨module, known, hknown, hkey⟩
    exact ⟨module, known, Dict.get?_filter.mpr ⟨hknown, by simpa using hne⟩, hkey⟩
  refine ⟨?_, ?_, ?_, ?_, ?_⟩
  · intro k m hm
    rw [Dict.get?_filter] at hm
    exact hkeep _ (h.module k m hm.1) (by simpa using hm.2)
  · intro k f hf
    rw [Dict.get?_filter] at hf
    obtain ⟨key, hkey, hof⟩ := h.function k f hf.1
    exact ⟨key, hkey, hmodule _ _ (by simpa using hf.2) hof⟩
  · intro k key hkey
    rw [Dict.get?_filter] at hkey
    exact hmodule _ _ (by simpa using hkey.2) (h.unavailable k key hkey.1)
  · intro k hk hfailed
    obtain ⟨f, hf, -⟩ := Dict.mem_keys_filter.mp hk
    obtain ⟨key, hkey, -⟩ := Dict.mem_keys_filter.mp hfailed
    exact h.served k (Dict.mem_keys_of_get? hf) (Dict.mem_keys_of_get? hkey)
  · intro id l hl
    rw [Dict.get?_filter] at hl
    exact hkeep _ (h.launch id l hl.1) (by simpa using hl.2)

include h in
/-- The functions of a module go with it. A function that stays has another key, so its
module stays as well. -/
theorem Placed.endModule {ctx module : ℕ} {known : Module}
    (hknown : modules.get? (ctx, module) = some known) :
    Placed contexts (modules.filter fun k _ => k ≠ (ctx, module))
      (functions.filter fun k f => ¬(k.1 = ctx ∧ moduleOf f = some (.str known.key)))
      (failed.filter fun k m => ¬(k.1 = ctx ∧ m = known.key)) pending := by
  have hmodule : ∀ ctx' key, ¬(ctx' = ctx ∧ key = known.key) → IsModule modules ctx' key →
      IsModule (modules.filter fun k _ => k ≠ (ctx, module)) ctx' key := by
    rintro ctx' key hne ⟨module', known', hknown', rfl⟩
    refine ⟨module', known', Dict.get?_filter.mpr ⟨hknown', ?_⟩, rfl⟩
    have : (ctx', module') ≠ (ctx, module) := by
      rintro heq
      rw [heq, hknown] at hknown'
      cases hknown'
      exact hne ⟨congrArg Prod.fst heq, rfl⟩
    exact decide_eq_true this
  refine ⟨?_, ?_, ?_, ?_, h.launch⟩
  · intro k m hm
    rw [Dict.get?_filter] at hm
    exact h.module k m hm.1
  · intro k f hf
    rw [Dict.get?_filter] at hf
    obtain ⟨key, hkey, hof⟩ := h.function k f hf.1
    have hne : ¬(k.1 = ctx ∧ moduleOf f = some (.str known.key)) := of_decide_eq_true hf.2
    exact ⟨key, hkey, hmodule _ _ (fun heq => hne ⟨heq.1, heq.2 ▸ hkey⟩) hof⟩
  · intro k key hkey
    rw [Dict.get?_filter] at hkey
    have hne : ¬(k.1 = ctx ∧ key = known.key) := of_decide_eq_true hkey.2
    exact hmodule _ _ hne (h.unavailable k key hkey.1)
  · intro k hk hfailed
    obtain ⟨f, hf, -⟩ := Dict.mem_keys_filter.mp hk
    obtain ⟨key, hkey, -⟩ := Dict.mem_keys_filter.mp hfailed
    exact h.served k (Dict.mem_keys_of_get? hf) (Dict.mem_keys_of_get? hkey)

include h in
theorem Placed.serve {k : HandleKey} {attributes : Fields} {key : String}
    (hof : moduleOf attributes = some (.str key)) (hmodule : IsModule modules k.1 key)
    (hserved : k ∉ failed.keys) :
    Placed contexts modules (functions.insert k attributes) failed pending := by
  refine ⟨h.module, ?_, h.unavailable, ?_, h.launch⟩
  · intro k' f hf
    rw [Dict.get?_insert] at hf
    split_ifs at hf with heq
    · cases hf
      exact ⟨key, hof, heq ▸ hmodule⟩
    · exact h.function k' f hf
  · intro k' hk'
    rcases (Dict.mem_keys_insert ..).mp hk' with rfl | hk'
    · exact hserved
    · exact h.served k' hk'

include h in
theorem Placed.fail {k : HandleKey} {key : String} (hmodule : IsModule modules k.1 key)
    (hnew : k ∉ functions.keys) :
    Placed contexts modules functions (failed.upsert k fun old => old.getD key) pending := by
  refine ⟨h.module, h.function, ?_, ?_, h.launch⟩
  · intro k' key' hkey'
    rw [Dict.get?_upsert] at hkey'
    split_ifs at hkey' with heq
    · subst heq
      cases hold : failed.get? k' with
      | none =>
        rw [hold] at hkey'
        cases hkey'
        exact hmodule
      | some old =>
        rw [hold] at hkey'
        cases hkey'
        exact h.unavailable k' _ hold
    · exact h.unavailable k' key' hkey'
  · intro k' hk' hfailed
    rcases (Dict.mem_keys_upsert ..).mp hfailed with rfl | hfailed
    · exact hnew hk'
    · exact h.served k' hk' hfailed

include h in
theorem Placed.insertLaunch (id : ℕ) {l : Launch} (hctx : l.context ∈ contexts.keys) :
    Placed contexts modules functions failed (pending.insert id l) := by
  refine ⟨h.module, h.function, h.unavailable, h.served, ?_⟩
  intro id' l' hl'
  rw [Dict.get?_insert] at hl'
  split_ifs at hl' with heq
  · cases hl'
    exact hctx
  · exact h.launch id' l' hl'

include h in
theorem Placed.filterLaunch (p : ℕ → Launch → Bool) :
    Placed contexts modules functions failed (pending.filter p) := by
  refine ⟨h.module, h.function, h.unavailable, h.served, ?_⟩
  intro id l hl
  exact h.launch id l (Dict.get?_filter.mp hl).1

end Placed

/-! ### Retired launch IDs -/

/-- The retired IDs and their queue hold the same IDs, at most as many as the limit. -/
structure Window (limit : ℕ) (ids : Finset ℕ) (order : List ℕ) : Prop where
  nodup : order.Nodup
  mem : ∀ id, id ∈ ids ↔ id ∈ order
  length : order.length ≤ limit

/-- The oldest ID leaves a window that holds one too many. -/
theorem Window.shift {limit id : ℕ} {ids all : Finset ℕ} {order : List ℕ}
    (h : Window limit ids order) (hlimit : 0 < limit) (hnodup : (order ++ [id]).Nodup)
    (hmem : ∀ i, i ∈ all ↔ i ∈ order ++ [id]) (hfull : limit < (order ++ [id]).length) :
    Window limit (all.erase ((order ++ [id]).headD 0)) (order ++ [id]).tail := by
  cases order with
  | nil =>
    rw [List.nil_append, List.length_singleton] at hfull
    omega
  | cons oldest order =>
    rw [List.cons_append] at hnodup hmem ⊢
    rw [List.headD_cons, List.tail_cons]
    refine ⟨hnodup.of_cons, ?_, ?_⟩
    · intro i
      rw [Finset.mem_erase, hmem, List.mem_cons]
      constructor
      · rintro ⟨hne, hi | hi⟩
        · exact absurd hi hne
        · exact hi
      · intro hi
        exact ⟨fun heq => (List.nodup_cons.mp hnodup).1 (heq ▸ hi), .inr hi⟩
    · have := h.length
      simp only [List.length_cons, List.length_append] at this ⊢
      simpa using this

/-- Retiring an ID changes the window only, and adds no other ID. -/
theorem retireLaunchId_window {l : Ledger} (id : ℕ)
    (h : Window l.limits.retiredLaunchIds l.retiredLaunchIds l.retiredLaunchOrder) :
    ∃ ids order, retireLaunchId id l =
        { l with retiredLaunchIds := ids, retiredLaunchOrder := order } ∧
      Window l.limits.retiredLaunchIds ids order ∧
      ∀ i ∈ ids, i = id ∨ i ∈ l.retiredLaunchIds := by
  unfold retireLaunchId
  by_cases hsame : l.limits.retiredLaunchIds = 0 ∨ id ∈ l.retiredLaunchIds
  · rw [if_pos hsame]
    exact ⟨_, _, rfl, h, fun i hi => .inr hi⟩
  · rw [if_neg hsame]
    push Not at hsame
    have hnodup : (l.retiredLaunchOrder ++ [id]).Nodup := by
      rw [← List.concat_eq_append]
      exact h.nodup.concat fun hin => hsame.2 ((h.mem id).mpr hin)
    have hmem : ∀ i, i ∈ insert id l.retiredLaunchIds ↔ i ∈ l.retiredLaunchOrder ++ [id] := by
      intro i
      simp [h.mem i, or_comm]
    dsimp only
    split_ifs with hfull
    · refine ⟨_, _, rfl, ?_, fun i hi => Finset.mem_insert.mp (Finset.mem_of_mem_erase hi)⟩
      exact h.shift (Nat.pos_of_ne_zero hsame.1) hnodup hmem hfull
    · exact ⟨_, _, rfl, ⟨hnodup, hmem, Nat.le_of_not_lt hfull⟩, fun i hi => Finset.mem_insert.mp hi⟩

theorem retireAll_window {l : Ledger} (retired : List ℕ)
    (h : Window l.limits.retiredLaunchIds l.retiredLaunchIds l.retiredLaunchOrder) :
    ∃ ids order, retired.foldl (fun l id => retireLaunchId id l) l =
        { l with retiredLaunchIds := ids, retiredLaunchOrder := order } ∧
      Window l.limits.retiredLaunchIds ids order ∧
      ∀ i ∈ ids, i ∈ retired ∨ i ∈ l.retiredLaunchIds := by
  induction retired generalizing l with
  | nil => exact ⟨_, _, rfl, h, fun i hi => .inr hi⟩
  | cons id retired ih =>
    obtain ⟨ids, order, heq, hwindow, hids⟩ := retireLaunchId_window id h
    obtain ⟨ids', order', heq', hwindow', hids'⟩ := ih
      (l := { l with retiredLaunchIds := ids, retiredLaunchOrder := order }) hwindow
    rw [← heq] at heq'
    refine ⟨ids', order', ?_, hwindow', ?_⟩
    · rw [List.foldl_cons, heq', heq]
    · intro i hi
      rcases hids' i hi with hi | hi
      · exact .inl (by simp [hi])
      · rcases hids i hi with rfl | hi
        · exact .inl (by simp)
        · exact .inr hi

/-! ### The names of lifetimes -/

theorem contextIdentity_ne_moduleIdentity (processKey contextKey : String) (m n handle handle' : ℕ) :
    contextIdentity processKey m handle ≠ moduleIdentity contextKey n handle' := by
  simp [contextIdentity, moduleIdentity]

theorem contextIdentity_inj {processKey : String} {m n handle handle' : ℕ}
    (h : contextIdentity processKey m handle = contextIdentity processKey n handle') :
    m = n ∧ handle = handle' := by
  simpa [contextIdentity, Int.natCast_inj] using h

theorem moduleIdentity_inj {c d : String} {m n handle handle' : ℕ}
    (h : moduleIdentity c m handle = moduleIdentity d n handle') :
    c = d ∧ handle = handle' ∧ m = n := by
  simpa [moduleIdentity, Int.natCast_inj] using h

/-- Every lifetime that began has an ordinal of its own, and what is live has the key of
one that began under its handle. -/
structure Named (digest : Json → String) (processKey : String) (contextCounter moduleCounter : ℕ)
    (contexts : Dict ℕ Context) (modules : Dict HandleKey Module) (begun : List Json) : Prop where
  lifetime : ∀ j ∈ begun,
    (∃ n < contextCounter, ∃ handle, j = contextIdentity processKey n handle) ∨
      ∃ n < moduleCounter, ∃ c handle, j = moduleIdentity c n handle
  nodup : begun.Nodup
  context : ∀ handle context, contexts.get? handle = some context →
    ∃ n, contextIdentity processKey n handle ∈ begun ∧
      context.key = digest (contextIdentity processKey n handle)
  module : ∀ k m, modules.get? k = some m → ∃ context n, contexts.get? k.1 = some context ∧
    moduleIdentity context.key n k.2 ∈ begun ∧ m.key = digest (moduleIdentity context.key n k.2)

abbrev World.Named (digest : Json → String) (w : World) : Prop :=
  CuTracer.Runtime.Named digest w.processKey w.contextCounter w.moduleCounter w.contexts w.modules
    w.begun

section Named

variable {processKey : String} {contextCounter moduleCounter : ℕ} {contexts : Dict ℕ Context}
  {modules : Dict HandleKey Module} {begun : List Json}

theorem Named.beginContext
    (h : Named digest processKey contextCounter moduleCounter contexts modules begun) {handle : ℕ}
    (hnew : handle ∉ contexts.keys) (hmodules : ∀ k m, modules.get? k = some m → k.1 ∈ contexts.keys) :
    Named digest processKey (contextCounter + 1) moduleCounter
      (contexts.insert handle ⟨digest (contextIdentity processKey contextCounter handle), Dict.empty⟩)
      modules (begun ++ [contextIdentity processKey contextCounter handle]) := by
  refine ⟨?_, ?_, ?_, ?_⟩
  · intro j hj
    rcases List.mem_append.mp hj with hj | hj
    · rcases h.lifetime j hj with ⟨n, hn, hform⟩ | hform
      · exact .inl ⟨n, Nat.lt_succ_of_lt hn, hform⟩
      · exact .inr hform
    · exact .inl ⟨contextCounter, Nat.lt_succ_self _, handle, List.mem_singleton.mp hj⟩
  · rw [← List.concat_eq_append]
    apply h.nodup.concat
    intro hold
    rcases h.lifetime _ hold with ⟨n, hn, handle', heq⟩ | ⟨n, hn, c, handle', heq⟩
    · exact absurd (contextIdentity_inj heq).1 (Nat.ne_of_gt hn)
    · exact contextIdentity_ne_moduleIdentity _ _ _ _ _ _ heq
  · intro handle' context hcontext
    rw [Dict.get?_insert] at hcontext
    split_ifs at hcontext with heq
    · cases hcontext
      exact ⟨contextCounter, by simp [heq], by rw [heq]⟩
    · obtain ⟨n, hn, hkey⟩ := h.context handle' context hcontext
      exact ⟨n, List.mem_append_left _ hn, hkey⟩
  · intro k m hm
    obtain ⟨context, n, hcontext, hn, hkey⟩ := h.module k m hm
    have hne : k.1 ≠ handle := fun heq => hnew (heq ▸ hmodules k m hm)
    exact ⟨context, n, by rw [Dict.get?_insert, if_neg hne, hcontext], List.mem_append_left _ hn, hkey⟩

theorem Named.beginModule
    (h : Named digest processKey contextCounter moduleCounter contexts modules begun)
    {ctx module : ℕ} {context : Context} (observed : Bool)
    (hcontext : contexts.get? ctx = some context) :
    Named digest processKey contextCounter (moduleCounter + 1) contexts
      (modules.insert (ctx, module)
        ⟨digest (moduleIdentity context.key moduleCounter module), observed⟩)
      (begun ++ [moduleIdentity context.key moduleCounter module]) := by
  refine ⟨?_, ?_, ?_, ?_⟩
  · intro j hj
    rcases List.mem_append.mp hj with hj | hj
    · rcases h.lifetime j hj with hform | ⟨n, hn, hform⟩
      · exact .inl hform
      · exact .inr ⟨n, Nat.lt_succ_of_lt hn, hform⟩
    · exact .inr ⟨moduleCounter, Nat.lt_succ_self _, _, _, List.mem_singleton.mp hj⟩
  · rw [← List.concat_eq_append]
    apply h.nodup.concat
    intro hold
    rcases h.lifetime _ hold with ⟨n, hn, handle', heq⟩ | ⟨n, hn, c, handle', heq⟩
    · exact contextIdentity_ne_moduleIdentity _ _ _ _ _ _ heq.symm
    · exact absurd (moduleIdentity_inj heq).2.2 (Nat.ne_of_gt hn)
  · intro handle' context' hcontext'
    obtain ⟨n, hn, hkey⟩ := h.context handle' context' hcontext'
    exact ⟨n, List.mem_append_left _ hn, hkey⟩
  · intro k m hm
    rw [Dict.get?_insert] at hm
    split_ifs at hm with heq
    · cases hm
      subst heq
      exact ⟨context, moduleCounter, hcontext, by simp, rfl⟩
    · obtain ⟨context', n, hcontext', hn, hkey⟩ := h.module k m hm
      exact ⟨context', n, hcontext', List.mem_append_left _ hn, hkey⟩

theorem Named.endContext
    (h : Named digest processKey contextCounter moduleCounter contexts modules begun) (handle : ℕ) :
    Named digest processKey contextCounter moduleCounter (contexts.filter fun k _ => k ≠ handle)
      (modules.filter fun k _ => k.1 ≠ handle) begun := by
  refine ⟨h.lifetime, h.nodup, ?_, ?_⟩
  · intro handle' context hcontext
    exact h.context handle' context (Dict.get?_filter.mp hcontext).1
  · intro k m hm
    rw [Dict.get?_filter] at hm
    obtain ⟨context, n, hcontext, hn, hkey⟩ := h.module k m hm.1
    exact ⟨context, n, Dict.get?_filter.mpr ⟨hcontext, hm.2⟩, hn, hkey⟩

theorem Named.filterModules
    (h : Named digest processKey contextCounter moduleCounter contexts modules begun)
    (p : HandleKey → Module → Bool) :
    Named digest processKey contextCounter moduleCounter contexts (modules.filter p) begun :=
  ⟨h.lifetime, h.nodup, h.context, fun k m hm => h.module k m (Dict.get?_filter.mp hm).1⟩

/-- Counting a launch keeps the key of its context. -/
theorem Named.count
    (h : Named digest processKey contextCounter moduleCounter contexts modules begun) {ctx : ℕ}
    {context : Context} (hcontext : contexts.get? ctx = some context)
    (ordinalKey : String × String) :
    Named digest processKey contextCounter moduleCounter
      (contexts.insert ctx (context.count ordinalKey)) modules begun := by
  refine ⟨h.lifetime, h.nodup, ?_, ?_⟩
  · intro handle context' hcontext'
    rw [Dict.get?_insert] at hcontext'
    split_ifs at hcontext' with heq
    · cases hcontext'
      exact h.context handle context (heq ▸ hcontext)
    · exact h.context handle context' hcontext'
  · intro k m hm
    obtain ⟨context', n, hcontext', hn, hkey⟩ := h.module k m hm
    by_cases heq : k.1 = ctx
    · rw [heq, hcontext] at hcontext'
      cases hcontext'
      exact ⟨context.count ordinalKey, n, by rw [Dict.get?_insert, if_pos heq], hn, hkey⟩
    · exact ⟨context', n, by rw [Dict.get?_insert, if_neg heq, hcontext'], hn, hkey⟩

end Named

/-! ### What every action keeps -/

structure Consistent (digest : Json → String) (w : World) : Prop where
  placed : w.Placed
  window : Window w.limits.retiredLaunchIds w.retiredLaunchIds w.retiredLaunchOrder
  pending : ∀ id ∈ w.pending.keys, id ∉ w.retiredLaunchIds
  named : w.Named digest
  digested : ∀ j ∈ w.begun, j ∈ w.digested

theorem Consistent.retire (h : Consistent digest w) {id : ℕ} (hnew : id ∉ w.pending.keys) :
    Consistent digest { w with toLedger := retireLaunchId id w.toLedger } := by
  obtain ⟨ids, order, heq, hwindow, hids⟩ := retireLaunchId_window id h.window
  rw [heq]
  refine ⟨h.placed, hwindow, ?_, h.named, h.digested⟩
  intro i hi hretired
  rcases hids i hretired with rfl | hretired
  · exact hnew hi
  · exact h.pending i hi hretired

/-- The launches of a context are retired and leave; no other launch is retired. -/
theorem Consistent.endContext (h : Consistent digest w) (handle : ℕ) :
    Consistent digest { w with toLedger := Runtime.endContext handle w.toLedger } := by
  obtain ⟨ids, order, heq, hwindow, hids⟩ :=
    retireAll_window ((launchesOf handle w.toLedger).map Prod.fst) h.window
  unfold Runtime.endContext
  dsimp only
  rw [heq]
  refine ⟨h.placed.endContext handle, hwindow, ?_, h.named.endContext handle, h.digested⟩
  intro i hi hretired
  obtain ⟨l, hl, hother⟩ := Dict.mem_keys_filter.mp hi
  rcases hids i hretired with hin | hretired
  · obtain ⟨p, hp, rfl⟩ := List.mem_map.mp hin
    rw [launchesOf, mem_sortOn, List.mem_filter] at hp
    have hp' : w.pending.get? p.1 = some p.2 := (Dict.get?_eq_some_iff ..).mpr hp.1
    rw [hl] at hp'
    cases hp'
    exact absurd (of_decide_eq_true hp.2) (of_decide_eq_true hother)
  · exact h.pending i (Dict.mem_keys_of_get? hl) hretired

/-- A launch that completes leaves the pending launches before it counts as retired. -/
theorem Consistent.complete (h : Consistent digest w) (id : ℕ) :
    Consistent digest { w with toLedger := { retireLaunchId id w.toLedger with
      pending := w.pending.filter fun i _ => i ≠ id } } := by
  have hgone : id ∉ (w.pending.filter fun i _ => i ≠ id).keys := by
    intro hin
    obtain ⟨l, -, hne⟩ := Dict.mem_keys_filter.mp hin
    exact of_decide_eq_true hne rfl
  obtain ⟨ids, order, heq, hwindow, hids⟩ := retireLaunchId_window id h.window
  rw [heq]
  refine ⟨h.placed.filterLaunch fun i _ => i ≠ id, hwindow, ?_, h.named, h.digested⟩
  intro i hi hretired
  rcases hids i hretired with rfl | hretired
  · exact hgone hi
  · obtain ⟨l, hl, -⟩ := Dict.mem_keys_filter.mp hi
    exact h.pending i (Dict.mem_keys_of_get? hl) hretired

theorem Consistent.action (hstep : Action digest w w') (h : Consistent digest w) :
    Consistent digest w' := by
  have hdigested : ∀ value, ∀ j ∈ w.begun, j ∈ w.digested ++ [value] := fun _ j hj =>
    List.mem_append_left _ (h.digested j hj)
  have hbegun : ∀ value, ∀ j ∈ w.begun ++ [value], j ∈ w.digested ++ [value] := by
    intro value j hj
    rcases List.mem_append.mp hj with hj | hj
    · exact hdigested value j hj
    · exact List.mem_append_right _ hj
  cases hstep with
  | lose => exact { h with }
  | publish _ => exact { h with }
  | gap => exact { h with }
  | digest value => exact ⟨h.placed, h.window, h.pending, h.named, hdigested value⟩
  | beginContext hnew =>
    exact ⟨h.placed.insertContext _ _, h.window, h.pending,
      h.named.beginContext hnew h.placed.module, hbegun _⟩
  | endContext handle => exact h.endContext handle
  | beginModule observed hcontext hnew =>
    exact ⟨h.placed.insertModule (Dict.mem_keys_of_get? hcontext) hnew _, h.window, h.pending,
      h.named.beginModule observed hcontext, hbegun _⟩
  | @endModule ctx module known hknown =>
    exact ⟨h.placed.endModule hknown, h.window, h.pending,
      h.named.filterModules fun k _ => k ≠ (ctx, module), h.digested⟩
  | serve hmodule hof hnew hserved =>
    exact ⟨h.placed.serve hof hmodule hserved, h.window, h.pending, h.named, h.digested⟩
  | fail hmodule hnew =>
    exact ⟨h.placed.fail hmodule hnew, h.window, h.pending, h.named, h.digested⟩
  | count ordinalKey hcontext value =>
    exact ⟨h.placed.insertContext _ _, h.window, h.pending, h.named.count hcontext ordinalKey,
      hdigested value⟩
  | retire hnew => exact h.retire hnew
  | @launch ctx id context binding fields cubin entry selected hcontext _ _ hnew hretired identity _ =>
    refine ⟨(h.placed.insertContext _ _).insertLaunch id
      ((Dict.mem_keys_insert ..).mpr (.inl rfl)), h.window, ?_, h.named.count hcontext _,
      hdigested _⟩
    intro i hi
    rcases (Dict.mem_keys_insert ..).mp hi with rfl | hi
    · exact hretired
    · exact h.pending i hi
  | @complete id known contextKey completed drained hknown =>
    have hpublished : Consistent digest (w.publish (.driverCompletion known.key id contextKey
        completed drained known.captureSelected)) :=
      { h with }
    have hdone := hpublished.complete id
    exact { hdone with }
  | finish _ => exact { h with }

theorem consistent_start (process : Json) (limits : RuntimeIdentityLimits) :
    Consistent digest (World.start digest process limits) where
  placed := by
    refine ⟨?_, ?_, ?_, ?_, ?_⟩ <;> intro k <;> simp [World.start, Dict.empty, Dict.keys, Dict.get?, Dict.lookup]
  window := ⟨List.nodup_nil, by simp [World.start], Nat.zero_le _⟩
  pending := by simp [World.start, Dict.empty, Dict.keys]
  named := by
    refine ⟨?_, List.nodup_nil, ?_, ?_⟩ <;> intro k <;> simp [World.start, Dict.empty, Dict.get?, Dict.lookup]
  digested := by simp [World.start]

/-! ### Runs -/

/-- What a ledger guarantees of its lifetimes in a reachable state. -/
structure Sound (digest : Json → String) (w : World) : Prop where
  /-- Every live module belongs to a live context. -/
  module : ∀ k m, w.modules.get? k = some m → k.1 ∈ w.contexts.keys
  /-- Every function refers to the key of a live module of its context. -/
  function : ∀ k f, w.functions.get? k = some f →
    ∃ key, moduleOf f = some (.str key) ∧ IsModule w.modules k.1 key
  unavailable : ∀ k key, w.failedFunctions.get? k = some key → IsModule w.modules k.1 key
  served : ∀ k ∈ w.functions.keys, k ∉ w.failedFunctions.keys
  /-- Every pending launch belongs to a live context, and its ID is not retired. -/
  launch : ∀ id l, w.pending.get? id = some l → l.context ∈ w.contexts.keys
  pending : ∀ id ∈ w.pending.keys, id ∉ w.retiredLaunchIds
  window : Window w.limits.retiredLaunchIds w.retiredLaunchIds w.retiredLaunchOrder
  /-- The keys of all lifetimes that ever began differ. -/
  lifetimes : (w.begun.map digest).Nodup
  /-- What is live has the key of a lifetime that began, and nothing else live has it. -/
  contextKey : ∀ handle context, w.contexts.get? handle = some context →
    context.key ∈ w.begun.map digest ∧
      ∀ handle' context', w.contexts.get? handle' = some context' → context'.key = context.key →
        handle' = handle
  moduleKey : ∀ k m, w.modules.get? k = some m → m.key ∈ w.begun.map digest ∧
    (∀ k' m', w.modules.get? k' = some m' → m'.key = m.key → k' = k) ∧
    ∀ handle context, w.contexts.get? handle = some context → context.key ≠ m.key

theorem Consistent.sound (h : Consistent digest w)
    (hdigest : Set.InjOn digest {j | j ∈ w.digested}) : Sound digest w := by
  have hinj : ∀ j ∈ w.begun, ∀ j' ∈ w.begun, digest j = digest j' → j = j' := fun j hj j' hj' heq =>
    hdigest (h.digested j hj) (h.digested j' hj') heq
  have hcontext : ∀ handle context handle' context', w.contexts.get? handle = some context →
      w.contexts.get? handle' = some context' → context'.key = context.key → handle' = handle := by
    intro handle context handle' context' hget hget' heq
    obtain ⟨n, hn, hkey⟩ := h.named.context handle context hget
    obtain ⟨n', hn', hkey'⟩ := h.named.context handle' context' hget'
    exact (contextIdentity_inj (hinj _ hn' _ hn (by rw [← hkey', ← hkey, heq]))).2
  refine ⟨h.placed.module, h.placed.function, h.placed.unavailable, h.placed.served,
    h.placed.launch, h.pending, h.window, ?_, ?_, ?_⟩
  · exact h.named.nodup.map_on hinj
  · intro handle context hget
    obtain ⟨n, hn, hkey⟩ := h.named.context handle context hget
    exact ⟨hkey ▸ List.mem_map_of_mem hn, fun handle' context' hget' heq =>
      hcontext handle context handle' context' hget hget' heq⟩
  · intro k m hm
    obtain ⟨context, n, hget, hn, hkey⟩ := h.named.module k m hm
    refine ⟨hkey ▸ List.mem_map_of_mem hn, ?_, ?_⟩
    · intro k' m' hm' heq
      obtain ⟨context', n', hget', hn', hkey'⟩ := h.named.module k' m' hm'
      obtain ⟨hcontexts, hhandle, -⟩ :=
        moduleIdentity_inj (hinj _ hn' _ hn (by rw [← hkey', ← hkey, heq]))
      exact Prod.ext (hcontext _ _ _ _ hget hget' hcontexts) hhandle
    · intro handle context' hget' heq
      obtain ⟨n', hn', hkey'⟩ := h.named.context handle context' hget'
      exact contextIdentity_ne_moduleIdentity _ _ _ _ _ _
        (hinj _ hn' _ hn (by rw [← hkey', ← hkey, heq]))

/-- The ledger never serves a dead lifetime, whatever is called and whichever records the
sink refuses, as long as the digest does not collide on what the ledger digested. -/
theorem run_sound {process : Json} {limits : RuntimeIdentityLimits} {calls : List Call}
    (hcreate : create digest sink process limits = (.ok (), w))
    (hdigest : Set.InjOn digest {j | j ∈ (run digest sink w calls).digested}) :
    Sound digest (run digest sink w calls) := by
  rw [create_ok hcreate] at hdigest ⊢
  exact (run_induction (fun _ _ hstep h => h.action hstep) (consistent_start process limits)
    calls).sound hdigest

/-- The SHA-256 digests of a process, of its first context and of its first module. -/
def sampleDigest : Json → String
  | .obj [_] => "b66ccbc837beebd88c81bdcd75a532849a585e38c22176e83c4233b36fbc1ab0"
  | .obj [("context_ordinal", _), _, _] =>
    "3af5e3150fd9e714434e7d4a6c65f3b69e736349a0ce3038295072489d7b416f"
  | _ => "4aeb81be911a958c964a962fc6429308c0e8d02a1b9f558d59dfff3f2e4317e1"

/-- A module whose first record was refused is live. -/
theorem run_sound_small : Sound sampleDigest (run sampleDigest (fun n => n ≠ 2)
    (World.start sampleDigest (.obj [("pid", .int 7)]) {})
    [.contextBegin 1, .moduleLoad 1 2 "cuModuleLoad"]) := by
  have hnodup : ((run sampleDigest (fun n => n ≠ 2)
      (World.start sampleDigest (.obj [("pid", .int 7)]) {})
      [.contextBegin 1, .moduleLoad 1 2 "cuModuleLoad"]).digested.map sampleDigest).Nodup := by decide
  apply @run_sound sampleDigest _ _ (.obj [("pid", .int 7)]) {} _ rfl
  exact fun j hj j' hj' heq => List.inj_on_of_nodup_map hnodup hj hj' heq

end CuTracer.Runtime
