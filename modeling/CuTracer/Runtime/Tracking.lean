import CuTracer.Runtime.Lifetimes

/-! What the records of a ledger keep track of. While there is no gap no record is missing, nothing is
incomplete and every launch that was published is completed or pending, whatever the sink refuses. -/

namespace CuTracer.Runtime

open Json (setField)

variable {digest : Json → String} {sink : ℕ → Bool} {w w' : World}

/-! ### What is published -/

def Event.launched : Event → Option String
  | .launch attributes => bindingText attributes "launch"
  | _ => none

def Event.completed : Event → Option String
  | .driverCompletion key .. => some key
  | _ => none

def Event.Completes (key : String) (e : Event) : Prop :=
  ∃ id context required, e = .driverCompletion key id context true true required

def Event.Whole : Event → Prop
  | .launchIncomplete _ => False
  | .driverCompletion _ _ _ completed drained _ => completed = true ∧ drained = true
  | _ => True

def launches (published : List Record) : List String := published.filterMap fun r => r.event.launched

def completions (published : List Record) : List String := published.filterMap fun r => r.event.completed

theorem launches_append (xs ys : List Record) : launches (xs ++ ys) = launches xs ++ launches ys :=
  List.filterMap_append

theorem completions_append (xs ys : List Record) :
    completions (xs ++ ys) = completions xs ++ completions ys := List.filterMap_append

/-! ### The names of launches -/

structure LaunchName where
  context : String
  cubin : String
  entry : String
  ordinal : ℕ

structure Says (identity : Fields) (n : LaunchName) : Prop where
  context : Json.field identity "context" = some (.str n.context)
  cubin : Json.field identity "cubin_sha256" = some (.str n.cubin)
  entry : Json.field identity "entry" = some (.str n.entry)
  ordinal : Json.field identity "kernel_ordinal" = some (.int n.ordinal)

theorem Says.inj {identity : Fields} {m n : LaunchName} (hm : Says identity m) (hn : Says identity n) :
    m = n := by
  have hcontext := hm.context.symm.trans hn.context
  have hcubin := hm.cubin.symm.trans hn.cubin
  have hentry := hm.entry.symm.trans hn.entry
  have hordinal := hm.ordinal.symm.trans hn.ordinal
  cases m
  cases n
  simp_all

theorem field_of_bindingText {binding : Fields} {key s : String} (h : bindingText binding key = some s) :
    Json.field binding key = some (.str s) := by
  unfold bindingText at h
  split at h
  · rename_i hfield
    rw [hfield, Option.some.inj h]
  · cases h

theorem says_launchIdentity {binding fields : Fields} {cubin entry : String} (processKey contextKey : String)
    (id ordinal : ℕ) (hcubin : bindingText binding "cubin_sha256" = some cubin)
    (hentry : bindingText binding "entry" = some entry) :
    Says (launchIdentity processKey contextKey binding id ordinal fields)
      ⟨contextKey, cubin, entry, ordinal⟩ where
  context := by simp [launchIdentity, Json.field_setField]
  cubin := by simp [launchIdentity, Json.field_setField, field_of_bindingText hcubin]
  entry := by simp [launchIdentity, Json.field_setField, field_of_bindingText hentry]
  ordinal := by simp [launchIdentity, Json.field_setField]

/-- A key that digests the fields of a launch, past which its context has counted if it is live. -/
def Owned (digest : Json → String) (w : World) (key : String) : Prop :=
  ∃ identity n, key = digest (.obj identity) ∧ Says identity n ∧ .obj identity ∈ w.digested ∧
    n.context ∈ w.begun.map digest ∧
    ∀ handle c, w.contexts.get? handle = some c → c.key = n.context → n.ordinal < c.next (n.cubin, n.entry)

/-- A context may count or end, and another one may begin under a new key. -/
theorem Owned.mono {key : String} (h : Owned digest w key) (hdigested : w.digested ⊆ w'.digested)
    (hbegun : w.begun ⊆ w'.begun)
    (hcontexts : ∀ handle c', w'.contexts.get? handle = some c' →
      c'.key ∉ w.begun.map digest ∨
        ∃ c, w.contexts.get? handle = some c ∧ c.key = c'.key ∧ ∀ k, c.next k ≤ c'.next k) :
    Owned digest w' key := by
  obtain ⟨identity, n, hkey, hname, hmem, hcontext, hcount⟩ := h
  refine ⟨identity, n, hkey, hname, hdigested hmem, List.map_subset digest hbegun hcontext, ?_⟩
  intro handle c' hc' hsame
  rcases hcontexts handle c' hc' with hnew | ⟨c, hc, heq, hle⟩
  · exact absurd (hsame ▸ hcontext) hnew
  · exact lt_of_lt_of_le (hcount handle c hc (heq.trans hsame)) (hle _)

theorem Owned.of_contexts {key : String} (h : Owned digest w key) (hdigested : w.digested ⊆ w'.digested)
    (hbegun : w.begun ⊆ w'.begun)
    (hcontexts : ∀ handle c, w'.contexts.get? handle = some c → w.contexts.get? handle = some c) :
    Owned digest w' key :=
  h.mono hdigested hbegun fun handle c hc => .inr ⟨c, hcontexts handle c hc, rfl, fun _ => le_rfl⟩

theorem Context.next_count (c : Context) (k k' : String × String) :
    (c.count k).next k' = if k' = k then c.next k + 1 else c.next k' := by
  rw [Context.next, Context.count, Dict.get?_upsert]
  split_ifs <;> rfl

theorem Context.le_next_count (c : Context) (k k' : String × String) :
    c.next k' ≤ (c.count k).next k' := by
  rw [Context.next_count]
  split_ifs with h
  · rw [h]
    exact Nat.le_succ _
  · exact le_rfl

theorem counted {contexts : Dict ℕ Context} {ctx : ℕ} {context : Context} {ordinalKey : String × String}
    (hctx : contexts.get? ctx = some context) {handle : ℕ} {c' : Context}
    (hc' : (contexts.insert ctx (context.count ordinalKey)).get? handle = some c') :
    ∃ c, contexts.get? handle = some c ∧ c.key = c'.key ∧ ∀ k, c.next k ≤ c'.next k := by
  rw [Dict.get?_insert] at hc'
  split_ifs at hc' with heq
  · cases hc'
    exact ⟨context, heq ▸ hctx, rfl, context.le_next_count _⟩
  · exact ⟨c', hc', rfl, fun _ => le_rfl⟩

/-! ### What every action keeps -/

/-- The records and the pending launches. While there is no gap nothing is missing and nothing is
incomplete, and every launch is completed or pending. -/
structure Tracked (digest : Json → String) (w : World) : Prop where
  sequence : w.gap = false → w.published.map Record.sequence = List.range w.sequence
  whole : w.gap = false → ∀ r ∈ w.published, r.event.Whole
  keyed : ∀ r ∈ w.published, ∀ attributes, r.event = .launch attributes → r.event.launched.isSome
  owned : ∀ key ∈ launches w.published, Owned digest w key
  nodup : (launches w.published).Nodup
  pending : ∀ id l, w.pending.get? id = some l → l.key ∈ launches w.published
  later : ∀ before r after key, w.published = before ++ r :: after → r.event.completed = some key →
    key ∈ launches before
  balance : w.gap = false →
    (launches w.published).Perm (completions w.published ++ w.pending.values.map Launch.key)

/-- Nothing is published, and what is changed is not without a gap. -/
theorem Tracked.frame (h : Tracked digest w) (hpublished : w'.published = w.published)
    (hpending : ∀ id l, w'.pending.get? id = some l → w.pending.get? id = some l)
    (hquiet : w'.gap = false → w.gap = false ∧ w'.sequence = w.sequence ∧ w'.pending = w.pending)
    (howned : ∀ key, Owned digest w key → Owned digest w' key) : Tracked digest w' where
  sequence hgap := by
    obtain ⟨hgap, hsequence, -⟩ := hquiet hgap
    rw [hpublished, hsequence]
    exact h.sequence hgap
  whole hgap := by
    rw [hpublished]
    exact h.whole (hquiet hgap).1
  keyed := hpublished ▸ h.keyed
  owned key hkey := howned key (h.owned key (hpublished ▸ hkey))
  nodup := hpublished ▸ h.nodup
  pending id l hl := hpublished ▸ h.pending id l (hpending id l hl)
  later := hpublished ▸ h.later
  balance hgap := by
    obtain ⟨hgap, -, hsame⟩ := hquiet hgap
    rw [hpublished, hsame]
    exact h.balance hgap

/-- A record that is appended stands after the others. -/
theorem later_concat {published : List Record} {new : Record}
    (h : ∀ before r after key, published = before ++ r :: after → r.event.completed = some key →
      key ∈ launches before)
    (hnew : ∀ key, new.event.completed = some key → key ∈ launches published)
    (before : List Record) (r : Record) (after : List Record) (key : String)
    (heq : published ++ [new] = before ++ r :: after) (hkey : r.event.completed = some key) :
    key ∈ launches before := by
  rcases List.eq_nil_or_concat after with rfl | ⟨after, last, rfl⟩
  · obtain ⟨rfl, hlast⟩ := List.append_inj' heq rfl
    obtain rfl := List.singleton_inj.mp hlast
    exact hnew key hkey
  · rw [List.concat_eq_append, ← List.cons_append, ← List.append_assoc] at heq
    obtain ⟨rfl, -⟩ := List.append_inj' heq rfl
    exact h before r after key rfl hkey

theorem Tracked.publish (h : Tracked digest w) {e : Event} (hlaunched : ∀ attributes, e ≠ .launch attributes)
    (hcompleted : e.completed = none) (hwhole : w.gap = false → e.Whole) : Tracked digest (w.publish e) := by
  have hnone : e.launched = none := by
    cases e with
    | launch attributes => exact absurd rfl (hlaunched attributes)
    | _ => rfl
  have hlaunches : launches (w.publish e).published = launches w.published := by
    simp [World.publish, launches, hnone]
  have hcompletions : completions (w.publish e).published = completions w.published := by
    simp [World.publish, completions, hcompleted]
  refine ⟨?_, ?_, ?_, ?_, ?_, ?_, ?_, ?_⟩
  · intro hgap
    simp [World.publish, h.sequence hgap, List.range_succ]
  · intro hgap r hr
    rcases List.mem_append.mp hr with hr | hr
    · exact h.whole hgap r hr
    · rw [List.mem_singleton.mp hr]
      exact hwhole hgap
  · intro r hr attributes hevent
    rcases List.mem_append.mp hr with hr | hr
    · exact h.keyed r hr attributes hevent
    · rw [List.mem_singleton.mp hr] at hevent
      exact absurd hevent (hlaunched attributes)
  · intro key hkey
    exact h.owned key (hlaunches ▸ hkey)
  · rw [hlaunches]
    exact h.nodup
  · intro id l hl
    rw [hlaunches]
    exact h.pending id l hl
  · refine later_concat h.later fun key hkey => ?_
    rw [hcompleted] at hkey
    cases hkey
  · intro hgap
    rw [hlaunches, hcompletions]
    exact h.balance hgap

/-- The keys of two live contexts differ. -/
theorem Consistent.sameContext (h : Consistent digest w) (hdigest : Set.InjOn digest {j | j ∈ w.digested})
    {handle handle' : ℕ} {c c' : Context} (hc : w.contexts.get? handle = some c)
    (hc' : w.contexts.get? handle' = some c') (hkey : c'.key = c.key) : c' = c := by
  have hhandle := ((h.sound hdigest).contextKey handle c hc).2 handle' c' hc' hkey
  rw [hhandle, hc] at hc'
  exact (Option.some.inj hc').symm

theorem launched_setField (identity : Fields) (key : String) :
    Event.launched (.launch (setField "launch" (.str key) identity)) = some key := by
  simp [Event.launched, bindingText, Json.field_setField]

/-- A launch counts before it is published, so that no other has its name. -/
theorem Tracked.launch (h : Tracked digest w) (hw : Consistent digest w) {ctx id : ℕ} {context : Context}
    {identity : Fields} {n : LaunchName} {selected : Bool} (hctx : w.contexts.get? ctx = some context)
    (hnew : id ∉ w.pending.keys) (hname : Says identity n) (hcontext : n.context = context.key)
    (hordinal : n.ordinal = context.next (n.cubin, n.entry))
    (hdigest : Set.InjOn digest {j | j ∈ w.digested ++ [.obj identity]}) :
    Tracked digest { World.publish
        (.launch (setField "launch" (.str (digest (.obj identity))) identity)) w with
      contexts := w.contexts.insert ctx (context.count (n.cubin, n.entry))
      digested := w.digested ++ [.obj identity]
      pending := w.pending.insert id ⟨ctx, digest (.obj identity), selected⟩ } := by
  have hbefore : Set.InjOn digest {j | j ∈ w.digested} :=
    hdigest.mono fun j hj => List.mem_append_left _ hj
  have hmem : Json.obj identity ∈ w.digested ++ [.obj identity] :=
    List.mem_append_right _ List.mem_cons_self
  have hfresh : digest (.obj identity) ∉ launches w.published := by
    intro hold
    obtain ⟨identity', n', hkey, hname', hmem', -, hcount⟩ := h.owned _ hold
    have hsame := hdigest hmem (List.mem_append_left _ hmem') hkey
    obtain rfl := hname.inj (Json.obj.inj hsame ▸ hname')
    have hlt := hcount ctx context hctx hcontext.symm
    omega
  have hlaunches : launches (w.published ++ [⟨w.processKey, w.sequence,
      .launch (setField "launch" (.str (digest (.obj identity))) identity)⟩]) =
        launches w.published ++ [digest (.obj identity)] := by
    rw [launches_append]
    simp [launches, launched_setField]
  have hcompletions : completions (w.published ++ [⟨w.processKey, w.sequence,
      .launch (setField "launch" (.str (digest (.obj identity))) identity)⟩]) = completions w.published := by
    rw [completions_append]
    simp [completions, Event.completed]
  refine ⟨?_, ?_, ?_, ?_, ?_, ?_, ?_, ?_⟩
  · intro hgap
    simp [World.publish, h.sequence hgap, List.range_succ]
  · intro hgap r hr
    rcases List.mem_append.mp hr with hr | hr
    · exact h.whole hgap r hr
    · rw [List.mem_singleton.mp hr]
      trivial
  · intro r hr attributes hevent
    rcases List.mem_append.mp hr with hr | hr
    · exact h.keyed r hr attributes hevent
    · rw [List.mem_singleton.mp hr, launched_setField]
      rfl
  · intro key hkey
    change key ∈ launches (w.published ++ _) at hkey
    rw [hlaunches] at hkey
    rcases List.mem_append.mp hkey with hkey | hkey
    · exact (h.owned key hkey).mono (List.subset_append_left _ _) (List.Subset.refl _)
        fun handle c' hc' => .inr (counted hctx hc')
    · obtain rfl := List.mem_singleton.mp hkey
      obtain ⟨m, hm, hcontextKey⟩ := hw.named.context ctx context hctx
      refine ⟨identity, n, rfl, hname, hmem, ?_, ?_⟩
      · rw [hcontext, hcontextKey]
        exact List.mem_map_of_mem hm
      · intro handle c' hc' hsame
        obtain ⟨c, hc, hkey, hle⟩ := counted hctx hc'
        obtain rfl := hw.sameContext hbefore hctx hc (by rw [hkey, hsame, hcontext])
        change (w.contexts.insert ctx (c.count (n.cubin, n.entry))).get? handle = some c' at hc'
        have hhandle := ((hw.sound hbefore).contextKey ctx c hctx).2 handle c hc rfl
        rw [Dict.get?_insert, if_pos hhandle] at hc'
        rw [hordinal, ← Option.some.inj hc', Context.next_count, if_pos rfl]
        exact Nat.lt_succ_self _
  · change (launches (w.published ++ _)).Nodup
    rw [hlaunches, ← List.concat_eq_append]
    exact h.nodup.concat hfresh
  · intro i l hl
    change l.key ∈ launches (w.published ++ _)
    rw [hlaunches]
    change (w.pending.insert id _).get? i = some l at hl
    rw [Dict.get?_insert] at hl
    split_ifs at hl
    · cases hl
      exact List.mem_append_right _ List.mem_cons_self
    · exact List.mem_append_left _ (h.pending i l hl)
  · exact later_concat h.later fun key hkey => by cases hkey
  · intro hgap
    change (launches (w.published ++ _)).Perm (completions (w.published ++ _) ++
      (w.pending.insert id _).values.map Launch.key)
    rw [hlaunches, hcompletions, Dict.values, Dict.entries_insert_of_not_mem hnew, List.map_append,
      List.map_append, ← List.append_assoc]
    exact (h.balance hgap).append_right _

/-- A launch that completes leaves the pending launches, or a gap behind. -/
theorem Tracked.complete (h : Tracked digest w) {id : ℕ} {known : Launch} (contextKey : String)
    (completed drained : Bool) (hknown : w.pending.get? id = some known) {w' : World}
    (hpublished : w'.published = w.published ++ [⟨w.processKey, w.sequence,
      .driverCompletion known.key id contextKey completed drained known.captureSelected⟩])
    (hsequence : w'.sequence = w.sequence + 1) (hgap : w'.gap = (w.gap || !completed || !drained))
    (hpending : w'.pending = w.pending.filter fun i _ => i ≠ id)
    (howned : ∀ key, Owned digest w key → Owned digest w' key) : Tracked digest w' := by
  have hlaunches : launches w'.published = launches w.published := by
    rw [hpublished, launches_append]
    simp [launches, Event.launched]
  have hcompletions : completions w'.published = completions w.published ++ [known.key] := by
    rw [hpublished, completions_append]
    simp [completions, Event.completed]
  have hquiet : w'.gap = false → w.gap = false ∧ completed = true ∧ drained = true := by
    intro hquiet
    rw [hgap] at hquiet
    simpa [and_assoc] using hquiet
  refine ⟨?_, ?_, ?_, ?_, ?_, ?_, ?_, ?_⟩
  · intro hq
    rw [hpublished, hsequence, List.map_append, h.sequence (hquiet hq).1, List.range_succ]
    rfl
  · intro hq r hr
    rw [hpublished] at hr
    rcases List.mem_append.mp hr with hr | hr
    · exact h.whole (hquiet hq).1 r hr
    · rw [List.mem_singleton.mp hr]
      exact (hquiet hq).2
  · intro r hr attributes hevent
    rw [hpublished] at hr
    rcases List.mem_append.mp hr with hr | hr
    · exact h.keyed r hr attributes hevent
    · rw [List.mem_singleton.mp hr] at hevent
      cases hevent
  · intro key hkey
    exact howned key (h.owned key (hlaunches ▸ hkey))
  · rw [hlaunches]
    exact h.nodup
  · intro i l hl
    rw [hpending] at hl
    rw [hlaunches]
    exact h.pending i l (Dict.get?_filter.mp hl).1
  · rw [hpublished]
    refine later_concat h.later fun key hkey => ?_
    cases hkey
    exact h.pending id known hknown
  · intro hq
    have hvalues := (Dict.values_erase_perm hknown).map Launch.key
    have hperm := (h.balance (hquiet hq).1).trans (hvalues.append_left _)
    rw [hlaunches, hcompletions, hpending, List.append_assoc]
    exact hperm

theorem Owned.beginContext {key : String} (h : Owned digest w key) (handle : ℕ) (identity : Json)
    (hnew : identity ∉ w.begun)
    (hbegun : ∀ j ∈ w.begun, j ∈ w.digested)
    (hdigest : Set.InjOn digest {j | j ∈ w.digested ++ [identity]})
    (hcontexts : w'.contexts = w.contexts.insert handle ⟨digest identity, Dict.empty⟩)
    (hdigested : w'.digested = w.digested ++ [identity]) (hbegun' : w'.begun = w.begun ++ [identity]) :
    Owned digest w' key := by
  refine h.mono (hdigested ▸ List.subset_append_left _ _) (hbegun' ▸ List.subset_append_left _ _) ?_
  intro handle' c' hc'
  rw [hcontexts, Dict.get?_insert] at hc'
  split_ifs at hc'
  · cases hc'
    left
    intro hold
    obtain ⟨j, hj, hsame⟩ := List.mem_map.mp hold
    have heq := hdigest (List.mem_append_left _ (hbegun j hj))
      (List.mem_append_right _ List.mem_cons_self) hsame
    exact hnew (heq ▸ hj)
  · exact .inr ⟨c', hc', rfl, fun _ => le_rfl⟩

theorem launchesOf_eq_nil {handle : ℕ} {l : Ledger} (h : launchesOf handle l = []) :
    l.pending.filter (fun _ launch => launch.context ≠ handle) = l.pending := by
  apply Dict.ext
  apply List.filter_eq_self.mpr
  intro p hp
  have hnone : p ∉ launchesOf handle l := h ▸ List.not_mem_nil
  rw [launchesOf, mem_sortOn, List.mem_filter] at hnone
  by_contra hsame
  exact hnone ⟨hp, by simpa using hsame⟩

theorem Tracked.action (hstep : Action digest w w') (hw : Consistent digest w)
    (hdigest : Set.InjOn digest {j | j ∈ w'.digested}) (h : Tracked digest w) : Tracked digest w' := by
  have hsame : ∀ handle c, w.contexts.get? handle = some c → w.contexts.get? handle = some c :=
    fun _ _ hc => hc
  cases hstep with
  | lose =>
    exact h.frame rfl (fun _ _ hl => hl) (fun hgap => by cases hgap)
      fun key hkey => hkey.of_contexts (List.Subset.refl _) (List.Subset.refl _) hsame
  | @publish e hplain =>
    refine h.publish ?_ ?_ ?_
    · rintro attributes rfl
      exact hplain
    · cases e with
      | driverCompletion => exact absurd hplain id
      | _ => rfl
    · intro hgap
      cases e with
      | launchIncomplete key =>
        have hgap' : w.gap = true := hplain
        rw [hgap] at hgap'
        cases hgap'
      | driverCompletion => exact absurd hplain id
      | _ => trivial
  | gap =>
    exact h.frame rfl (fun _ _ hl => hl) (fun hgap => by cases hgap)
      fun key hkey => hkey.of_contexts (List.Subset.refl _) (List.Subset.refl _) hsame
  | digest value =>
    exact h.frame rfl (fun _ _ hl => hl) (fun hgap => ⟨hgap, rfl, rfl⟩)
      fun key hkey => hkey.of_contexts (List.subset_append_left _ _) (List.Subset.refl _) hsame
  | @beginContext handle hnew =>
    refine h.frame rfl (fun _ _ hl => hl) (fun hgap => ⟨hgap, rfl, rfl⟩) fun key hkey => ?_
    refine hkey.beginContext handle (contextIdentity w.processKey w.contextCounter handle) ?_ hw.digested
      hdigest rfl rfl rfl
    intro hold
    rcases hw.named.lifetime _ hold with ⟨n, hn, handle', heq⟩ | ⟨n, hn, c, handle', heq⟩
    · exact absurd (contextIdentity_inj heq).1 (Nat.ne_of_gt hn)
    · exact contextIdentity_ne_moduleIdentity _ _ _ _ _ _ heq
  | endContext handle =>
    obtain ⟨ids, order, heq, -, -⟩ :=
      retireAll_window ((launchesOf handle w.toLedger).map Prod.fst) hw.window
    refine h.frame rfl ?_ ?_ ?_
    · exact fun id l hl => (Dict.get?_filter.mp hl).1
    · intro hgap
      have hquiet : w.gap = false ∧ launchesOf handle w.toLedger = [] := by
        simpa [endContext] using hgap
      refine ⟨hquiet.1, ?_, launchesOf_eq_nil hquiet.2⟩
      unfold endContext
      dsimp only
      rw [heq]
    · intro key hkey
      refine hkey.of_contexts (List.Subset.refl _) (List.Subset.refl _) ?_
      exact fun handle' c hc => (Dict.get?_filter.mp hc).1
  | beginModule observed hctx hnew =>
    exact h.frame rfl (fun _ _ hl => hl) (fun hgap => ⟨hgap, rfl, rfl⟩)
      fun key hkey => hkey.of_contexts (List.subset_append_left _ _) (List.subset_append_left _ _) hsame
  | endModule hknown =>
    exact h.frame rfl (fun _ _ hl => hl) (fun hgap => ⟨hgap, rfl, rfl⟩)
      fun key hkey => hkey.of_contexts (List.Subset.refl _) (List.Subset.refl _) hsame
  | serve hmodule hof hnew hserved =>
    exact h.frame rfl (fun _ _ hl => hl) (fun hgap => ⟨hgap, rfl, rfl⟩)
      fun key hkey => hkey.of_contexts (List.Subset.refl _) (List.Subset.refl _) hsame
  | fail hmodule hnew =>
    exact h.frame rfl (fun _ _ hl => hl) (fun hgap => ⟨hgap, rfl, rfl⟩)
      fun key hkey => hkey.of_contexts (List.Subset.refl _) (List.Subset.refl _) hsame
  | @count ctx context ordinalKey hctx value =>
    refine h.frame rfl (fun _ _ hl => hl) (fun hgap => ⟨hgap, rfl, rfl⟩) fun key hkey => ?_
    refine hkey.mono (List.subset_append_left _ _) (List.Subset.refl _) fun handle c' hc' => .inr ?_
    exact counted hctx hc'
  | @retire id hnew =>
    obtain ⟨ids, order, heq, -, -⟩ := retireLaunchId_window id hw.window
    rw [heq]
    exact h.frame rfl (fun _ _ hl => hl) (fun hgap => ⟨hgap, rfl, rfl⟩)
      fun key hkey => hkey.of_contexts (List.Subset.refl _) (List.Subset.refl _) hsame
  | launch hctx hcubin hentry hnew hretired hidentity =>
    subst hidentity
    exact h.launch hw hctx hnew (says_launchIdentity _ _ _ _ hcubin hentry) rfl rfl hdigest
  | @complete id known contextKey completed drained hknown =>
    obtain ⟨ids, order, heq, -, -⟩ := retireLaunchId_window (l := (w.publish (.driverCompletion known.key id
      contextKey completed drained known.captureSelected)).toLedger) id hw.window
    refine h.complete contextKey completed drained hknown rfl ?_ rfl rfl ?_
    · rw [heq]
      rfl
    · intro key hkey
      rw [heq]
      exact hkey.of_contexts (List.Subset.refl _) (List.Subset.refl _) hsame
  | finish hopen =>
    have hpublished := h.publish (e := .processEnd w.pending.keys.length w.contexts.keys.length
      (w.gap || !w.pending.keys.isEmpty)) (fun _ => by simp) rfl fun _ => trivial
    exact hpublished.frame rfl (fun _ _ hl => hl) (fun hgap => ⟨hgap, rfl, rfl⟩)
      fun key hkey => hkey.of_contexts (List.Subset.refl _) (List.Subset.refl _) fun _ _ hc => hc

end CuTracer.Runtime
