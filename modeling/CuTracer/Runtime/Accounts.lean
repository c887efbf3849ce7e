import CuTracer.Runtime.Tracking

/-! A ledger that ends without a gap is a full account. Every launch that was published was completed
once, nothing was reported incomplete, and no record is missing. -/

namespace CuTracer.Runtime

variable {digest : Json → String} {sink : ℕ → Bool} {w w' : World}

/-! ### The end -/

/-- What an operation other than the end does: a closed ledger publishes nothing. -/
structure Still (w w' : World) : Prop where
  finished : w'.finished = w.finished
  published : w.finished = true → w'.published = w.published

theorem Still.refl (w : World) : Still w w := ⟨rfl, fun _ => rfl⟩

theorem Still.trans {w'' : World} (h : Still w w') (h' : Still w' w'') : Still w w'' :=
  ⟨h'.finished.trans h.finished, fun hfinished =>
    (h'.published (h.finished.trans hfinished)).trans (h.published hfinished)⟩

theorem emit_still {e : Event} (h : Still w w') : Still w (emit sink e w').2 := by
  refine h.trans ?_
  rcases emit_cases sink e w' with he | ⟨hopen, he | he⟩
  · rw [he]
    exact .refl w'
  · rw [he]
    exact ⟨rfl, fun hfinished => by rw [hopen] at hfinished; cases hfinished⟩
  · rw [he]
    exact ⟨rfl, fun _ => rfl⟩

theorem Outcome.andThen_still {α β : Type} {x : Outcome α} {f : α → World → Outcome β} (h : Still w x.2)
    (hf : ∀ a w', Still w' (f a w').2) : Still w (x.andThen f).2 := by
  obtain ⟨_ | a, w'⟩ := x
  · exact h
  · exact h.trans (hf a w')

theorem emitAll_still (es : List Event) (w : World) : Still w (emitAll sink es w).2 := by
  induction es generalizing w with
  | nil => exact .refl w
  | cons e es ih => exact Outcome.andThen_still (emit_still (.refl w)) fun _ w' => ih w'

theorem retireLaunchId_still (id : ℕ) (w : World) :
    Still w { w with toLedger := retireLaunchId id w.toLedger } := by
  refine ⟨?_, fun _ => rfl⟩
  unfold retireLaunchId
  dsimp only
  split_ifs <;> rfl

theorem moduleLocked_still (ctx module : ℕ) (api : String) (observed : Bool) (w : World) :
    Still w (moduleLocked digest sink ctx module api observed w).2 := by
  rcases moduleLocked_cases digest sink ctx module api observed w with
    ⟨e, h⟩ | ⟨context, known, -, -, h⟩ | ⟨context, -, -, h⟩
  · rw [h]
    exact .refl w
  · rw [h]
    exact .refl w
  · rw [h]
    exact Outcome.andThen_still (emit_still ⟨rfl, fun _ => rfl⟩) fun _ w' => .refl w'

theorem contextBegin_still (handle : ℕ) (w : World) : Still w (contextBegin digest sink handle w).2 := by
  unfold contextBegin
  split_ifs
  · exact .refl w
  · exact .refl w
  · exact Outcome.andThen_still (emit_still ⟨rfl, fun _ => rfl⟩) fun _ w' => .refl w'

theorem endContext_finished (handle : ℕ) (l : Ledger) : (endContext handle l).finished = l.finished := by
  have hretired : ∀ (ids : List ℕ) (l : Ledger),
      (ids.foldl (fun l id => retireLaunchId id l) l).finished = l.finished := by
    intro ids
    induction ids with
    | nil => exact fun _ => rfl
    | cons id ids ih =>
      intro l
      rw [List.foldl_cons, ih]
      unfold retireLaunchId
      dsimp only
      split_ifs <;> rfl
  exact hretired _ l

theorem contextEnd_still (handle : ℕ) (w : World) : Still w (contextEnd sink handle w).2 := by
  unfold contextEnd
  split_ifs
  · exact .refl w
  · split
    · exact .refl w
    · refine Outcome.andThen_still (Still.trans ?_ (emitAll_still _ _)) fun _ w' => emit_still (.refl w')
      exact ⟨endContext_finished handle w.toLedger, fun _ => rfl⟩

theorem moduleUnload_still (ctx module : ℕ) (w : World) : Still w (moduleUnload sink ctx module w).2 := by
  unfold moduleUnload
  split_ifs
  · exact .refl w
  · split
    · exact .refl w
    · split
      · exact emit_still ⟨rfl, fun _ => rfl⟩
      · exact emit_still ⟨rfl, fun _ => rfl⟩

theorem serveFunction_still (ctx function : ℕ) (contextKey moduleKey : String) (observed : Bool)
    (fields : Fields) (w : World) :
    Still w (serveFunction digest sink ctx function contextKey moduleKey observed fields w).2 := by
  unfold serveFunction
  split_ifs
  · exact .refl w
  · dsimp only
    split
    · split_ifs
      · exact ⟨rfl, fun _ => rfl⟩
      · exact ⟨rfl, fun _ => rfl⟩
    · split_ifs
      · exact ⟨rfl, fun _ => rfl⟩
      · generalize hemit : emit sink _ _ = x
        have hx : Still w x.2 := hemit ▸ emit_still ⟨rfl, fun _ => rfl⟩
        obtain ⟨_ | _, w'⟩ := x
        · exact hx.trans ⟨rfl, fun _ => rfl⟩
        · exact hx.trans ⟨rfl, fun _ => rfl⟩

theorem functionLocked_still (ctx module function : ℕ) (attributes : Json) (w : World) :
    Still w (functionLocked digest sink ctx module function attributes w).2 := by
  unfold functionLocked
  split_ifs
  · exact .refl w
  · split
    · exact .refl w
    · refine Outcome.andThen_still (moduleLocked_still ctx module _ false w) fun key w' => ?_
      split
      · exact serveFunction_still ctx function _ key _ _ w'
      · exact .refl w'

theorem captureFunction_still (ctx module function : ℕ) (capture : Option (Option Json)) (w : World) :
    Still w (captureFunction digest sink ctx module function capture w).2 := by
  unfold captureFunction
  cases capture with
  | none => split_ifs <;> exact .refl w
  | some captured =>
    split_ifs
    · exact .refl w
    · exact .refl w
    · refine Outcome.andThen_still (moduleLocked_still ctx module _ false w) fun key w' => ?_
      split
      · split_ifs <;> exact .refl w'
      · split_ifs <;> exact .refl w'
      · split_ifs
        · exact .refl w'
        · cases captured with
          | none => exact ⟨rfl, fun _ => rfl⟩
          | some attributes =>
            have hx := @functionLocked_still digest sink ctx module function attributes w'
            dsimp only
            generalize functionLocked digest sink ctx module function attributes w' = x at hx ⊢
            obtain ⟨_ | _, w''⟩ := x
            · exact hx.trans ⟨rfl, fun _ => rfl⟩
            · exact hx

theorem publishLaunch_still (ctx id : ℕ) (context : Context) (binding fields : Fields) (selected : Bool)
    (ordinalKey : String × String) (w : World) :
    Still w (publishLaunch digest sink ctx id context binding fields selected ordinalKey w).2 := by
  unfold publishLaunch
  dsimp only
  generalize hemit : emit sink _ _ = x
  have hx : Still w x.2 := hemit ▸ emit_still ⟨rfl, fun _ => rfl⟩
  obtain ⟨_ | _, w'⟩ := x
  · exact hx.trans (retireLaunchId_still id w')
  · exact hx.trans ⟨rfl, fun _ => rfl⟩

theorem launch_still (ctx function id : ℕ) (attributes : Json) (w : World) :
    Still w (launch digest sink ctx function id attributes w).2 := by
  unfold launch
  split_ifs
  · exact .refl w
  · split
    · exact .refl w
    · split <;> exact .refl w
  · split
    · exact .refl w
    · split <;> exact .refl w
  · split
    · exact .refl w
    · split
      · split
        · exact publishLaunch_still ..
        · exact .refl w
      · exact .refl w

theorem complete_still (ctx id : ℕ) (completed drained : Bool) (w : World) :
    Still w (complete sink ctx id completed drained w).2 := by
  unfold complete
  split
  · split_ifs
    · exact .refl w
    · refine Outcome.andThen_still (emit_still (.refl w)) fun _ w' => ?_
      exact (retireLaunchId_still id w').trans ⟨rfl, fun _ => rfl⟩
  · exact .refl w
  · split_ifs <;> exact .refl w

theorem planEvent_still (type : String) (data : Json) (w : World) :
    Still w (planEvent sink type data w).2 := by
  by_cases htype : type ∉ planTypes
  · rw [planEvent, if_pos htype]
    exact .refl w
  · rw [planEvent, if_neg htype]
    by_cases hfinished : w.finished = true
    · rw [if_pos hfinished]
      exact .refl w
    · rw [if_neg hfinished]
      exact emit_still ⟨rfl, fun _ => rfl⟩

/-- Only the end closes a ledger. -/
theorem step_still (digest : Json → String) (sink : ℕ → Bool) {c : Call} (hc : c ≠ .finish) (w : World) :
    Still w (step digest sink c w) := by
  cases c with
  | contextBegin handle => exact contextBegin_still handle w
  | contextEnd handle => exact contextEnd_still handle w
  | moduleLoad ctx module api => exact moduleLocked_still ctx module api true w
  | moduleUnload ctx module => exact moduleUnload_still ctx module w
  | function ctx module function attributes => exact functionLocked_still ctx module function attributes w
  | captureFunction ctx module function capture => exact captureFunction_still ctx module function capture w
  | launch ctx function id attributes => exact launch_still ctx function id attributes w
  | complete ctx id completed drained => exact complete_still ctx id completed drained w
  | gap reason => exact emit_still ⟨rfl, fun _ => rfl⟩
  | planEvent type data => exact planEvent_still type data w
  | finish => exact absurd rfl hc

def Event.IsEnd : Event → Prop
  | .processEnd .. => True
  | _ => False

/-- A process that ended is closed. -/
theorem Action.ended (hstep : Action digest w w')
    (h : ∀ r ∈ w.published, r.event.IsEnd → w.finished = true) :
    ∀ r ∈ w'.published, r.event.IsEnd → w'.finished = true := by
  have hconcat : ∀ {e : Event}, ¬e.IsEnd →
      ∀ r ∈ (w.publish e).published, r.event.IsEnd → w.finished = true := by
    intro e he r hr hend
    rcases List.mem_append.mp hr with hr | hr
    · exact h r hr hend
    · rw [List.mem_singleton.mp hr] at hend
      exact absurd hend he
  cases hstep with
  | @publish e hplain =>
    refine hconcat ?_
    cases e with
    | processEnd => exact absurd hplain id
    | _ => exact id
  | endContext handle => exact fun r hr hend => (endContext_finished handle w.toLedger).trans (h r hr hend)
  | @retire id hnew => exact fun r hr hend => (retireLaunchId_still id w).finished.trans (h r hr hend)
  | launch => exact hconcat id
  | @complete id known contextKey completed drained hknown =>
    exact fun r hr hend =>
      (retireLaunchId_still id _).finished.trans (@hconcat (.driverCompletion known.key id contextKey completed
        drained known.captureSelected) (fun hno => hno) r hr hend)
  | finish hopen => exact fun _ _ _ => rfl
  | _ => exact h

theorem Action.gapped (hstep : Action digest w w')
    (h : w.gap = true ∧ ∀ r ∈ w.published, ∀ pending contexts, r.event ≠ .processEnd pending contexts false) :
    w'.gap = true ∧ ∀ r ∈ w'.published, ∀ pending contexts, r.event ≠ .processEnd pending contexts false := by
  obtain ⟨hgap, hends⟩ := h
  have hconcat : ∀ {e : Event}, (∀ pending contexts, e ≠ .processEnd pending contexts false) →
      ∀ r ∈ (w.publish e).published, ∀ pending contexts, r.event ≠ .processEnd pending contexts false := by
    intro e he r hr
    rcases List.mem_append.mp hr with hr | hr
    · exact hends r hr
    · rw [List.mem_singleton.mp hr]
      exact he
  cases hstep with
  | lose => exact ⟨rfl, hends⟩
  | @publish e hplain =>
    refine ⟨hgap, hconcat ?_⟩
    rintro pending contexts rfl
    exact hplain
  | gap => exact ⟨rfl, hends⟩
  | endContext handle =>
    refine ⟨?_, hends⟩
    change (w.gap || _) = true
    rw [hgap, Bool.true_or]
  | @retire id hnew =>
    refine ⟨?_, hends⟩
    rw [← hgap]
    change (retireLaunchId id w.toLedger).gap = w.gap
    unfold retireLaunchId
    dsimp only
    split_ifs <;> rfl
  | launch => exact ⟨hgap, hconcat fun _ _ => by simp⟩
  | complete completed drained hknown =>
    refine ⟨?_, hconcat fun _ _ => by simp⟩
    change (w.gap || _ || _) = true
    rw [hgap, Bool.true_or, Bool.true_or]
  | finish hopen => exact ⟨hgap, hconcat fun _ _ => by simp [hgap]⟩
  | _ => exact ⟨hgap, hends⟩

/-! ### Full accounts -/

structure FullAccount (published : List Record) : Prop where
  /-- Every launch has exactly one completion, which is later and complete. -/
  completed : ∀ i (hi : i < published.length) attributes, published[i].event = .launch attributes →
    ∃ key, bindingText attributes "launch" = some key ∧ ∃ j, ∃ hj : j < published.length, i < j ∧
      published[j].event.Completes key ∧
      ∀ j' (hj' : j' < published.length), published[j'].event.completed = some key → j' = j
  incomplete : ∀ r ∈ published, ∀ key, r.event ≠ .launchIncomplete key
  sequence : published.map Record.sequence = List.range published.length

/-- What is named once stands at one place. -/
theorem index_unique {α β : Type} {f : α → Option β} {xs : List α} (h : (xs.filterMap f).Nodup) {i j : ℕ}
    (hi : i < xs.length) (hj : j < xs.length) {b : β} (hfi : f xs[i] = some b) (hfj : f xs[j] = some b) :
    i = j := by
  rw [List.Nodup, List.pairwise_filterMap, List.pairwise_iff_getElem] at h
  rcases Nat.lt_trichotomy i j with hlt | heq | hlt
  · exact absurd rfl (h i j hi hj hlt b hfi b hfj)
  · exact heq
  · exact absurd rfl (h j i hj hi hlt b hfj b hfi)

theorem completes_of_whole {e : Event} {key : String} (hkey : e.completed = some key) (hwhole : e.Whole) :
    e.Completes key := by
  cases e with
  | driverCompletion key' id context completed drained required =>
    obtain ⟨rfl, rfl⟩ := hwhole
    cases hkey
    exact ⟨id, context, required, rfl⟩
  | _ => cases hkey

/-- With nothing pending and no gap every launch is accounted for. -/
theorem Tracked.account (h : Tracked digest w) (hgap : w.gap = false) (hpending : w.pending.keys = []) :
    FullAccount w.published where
  completed i hi attributes hevent := by
    have hsome := h.keyed _ (List.getElem_mem hi) attributes hevent
    obtain ⟨key, hkey⟩ := Option.isSome_iff_exists.mp hsome
    have hperm : (launches w.published).Perm (completions w.published) := by
      have hempty : w.pending.values = [] := by
        rw [Dict.values, List.map_eq_nil_iff.mp hpending, List.map_nil]
      have hbalance := h.balance hgap
      rwa [hempty, List.map_nil, List.append_nil] at hbalance
    have hlaunched : key ∈ launches w.published := List.mem_filterMap.mpr ⟨_, List.getElem_mem hi, hkey⟩
    obtain ⟨r, hr, hcompleted⟩ := List.mem_filterMap.mp (hperm.mem_iff.mp hlaunched)
    obtain ⟨j, hj, rfl⟩ := List.getElem_of_mem hr
    refine ⟨key, by rwa [hevent] at hkey, j, hj, ?_, ?_, ?_⟩
    · -- the launch of a completion is published before it
      have hbefore := h.later (w.published.take j) w.published[j] (w.published.drop (j + 1)) key
        (by rw [List.getElem_cons_drop, List.take_append_drop]) hcompleted
      obtain ⟨r', hr', hlaunch⟩ := List.mem_filterMap.mp hbefore
      obtain ⟨i', hi', rfl⟩ := List.getElem_of_mem hr'
      rw [List.length_take] at hi'
      rw [List.getElem_take] at hlaunch
      have hsame := index_unique h.nodup hi (by omega) hkey hlaunch
      omega
    · exact completes_of_whole hcompleted (h.whole hgap _ (List.getElem_mem hj))
    · exact fun j' hj' hcompleted' => index_unique (hperm.nodup_iff.mp h.nodup) hj' hj hcompleted' hcompleted
  incomplete r hr key hevent := by
    have hwhole := h.whole hgap r hr
    rw [hevent] at hwhole
    exact hwhole
  sequence := by
    have hsequence := h.sequence hgap
    have hlength := congrArg List.length hsequence
    rw [List.length_map, List.length_range] at hlength
    rw [hsequence, hlength]

/-! ### Runs -/

theorem Action.digested (hstep : Action digest w w') : w.digested ⊆ w'.digested := by
  cases hstep with
  | digest value => exact List.subset_append_left _ _
  | beginContext hnew => exact List.subset_append_left _ _
  | beginModule observed hctx hnew => exact List.subset_append_left _ _
  | count ordinalKey hctx value => exact List.subset_append_left _ _
  | launch => exact List.subset_append_left _ _
  | _ => exact List.Subset.refl _

theorem Does.digested (h : Does digest w w') : w.digested ⊆ w'.digested := by
  induction h with
  | refl => exact List.Subset.refl _
  | tail _ hlast ih => exact List.Subset.trans ih hlast.digested

theorem tracked_start (process : Json) (limits : RuntimeIdentityLimits) :
    Tracked digest (World.start digest process limits) where
  sequence _ := rfl
  whole _ r hr := by
    rw [List.mem_singleton.mp hr]
    trivial
  keyed r hr attributes hevent := by
    rw [List.mem_singleton.mp hr] at hevent
    cases hevent
  owned := List.forall_mem_nil _
  nodup := List.nodup_nil
  pending id l hl := by cases hl
  later before r after key heq hkey := by
    have hmem : r ∈ before ++ r :: after := List.mem_append_right _ List.mem_cons_self
    rw [← heq] at hmem
    rw [List.mem_singleton.mp hmem] at hkey
    cases hkey
  balance _ := .nil

theorem run_tracked {process : Json} {limits : RuntimeIdentityLimits} (calls : List Call)
    (hdigest : Set.InjOn digest
      {j | j ∈ (run digest sink (World.start digest process limits) calls).digested}) :
    Tracked digest (run digest sink (World.start digest process limits) calls) := by
  have hkept := @run_induction digest sink _
    (fun w => Consistent digest w ∧ (Set.InjOn digest {j | j ∈ w.digested} → Tracked digest w))
    (fun w w' hstep h => ⟨h.1.action hstep, fun hdigest' =>
      (h.2 (hdigest'.mono hstep.digested)).action hstep h.1 hdigest'⟩)
    ⟨consistent_start process limits, fun _ => tracked_start process limits⟩ calls
  exact hkept.2 hdigest

theorem run_ended (digest : Json → String) (sink : ℕ → Bool) (process : Json)
    (limits : RuntimeIdentityLimits) (calls : List Call) :
    ∀ r ∈ (run digest sink (World.start digest process limits) calls).published, r.event.IsEnd →
      (run digest sink (World.start digest process limits) calls).finished = true := by
  refine run_induction (P := fun w => ∀ r ∈ w.published, r.event.IsEnd → w.finished = true)
    (fun _ _ hstep h => hstep.ended h) ?_ calls
  intro r hr hend
  rw [List.mem_singleton.mp hr] at hend
  exact absurd hend fun hno => hno

theorem run_concat (w : World) (calls : List Call) (c : Call) :
    run digest sink w (calls ++ [c]) = step digest sink c (run digest sink w calls) := List.foldl_concat ..

theorem run_append (w : World) (calls calls' : List Call) :
    run digest sink w (calls ++ calls') = run digest sink (run digest sink w calls) calls' :=
  List.foldl_append ..

/-- A closed ledger stays as it is published. -/
theorem step_closed {c : Call} (h : w.finished = true) :
    (step digest sink c w).finished = true ∧ (step digest sink c w).published = w.published := by
  by_cases hc : c = .finish
  · subst hc
    simp [step, finish, h]
  · have hstill := step_still digest sink hc w
    exact ⟨hstill.finished.trans h, hstill.published h⟩

/-- An end without a gap is published when nothing is pending. -/
theorem finish_account (hfinished : ¬w.finished = true) (hopen : ∀ r ∈ w.published, ¬r.event.IsEnd)
    (htracked : Tracked digest (finish sink w).2) {r : Record} (hr : r ∈ (finish sink w).2.published)
    {pending contexts : ℕ} (hend : r.event = .processEnd pending contexts false) :
    FullAccount (finish sink w).2.published := by
  have hold : r ∉ w.published := fun hr => hopen r hr (by rw [hend]; trivial)
  unfold finish at htracked hr ⊢
  rw [if_neg hfinished] at htracked hr ⊢
  rcases emit_cases sink (.processEnd w.pending.keys.length w.contexts.keys.length
    (w.gap || !w.pending.keys.isEmpty)) w with he | ⟨-, he | he⟩
  · rw [he] at hr
    exact absurd hr hold
  · rw [he] at htracked hr ⊢
    have hlast : r.event = .processEnd w.pending.keys.length w.contexts.keys.length
        (w.gap || !w.pending.keys.isEmpty) := by
      rcases List.mem_append.mp hr with hr | hr
      · exact absurd hr hold
      · rw [List.mem_singleton.mp hr]
    rw [hend] at hlast
    obtain ⟨hgap, hpending⟩ := Bool.or_eq_false_iff.mp (Event.processEnd.inj hlast).2.2.symm
    have hempty : w.pending.keys = [] := by simpa using hpending
    exact htracked.account hgap hempty
  · rw [he] at hr
    exact absurd hr hold

/-- A ledger that ends without a gap is a full account. -/
theorem run_account {process : Json} {limits : RuntimeIdentityLimits} (calls : List Call)
    (hdigest : Set.InjOn digest
      {j | j ∈ (run digest sink (World.start digest process limits) calls).digested})
    {r : Record} (hr : r ∈ (run digest sink (World.start digest process limits) calls).published)
    {pending contexts : ℕ} (hend : r.event = .processEnd pending contexts false) :
    FullAccount (run digest sink (World.start digest process limits) calls).published := by
  induction calls using List.reverseRecOn with
  | nil =>
    rw [List.mem_singleton.mp hr] at hend
    cases hend
  | append_singleton calls c ih =>
    have htracked := run_tracked (calls ++ [c]) hdigest
    have hended := run_ended digest sink process limits (calls ++ [c])
    have hopen := run_ended digest sink process limits calls
    rw [run_concat] at hdigest hr htracked hended ⊢
    generalize run digest sink (World.start digest process limits) calls = w at *
    by_cases hfinished : w.finished = true
    · -- nothing follows the end
      rw [(step_closed hfinished).2] at hr ⊢
      exact ih (hdigest.mono (step_does c).digested) hr
    · by_cases hc : c = .finish
      · subst hc
        exact finish_account hfinished (fun r hr hend => hfinished (hopen r hr hend)) htracked hr hend
      · have hstill := (step_still digest sink hc w).finished
        have hclosed := hended r hr (by rw [hend]; trivial)
        rw [hstill] at hclosed
        exact absurd hclosed hfinished

/-! ### Unloads -/

/-- Every unload of a module is of a live one, unless the ledger refuses it because it is closed or does
not know the context. -/
def UnloadsMatch (digest : Json → String) (sink : ℕ → Bool) (w : World) (calls : List Call) : Prop :=
  ∀ before ctx module after, calls = before ++ .moduleUnload ctx module :: after →
    (run digest sink w before).finished = true ∨ (run digest sink w before).contexts.get? ctx = none ∨
      ((run digest sink w before).modules.get? (ctx, module)).isSome

/-- An unload of what is not live leaves a gap. -/
theorem moduleUnload_gap (sink : ℕ → Bool) {ctx module : ℕ} {context : Context} (hfinished : ¬w.finished = true)
    (hcontext : w.contexts.get? ctx = some context) (hmodule : w.modules.get? (ctx, module) = none)
    (hopen : ∀ r ∈ w.published, ¬r.event.IsEnd) :
    (moduleUnload sink ctx module w).2.gap = true ∧
      ∀ r ∈ (moduleUnload sink ctx module w).2.published, ∀ pending contexts,
        r.event ≠ .processEnd pending contexts false := by
  have hnone : ∀ r ∈ w.published, ∀ pending contexts, r.event ≠ .processEnd pending contexts false := by
    intro r hr pending contexts hend
    exact hopen r hr (by rw [hend]; trivial)
  unfold moduleUnload
  rw [if_neg hfinished]
  simp only [hcontext, hmodule]
  rcases emit_cases sink (.unloadWithoutModuleBegin context.key module) { w with gap := true } with
    he | ⟨-, he | he⟩
  · rw [he]
    exact ⟨rfl, hnone⟩
  · rw [he]
    refine ⟨rfl, fun r hr => ?_⟩
    rcases List.mem_append.mp hr with hr | hr
    · exact hnone r hr
    · rw [List.mem_singleton.mp hr]
      exact fun _ _ => by simp
  · rw [he]
    exact ⟨rfl, hnone⟩

/-- A ledger that ends without a gap accounts for every launch, and every module that was unloaded in a
live context was live. -/
theorem gap_free_account {process : Json} {limits : RuntimeIdentityLimits} {calls : List Call}
    (hcreate : create digest sink process limits = (.ok (), w))
    (hdigest : Set.InjOn digest {j | j ∈ (run digest sink w calls).digested}) {r : Record}
    (hr : r ∈ (run digest sink w calls).published) {pending contexts : ℕ}
    (hend : r.event = .processEnd pending contexts false) :
    FullAccount (run digest sink w calls).published ∧ UnloadsMatch digest sink w calls := by
  obtain rfl := create_ok hcreate
  refine ⟨run_account calls hdigest hr hend, ?_⟩
  rintro before ctx module after rfl
  by_contra hunmatched
  push Not at hunmatched
  obtain ⟨hfinished, hcontext, hmodule⟩ := hunmatched
  obtain ⟨context, hcontext⟩ := Option.ne_none_iff_exists'.mp hcontext
  have hopen : ∀ r ∈ (run digest sink (World.start digest process limits) before).published,
      ¬r.event.IsEnd := fun r hr hend => hfinished (run_ended digest sink process limits before r hr hend)
  rw [run_append] at hr
  have hnone : (run digest sink (World.start digest process limits) before).modules.get? (ctx, module) =
      none := by simpa using hmodule
  have hgapped := @run_induction digest sink _ _ (fun _ _ hstep h => Action.gapped hstep h)
    (moduleUnload_gap sink hfinished hcontext hnone hopen) after
  exact hgapped.2 r hr pending contexts hend

/-- The SHA-256 digests of a function and of its first launch too. -/
def launchDigest : Json → String
  | .obj (_ :: _ :: _ :: ("function_handle", _) :: _) =>
    "f84743e9b5ed3e8ce9201b42acf6057a3be9ddf492f3b4b9e1ddd843d8eb219e"
  | .obj (_ :: _ :: _ :: ("function", _) :: _) =>
    "d50e4b4680e4dab7e00c83d4537930b0c3fccc676e2e70f53da2f8349cc6d145"
  | v => sampleDigest v

def oneLaunch : List Call :=
  [.contextBegin 1, .moduleLoad 1 2 "cuModuleLoad",
    .function 1 2 3 (.obj [("cubin_sha256", .str "d2a84f4b8b650937ec8f73cd8be2c74add5a911ba64df27458ed8229da804a26"),
      ("entry", .str "k")]),
    .launch 1 3 7 (.obj []), .complete 1 7 true true, .moduleUnload 1 2, .contextEnd 1, .finish]

theorem gap_free_account_one_launch :
    FullAccount (run launchDigest (fun _ => true) (World.start launchDigest (.obj [("pid", .int 7)]) {})
      oneLaunch).published ∧
    UnloadsMatch launchDigest (fun _ => true) (World.start launchDigest (.obj [("pid", .int 7)]) {})
      oneLaunch := by
  have hnodup : ((run launchDigest (fun _ => true) (World.start launchDigest (.obj [("pid", .int 7)]) {})
      oneLaunch).digested.map launchDigest).Nodup := by decide +kernel
  refine @gap_free_account launchDigest _ _ (.obj [("pid", .int 7)]) {} _ rfl ?_
    ⟨launchDigest (.obj [("pid", .int 7)]), 8, .processEnd 0 0 false⟩ ?_ 0 0 rfl
  · exact fun j hj j' hj' heq => List.inj_on_of_nodup_map hnodup hj hj' heq
  · exact List.mem_of_getElem? (i := 8) rfl

/-- An unload in a context that the ledger does not know is refused, and leaves no mark. -/
theorem unload_in_unknown_context :
    ¬∀ calls : List Call,
      (∃ r ∈ (run sampleDigest (fun _ => true) (World.start sampleDigest (.obj [("pid", .int 7)]) {})
        calls).published, ∃ pending contexts, r.event = .processEnd pending contexts false) →
      ∀ before ctx module after, calls = before ++ .moduleUnload ctx module :: after →
        ((run sampleDigest (fun _ => true) (World.start sampleDigest (.obj [("pid", .int 7)]) {})
          before).modules.get? (ctx, module)).isSome := by
  intro h
  have hmatched := h [.moduleUnload 1 2, .finish]
    ⟨⟨sampleDigest (.obj [("pid", .int 7)]), 1, .processEnd 0 0 false⟩, List.mem_of_getElem? (i := 1) rfl,
      0, 0, rfl⟩ [] 1 2 [.finish] rfl
  cases hmatched

end CuTracer.Runtime
