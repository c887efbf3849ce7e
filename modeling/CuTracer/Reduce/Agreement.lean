import CuTracer.Reduce.Bisect
import CuTracer.Reduce.Linear

/-! The two reducers under an oracle that asks for a fixed set of points. They
find that set, except that the bisecting reducer cannot find the empty one. -/

namespace CuTracer.Reduce

open DeltaDebugging

/-- Both reducers return the set `E`, with the same success value. -/
def Agree (E : Finset PointKey) (linear bisect : Except ReduceError ReduceResult) : Prop :=
  ∃ r s, linear = .ok r ∧ bisect = .ok s ∧ keySet r.essentialPoints = E ∧
    keySet s.essentialPoints = E ∧ r.success = s.success

theorem keySet_filter_mem {E : Finset PointKey} {points : List DelayPoint} (hE : E ⊆ keySet points) :
    keySet (points.filter fun p => p.key ∈ E) = E := by
  ext k
  simp only [mem_keySet, List.mem_filter, decide_eq_true_eq]
  constructor
  · rintro ⟨p, ⟨-, hp⟩, rfl⟩
    exact hp
  · intro hk
    obtain ⟨p, hp, rfl⟩ := mem_keySet.mp (hE hk)
    exact ⟨p, ⟨hp, hk⟩, rfl⟩

/-- The bisecting reducer returns a nonempty list of points, and under a
nonempty set `E` exactly the points of `E`. -/
theorem reduceBisect_needs {config : ReduceConfig} {E : Finset PointKey} (runs : ℕ)
    (hd : config.Decides (needs E)) (hE : E ⊆ config.delayConfig.enabledKeys)
    (hne : (DelayConfigMutator.load config.delayConfig).enabledPoints ≠ []) :
    ∃ r, reduceBisect config runs = .ok r ∧ r.essentialPoints ≠ [] ∧
      (E.Nonempty → keySet r.essentialPoints = E) := by
  obtain ⟨r, m, hr, hsteps, hend⟩ := reduceBisect_returns runs hd (decide_eq_true hE) hne
  have hstart : interesting (needs E) (.load config.delayConfig)
      (DelayConfigMutator.load config.delayConfig).enabledPoints = true := by
    rw [interesting_eq _ _ (List.Sublist.refl _)]
    exact decide_eq_true hE
  obtain ⟨hsub, hpass, -, hnil⟩ := narrows_keeps hsteps le_rfl hstart
  rw [interesting_eq _ _ hsub] at hpass
  have hsuper : E ⊆ keySet r.essentialPoints := of_decide_eq_true hpass
  refine ⟨r, hr, hnil hne, fun hnonempty => (Finset.Subset.antisymm hsuper ?_).symm⟩
  -- a point outside `E` could be left out, against one-minimality
  have hzero : needs E ∅ = false := by
    simpa [needs] using hnonempty.ne_empty
  intro k hk
  obtain ⟨p, hp, rfl⟩ := mem_keySet.mp hk
  by_contra hout
  have := oneMinimal_of_end hsub hend (.inl hzero) p hp
  simp [needs, Finset.subset_erase, hsuper, hout] at this

/-- The reducers agree exactly when some point is needed. A config without enabled points is
refused by both, with the same error. -/
theorem reducers_agree_iff (config : ReduceConfig) (E : Finset PointKey) (linearRuns bisectRuns : ℕ)
    (hd : config.Decides (needs E)) (hE : E ⊆ config.delayConfig.enabledKeys) :
    (Agree E (reduceDelayPoints config linearRuns) (reduceBisect config bisectRuns) ↔ E.Nonempty) ∧
      ((DelayConfigMutator.load config.delayConfig).enabledPoints = [] →
        ∃ e, reduceDelayPoints config linearRuns = .error e ∧ reduceBisect config bisectRuns = .error e) := by
  have hempty : (DelayConfigMutator.load config.delayConfig).enabledPoints = [] →
      ∃ e, reduceDelayPoints config linearRuns = .error e ∧ reduceBisect config bisectRuns = .error e := by
    intro hnone
    have hvalid := ReduceConfig.validateInitialConfig_decided hd (.load config.delayConfig)
      (decide_eq_true hE)
    rw [if_pos hnone] at hvalid
    exact ⟨.valueError "No enabled delay points in config", by simp only [reduceDelayPoints, hvalid],
      by simp only [reduceBisect, hvalid]⟩
  refine ⟨?_, hempty⟩
  constructor
  · rintro ⟨r, s, hr, hs, -, hbisect, -⟩
    have hne : (DelayConfigMutator.load config.delayConfig).enabledPoints ≠ [] := by
      intro hnone
      obtain ⟨e, he, -⟩ := hempty hnone
      cases hr.symm.trans he
    obtain ⟨s', hs', hnil, -⟩ := reduceBisect_needs bisectRuns hd hE hne
    obtain rfl := Except.ok.inj (hs.symm.trans hs')
    obtain ⟨p, hp⟩ := List.exists_mem_of_ne_nil _ hnil
    exact ⟨p.key, hbisect ▸ mem_keySet.mpr ⟨p, hp, rfl⟩⟩
  · rintro ⟨k, hk⟩
    have hne : (DelayConfigMutator.load config.delayConfig).enabledPoints ≠ [] := by
      intro hnone
      have hkeys : k ∈ keySet (DelayConfigMutator.load config.delayConfig).enabledPoints :=
        (DelayConfigMutator.load config.delayConfig).enabledKeys_save.subset (hE hk)
      simp [hnone] at hkeys
    obtain ⟨r, hr, hpoints⟩ := reduceDelayPoints_needs linearRuns hd hE hne
    obtain ⟨s, hs, hnil, hsame⟩ := reduceBisect_needs bisectRuns hd hE hne
    have hlinear : keySet r.essentialPoints = E := by rw [hpoints]; exact keySet_filter_mem hE
    have hr0 : r.essentialPoints ≠ [] := by
      rintro h0
      rw [← hlinear, h0] at hk
      simp at hk
    exact ⟨r, s, hr, hs, hlinear, hsame ⟨k, hk⟩, by simp [ReduceResult.success, List.length_pos_iff, hr0, hnil]⟩

theorem reducers_agree_two_points :
    Agree {("kernel_0", "0x108")}
      (reduceDelayPoints (scriptedReduction (enabledKernel ["0x100", "0x108"] (by decide))
        (needs {("kernel_0", "0x108")})) 1)
      (reduceBisect (scriptedReduction (enabledKernel ["0x100", "0x108"] (by decide))
        (needs {("kernel_0", "0x108")})) 1) :=
  (reducers_agree_iff (scriptedReduction (enabledKernel ["0x100", "0x108"] (by decide)) _) _ 1 1
    (scriptedReduction_decides _ _) (by decide)).1.mpr ⟨_, Finset.mem_singleton_self _⟩

/-- No point is needed: the linear reducer returns none, the bisecting one still
returns a point. -/
theorem reducers_disagree_on_empty :
    ¬ ∀ (config : ReduceConfig) (E : Finset PointKey), config.Decides (needs E) →
      E ⊆ config.delayConfig.enabledKeys →
      Agree E (reduceDelayPoints config 1) (reduceBisect config 1) := by
  intro h
  have hd := scriptedReduction_decides (enabledKernel ["0x100"] (by decide)) (needs ∅)
  obtain ⟨r, s, -, hs, -, hbisect, -⟩ := h _ ∅ hd (Finset.empty_subset _)
  obtain ⟨s', hs', hnil, -⟩ := reduceBisect_needs 1 hd (Finset.empty_subset _) (by decide)
  obtain rfl := Except.ok.inj (hs.symm.trans hs')
  obtain ⟨p, hp⟩ := List.exists_mem_of_ne_nil _ hnil
  have hmem : p.key ∈ keySet s.essentialPoints := mem_keySet.mpr ⟨p, hp, rfl⟩
  simp [hbisect] at hmem

end CuTracer.Reduce
