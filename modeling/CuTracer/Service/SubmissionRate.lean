import CuTracer.Library.SlidingWindow
import CuTracer.Service.Campaign
import Mathlib.Data.List.Induction

/-! Campaigns one after another under one submission rate. Each campaign is told when the earlier ones
submitted, and admits units as long as its own window has room. The window starts `windowSeconds`
before `as_of` on the clock of the zone of `as_of`: over a change of that clock it is not the window
of that many seconds, and then more may be submitted than the rate allows. -/

namespace CuTracer.Service

open SlidingWindow

/-- What `apply_resource_budget` is given beside the rate and the earlier submissions. -/
structure RatedCampaign where
  targets : List CatalogWorkUnit
  estimates : Estimates
  maxReasoningTokens : Option ℕ := none
  maxArtifactBytes : Option ℕ := none
  asOf : DateTime
  initialUsage : Option CampaignResourceUsage := none

def SandcastleRateBudget.span (rate : SandcastleRateBudget) : ℤ := rate.windowSeconds * 1000000

/-- How many submissions some units are estimated to need. -/
def submissionCount (estimates : Estimates) (units : List CatalogWorkUnit) : ℕ :=
  (units.map fun t => (estimateOf estimates t).sandcastleSubmissions).sum

namespace RatedCampaign

def plan (rate : SandcastleRateBudget) (submittedAt : List DateTime) (c : RatedCampaign) :
    Planning (List ResourceAdmissionDecision) :=
  applyResourceBudget c.targets c.estimates
    { maxReasoningTokens := c.maxReasoningTokens, maxArtifactBytes := c.maxArtifactBytes
      sandcastleRate := some rate }
    c.asOf submittedAt c.initialUsage

def submissions (c : RatedCampaign) (units : List CatalogWorkUnit) : List DateTime :=
  List.replicate (submissionCount c.estimates units) c.asOf

/-- All submissions after a campaign; one that raises submits nothing. -/
def submit (rate : SandcastleRateBudget) (submittedAt : List DateTime) (c : RatedCampaign) : List DateTime :=
  match c.plan rate submittedAt with
  | .ok decisions => submittedAt ++ c.submissions (Admission.targets decisions)
  | .error _ => submittedAt

end RatedCampaign

def submitted (rate : SandcastleRateBudget) (campaigns : List RatedCampaign) : List DateTime :=
  campaigns.foldl (RatedCampaign.submit rate) []

/-- The zone of a time has its offset at another time on its clock as well. -/
def DateTime.SameOffset (t : DateTime) (wall : ℤ) : Prop :=
  ∀ z ∈ t.zone, z.utcoffset t.wall = z.utcoffset wall

/-- No change of the clock lies between a campaign and an earlier submission, or, of a submission in
another zone, between the campaign and the start of its window. -/
def Steady (rate : SandcastleRateBudget) (asOf submission : DateTime) : Prop :=
  if asOf.zone.map Zone.id = submission.zone.map Zone.id then
    asOf.utc - submission.utc = asOf.wall - submission.wall
  else asOf.SameOffset (asOf.wall - rate.span)

def instants (submittedAt : List DateTime) : List ℤ := submittedAt.map DateTime.utc

/-- At no time does the window that ends there hold more submissions than the rate allows. -/
def SandcastleRateBudget.Kept (rate : SandcastleRateBudget) (submittedAt : List DateTime) : Prop :=
  Limited rate.span rate.maxSubmissions (instants submittedAt)

/-! ### One campaign -/

section

variable {rate : SandcastleRateBudget} {submittedAt : List DateTime} {c : RatedCampaign}

@[simp] theorem instants_append (before after : List DateTime) :
    instants (before ++ after) = instants before ++ instants after := List.map_append

@[simp] theorem instants_submissions (units : List CatalogWorkUnit) :
    instants (c.submissions units) = List.replicate (submissionCount c.estimates units) c.asOf.utc :=
  List.map_replicate

/-- The comparison of the code, where the clock is steady. -/
theorem after_windowStart {asOf windowStart s : DateTime}
    (hstart : asOf.before rate.windowSeconds = .ok windowStart) (hsteady : Steady rate asOf s) :
    s.after windowStart = true ↔ asOf.utc - rate.span < s.utc := by
  have hspan : rate.span = rate.windowSeconds * 1000000 := rfl
  unfold DateTime.before at hstart
  split_ifs at hstart
  cases hstart
  unfold Steady at hsteady
  simp only [DateTime.after, DateTime.sub, decide_eq_true_eq, ← hspan]
  by_cases hzone : asOf.zone.map Zone.id = s.zone.map Zone.id
  · rw [if_pos hzone] at hsteady
    rw [if_pos hzone.symm]
    omega
  · rw [if_neg hzone] at hsteady
    rw [if_neg (Ne.symm hzone)]
    have hutc : ({ asOf with wall := asOf.wall - rate.span } : DateTime).utc = asOf.utc - rate.span := by
      unfold DateTime.utc
      cases hz : asOf.zone with
      | none => simp
      | some z =>
        have := hsteady z hz
        simp only [Option.map_some, Option.getD_some]
        omega
    rw [hutc]
    omega

/-- The recent submissions are those in the window that ends with the campaign. -/
theorem recent_eq {recent : ℕ}
    (hrecent : recentSandcastleCount (some rate) c.asOf submittedAt = .ok recent)
    (hsteady : ∀ s ∈ submittedAt, Steady rate c.asOf s) (hpast : ∀ s ∈ submittedAt, s.utc ≤ c.asOf.utc) :
    recent = inWindow rate.span c.asOf.utc (instants submittedAt) := by
  obtain ⟨_, -, hrecent⟩ := bind_ok hrecent
  obtain ⟨_, -, hrecent⟩ := bind_ok hrecent
  obtain ⟨_, -, hrecent⟩ := bind_ok hrecent
  obtain ⟨windowStart, hstart, hrecent⟩ := bind_ok hrecent
  cases hrecent
  rw [inWindow, instants, List.countP_map]
  refine List.countP_congr fun s hs => ?_
  rw [after_windowStart hstart (hsteady s hs), Function.comp_apply, decide_eq_true_eq]
  exact (and_iff_left (hpast s hs)).symm

theorem plan_recent {decisions : List ResourceAdmissionDecision}
    (h : c.plan rate submittedAt = .ok decisions) :
    ∃ recent, recentSandcastleCount (some rate) c.asOf submittedAt = .ok recent := by
  obtain ⟨_, -, h⟩ := bind_ok h
  obtain ⟨_, -, h⟩ := bind_ok h
  obtain ⟨recent, hrecent, -⟩ := bind_ok h
  exact ⟨recent, hrecent⟩

/-- What a campaign submits keeps the rate. -/
theorem kept_submit (hwindow : 0 < rate.windowSeconds) (hkept : rate.Kept submittedAt)
    (hsteady : ∀ s ∈ submittedAt, Steady rate c.asOf s) (hpast : ∀ s ∈ submittedAt, s.utc ≤ c.asOf.utc) :
    rate.Kept (c.submit rate submittedAt) := by
  unfold RatedCampaign.submit
  cases hplan : c.plan rate submittedAt with
  | error e => exact hkept
  | ok decisions =>
    obtain ⟨recent, hrecent⟩ := plan_recent hplan
    have hcount := recent_eq hrecent hsteady hpast
    obtain ⟨-, -, -, hrate⟩ := applyResourceBudget_ok hplan
    have hroom := hrate rate recent rfl hrecent (hcount ▸ hkept c.asOf.utc)
    have hspan : 0 < rate.span := by
      unfold SandcastleRateBudget.span
      omega
    unfold SandcastleRateBudget.Kept
    rw [instants_append, instants_submissions]
    refine Limited.append hkept ?_ ?_
    · intro s hs
      obtain ⟨t, ht, rfl⟩ := List.mem_map.mp hs
      exact hpast t ht
    · rw [inWindow_append, inWindow_replicate_self hspan, ← hcount]
      exact hroom

/-- A unit that only the rate defers has no room in the window that ends with the campaign. -/
theorem full_of_deferred (hwindow : 0 < rate.windowSeconds)
    (hsteady : ∀ s ∈ submittedAt, Steady rate c.asOf s) (hpast : ∀ s ∈ submittedAt, s.utc ≤ c.asOf.utc)
    {passed rest : List ResourceAdmissionDecision} {d : ResourceAdmissionDecision}
    (hplan : c.plan rate submittedAt = .ok (passed ++ d :: rest))
    (hdeferred : d.constraints = [.sandcastleRate]) :
    ¬rate.Kept (submittedAt ++ c.submissions (Admission.targets passed ++ [d.target])) := by
  obtain ⟨recent, hrecent⟩ := plan_recent hplan
  have hcount := recent_eq hrecent hsteady hpast
  obtain ⟨_, -, hplan⟩ := bind_ok hplan
  obtain ⟨_, -, hplan⟩ := bind_ok hplan
  obtain ⟨recent', hrecent', hplan⟩ := bind_ok hplan
  obtain rfl := Except.ok.inj (hrecent.symm.trans hrecent')
  obtain ⟨u, hu, hused⟩ := Admission.constraints_of_split ResourceTotal.sandcastleSubmissions
    (fun t => (estimateOf c.estimates t).sandcastleSubmissions) (fun _ _ => rfl) (Except.ok.inj hplan)
  have hover : rate.maxSubmissions <
      u.sandcastleSubmissions + (estimateOf c.estimates d.target).sandcastleSubmissions := by
    by_contra hroom
    have hmem : ResourceConstraint.sandcastleRate ∈ d.constraints := by simp [hdeferred]
    rw [hu] at hmem
    simp [resourceConstraints, hroom] at hmem
  have hspan : 0 < rate.span := by
    unfold SandcastleRateBudget.span
    omega
  intro hkept
  have hwithin := hkept c.asOf.utc
  rw [instants_append, instants_submissions, inWindow_append, inWindow_replicate_self hspan, ← hcount,
    submissionCount, List.map_append, List.sum_append] at hwithin
  simp only [List.map_singleton, List.sum_singleton] at hwithin
  simp only at hused
  omega

end

/-! ### Campaigns in a row -/

section

variable {rate : SandcastleRateBudget} {campaigns : List RatedCampaign}

theorem submitted_concat (c : RatedCampaign) :
    submitted rate (campaigns ++ [c]) = c.submit rate (submitted rate campaigns) := by
  rw [submitted, List.foldl_append]
  rfl

theorem mem_submitted {s : DateTime} (hs : s ∈ submitted rate campaigns) :
    ∃ c ∈ campaigns, s = c.asOf := by
  induction campaigns using List.reverseRecOn with
  | nil => cases hs
  | append_singleton campaigns c ih =>
    rw [submitted_concat, RatedCampaign.submit] at hs
    have hearlier (hs : s ∈ submitted rate campaigns) : ∃ c' ∈ campaigns ++ [c], s = c'.asOf := by
      obtain ⟨c', hc', rfl⟩ := ih hs
      exact ⟨c', List.mem_append_left _ hc', rfl⟩
    cases hplan : c.plan rate (submitted rate campaigns) with
    | error e =>
      rw [hplan] at hs
      exact hearlier hs
    | ok decisions =>
      rw [hplan] at hs
      obtain hs | hs := List.mem_append.mp hs
      · exact hearlier hs
      · exact ⟨c, by simp, List.eq_of_mem_replicate hs⟩

/-- The campaigns are planned at times that do not decrease. -/
def InOrder (campaigns : List RatedCampaign) : Prop :=
  campaigns.Pairwise fun c d => c.asOf.utc ≤ d.asOf.utc

theorem past_of_inOrder {before after : List RatedCampaign} {c : RatedCampaign}
    (h : InOrder (before ++ c :: after)) : ∀ s ∈ submitted rate before, s.utc ≤ c.asOf.utc := by
  intro s hs
  obtain ⟨c', hc', rfl⟩ := mem_submitted hs
  exact (List.pairwise_append.mp h).2.2 c' hc' c List.mem_cons_self

/-- The clock of each campaign is steady over the submissions of the earlier ones. -/
def SteadyClocks (rate : SandcastleRateBudget) (campaigns : List RatedCampaign) : Prop :=
  ∀ before c after, campaigns = before ++ c :: after →
    ∀ s ∈ submitted rate before, Steady rate c.asOf s

theorem kept_submitted (hwindow : 0 < rate.windowSeconds) (hordered : InOrder campaigns)
    (hsteady : SteadyClocks rate campaigns) : rate.Kept (submitted rate campaigns) := by
  induction campaigns using List.reverseRecOn with
  | nil => exact limited_nil
  | append_singleton campaigns c ih =>
    rw [submitted_concat]
    refine kept_submit hwindow (ih (List.pairwise_append.mp hordered).1 ?_)
      (hsteady campaigns c [] rfl) (past_of_inOrder hordered)
    intro before d after hsplit
    refine hsteady before d (after ++ [c]) ?_
    rw [hsplit, List.append_assoc, List.cons_append]

/-- Over campaigns whose clocks are steady no window ever holds more submissions than the rate allows,
and a unit that only the rate defers would have made one hold more. -/
theorem submission_rate_kept (rate : SandcastleRateBudget) (campaigns : List RatedCampaign)
    (hwindow : 0 < rate.windowSeconds) (hordered : InOrder campaigns)
    (hsteady : SteadyClocks rate campaigns) :
    rate.Kept (submitted rate campaigns) ∧
      ∀ before c after passed d rest, campaigns = before ++ c :: after →
        c.plan rate (submitted rate before) = .ok (passed ++ d :: rest) →
        d.constraints = [.sandcastleRate] →
        ¬rate.Kept (submitted rate before ++ c.submissions (Admission.targets passed ++ [d.target])) := by
  refine ⟨kept_submitted hwindow hordered hsteady, ?_⟩
  rintro before c after passed d rest rfl hplan hdeferred
  exact full_of_deferred hwindow (hsteady before c after rfl) (past_of_inOrder hordered) hplan hdeferred

def utcZone : Zone := ⟨0, fun _ => 0⟩

/-- Campaigns in that zone have steady clocks. -/
theorem steadyClocks_of_utc (hutc : ∀ c ∈ campaigns, c.asOf.zone = some utcZone) :
    SteadyClocks rate campaigns := by
  rintro before c after rfl s hs
  obtain ⟨c', hc', rfl⟩ := mem_submitted hs
  have hc := hutc c (by simp)
  have hc' := hutc c' (List.mem_append_left _ hc')
  rw [Steady, hc, hc', if_pos rfl]
  simp [DateTime.utc, hc, hc', utcZone]

end

/-! ### A change of the clock -/

def hourly : SandcastleRateBudget := ⟨1, 3600⟩

def smallUnit (unitId : String) : CatalogWorkUnit where
  catalogRevision := "c"
  entryId := "e"
  selectorIndex := 0
  kernelFilters := []
  sampling := ⟨none, "default"⟩
  cadenceDays := 1
  estimatedGpuSeconds := 60
  unit := ⟨unitId, ["python"], "w", "t", "", "sm_90", "r", none, none, [], []⟩
  enabled := true

def smallCampaign (unitId : String) (asOf : DateTime) : RatedCampaign where
  targets := [smallUnit unitId]
  estimates := ⟨[(unitId, ⟨0, 0, 1⟩)], List.nodup_singleton _⟩
  asOf := asOf

def onThatDay (zone : Zone) (minutes : ℤ) : DateTime := ⟨(63908524800 + minutes * 60) * 1000000, some zone⟩

/-- New York, whose clock went from 2:00 to 3:00 that day. -/
def newYork : Zone := ⟨1, fun wall => (if wall < (63908524800 + 3 * 3600) * 1000000 then -5 else -4) * 3600000000⟩

theorem submission_rate_kept_utc :
    hourly.Kept (submitted hourly
      [smallCampaign "a" (onThatDay utcZone 420), smallCampaign "b" (onThatDay utcZone 421)]) :=
  (submission_rate_kept hourly _ (by decide) (by simp [InOrder, smallCampaign, onThatDay, DateTime.utc, utcZone])
    (steadyClocks_of_utc (by simp [smallCampaign, onThatDay]))).1

/-- A campaign at 7:00 in UTC submits once, and so does one a minute later, at 3:01 in New York: its
window starts at 2:01, which New York's clock never showed. -/
theorem two_submissions_in_an_hour :
    ¬∀ (rate : SandcastleRateBudget) (campaigns : List RatedCampaign), 0 < rate.windowSeconds →
      InOrder campaigns → rate.Kept (submitted rate campaigns) := by
  intro h
  have hkept := h hourly [smallCampaign "a" (onThatDay utcZone 420), smallCampaign "b" (onThatDay newYork 181)]
    (by decide) (by simp [InOrder, smallCampaign, onThatDay, DateTime.utc, utcZone, newYork])
    (onThatDay utcZone 421).utc
  revert hkept
  decide +kernel

end CuTracer.Service
