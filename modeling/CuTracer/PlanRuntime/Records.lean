import CuTracer.PlanRuntime.Protocol

/-! The packets of a launch that were written to its trace. The counts of a launch say how
many there are and how long their records are, no budget is exceeded, and no packet is
written twice, whatever order packets come in and how often each of them does. -/

namespace CuTracer.PlanRuntime

open Plan

variable {t : Tables} {plan : CanonicalPlan} {state state' : Context} {flights : List Flight}

/-! ### What was written -/

def tracePackets (id c : ℕ) (written : List PlanObservation) : List PlanObservation :=
  written.filter fun p => p.kernelLaunchId = id ∧ p.configIndex = c

def PlanObservation.identity (p : PlanObservation) : ℕ × ℕ × ℕ :=
  (p.kernelLaunchId, p.configIndex, p.sequence)

/-- What a launch says of its written packets: how many there are, how long their records
are, and that none came in vain unless there is an error. -/
structure Launch.Tallies (t : Tables) (plan : CanonicalPlan) (dump : Json → String)
    (launch : Launch) (id : ℕ) (written : List PlanObservation) : Prop where
  count : ∀ c k, launch.counts.get? c = some k → k.written = (tracePackets id c written).length
  received : ∀ c k, launch.counts.get? c = some k → k.error = "" → k.received = k.written
  bytes : ∀ c k config, launch.counts.get? c = some k → t.configs[c]? = some config →
    k.jsonBytes = ((tracePackets id c written).map (recordSize t plan dump launch config.source)).sum
  budget : ∀ c k config, launch.counts.get? c = some k → t.configs[c]? = some config →
    k.written ≤ config.source.budget.maxRecords ∧ k.jsonBytes ≤ config.source.budget.maxBytes
  records : ∀ p ∈ written, p.kernelLaunchId = id → (p.configIndex, p.sequence) ∈ launch.records

/-- What was written was pushed, and no packet was written twice. -/
structure Tallied (t : Tables) (plan : CanonicalPlan) (dump : Json → String) (state : Context)
    (flights : List Flight) (written : List PlanObservation) : Prop where
  launches : ∀ id launch, state.launches.get? id = some launch →
    launch.Tallies t plan dump id written
  nodup : (written.map PlanObservation.identity).Nodup
  pushed : ∀ p ∈ written, ∃ f ∈ flights, p ∈ f.pushed

variable {dump : Json → String} {written : List PlanObservation}

variable (h : Tallied t plan dump state flights written)

include h in
theorem Tallied.quiet (hquiet : state.Quiet state') :
    Tallied t plan dump state' flights written := by
  refine ⟨fun id launch' hget => ?_, h.nodup, h.pushed⟩
  obtain ⟨launch, hget, hl⟩ := hquiet id launch' hget
  have ht := h.launches id launch hget
  have hsize : recordSize t plan dump launch' = recordSize t plan dump launch := by
    funext config p
    rw [recordSize, recordSize, hl.identity]
  refine ⟨fun c k' hk' => ?_, fun c k' hk' herror => ?_, fun c k' config hk' hc => ?_,
    fun c k' config hk' hc => ?_, hl.records ▸ ht.records⟩
  · obtain ⟨k, hk, hwritten, -, -⟩ := hl.counts c k' hk'
    rw [hwritten]
    exact ht.count c k hk
  · obtain ⟨k, hk, hwritten, -, hnil⟩ := hl.counts c k' hk'
    obtain ⟨herror, hreceived⟩ := hnil herror
    rw [hwritten, hreceived]
    exact ht.received c k hk herror
  · obtain ⟨k, hk, -, hbytes, -⟩ := hl.counts c k' hk'
    rw [hbytes, hsize]
    exact ht.bytes c k config hk hc
  · obtain ⟨k, hk, hwritten, hbytes, -⟩ := hl.counts c k' hk'
    rw [hwritten, hbytes]
    exact ht.budget c k config hk hc

include h in
theorem Tallied.mono {flights' : List Flight}
    (hpushed : ∀ f ∈ flights, ∃ f' ∈ flights', ∀ p ∈ f.pushed, p ∈ f'.pushed) :
    Tallied t plan dump state flights' written := by
  refine ⟨h.launches, h.nodup, fun p hp => ?_⟩
  obtain ⟨f, hf, hp⟩ := h.pushed p hp
  obtain ⟨f', hf', hsub⟩ := hpushed f hf
  exact ⟨f', hf', hsub p hp⟩

include h in
/-- Nothing was written for a launch that is new. -/
theorem Tallied.record {launches : Dict ℕ Launch} (hlaunches : state.launches = launches)
    {identity : Identity} {id : ℕ} {prepared : Preparing} {slot : Option ℕ} {launch : Launch}
    (hfresh : prepared.Fresh t identity) (hbegins : launch.Begins identity prepared slot)
    (hnew : ∀ p ∈ written, p.kernelLaunchId ≠ id)
    (hstate : state'.launches = launches.insert id launch) :
    Tallied t plan dump state' flights written := by
  refine ⟨fun i l hget => ?_, h.nodup, h.pushed⟩
  rw [hstate, Dict.get?_insert] at hget
  split_ifs at hget with hi
  · cases hget
    subst hi
    have hnone : ∀ c, tracePackets i c written = [] := by
      intro c
      rw [tracePackets, List.filter_eq_nil_iff]
      intro p hp
      simp [hnew p hp]
    have hzero : ∀ c k, launch.counts.get? c = some k →
        k.received = 0 ∧ k.written = 0 ∧ k.jsonBytes = 0 := by
      intro c k hk
      rw [hbegins.counts] at hk
      exact hfresh.zero c k hk
    refine ⟨fun c k hk => ?_, fun c k hk _ => ?_, fun c k config hk _ => ?_,
      fun c k config hk _ => ?_, fun p hp hid => absurd hid (hnew p hp)⟩
    · rw [(hzero c k hk).2.1, hnone c]
      rfl
    · rw [(hzero c k hk).1, (hzero c k hk).2.1]
    · rw [(hzero c k hk).2.2, hnone c]
      rfl
    · rw [(hzero c k hk).2.1, (hzero c k hk).2.2]
      exact ⟨Nat.zero_le _, Nat.zero_le _⟩
  · exact h.launches i l (hlaunches ▸ hget)

theorem tracePackets_append (id c : ℕ) (written : List PlanObservation) (p : PlanObservation) :
    tracePackets id c (written ++ [p]) = tracePackets id c written ++
      if p.kernelLaunchId = id ∧ p.configIndex = c then [p] else [] := by
  rw [tracePackets, List.filter_append, tracePackets, List.filter_singleton]
  simp

/-- A packet that is written adds to its own configuration, and to no other one. -/
theorem Launch.Tallies.write {launch : Launch} {id : ℕ} {p : PlanObservation} {counts k : Counts}
    {config : RuntimeConfig} {records : List (ℕ × ℕ)}
    (h : launch.Tallies t plan dump id written) (hid : p.kernelLaunchId = id)
    (hcounts : launch.counts.get? p.configIndex = some counts)
    (hconfig : t.configs[p.configIndex]? = some config)
    (hkept : ∀ r ∈ launch.records, r ∈ records)
    (hin : (p.configIndex, p.sequence) ∈ records) (herror : k.error = counts.error)
    (hreceived : k.received = counts.received + 1)
    (hwritten : k.written = counts.written + 1 ∧ k.written ≤ config.source.budget.maxRecords)
    (hbytes : k.jsonBytes = counts.jsonBytes + recordSize t plan dump launch config.source p ∧
      k.jsonBytes ≤ config.source.budget.maxBytes) :
    Launch.Tallies t plan dump
      { launch with records, counts := launch.counts.insert p.configIndex k } id
      (written ++ [p]) := by
  have hget : ∀ c k', (launch.counts.insert p.configIndex k).get? c = some k' →
      c = p.configIndex ∧ k' = k ∧
        tracePackets id c (written ++ [p]) = tracePackets id c written ++ [p] ∨
      launch.counts.get? c = some k' ∧
        tracePackets id c (written ++ [p]) = tracePackets id c written := by
    intro c k' hk
    rw [Dict.get?_insert] at hk
    rw [tracePackets_append]
    split_ifs at hk with hc
    · exact .inl ⟨hc, (Option.some.inj hk).symm, by rw [if_pos ⟨hid, hc.symm⟩]⟩
    · exact .inr ⟨hk, by rw [if_neg fun hboth => hc hboth.2.symm, List.append_nil]⟩
  refine ⟨fun c k' hk => ?_, fun c k' hk hnil => ?_, fun c k' config' hk hc => ?_,
    fun c k' config' hk hc => ?_, fun q hq hqid => ?_⟩
  · rcases hget c k' hk with ⟨rfl, rfl, htrace⟩ | ⟨hk, htrace⟩
    · rw [htrace, hwritten.1, h.count _ counts hcounts, List.length_append, List.length_singleton]
    · rw [htrace]
      exact h.count c k' hk
  · rcases hget c k' hk with ⟨rfl, rfl, -⟩ | ⟨hk, -⟩
    · rw [hreceived, hwritten.1, h.received _ counts hcounts (herror ▸ hnil)]
    · exact h.received c k' hk hnil
  · rcases hget c k' hk with ⟨rfl, rfl, htrace⟩ | ⟨hk, htrace⟩
    · obtain rfl := Option.some.inj (hconfig.symm.trans hc)
      rw [htrace, List.map_append, List.sum_append, List.map_singleton, List.sum_singleton,
        hbytes.1, h.bytes _ counts config hcounts hconfig]
      rfl
    · rw [htrace]
      exact h.bytes c k' config' hk hc
  · rcases hget c k' hk with ⟨rfl, rfl, -⟩ | ⟨hk, -⟩
    · obtain rfl := Option.some.inj (hconfig.symm.trans hc)
      exact ⟨hwritten.2, hbytes.2⟩
    · exact h.budget c k' config' hk hc
  · rcases List.mem_append.mp hq with hq | hq
    · exact hkept _ (h.records q hq hqid)
    · rw [List.mem_singleton.mp hq]
      exact hin

/-- A packet that is not written may leave an error. -/
theorem Launch.Tallies.refuse {launch : Launch} {id c : ℕ} {counts k : Counts}
    {records : List (ℕ × ℕ)} (h : launch.Tallies t plan dump id written)
    (hcounts : launch.counts.get? c = some counts) (hkept : ∀ r ∈ launch.records, r ∈ records)
    (herror : k.error ≠ "") (hwritten : k.written = counts.written)
    (hbytes : k.jsonBytes = counts.jsonBytes) :
    Launch.Tallies t plan dump { launch with records, counts := launch.counts.insert c k } id
      written := by
  have hget : ∀ c' k', (launch.counts.insert c k).get? c' = some k' →
      c' = c ∧ k' = k ∨ launch.counts.get? c' = some k' := by
    intro c' k' hk
    rw [Dict.get?_insert] at hk
    split_ifs at hk with hc
    · exact .inl ⟨hc, (Option.some.inj hk).symm⟩
    · exact .inr hk
  refine ⟨fun c' k' hk => ?_, fun c' k' hk hnil => ?_, fun c' k' config hk hc => ?_,
    fun c' k' config hk hc => ?_, fun q hq hqid => hkept _ (h.records q hq hqid)⟩
  · rcases hget c' k' hk with ⟨rfl, rfl⟩ | hk
    · rw [hwritten]
      exact h.count c' counts hcounts
    · exact h.count c' k' hk
  · rcases hget c' k' hk with ⟨rfl, rfl⟩ | hk
    · exact absurd hnil herror
    · exact h.received c' k' hk hnil
  · rcases hget c' k' hk with ⟨rfl, rfl⟩ | hk
    · rw [hbytes]
      exact h.bytes c' counts config hcounts hc
    · exact h.bytes c' k' config hk hc
  · rcases hget c' k' hk with ⟨rfl, rfl⟩ | hk
    · rw [hwritten, hbytes]
      exact h.budget c' counts config hcounts hc
    · exact h.budget c' k' config hk hc

theorem Launch.Tallies.other {launch : Launch} {id : ℕ} {p : PlanObservation}
    (h : launch.Tallies t plan dump id written) (hid : p.kernelLaunchId ≠ id) :
    launch.Tallies t plan dump id (written ++ [p]) := by
  have htrace : ∀ c, tracePackets id c (written ++ [p]) = tracePackets id c written := by
    intro c
    rw [tracePackets_append, if_neg fun hboth => hid hboth.1, List.append_nil]
  refine ⟨fun c => htrace c ▸ h.count c, h.received, fun c => htrace c ▸ h.bytes c, h.budget,
    fun q hq hqid => ?_⟩
  rcases List.mem_append.mp hq with hq | hq
  · exact h.records q hq hqid
  · rw [List.mem_singleton.mp hq] at hqid
    exact absurd hqid hid

include h in
/-- A packet that is written is new, and its counts say that it was. -/
theorem Tallied.consume {f : Flight} (hf : f ∈ flights) {p : PlanObservation} (hp : p ∈ f.pushed)
    {accepted : Bool} {consumed : Consumed}
    (hconsume : state.consume t plan dump p accepted = (consumed, state')) :
    Tallied t plan dump state' flights
      (if consumed.written accepted then written ++ [p] else written) := by
  rcases consume_cases hconsume with ⟨rfl, hnot⟩ | ⟨launch, counts, k, records, config, hlaunch,
    hcounts, hconfig, hrecorded, rfl⟩
  · rw [hnot]
    exact h
  have htallies := h.launches p.kernelLaunchId launch hlaunch
  rcases hrecorded.outcome with ⟨hnot, herror, hwritten, hbytes⟩ | ⟨hwrite, herror, hreceived,
    hwritten, hbytes, hnew, hin⟩
  · rw [hnot]
    refine ⟨fun i l hget => ?_, h.nodup, h.pushed⟩
    rw [Dict.get?_insert] at hget
    split_ifs at hget with hi
    · cases hget
      subst hi
      exact htallies.refuse hcounts hrecorded.kept herror hwritten hbytes
    · exact h.launches i l hget
  · rw [hwrite, if_pos rfl]
    refine ⟨fun i l hget => ?_, ?_, fun q hq => ?_⟩
    · rw [Dict.get?_insert] at hget
      split_ifs at hget with hi
      · cases hget
        subst hi
        exact htallies.write rfl hcounts hconfig hrecorded.kept hin herror hreceived hwritten hbytes
      · exact (h.launches i l hget).other fun heq => hi heq.symm
    · rw [List.map_append, List.nodup_append]
      refine ⟨h.nodup, List.nodup_singleton _, ?_⟩
      rintro a ha b hb rfl
      obtain ⟨q, hq, hidentity⟩ := List.mem_map.mp ha
      rw [List.mem_singleton.mp hb] at hidentity
      simp only [PlanObservation.identity, Prod.mk.injEq] at hidentity
      obtain ⟨hid, hconfig, hsequence⟩ := hidentity
      have hold := htallies.records q hq hid
      rw [hconfig, hsequence] at hold
      exact hnew hold
    · rcases List.mem_append.mp hq with hq | hq
      · exact h.pushed q hq
      · rw [List.mem_singleton.mp hq]
        exact ⟨f, hf, hp⟩

end CuTracer.PlanRuntime
