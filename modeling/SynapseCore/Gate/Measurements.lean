import SynapseCore.Gate.GateRun

/-! What the gate measures, from the builds to the verdict. The overhead of an invocation is
recorded on its own, and taken off every other cost. -/

namespace Synapse
open Text

/-- `OVERHEAD` -/
def overhead : Text := "invocation_overhead".toList

/-- The names of `scenarios()`. -/
def scenarioNames : List Text :=
  ["register_callback".toList, "register_callback_idempotent_replay".toList,
    "register_callback_reject_amount".toList, "register_callback_reject_idempotency_key".toList,
    "register_callback_reject_callback_status_len".toList,
    "register_callback_reject_asset_code".toList,
    "register_callback_reject_account_checksum".toList,
    "register_callback_reject_issuer_checksum".toList, "start_processing".toList,
    "complete_transaction".toList, "fail_transaction".toList, "get_transaction".toList,
    "propose_admin".toList, "accept_admin".toList, "set_relay_signer".toList, "pause".toList,
    "unpause".toList, "set_param".toList, "bond_collateral".toList]

/-- What the host meters of a build: the `health()` call, and the call of each scenario, each in
a fresh harness. -/
structure WasmBuild where
  health : Cost
  total : Text → Cost

/-- The cost above the overhead, by saturating subtraction. -/
def Cost.net (total overhead : Cost) : Cost :=
  ⟨UInt64.ofNat (total.cpuInsns.toNat - overhead.cpuInsns.toNat),
    UInt64.ofNat (total.memBytes.toNat - overhead.memBytes.toNat)⟩

def measureAll (build : WasmBuild) : BTreeMap Text Cost :=
  BTreeMap.collect (fun total => total.net build.health)
    (scenarioNames.map fun name => (name, build.total name))
    ((∅ : BTreeMap Text Cost).insert overhead build.health)

/-- The test of the committed file: an entry for each scenario, and no other. -/
def committedBaselineCovers (src : Text) : Prop :=
  ∃ baseline, parseBaseline src = some (.ok baseline) ∧
    (∀ name ∈ scenarioNames ++ [overhead], name ∈ baseline.entries) ∧
    baseline.entries.size = scenarioNames.length + 1

/-! ## What is recorded under a name -/

def WasmBuild.recorded (build : WasmBuild) (name : Text) : Cost :=
  if name = overhead then build.health else (build.total name).net build.health

theorem scenarioNames_nodup : (overhead :: scenarioNames).Nodup := by decide

theorem scenarioNames_plain :
    ∀ name ∈ overhead :: scenarioNames, trim name = name ∧ '#' ∉ name ∧ '\n' ∉ name := by
  decide

section Measured
variable (build : WasmBuild) {name : Text}

theorem not_mem_totals (h : name ∉ scenarioNames) (v : Cost) :
    (name, v) ∉ scenarioNames.map fun name => (name, build.total name) := by
  intro hv
  obtain ⟨name', hmem, heq⟩ := List.mem_map.mp hv
  obtain ⟨rfl, _⟩ := Prod.mk.inj heq
  exact h hmem

theorem measureAll_of_mem (h : name ∈ overhead :: scenarioNames) :
    (measureAll build)[name]? = some (build.recorded name) := by
  obtain ⟨hfresh, hnodup⟩ := List.nodup_cons.mp scenarioNames_nodup
  rcases List.mem_cons.mp h with rfl | hmem
  · rw [measureAll, BTreeMap.collect_of_not_mem _ (not_mem_totals build hfresh),
      WasmBuild.recorded, if_pos rfl]
    exact Std.ExtTreeMap.getElem?_insert_self
  · have hne : name ≠ overhead := fun heq => hfresh (heq ▸ hmem)
    have hdistinct : (scenarioNames.map fun name => (name, build.total name)).Pairwise
        fun a b => a.1 ≠ b.1 := List.pairwise_map.mpr hnodup
    rw [measureAll, BTreeMap.collect_of_mem _ hdistinct (List.mem_map_of_mem hmem),
      WasmBuild.recorded, if_neg hne]

theorem measureAll_of_not_mem (h : name ∉ overhead :: scenarioNames) :
    (measureAll build)[name]? = none := by
  rw [List.mem_cons, not_or] at h
  have hne : ¬ compare overhead name = .eq := fun heq =>
    h.1 (Std.LawfulEqOrd.eq_of_compare heq).symm
  rw [measureAll, BTreeMap.collect_of_not_mem _ (not_mem_totals build h.2),
    Std.ExtTreeMap.getElem?_insert, if_neg hne]
  exact Std.ExtTreeMap.getElem?_empty

theorem mem_measureAll_iff : name ∈ measureAll build ↔ name ∈ overhead :: scenarioNames := by
  rw [BTreeMap.mem_iff_getElem?]
  constructor
  · rintro ⟨cost, hcost⟩
    by_contra hnot
    rw [measureAll_of_not_mem build hnot] at hcost
    cases hcost
  · intro h
    exact ⟨_, measureAll_of_mem build h⟩

theorem measureAll_plain : ∀ entry ∈ (measureAll build).toList, PlainName entry.1 := by
  rintro ⟨name, cost⟩ hentry
  have hmem : name ∈ measureAll build := BTreeMap.mem_iff_mem_toList.mpr ⟨cost, hentry⟩
  exact scenarioNames_plain name ((mem_measureAll_iff build).mp hmem)

theorem size_measureAll : (measureAll build).size = scenarioNames.length + 1 := by
  have hperm : (measureAll build).keys.Perm (overhead :: scenarioNames) := by
    rw [List.perm_ext_iff_of_nodup Std.ExtTreeMap.nodup_keys scenarioNames_nodup]
    intro name
    rw [Std.ExtTreeMap.mem_keys, mem_measureAll_iff]
  rw [← Std.ExtTreeMap.length_keys, hperm.length_eq, List.length_cons]

theorem covers_render (thresholdPct : UInt64) :
    committedBaselineCovers (renderBaseline thresholdPct (measureAll build)) := by
  refine ⟨⟨thresholdPct, measureAll build⟩,
    parseBaseline_render (measureAll_plain build) thresholdPct, ?_, size_measureAll build⟩
  intro name hname
  rw [mem_measureAll_iff, List.mem_cons]
  rcases List.mem_append.mp hname with hscenario | hoverhead
  · exact .inr hscenario
  · exact .inl (List.mem_singleton.mp hoverhead)

end Measured

/-! ## Two builds -/

section Builds
variable {old new : WasmBuild} {thresholdPct : UInt64}

theorem mem_findingsOf_measureAll (finding : Finding) :
    finding ∈ findingsOf ⟨thresholdPct, measureAll old⟩ (measureAll new) thresholdPct ↔
      ∃ name ∈ overhead :: scenarioNames, ∃ metric : Metric,
        finding = .regressed name metric (metric.of (old.recorded name))
          (metric.of (new.recorded name)) ∧
        OverBudget (metric.of (old.recorded name)) (metric.of (new.recorded name))
          thresholdPct := by
  rw [mem_findingsOf]
  constructor
  · intro hviolation
    cases finding with
    | missingBaseline name =>
      have hname := (mem_measureAll_iff new).mp hviolation.1
      exact absurd ((mem_measureAll_iff old).mpr hname) hviolation.2
    | staleBaseline name =>
      have hname := (mem_measureAll_iff old).mp hviolation.1
      exact absurd ((mem_measureAll_iff new).mpr hname) hviolation.2
    | regressed name metric b n =>
      obtain ⟨base, now, hbase, hnow, rfl, rfl, hover⟩ := hviolation
      have hname : name ∈ overhead :: scenarioNames :=
        (mem_measureAll_iff new).mp (BTreeMap.mem_iff_getElem?.mpr ⟨now, hnow⟩)
      obtain rfl := Option.some.inj (hbase.symm.trans (measureAll_of_mem old hname))
      obtain rfl := Option.some.inj (hnow.symm.trans (measureAll_of_mem new hname))
      exact ⟨name, hname, metric, rfl, (overBudget_iff_rat ..).mpr hover⟩
  · rintro ⟨name, hname, metric, rfl, hover⟩
    exact ⟨_, _, measureAll_of_mem old hname, measureAll_of_mem new hname, rfl, rfl,
      (overBudget_iff_rat ..).mp hover⟩

theorem not_overBudget_self (cost : UInt64) : ¬ OverBudget cost cost thresholdPct := by
  have hle : cost.toNat * 100 ≤ cost.toNat * (100 + thresholdPct.toNat) :=
    Nat.mul_le_mul_left _ (Nat.le_add_right ..)
  exact Nat.not_lt.mpr hle

/-- Every call of a build costs that much more than it did. -/
def WasmBuild.Grown (old new : WasmBuild) (extra : Metric → Nat) : Prop :=
  ∀ metric : Metric, (metric.of new.health).toNat = (metric.of old.health).toNat + extra metric ∧
    ∀ name, (metric.of (new.total name)).toNat = (metric.of (old.total name)).toNat + extra metric

theorem net_of_grown {extra : Metric → Nat} (h : old.Grown new extra) (name : Text) :
    (new.total name).net new.health = (old.total name).net old.health := by
  obtain ⟨hcpuHealth, hcpuTotal⟩ := h .cpuInsns
  obtain ⟨hmemHealth, hmemTotal⟩ := h .memBytes
  dsimp only [Metric.of] at hcpuHealth hcpuTotal hmemHealth hmemTotal
  unfold Cost.net
  rw [hcpuHealth, hcpuTotal, hmemHealth, hmemTotal, Nat.add_sub_add_right, Nat.add_sub_add_right]

theorem mem_findingsOf_grown {extra : Metric → Nat} (h : old.Grown new extra)
    (finding : Finding) :
    finding ∈ findingsOf ⟨thresholdPct, measureAll old⟩ (measureAll new) thresholdPct ↔
      ∃ metric : Metric,
        finding = .regressed overhead metric (metric.of old.health) (metric.of new.health) ∧
        OverBudget (metric.of old.health) (metric.of new.health) thresholdPct := by
  have hhealth (build : WasmBuild) : build.recorded overhead = build.health := if_pos rfl
  rw [mem_findingsOf_measureAll]
  constructor
  · rintro ⟨name, _, metric, rfl, hover⟩
    by_cases hname : name = overhead
    · subst hname
      rw [hhealth, hhealth] at hover ⊢
      exact ⟨metric, rfl, hover⟩
    · have hrecorded : new.recorded name = old.recorded name := by
        rw [WasmBuild.recorded, WasmBuild.recorded, if_neg hname, if_neg hname, net_of_grown h]
      rw [hrecorded] at hover
      exact absurd hover (not_overBudget_self _)
  · rintro ⟨metric, rfl, hover⟩
    refine ⟨overhead, List.mem_cons_self .., metric, ?_, ?_⟩
    · rw [hhealth, hhealth]
    · rwa [hhealth, hhealth]

end Builds

section Gate
variable {baselinePath : Text} {file : Option Text} {update : GateEnv} {old new : WasmBuild}
  {baseline : Baseline} {thresholdPct : UInt64} {between : List (GateEnv × BTreeMap Text Cost)}

theorem outcome_after_measured (baselinePath : Text)
    (hgate : update.gate = true) (hupdate : update.update = true)
    (hinjected : update.injected = none) (hbaseline : loadBaseline file = some baseline)
    (hthreshold : gateThreshold update.threshold baseline = some thresholdPct)
    (hbetween : ∀ run ∈ between, run.1.update = false) :
    (resourceGate baselinePath
        (Machine.after (resourceGate baselinePath) file ((update, measureAll old) :: between))
        (⟨true, none, none, false⟩, measureAll new)).2 =
      (gateVerdict baselinePath false (some (renderBaseline thresholdPct (measureAll old)))
        ⟨thresholdPct, measureAll old⟩ (measureAll new) thresholdPct).2 := by
  rw [file_after_update baselinePath hgate hupdate hinjected hbaseline hthreshold hbetween]
  exact congrArg Prod.snd
    (resourceGate_of_loaded rfl rfl (loadBaseline_render (measureAll_plain old) thresholdPct) rfl)

end Gate

/-- **The gate attributes regressions.** The file that an update leaves covers every scenario,
whatever checks run since; a later build is then reported, once, for each cost of the call or
scenario that is over the budget of the build at the update, and for nothing else. -/
theorem gate_attributes_regressions (baselinePath : Text) {file : Option Text} {update : GateEnv}
    (hgate : update.gate = true) (hupdate : update.update = true)
    (hinjected : update.injected = none) {baseline : Baseline}
    (hbaseline : loadBaseline file = some baseline) {thresholdPct : UInt64}
    (hthreshold : gateThreshold update.threshold baseline = some thresholdPct)
    (hfits : thresholdPct.toNat + 100 < UInt64.size)
    {between : List (GateEnv × BTreeMap Text Cost)}
    (hbetween : ∀ run ∈ between, run.1.update = false) (old new : WasmBuild) :
    let file' := Machine.after (resourceGate baselinePath) file
      ((update, measureAll old) :: between)
    let outcome := (resourceGate baselinePath file' (⟨true, none, none, false⟩, measureAll new)).2
    (∃ src, file' = some src ∧ committedBaselineCovers src) ∧
    ∃ findings : List Finding, findings.Nodup ∧
      (∀ finding, finding ∈ findings ↔ ∃ name ∈ overhead :: scenarioNames, ∃ metric : Metric,
        finding = .regressed name metric (metric.of (old.recorded name))
          (metric.of (new.recorded name)) ∧
        (metric.of (new.recorded name)).toNat * 100 >
          (metric.of (old.recorded name)).toNat * (100 + thresholdPct.toNat)) ∧
      ((findings = [] ∧ outcome = .passed) ∨
        (findings ≠ [] ∧ ∃ message, outcome = .failed findings message)) := by
  intro file' outcome
  have houtcome : outcome = _ := outcome_after_measured baselinePath hgate hupdate hinjected
    hbaseline hthreshold hbetween
  refine ⟨⟨_, file_after_update baselinePath hgate hupdate hinjected hbaseline hthreshold hbetween,
    covers_render old thresholdPct⟩, findingsOf ⟨thresholdPct, measureAll old⟩ (measureAll new)
    thresholdPct, nodup_findingsOf, mem_findingsOf_measureAll, ?_⟩
  rw [houtcome]
  exact gateVerdict_of_fits hfits baselinePath _ _ _

def flatBuild (health total : Cost) : WasmBuild := ⟨health, fun _ => total⟩

theorem gate_attributes_regressions_fixture :
    ∃ findings message, (resourceGate ['b']
        (Machine.after (resourceGate ['b']) none
          [(⟨true, none, none, true⟩, measureAll (flatBuild ⟨1000, 1000⟩ ⟨2000, 2000⟩))])
        (⟨true, none, none, false⟩, measureAll (flatBuild ⟨1000, 1000⟩ ⟨2200, 2000⟩))).2 =
          .failed findings message ∧
      Finding.regressed "pause".toList .cpuInsns 1000 1200 ∈ findings ∧
      Finding.regressed "pause".toList .memBytes 1000 1000 ∉ findings := by
  have hgate : (GateEnv.mk true none none true).gate = true := rfl
  have hbaseline : loadBaseline none = some ⟨defaultThresholdPct, ∅⟩ := rfl
  have hbetween : ∀ run ∈ ([] : List (GateEnv × BTreeMap Text Cost)), run.1.update = false :=
    List.forall_mem_nil _
  obtain ⟨_, findings, _, hmem, hverdict⟩ := gate_attributes_regressions ['b'] hgate rfl rfl
    hbaseline rfl (by decide) hbetween (flatBuild ⟨1000, 1000⟩ ⟨2000, 2000⟩)
    (flatBuild ⟨1000, 1000⟩ ⟨2200, 2000⟩)
  have hname : "pause".toList ∈ overhead :: scenarioNames := by decide
  have hfound : Finding.regressed "pause".toList .cpuInsns 1000 1200 ∈ findings :=
    (hmem _).mpr ⟨"pause".toList, hname, .cpuInsns, by decide, by decide⟩
  rcases hverdict with ⟨rfl, _⟩ | ⟨_, message, hfailed⟩
  · exact absurd hfound List.not_mem_nil
  · refine ⟨findings, message, hfailed, hfound, fun hmemory => ?_⟩
    obtain ⟨name, _, metric, heq, hover⟩ := (hmem _).mp hmemory
    cases heq
    revert hover
    decide

/-- **A slower call is no slower scenario.** Where every call costs the same amount more than at
the update, the overhead alone can be reported: the check passes exactly if the call of
`health` is within its budget. -/
theorem gate_isolates_overhead (baselinePath : Text) {file : Option Text} {update : GateEnv}
    (hgate : update.gate = true) (hupdate : update.update = true)
    (hinjected : update.injected = none) {baseline : Baseline}
    (hbaseline : loadBaseline file = some baseline) {thresholdPct : UInt64}
    (hthreshold : gateThreshold update.threshold baseline = some thresholdPct)
    (hfits : thresholdPct.toNat + 100 < UInt64.size)
    {between : List (GateEnv × BTreeMap Text Cost)}
    (hbetween : ∀ run ∈ between, run.1.update = false) {old new : WasmBuild}
    {extra : Metric → Nat} (hgrown : old.Grown new extra) :
    let outcome := (resourceGate baselinePath
      (Machine.after (resourceGate baselinePath) file ((update, measureAll old) :: between))
      (⟨true, none, none, false⟩, measureAll new)).2
    (outcome = .passed ↔ ∀ metric : Metric, (metric.of new.health).toNat * 100 ≤
      (metric.of old.health).toNat * (100 + thresholdPct.toNat)) ∧
    (outcome = .passed ∨ ∃ findings message, outcome = .failed findings message ∧
      ∀ finding ∈ findings, finding.scenario = overhead) := by
  intro outcome
  have houtcome : outcome = _ := outcome_after_measured baselinePath hgate hupdate hinjected
    hbaseline hthreshold hbetween
  have hfindings (finding : Finding) :
      finding ∈ findingsOf ⟨thresholdPct, measureAll old⟩ (measureAll new) thresholdPct ↔
        ∃ metric : Metric,
          finding = .regressed overhead metric (metric.of old.health) (metric.of new.health) ∧
          OverBudget (metric.of old.health) (metric.of new.health) thresholdPct :=
    mem_findingsOf_grown hgrown finding
  rw [houtcome]
  constructor
  · rw [gateVerdict_passed_iff hfits, ← findingsOf_eq_nil_iff, List.eq_nil_iff_forall_not_mem]
    constructor
    · intro hnone metric
      by_contra hover
      exact hnone _ ((hfindings _).mpr ⟨metric, rfl, Nat.lt_of_not_le hover⟩)
    · intro hwithin finding hmem
      obtain ⟨metric, _, hover⟩ := (hfindings finding).mp hmem
      exact Nat.not_lt.mpr (hwithin metric) hover
  · rcases gateVerdict_of_fits hfits baselinePath
      (some (renderBaseline thresholdPct (measureAll old))) ⟨thresholdPct, measureAll old⟩
      (measureAll new) with ⟨_, hpassed⟩ | ⟨_, message, hfailed⟩
    · exact .inl hpassed
    · refine .inr ⟨_, message, hfailed, ?_⟩
      intro finding hmem
      obtain ⟨metric, rfl, _⟩ := (hfindings finding).mp hmem
      rfl

theorem gate_isolates_overhead_fixture :
    (resourceGate ['b']
        (Machine.after (resourceGate ['b']) none
          [(⟨true, none, none, true⟩, measureAll (flatBuild ⟨1000, 1000⟩ ⟨1010, 1010⟩))])
        (⟨true, none, none, false⟩, measureAll (flatBuild ⟨1100, 1000⟩ ⟨1110, 1010⟩))).2 =
          .passed := by
  have hgrown : (flatBuild ⟨1000, 1000⟩ ⟨1010, 1010⟩).Grown (flatBuild ⟨1100, 1000⟩ ⟨1110, 1010⟩)
      (fun metric => (metric.of ⟨100, 0⟩).toNat) := by
    intro metric
    cases metric
    · exact ⟨rfl, fun _ => rfl⟩
    · exact ⟨rfl, fun _ => rfl⟩
  have hbetween : ∀ run ∈ ([] : List (GateEnv × BTreeMap Text Cost)), run.1.update = false :=
    List.forall_mem_nil _
  refine (gate_isolates_overhead ['b'] rfl rfl rfl rfl rfl (by decide) hbetween hgrown).1.mpr ?_
  intro metric
  cases metric
  · decide
  · decide

end Synapse
