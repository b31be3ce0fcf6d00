import SynapseCore.Foundation.OrderedMaps
import SynapseCore.Foundation.Text

/-! The comparison of the resource gate: measured costs against their baseline. The
integers are checked as a test build checks them, so an overflow shows as `none`. -/

namespace Synapse

structure Cost where
  cpuInsns : UInt64
  memBytes : UInt64
  deriving DecidableEq

/-- Parsed `resource_baseline.toml`. -/
structure Baseline where
  thresholdPct : UInt64
  entries : BTreeMap Text Cost

inductive Metric
  | cpuInsns | memBytes
  deriving DecidableEq

def Metric.name : Metric → Text
  | .cpuInsns => "cpu_insns".toList
  | .memBytes => "mem_bytes".toList

def Metric.of : Metric → Cost → UInt64
  | .cpuInsns, cost => cost.cpuInsns
  | .memBytes, cost => cost.memBytes

inductive Finding
  | regressed (scenario : Text) (metric : Metric) (baseline measured : UInt64)
  | missingBaseline (scenario : Text)
  | staleBaseline (scenario : Text)
  deriving DecidableEq

def u128Size : Nat := UInt64.size * UInt64.size

/-- A `u128` result, which panics on overflow. -/
def checkedU128 (n : Nat) : Option Nat := if n < u128Size then some n else none

def exceeds (base now thresholdPct : UInt64) : Option Bool := do
  let scaled ← checkedU128 (now.toNat * 100)
  let factor ← checkedU128 (100 + thresholdPct.toNat)
  let budget ← checkedU128 (base.toNat * factor)
  return decide (scaled > budget)

/-- The inner `for` loop of the comparison, over the metrics of one scenario. -/
def metricLoop (scenario : Text) (base now : Cost) (thresholdPct : UInt64) :
    List Metric → List Finding → Option (List Finding)
  | [], findings => some findings
  | metric :: rest, findings =>
    match exceeds (metric.of base) (metric.of now) thresholdPct with
    | none => none
    | some above => metricLoop scenario base now thresholdPct rest
        (if above then findings ++ [.regressed scenario metric (metric.of base) (metric.of now)]
          else findings)

/-- The `for` loop over the measurements. -/
def measuredLoop (baseline : Baseline) (thresholdPct : UInt64) :
    List (Text × Cost) → List Finding → Option (List Finding)
  | [], findings => some findings
  | (scenario, now) :: rest, findings =>
    match baseline.entries[scenario]? with
    | none => measuredLoop baseline thresholdPct rest (findings ++ [.missingBaseline scenario])
    | some base =>
      match metricLoop scenario base now thresholdPct [.cpuInsns, .memBytes] findings with
      | none => none
      | some findings => measuredLoop baseline thresholdPct rest findings

/-- The `for` loop over the names of the baseline. -/
def staleLoop (measured : BTreeMap Text Cost) : List Text → List Finding → List Finding
  | [], findings => findings
  | scenario :: rest, findings =>
    staleLoop measured rest
      (if measured.contains scenario then findings else findings ++ [.staleBaseline scenario])

/-- The `compare` of the gate. -/
def Baseline.compare (baseline : Baseline) (measured : BTreeMap Text Cost) (thresholdPct : UInt64) :
    Option (List Finding) :=
  match measuredLoop baseline thresholdPct measured.toList [] with
  | none => none
  | some findings => some (staleLoop measured baseline.entries.keys findings)

/-! ## The comparison without overflow -/

/-- `t + 100` fits in a `u64`: then no arithmetic of the comparison overflows. -/
def ThresholdFits (thresholdPct : UInt64) : Prop := thresholdPct.toNat + 100 < UInt64.size

/-- The cost is more than `t` percent above its baseline. -/
def OverBudget (base now thresholdPct : UInt64) : Prop :=
  now.toNat * 100 > base.toNat * (100 + thresholdPct.toNat)

instance (base now thresholdPct : UInt64) : Decidable (OverBudget base now thresholdPct) :=
  inferInstanceAs (Decidable (now.toNat * 100 > base.toNat * (100 + thresholdPct.toNat)))

theorem overBudget_iff_rat (base now thresholdPct : UInt64) :
    OverBudget base now thresholdPct ↔
      (now.toNat : ℚ) > base.toNat * (1 + thresholdPct.toNat / 100) := by
  have hscale : ((base.toNat * (100 + thresholdPct.toNat) : ℕ) : ℚ) =
      base.toNat * (1 + thresholdPct.toNat / 100) * 100 := by
    push_cast
    ring
  have hnow : ((now.toNat * 100 : ℕ) : ℚ) = now.toNat * 100 := by push_cast; rfl
  have hcast : base.toNat * (100 + thresholdPct.toNat) < now.toNat * 100 ↔
      ((base.toNat * (100 + thresholdPct.toNat) : ℕ) : ℚ) < ((now.toNat * 100 : ℕ) : ℚ) :=
    Nat.cast_lt.symm
  unfold OverBudget
  rw [gt_iff_lt, gt_iff_lt, hcast, hscale, hnow]
  constructor
  · intro hlt
    linarith
  · intro hlt
    linarith

/-- Only the product with the factor can overflow, for the factor may need 65 bits. -/
theorem exceeds_eq_ite (base now thresholdPct : UInt64) :
    exceeds base now thresholdPct =
      if base.toNat * (100 + thresholdPct.toNat) < u128Size then
        some (decide (OverBudget base now thresholdPct)) else none := by
  have hhundred : 100 < UInt64.size := by decide
  have hscaled : now.toNat * 100 < u128Size := Nat.mul_lt_mul'' now.toNat_lt_size hhundred
  have hsum : 100 + thresholdPct.toNat < u128Size := by
    have hle : UInt64.size + 100 ≤ u128Size := by decide
    have hlt : thresholdPct.toNat < UInt64.size := thresholdPct.toNat_lt_size
    omega
  unfold exceeds checkedU128
  rw [if_pos hscaled, if_pos hsum]
  dsimp only [Option.bind_eq_bind, Option.bind_some]
  split_ifs with hbudget
  · rfl
  · rfl

theorem exceeds_eq {thresholdPct : UInt64} (h : ThresholdFits thresholdPct) (base now : UInt64) :
    exceeds base now thresholdPct = some (decide (OverBudget base now thresholdPct)) := by
  have hfactor : 100 + thresholdPct.toNat < UInt64.size := by
    rw [Nat.add_comm]
    exact h
  have hbudget : base.toNat * (100 + thresholdPct.toNat) < u128Size :=
    Nat.mul_lt_mul'' base.toNat_lt_size hfactor
  rw [exceeds_eq_ite, if_pos hbudget]

/-! ## The loops as lists of findings -/

def Finding.scenario : Finding → Text
  | .regressed scenario _ _ _ => scenario
  | .missingBaseline scenario => scenario
  | .staleBaseline scenario => scenario

def metricFinding (thresholdPct : UInt64) (scenario : Text) (base now : Cost) (metric : Metric) :
    Option Finding :=
  if OverBudget (metric.of base) (metric.of now) thresholdPct then
    some (.regressed scenario metric (metric.of base) (metric.of now))
  else none

def scenarioFindings (baseline : Baseline) (thresholdPct : UInt64) (entry : Text × Cost) :
    List Finding :=
  match baseline.entries[entry.1]? with
  | none => [.missingBaseline entry.1]
  | some base => [Metric.cpuInsns, .memBytes].filterMap
      (metricFinding thresholdPct entry.1 base entry.2)

def staleFindings (baseline : Baseline) (measured : BTreeMap Text Cost) : List Finding :=
  (baseline.entries.keys.filter fun scenario => !measured.contains scenario).map .staleBaseline

section Loops
variable {baseline : Baseline} {measured : BTreeMap Text Cost} {thresholdPct : UInt64}

theorem metricLoop_eq (h : ThresholdFits thresholdPct) (scenario : Text) (base now : Cost)
    (metrics : List Metric) (findings : List Finding) :
    metricLoop scenario base now thresholdPct metrics findings =
      some (findings ++ metrics.filterMap (metricFinding thresholdPct scenario base now)) := by
  induction metrics generalizing findings with
  | nil => simp [metricLoop]
  | cons metric rest ih =>
    rw [metricLoop, exceeds_eq h]
    dsimp only
    rw [ih]
    by_cases hover : OverBudget (metric.of base) (metric.of now) thresholdPct
    · have hfound : metricFinding thresholdPct scenario base now metric =
          some (.regressed scenario metric (metric.of base) (metric.of now)) := if_pos hover
      rw [decide_eq_true hover, if_pos rfl, List.filterMap_cons_some hfound, List.append_assoc,
        List.singleton_append]
    · have hnone : metricFinding thresholdPct scenario base now metric = none := if_neg hover
      rw [decide_eq_false hover, if_neg Bool.false_ne_true, List.filterMap_cons_none hnone]

theorem measuredLoop_eq (h : ThresholdFits thresholdPct) (entries : List (Text × Cost))
    (findings : List Finding) :
    measuredLoop baseline thresholdPct entries findings =
      some (findings ++ entries.flatMap (scenarioFindings baseline thresholdPct)) := by
  induction entries generalizing findings with
  | nil => simp [measuredLoop]
  | cons entry rest ih =>
    obtain ⟨scenario, now⟩ := entry
    rw [measuredLoop, List.flatMap_cons, scenarioFindings]
    cases baseline.entries[scenario]? with
    | none =>
      dsimp only
      rw [ih, List.append_assoc]
    | some base =>
      dsimp only
      rw [metricLoop_eq h]
      dsimp only
      rw [ih, List.append_assoc]

theorem staleLoop_eq (scenarios : List Text) (findings : List Finding) :
    staleLoop measured scenarios findings =
      findings ++ (scenarios.filter fun scenario => !measured.contains scenario).map
        .staleBaseline := by
  induction scenarios generalizing findings with
  | nil => simp [staleLoop]
  | cons scenario rest ih =>
    rw [staleLoop, ih]
    cases hmeasured : measured.contains scenario with
    | true => simp [hmeasured]
    | false => simp [hmeasured]

theorem compare_eq (h : ThresholdFits thresholdPct) :
    baseline.compare measured thresholdPct =
      some (measured.toList.flatMap (scenarioFindings baseline thresholdPct) ++
        staleFindings baseline measured) := by
  unfold Baseline.compare
  rw [measuredLoop_eq h]
  dsimp only
  rw [staleLoop_eq, List.nil_append]
  rfl

/-! ## Every violation, once -/

/-- What a finding reports. -/
def Violation (baseline : Baseline) (measured : BTreeMap Text Cost) (thresholdPct : UInt64) :
    Finding → Prop
  | .regressed scenario metric b n => ∃ base now, baseline.entries[scenario]? = some base ∧
      measured[scenario]? = some now ∧ b = metric.of base ∧ n = metric.of now ∧
        (n.toNat : ℚ) > b.toNat * (1 + thresholdPct.toNat / 100)
  | .missingBaseline scenario => scenario ∈ measured ∧ scenario ∉ baseline.entries
  | .staleBaseline scenario => scenario ∈ baseline.entries ∧ scenario ∉ measured

theorem mem_scenarioFindings {entry : Text × Cost} {finding : Finding} :
    finding ∈ scenarioFindings baseline thresholdPct entry ↔
      (baseline.entries[entry.1]? = none ∧ finding = .missingBaseline entry.1) ∨
      ∃ base metric, baseline.entries[entry.1]? = some base ∧
        OverBudget (metric.of base) (metric.of entry.2) thresholdPct ∧
          finding = .regressed entry.1 metric (metric.of base) (metric.of entry.2) := by
  unfold scenarioFindings
  cases baseline.entries[entry.1]? with
  | none => simp
  | some base =>
    have hall : ∀ metric : Metric, metric ∈ [Metric.cpuInsns, .memBytes] := by
      intro metric
      cases metric <;> simp
    dsimp only
    rw [List.mem_filterMap]
    constructor
    · rintro ⟨metric, _, hfound⟩
      unfold metricFinding at hfound
      split_ifs at hfound with hover
      exact Or.inr ⟨base, metric, rfl, hover, (Option.some.inj hfound).symm⟩
    · rintro (⟨hnone, _⟩ | ⟨base', metric, hbase, hover, rfl⟩)
      · cases hnone
      · obtain rfl := Option.some.inj hbase
        exact ⟨metric, hall metric, if_pos hover⟩

theorem scenario_of_mem {entry : Text × Cost} {finding : Finding}
    (h : finding ∈ scenarioFindings baseline thresholdPct entry) : finding.scenario = entry.1 := by
  rcases mem_scenarioFindings.mp h with ⟨_, rfl⟩ | ⟨_, _, _, _, rfl⟩
  · rfl
  · rfl

theorem mem_staleFindings {finding : Finding} :
    finding ∈ staleFindings baseline measured ↔
      ∃ scenario, scenario ∈ baseline.entries ∧ scenario ∉ measured ∧
        finding = .staleBaseline scenario := by
  unfold staleFindings
  rw [List.mem_map]
  constructor
  · rintro ⟨scenario, hmem, rfl⟩
    obtain ⟨hkey, hnot⟩ := List.mem_filter.mp hmem
    refine ⟨scenario, Std.ExtTreeMap.mem_keys.mp hkey, fun hin => ?_, rfl⟩
    rw [Std.ExtTreeMap.contains_iff_mem.mpr hin] at hnot
    cases hnot
  · rintro ⟨scenario, hentry, hnot, rfl⟩
    have hcontains : measured.contains scenario = false := by
      by_contra htrue
      exact hnot (Std.ExtTreeMap.contains_iff_mem.mp (by simpa using htrue))
    refine ⟨scenario, List.mem_filter.mpr ⟨Std.ExtTreeMap.mem_keys.mpr hentry, ?_⟩, rfl⟩
    rw [hcontains]
    rfl

/-- The findings in the order the loops push them. -/
def findingsOf (baseline : Baseline) (measured : BTreeMap Text Cost) (thresholdPct : UInt64) :
    List Finding :=
  measured.toList.flatMap (scenarioFindings baseline thresholdPct) ++
    staleFindings baseline measured

theorem mem_findingsOf (finding : Finding) :
    finding ∈ findingsOf baseline measured thresholdPct ↔
      Violation baseline measured thresholdPct finding := by
  unfold findingsOf
  rw [List.mem_append, List.mem_flatMap, mem_staleFindings]
  simp only [mem_scenarioFindings]
  cases finding with
  | regressed scenario metric b n =>
    dsimp only [Violation]
    constructor
    · rintro (⟨⟨name, now⟩, hentry, ⟨_, heq⟩ | ⟨base, metric', hbase, hover, heq⟩⟩ | ⟨_, _, _, heq⟩)
      · cases heq
      · cases heq
        have hnow := Std.ExtTreeMap.mem_toList_iff_getElem?_eq_some.mp hentry
        exact ⟨base, now, hbase, hnow, rfl, rfl, (overBudget_iff_rat ..).mp hover⟩
      · cases heq
    · rintro ⟨base, now, hbase, hnow, rfl, rfl, hover⟩
      have hentry := Std.ExtTreeMap.mem_toList_iff_getElem?_eq_some.mpr hnow
      left
      exact ⟨(scenario, now), hentry, Or.inr ⟨base, metric, hbase,
        (overBudget_iff_rat ..).mpr hover, rfl⟩⟩
  | missingBaseline scenario =>
    dsimp only [Violation]
    rw [BTreeMap.not_mem_iff_getElem?, BTreeMap.mem_iff_mem_toList]
    constructor
    · rintro (⟨⟨name, now⟩, hentry, ⟨hnone, heq⟩ | ⟨_, _, _, _, heq⟩⟩ | ⟨_, _, _, heq⟩)
      · cases heq
        exact ⟨⟨now, hentry⟩, hnone⟩
      · cases heq
      · cases heq
    · rintro ⟨⟨now, hentry⟩, hnone⟩
      left
      exact ⟨(scenario, now), hentry, Or.inl ⟨hnone, rfl⟩⟩
  | staleBaseline scenario =>
    dsimp only [Violation]
    constructor
    · rintro (⟨_, _, ⟨_, heq⟩ | ⟨_, _, _, _, heq⟩⟩ | ⟨name, hentry, hnot, heq⟩)
      · cases heq
      · cases heq
      · cases heq
        exact ⟨hentry, hnot⟩
    · rintro ⟨hentry, hnot⟩
      exact Or.inr ⟨scenario, hentry, hnot, rfl⟩

theorem nodup_scenarioFindings (entry : Text × Cost) :
    (scenarioFindings baseline thresholdPct entry).Nodup := by
  unfold scenarioFindings
  cases baseline.entries[entry.1]? with
  | none => exact List.nodup_singleton _
  | some base =>
    have hmetrics : [Metric.cpuInsns, .memBytes].Nodup := by decide
    apply hmetrics.filterMap
    intro metric metric' finding hmem hmem'
    unfold metricFinding at hmem hmem'
    split_ifs at hmem hmem' with hover hover'
    · rw [Option.mem_some_iff] at hmem hmem'
      rw [← hmem'] at hmem
      exact (Finding.regressed.inj hmem).2.1
    all_goals simp at hmem hmem'

theorem nodup_findingsOf : (findingsOf baseline measured thresholdPct).Nodup := by
  refine List.nodup_append.mpr ⟨?_, ?_, ?_⟩
  · rw [List.nodup_flatMap]
    refine ⟨fun entry _ => nodup_scenarioFindings entry, ?_⟩
    -- two scenarios share no finding, for each finding names its scenario
    apply (BTreeMap.distinct_toList measured).imp
    intro entry entry' hne finding hmem hmem'
    exact hne ((scenario_of_mem hmem).symm.trans (scenario_of_mem hmem'))
  · have hkeys : (baseline.entries.keys.filter fun name => !measured.contains name).Nodup :=
      Std.ExtTreeMap.nodup_keys.filter _
    exact hkeys.map fun _ _ heq => Finding.staleBaseline.inj heq
  · intro finding hmem finding' hmem' heq
    obtain ⟨entry, _, hfound⟩ := List.mem_flatMap.mp hmem
    obtain ⟨name, _, _, rfl⟩ := mem_staleFindings.mp hmem'
    rcases mem_scenarioFindings.mp hfound with ⟨_, rfl⟩ | ⟨_, _, _, _, rfl⟩
    · cases heq
    · cases heq

end Loops

/-! ## When the gate passes -/

/-- Measured and listed scenarios are the same, and every metric is within its budget. -/
def WithinBudget (baseline : Baseline) (measured : BTreeMap Text Cost) (thresholdPct : UInt64) :
    Prop :=
  (∀ scenario : Text, scenario ∈ measured ↔ scenario ∈ baseline.entries) ∧
  ∀ (scenario : Text) (base now : Cost), baseline.entries[scenario]? = some base →
    measured[scenario]? = some now → ∀ metric : Metric,
      ((metric.of now).toNat : ℚ) ≤ (metric.of base).toNat * (1 + thresholdPct.toNat / 100)

/-- The same scenarios, each with costs at least as high. -/
def RaisedTo (measured measured' : BTreeMap Text Cost) : Prop :=
  ∀ scenario : Text,
    Option.Rel (fun now now' : Cost => ∀ metric : Metric, metric.of now ≤ metric.of now')
      measured[scenario]? measured'[scenario]?

section Passing
variable {baseline : Baseline} {measured measured' : BTreeMap Text Cost}
  {thresholdPct thresholdPct' : UInt64}

theorem findingsOf_eq_nil_iff :
    findingsOf baseline measured thresholdPct = [] ↔
      WithinBudget baseline measured thresholdPct := by
  rw [List.eq_nil_iff_forall_not_mem]
  simp only [mem_findingsOf]
  constructor
  · intro hnone
    refine ⟨fun scenario => ⟨?_, ?_⟩, ?_⟩
    · intro hmeasured
      by_contra hmissing
      exact hnone (.missingBaseline scenario) ⟨hmeasured, hmissing⟩
    · intro hentry
      by_contra hstale
      exact hnone (.staleBaseline scenario) ⟨hentry, hstale⟩
    · intro scenario base now hbase hnow metric
      by_contra hover
      exact hnone (.regressed scenario metric (metric.of base) (metric.of now))
        ⟨base, now, hbase, hnow, rfl, rfl, not_le.mp hover⟩
  · rintro ⟨hkeys, hbudget⟩ finding hviolation
    cases finding with
    | regressed scenario metric b n =>
      obtain ⟨base, now, hbase, hnow, rfl, rfl, hover⟩ := hviolation
      exact absurd (hbudget scenario base now hbase hnow metric) (not_le.mpr hover)
    | missingBaseline scenario => exact hviolation.2 ((hkeys scenario).mp hviolation.1)
    | staleBaseline scenario => exact hviolation.2 ((hkeys scenario).mpr hviolation.1)

theorem RaisedTo.mem_iff (h : RaisedTo measured measured') (scenario : Text) :
    scenario ∈ measured ↔ scenario ∈ measured' := by
  rw [Std.ExtTreeMap.mem_iff_isSome_getElem?, Std.ExtTreeMap.mem_iff_isSome_getElem?]
  have hrel := h scenario
  generalize measured[scenario]? = cell at hrel ⊢
  generalize measured'[scenario]? = cell' at hrel ⊢
  cases hrel <;> rfl

theorem WithinBudget.of_raised (hraised : RaisedTo measured measured')
    (hle : thresholdPct' ≤ thresholdPct) (h : WithinBudget baseline measured' thresholdPct') :
    WithinBudget baseline measured thresholdPct := by
  obtain ⟨hkeys, hbudget⟩ := h
  refine ⟨fun scenario => (hraised.mem_iff scenario).trans (hkeys scenario), ?_⟩
  intro scenario base now hbase hnow metric
  have hrel := hraised scenario
  rw [hnow] at hrel
  cases hnow' : measured'[scenario]? with
  | none =>
    rw [hnow'] at hrel
    cases hrel
  | some now' =>
    rw [hnow'] at hrel
    cases hrel with
    | some hcosts =>
      have hcost : ((metric.of now).toNat : ℚ) ≤ (metric.of now').toNat := by
        exact_mod_cast UInt64.le_iff_toNat_le.mp (hcosts metric)
      have hthreshold : (thresholdPct'.toNat : ℚ) ≤ thresholdPct.toNat := by
        exact_mod_cast UInt64.le_iff_toNat_le.mp hle
      have hbase_nonneg : (0 : ℚ) ≤ (metric.of base).toNat := Nat.cast_nonneg _
      calc ((metric.of now).toNat : ℚ) ≤ (metric.of now').toNat := hcost
        _ ≤ (metric.of base).toNat * (1 + thresholdPct'.toNat / 100) :=
          hbudget scenario base now' hbase hnow' metric
        _ ≤ (metric.of base).toNat * (1 + thresholdPct.toNat / 100) := by gcongr

end Passing

/-- **The resource gate is sound and complete.** The comparison reports every violation
once and nothing else; it passes exactly within budget, and neither a higher cost nor a
lower threshold turns a failure into a pass. -/
theorem gate_sound_and_complete (baseline : Baseline) (measured : BTreeMap Text Cost)
    (thresholdPct : UInt64) (h : thresholdPct.toNat + 100 < UInt64.size) :
    ∃ findings, baseline.compare measured thresholdPct = some findings ∧
      findings.Nodup ∧
      (∀ finding, finding ∈ findings ↔ Violation baseline measured thresholdPct finding) ∧
      (findings = [] ↔ WithinBudget baseline measured thresholdPct) ∧
      (findings ≠ [] → ∀ measured' thresholdPct', RaisedTo measured measured' →
        thresholdPct' ≤ thresholdPct →
          ∃ findings', baseline.compare measured' thresholdPct' = some findings' ∧
            findings' ≠ []) := by
  refine ⟨findingsOf baseline measured thresholdPct, compare_eq h, nodup_findingsOf, mem_findingsOf,
    findingsOf_eq_nil_iff, ?_⟩
  intro hfails measured' thresholdPct' hraised hle
  have hle' : thresholdPct'.toNat ≤ thresholdPct.toNat := UInt64.le_iff_toNat_le.mp hle
  have hfits : ThresholdFits thresholdPct' := by
    unfold ThresholdFits
    omega
  refine ⟨findingsOf baseline measured' thresholdPct', compare_eq hfits, fun hpasses => ?_⟩
  have hwithin := findingsOf_eq_nil_iff.mp hpasses
  exact hfails (findingsOf_eq_nil_iff.mpr (hwithin.of_raised hraised hle))

theorem gate_sound_and_complete_fixture :
    ∃ findings, Baseline.compare ⟨15, (∅ : BTreeMap Text Cost).insert ['x'] ⟨1000, 1000⟩⟩
        ((∅ : BTreeMap Text Cost).insert ['x'] ⟨1151, 1000⟩) 15 = some findings ∧
      Finding.regressed ['x'] .cpuInsns 1000 1151 ∈ findings := by
  obtain ⟨findings, hcompare, _, hmem, _⟩ := gate_sound_and_complete
    ⟨15, (∅ : BTreeMap Text Cost).insert ['x'] ⟨1000, 1000⟩⟩
    ((∅ : BTreeMap Text Cost).insert ['x'] ⟨1151, 1000⟩) 15 (by decide)
  refine ⟨findings, hcompare, (hmem _).mpr ?_⟩
  have hover : OverBudget 1000 1151 15 := by decide
  exact ⟨⟨1000, 1000⟩, ⟨1151, 1000⟩, Std.ExtTreeMap.getElem?_insert_self,
    Std.ExtTreeMap.getElem?_insert_self, rfl, rfl, (overBudget_iff_rat ..).mp hover⟩

end Synapse
