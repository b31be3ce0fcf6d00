import SynapseCore.Foundation.Runs
import SynapseCore.Gate.Arithmetic
import SynapseCore.Gate.BaselineFile

/-! Whole runs of the resource gate over the baseline file: the runs that rewrite the file,
the runs that check against it and the self-test that inflates a cost. -/

namespace Synapse
open Text

structure GateEnv where
  gate : Bool
  injected : Option Text
  threshold : Option Text
  update : Bool

/-- How a run ends. A panic other than that of a failing gate has no message here. -/
inductive GateOutcome where
  | skipped
  | written
  | passed
  | failed (findings : List Finding) (message : Text)
  | panicked

def inflate (cost : Cost) (pct : UInt64) : Option Cost :=
  if cost.cpuInsns.toNat * pct.toNat < UInt64.size then
    let extra := cost.cpuInsns.toNat * pct.toNat / 100
    if cost.cpuInsns.toNat + extra < UInt64.size then
      some { cost with cpuInsns := UInt64.ofNat (cost.cpuInsns.toNat + extra) }
    else none -- the sum overflows
  else none -- the product does

def inject (measured : BTreeMap Text Cost) (spec : Text) : Option (BTreeMap Text Cost) :=
  match splitOnce ':' spec with
  | none => none
  | some (name, pct) =>
    match parseNat UInt64.size pct with
    | none => none
    | some pct =>
      match measured[name]? with
      | none => none
      | some cost => (inflate cost (UInt64.ofNat pct)).map (measured.insert name)

/-- The baseline of a file that may be missing: without text, the default threshold and no
entries. -/
def loadBaseline (file : Option Text) : Option Baseline :=
  let src := file.getD []
  if src.isEmpty then some ⟨defaultThresholdPct, ∅⟩
  else
    match parseBaseline src with
    | some (.ok baseline) => some baseline
    | _ => none

def gateThreshold (threshold : Option Text) (baseline : Baseline) : Option UInt64 :=
  match threshold with
  | none => some baseline.thresholdPct
  | some v => (parseNat UInt64.size v).map UInt64.ofNat

def failureMessage (baselinePath : Text) (findings : List Finding) (thresholdPct : UInt64) :
    Option Text := do
  let lines ← findings.mapM fun finding => describe finding thresholdPct
  return "\nResource-usage gate failed (#119): ".toList ++ display findings.length ++
    " finding(s) against ".toList ++ baselinePath ++ ['\n', '\n'] ++
    (lines.flatMap fun line => [' ', ' '] ++ line ++ ['\n']) ++
    ("\nIf the increase is intended (e.g. a new feature genuinely needs it), " ++
      "regenerate the baseline with\n  scripts/check_resource_budget.sh --update\n" ++
      "and commit it with a justification in the PR (COST_MODEL.md §12).\n").toList

def gateMeasured (env : GateEnv) (measured : BTreeMap Text Cost) : Option (BTreeMap Text Cost) :=
  match env.injected with
  | none => some measured
  | some spec => inject measured spec

def gateVerdict (baselinePath : Text) (update : Bool) (file : Option Text) (baseline : Baseline)
    (measured : BTreeMap Text Cost) (thresholdPct : UInt64) : Option Text × GateOutcome :=
  if update then (some (renderBaseline thresholdPct measured), .written)
  else
    match baseline.compare measured thresholdPct with
    | none => (file, .panicked)
    | some findings =>
      if findings.isEmpty then (file, .passed)
      else
        match failureMessage baselinePath findings thresholdPct with
        | none => (file, .panicked)
        | some message => (file, .failed findings message)

/-- `resource_gate_release_wasm`, by what it measures: the file afterwards, and the end. -/
def resourceGate (baselinePath : Text) (file : Option Text)
    (run : GateEnv × BTreeMap Text Cost) : Option Text × GateOutcome :=
  if run.1.gate then
    match gateMeasured run.1 run.2 with
    | none => (file, .panicked)
    | some measured =>
      match loadBaseline file with
      | none => (file, .panicked)
      | some baseline =>
        match gateThreshold run.1.threshold baseline with
        | none => (file, .panicked)
        | some thresholdPct =>
          gateVerdict baselinePath run.1.update file baseline measured thresholdPct
  else (file, .skipped)

def GateOutcome.succeeds : GateOutcome → Bool
  | .skipped | .written | .passed => true
  | .failed .. | .panicked => false

def budgetStatus (expectFail : Bool) (outcome : GateOutcome) : Nat :=
  if expectFail then (if outcome.succeeds then 1 else 0)
  else if outcome.succeeds then 0 else 1

/-! ## What one run does -/

section Run
variable {baselinePath : Text} {file : Option Text} {env : GateEnv}
  {measured : BTreeMap Text Cost} {baseline : Baseline} {thresholdPct : UInt64}

theorem failureMessage_eq_some (baselinePath : Text) (findings : List Finding)
    (thresholdPct : UInt64) :
    ∃ message, failureMessage baselinePath findings thresholdPct = some message := by
  have hdescribe : ∀ finding, ∃ line, describe finding thresholdPct = some line := by
    intro finding
    cases finding with
    | regressed scenario metric b n => exact ⟨_, by rw [describe, deltaPermille_eq]; rfl⟩
    | missingBaseline scenario => exact ⟨_, rfl⟩
    | staleBaseline scenario => exact ⟨_, rfl⟩
  have hlines : ∃ lines, (findings.mapM fun finding => describe finding thresholdPct) =
      some lines := by
    induction findings with
    | nil => exact ⟨[], rfl⟩
    | cons finding findings ih =>
      obtain ⟨line, hline⟩ := hdescribe finding
      obtain ⟨lines, hlines⟩ := ih
      exact ⟨line :: lines, by simp [hline, hlines]⟩
  obtain ⟨lines, hlines⟩ := hlines
  simp [failureMessage, hlines]

theorem gateVerdict_frame : (gateVerdict baselinePath false file baseline measured thresholdPct).1 =
    file := by
  simp only [gateVerdict, Bool.false_eq_true, if_false]
  split
  · rfl
  · split_ifs
    · rfl
    · split <;> rfl

theorem gateVerdict_of_fits (h : ThresholdFits thresholdPct) (baselinePath : Text)
    (file : Option Text) (baseline : Baseline) (measured : BTreeMap Text Cost) :
    (findingsOf baseline measured thresholdPct = [] ∧
      (gateVerdict baselinePath false file baseline measured thresholdPct).2 = .passed) ∨
    (findingsOf baseline measured thresholdPct ≠ [] ∧
      ∃ message, (gateVerdict baselinePath false file baseline measured thresholdPct).2 =
        .failed (findingsOf baseline measured thresholdPct) message) := by
  have hcompare : baseline.compare measured thresholdPct =
      some (findingsOf baseline measured thresholdPct) := compare_eq h
  simp only [gateVerdict, Bool.false_eq_true, if_false, hcompare, List.isEmpty_iff]
  split_ifs with hnone
  · exact .inl ⟨hnone, rfl⟩
  · obtain ⟨message, hmessage⟩ := failureMessage_eq_some baselinePath
      (findingsOf baseline measured thresholdPct) thresholdPct
    exact .inr ⟨hnone, message, by rw [hmessage]⟩

theorem gateVerdict_passed_iff (h : ThresholdFits thresholdPct) :
    (gateVerdict baselinePath false file baseline measured thresholdPct).2 = .passed ↔
      WithinBudget baseline measured thresholdPct := by
  rw [← findingsOf_eq_nil_iff]
  rcases gateVerdict_of_fits h baselinePath file baseline measured with
    ⟨hnone, hpassed⟩ | ⟨hsome, message, hfailed⟩
  · exact iff_of_true hpassed hnone
  · refine iff_of_false ?_ hsome
    rw [hfailed]
    exact GateOutcome.noConfusion

theorem gateVerdict_of_one (h : ThresholdFits thresholdPct) (baselinePath : Text)
    (file : Option Text) {finding : Finding} {above : Prop} [Decidable above]
    (hfindings : findingsOf baseline measured thresholdPct = if above then [finding] else []) :
    (above ∧ ∃ message, (gateVerdict baselinePath false file baseline measured thresholdPct).2 =
      .failed [finding] message) ∨
    (¬ above ∧ (gateVerdict baselinePath false file baseline measured thresholdPct).2 =
      .passed) := by
  rcases gateVerdict_of_fits h baselinePath file baseline measured with
    ⟨hnone, hpassed⟩ | ⟨hsome, message, hfailed⟩
  · refine .inr ⟨fun habove => ?_, hpassed⟩
    rw [hfindings, if_pos habove] at hnone
    exact List.cons_ne_nil _ _ hnone
  · have habove : above := by
      by_contra hwithin
      exact hsome (hfindings.trans (if_neg hwithin))
    rw [hfindings, if_pos habove] at hfailed
    exact .inl ⟨habove, message, hfailed⟩

theorem resourceGate_of_loaded (hgate : env.gate = true) {measured' : BTreeMap Text Cost}
    (hmeasured : gateMeasured env measured = some measured')
    (hbaseline : loadBaseline file = some baseline)
    (hthreshold : gateThreshold env.threshold baseline = some thresholdPct) :
    resourceGate baselinePath file (env, measured) =
      gateVerdict baselinePath env.update file baseline measured' thresholdPct := by
  simp only [resourceGate, hgate, hmeasured, hbaseline, hthreshold, if_true]

theorem resourceGate_frame {run : GateEnv × BTreeMap Text Cost} (h : run.1.update = false)
    (baselinePath : Text) (file : Option Text) :
    (resourceGate baselinePath file run).1 = file := by
  unfold resourceGate
  rw [h]
  split_ifs
  · split
    · rfl
    split
    · rfl
    split
    · rfl
    exact gateVerdict_frame
  · rfl

theorem after_resourceGate {runs : List (GateEnv × BTreeMap Text Cost)}
    (h : ∀ run ∈ runs, run.1.update = false) (baselinePath : Text) (file : Option Text) :
    Machine.after (resourceGate baselinePath) file runs = file :=
  Machine.after_invariant_of_forall (resourceGate baselinePath)
    (fun run => run.1.update = false) (fun file' => file' = file)
    (fun file' _ hrun hfile => (resourceGate_frame hrun baselinePath file').trans hfile) h rfl

theorem loadBaseline_render (h : ∀ entry ∈ measured.toList, PlainName entry.1)
    (thresholdPct : UInt64) :
    loadBaseline (some (renderBaseline thresholdPct measured)) =
      some ⟨thresholdPct, measured⟩ := by
  have hnewline : '\n' ∈ renderBaseline thresholdPct measured := by
    rw [renderBaseline_eq, renderedLines, headerLines, List.cons_append, List.cons_append,
      unlines_cons]
    simp
  have hne : (renderBaseline thresholdPct measured).isEmpty = false :=
    List.isEmpty_eq_false_iff.mpr (List.ne_nil_of_mem hnewline)
  unfold loadBaseline
  simp only [Option.getD_some, hne, parseBaseline_render h, Bool.false_eq_true, if_false]

/-- An inflated cost on top of costs within budget is the one finding there can be. -/
theorem mem_findingsOf_inflated (hwithin : WithinBudget baseline measured thresholdPct)
    {name : Text} {base cost raised : Cost} (hbase : baseline.entries[name]? = some base)
    (hcost : measured[name]? = some cost) (hmem : raised.memBytes = cost.memBytes)
    (finding : Finding) :
    finding ∈ findingsOf baseline (measured.insert name raised) thresholdPct ↔
      finding = .regressed name .cpuInsns base.cpuInsns raised.cpuInsns ∧
        OverBudget base.cpuInsns raised.cpuInsns thresholdPct := by
  obtain ⟨hkeys, hbudget⟩ := hwithin
  have hname : name ∈ measured := BTreeMap.mem_iff_getElem?.mpr ⟨cost, hcost⟩
  have hkeys' : ∀ scenario : Text, scenario ∈ measured.insert name raised ↔
      scenario ∈ baseline.entries := by
    intro scenario
    rw [Std.ExtTreeMap.mem_insert, ← hkeys scenario]
    refine ⟨fun h => h.elim (fun heq => ?_) id, .inr⟩
    rwa [← Std.LawfulEqOrd.eq_of_compare heq]
  rw [mem_findingsOf]
  constructor
  · intro hviolation
    cases finding with
    | missingBaseline scenario =>
      exact absurd ((hkeys' scenario).mp hviolation.1) hviolation.2
    | staleBaseline scenario =>
      exact absurd ((hkeys' scenario).mpr hviolation.1) hviolation.2
    | regressed scenario metric b n =>
      obtain ⟨base', now, hbase', hnow, rfl, rfl, hover⟩ := hviolation
      rw [Std.ExtTreeMap.getElem?_insert] at hnow
      split_ifs at hnow with heq
      · obtain rfl := Std.LawfulEqOrd.eq_of_compare heq
        obtain rfl := Option.some.inj hnow
        obtain rfl := Option.some.inj (hbase.symm.trans hbase')
        cases metric with
        | cpuInsns => exact ⟨rfl, (overBudget_iff_rat ..).mpr hover⟩
        | memBytes =>
          have hwithin := hbudget name base cost hbase hcost .memBytes
          have hsame : Metric.of .memBytes raised = Metric.of .memBytes cost := hmem
          rw [hsame] at hover
          exact absurd hover (not_lt.mpr hwithin)
      · exact absurd hover (not_lt.mpr (hbudget scenario base' now hbase' hnow metric))
  · rintro ⟨rfl, hover⟩
    exact ⟨base, raised, hbase, Std.ExtTreeMap.getElem?_insert_self, rfl, rfl,
      (overBudget_iff_rat ..).mp hover⟩

theorem findingsOf_inflated (hwithin : WithinBudget baseline measured thresholdPct)
    {name : Text} {base cost raised : Cost} (hbase : baseline.entries[name]? = some base)
    (hcost : measured[name]? = some cost) (hmem : raised.memBytes = cost.memBytes) :
    findingsOf baseline (measured.insert name raised) thresholdPct =
      if OverBudget base.cpuInsns raised.cpuInsns thresholdPct then
        [.regressed name .cpuInsns base.cpuInsns raised.cpuInsns] else [] := by
  have hfindings := mem_findingsOf_inflated hwithin hbase hcost hmem
  split_ifs with hover
  · apply List.perm_singleton.mp
    rw [List.perm_ext_iff_of_nodup nodup_findingsOf (List.nodup_singleton _)]
    intro finding
    rw [hfindings, List.mem_singleton, and_iff_left hover]
  · apply List.eq_nil_iff_forall_not_mem.mpr
    intro finding hmem
    exact hover ((hfindings finding).mp hmem).2

theorem inflate_eq {cost : Cost} {pct raised : UInt64}
    (hproduct : cost.cpuInsns.toNat * pct.toNat < UInt64.size)
    (hraised : raised.toNat = cost.cpuInsns.toNat + cost.cpuInsns.toNat * pct.toNat / 100) :
    inflate cost pct = some { cost with cpuInsns := raised } := by
  have hsum : cost.cpuInsns.toNat + cost.cpuInsns.toNat * pct.toNat / 100 < UInt64.size := by
    rw [← hraised]
    exact raised.toNat_lt_size
  unfold inflate
  rw [if_pos hproduct]
  dsimp only
  rw [if_pos hsum, ← hraised, UInt64.ofNat_toNat]

theorem inject_eq {name digits : Text} (hname : ':' ∉ name) {pct : UInt64}
    (hpct : parseNat UInt64.size digits = some pct.toNat) {cost raised : Cost}
    (hcost : measured[name]? = some cost) (hraised : inflate cost pct = some raised) :
    inject measured (name ++ ':' :: digits) = some (measured.insert name raised) := by
  unfold inject
  rw [splitOnce_append hname]
  dsimp only
  rw [hpct]
  dsimp only
  rw [hcost]
  dsimp only
  rw [UInt64.ofNat_toNat, hraised, Option.map_some]

theorem file_after_update (baselinePath : Text)
    (hgate : env.gate = true) (hupdate : env.update = true) (hinjected : env.injected = none)
    (hbaseline : loadBaseline file = some baseline)
    (hthreshold : gateThreshold env.threshold baseline = some thresholdPct)
    {runs : List (GateEnv × BTreeMap Text Cost)} (hruns : ∀ run ∈ runs, run.1.update = false) :
    Machine.after (resourceGate baselinePath) file ((env, measured) :: runs) =
      some (renderBaseline thresholdPct measured) := by
  have hmeasured : gateMeasured env measured = some measured := by
    rw [gateMeasured, hinjected]
  rw [Machine.after_cons, after_resourceGate hruns,
    resourceGate_of_loaded hgate hmeasured hbaseline hthreshold, hupdate, gateVerdict, if_pos rfl]

end Run

/-- **A check measures against the last update.** Whatever checks and self-tests run between,
a check passes exactly if its costs are within the budget of the costs at the update, at the
threshold the update ran with. -/
theorem gate_after_update (baselinePath : Text) {file : Option Text} {update : GateEnv}
    {measured : BTreeMap Text Cost}
    (hnames : ∀ name ∈ measured, trim name = name ∧ '#' ∉ name ∧ '\n' ∉ name)
    (hgate : update.gate = true) (hupdate : update.update = true)
    (hinjected : update.injected = none) {baseline : Baseline}
    (hbaseline : loadBaseline file = some baseline) {thresholdPct : UInt64}
    (hthreshold : gateThreshold update.threshold baseline = some thresholdPct)
    (hfits : thresholdPct.toNat + 100 < UInt64.size)
    {between : List (GateEnv × BTreeMap Text Cost)}
    (hbetween : ∀ run ∈ between, run.1.update = false) (measured' : BTreeMap Text Cost) :
    (resourceGate baselinePath
        (Machine.after (resourceGate baselinePath) file ((update, measured) :: between))
        (⟨true, none, none, false⟩, measured')).2 = .passed ↔
      WithinBudget ⟨thresholdPct, measured⟩ measured' thresholdPct := by
  have hplain : ∀ entry ∈ measured.toList, PlainName entry.1 := by
    rintro ⟨name, cost⟩ hentry
    exact hnames name (BTreeMap.mem_iff_mem_toList.mpr ⟨cost, hentry⟩)
  rw [file_after_update baselinePath hgate hupdate hinjected hbaseline hthreshold hbetween,
    resourceGate_of_loaded rfl rfl (loadBaseline_render hplain thresholdPct) rfl,
    gateVerdict_passed_iff hfits]

def thousandEach : BTreeMap Text Cost := (∅ : BTreeMap Text Cost).insert ['x'] ⟨1000, 1000⟩

theorem thousandEach_names :
    ∀ name ∈ thousandEach, trim name = name ∧ '#' ∉ name ∧ '\n' ∉ name := by
  intro name hname
  rcases Std.ExtTreeMap.mem_insert.mp hname with heq | hempty
  · rw [← Std.LawfulEqOrd.eq_of_compare heq]
    decide
  · exact absurd hempty Std.ExtTreeMap.not_mem_empty

theorem gate_after_update_fixture :
    (resourceGate ['b']
        (Machine.after (resourceGate ['b']) none [(⟨true, none, none, true⟩, thousandEach),
          (⟨true, some ['x', ':', '2', '5'], none, false⟩, thousandEach)])
        (⟨true, none, none, false⟩, thousandEach)).2 = .passed := by
  have hbetween : ∀ run ∈ [((⟨true, some ['x', ':', '2', '5'], none, false⟩ : GateEnv),
      thousandEach)], run.1.update = false := by
    intro run hrun
    rw [List.mem_singleton.mp hrun]
  exact (gate_after_update ['b'] thousandEach_names rfl rfl rfl rfl rfl (by decide) hbetween
    thousandEach).mpr (withinBudget_self thousandEach _ _)

/-- **The self-test is not vacuous.** On costs within the budget of the file, a run that
inflates one of them by a percentage fails exactly if that takes it over its budget, and then
with this one regression; the script that expects a failure agrees. Neither writes. -/
theorem gate_self_test (baselinePath : Text) {file : Option Text} {baseline : Baseline}
    (hbaseline : loadBaseline file = some baseline)
    (hfits : baseline.thresholdPct.toNat + 100 < UInt64.size) {measured : BTreeMap Text Cost}
    (hwithin : WithinBudget baseline measured baseline.thresholdPct) {name digits : Text}
    (hname : ':' ∉ name) {pct : UInt64} (hpct : parseNat UInt64.size digits = some pct.toNat)
    {base cost : Cost} (hbase : baseline.entries[name]? = some base)
    (hcost : measured[name]? = some cost)
    (hproduct : cost.cpuInsns.toNat * pct.toNat < UInt64.size) {raised : UInt64}
    (hraised : raised.toNat = cost.cpuInsns.toNat + cost.cpuInsns.toNat * pct.toNat / 100) :
    ∃ outcome, resourceGate baselinePath file
        (⟨true, some (name ++ ':' :: digits), none, false⟩, measured) = (file, outcome) ∧
      if raised.toNat * 100 > base.cpuInsns.toNat * (100 + baseline.thresholdPct.toNat) then
        (∃ message, outcome = .failed [.regressed name .cpuInsns base.cpuInsns raised] message) ∧
          budgetStatus false outcome = 1 ∧ budgetStatus true outcome = 0
      else outcome = .passed ∧ budgetStatus false outcome = 0 ∧ budgetStatus true outcome = 1 := by
  have hinjected : gateMeasured ⟨true, some (name ++ ':' :: digits), none, false⟩ measured =
      some (measured.insert name { cost with cpuInsns := raised }) :=
    inject_eq hname hpct hcost (inflate_eq hproduct hraised)
  have hrun : resourceGate baselinePath file
      (⟨true, some (name ++ ':' :: digits), none, false⟩, measured) =
        gateVerdict baselinePath false file baseline
          (measured.insert name { cost with cpuInsns := raised }) baseline.thresholdPct :=
    resourceGate_of_loaded rfl hinjected hbaseline rfl
  have hfindings : findingsOf baseline (measured.insert name { cost with cpuInsns := raised })
      baseline.thresholdPct = if OverBudget base.cpuInsns raised baseline.thresholdPct then
        [.regressed name .cpuInsns base.cpuInsns raised] else [] :=
    findingsOf_inflated hwithin hbase hcost rfl
  unfold OverBudget at hfindings
  refine ⟨(resourceGate baselinePath file
    (⟨true, some (name ++ ':' :: digits), none, false⟩, measured)).2,
    Prod.ext (resourceGate_frame rfl baselinePath file) rfl, ?_⟩
  rw [hrun]
  rcases gateVerdict_of_one hfits baselinePath file hfindings with
    ⟨habove, message, hfailed⟩ | ⟨hbudget, hpassed⟩
  · rw [if_pos habove, hfailed]
    exact ⟨⟨message, rfl⟩, rfl, rfl⟩
  · rw [if_neg hbudget, hpassed]
    exact ⟨rfl, rfl, rfl⟩

theorem gate_self_test_fixture :
    ∃ outcome message, resourceGate ['b'] (some (renderBaseline 15 thousandEach))
        (⟨true, some ['x', ':', '2', '5'], none, false⟩, thousandEach) =
          (some (renderBaseline 15 thousandEach), outcome) ∧
      outcome = .failed [.regressed ['x'] .cpuInsns 1000 1250] message ∧
      budgetStatus true outcome = 0 := by
  have hplain : ∀ entry ∈ thousandEach.toList, PlainName entry.1 := by
    rintro ⟨name, cost⟩ hentry
    exact thousandEach_names name (BTreeMap.mem_iff_mem_toList.mpr ⟨cost, hentry⟩)
  have hcost : thousandEach[['x']]? = some ⟨1000, 1000⟩ := Std.ExtTreeMap.getElem?_insert_self
  have hname : ':' ∉ ['x'] := by decide
  have hpct : parseNat UInt64.size ['2', '5'] = some (25 : UInt64).toNat := by decide
  have hraised : (1250 : UInt64).toNat =
      (1000 : UInt64).toNat + (1000 : UInt64).toNat * (25 : UInt64).toNat / 100 := by decide
  obtain ⟨outcome, hrun, hverdict⟩ := gate_self_test ['b'] (loadBaseline_render hplain 15)
    (by decide) (withinBudget_self thousandEach 15 15) hname hpct hcost hcost (by decide) hraised
  rw [if_pos (by decide)] at hverdict
  obtain ⟨⟨message, hfailed⟩, _, hstatus⟩ := hverdict
  exact ⟨outcome, message, hrun, hfailed, hstatus⟩

end Synapse
