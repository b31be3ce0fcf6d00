import SynapseCore.Gate.BaselineFile

/-! The numbers of the resource gate: the growth it reports against the verdict it gives,
and the inputs on which all its integers stay in range. -/

namespace Synapse
open Text

def i128Max : Int := 2 ^ 127 - 1

/-- An `i128` result, which panics on overflow. -/
def checkedI128 (n : Int) : Option Int := if -i128Max - 1 ≤ n ∧ n ≤ i128Max then some n else none

/-- Division truncates toward zero. -/
def deltaPermille (base now : UInt64) : Option Int :=
  if base = 0 then some (if now = 0 then 0 else i128Max)
  else do
    let growth ← checkedI128 (now.toNat - base.toNat)
    let scaled ← checkedI128 (growth * 1000)
    checkedI128 (scaled.tdiv base.toNat)

def fmtPct (permille : Int) : Text :=
  if permille = i128Max then "+inf%".toList
  else
    let sign := if permille < 0 then "-".toList else "+".toList
    let a := permille.natAbs
    sign ++ display (a / 10) ++ ".".toList ++ display (a % 10) ++ "%".toList

/-- What `describe` formats for a regression of the given growth. -/
def regressionText (scenario : Text) (metric : Metric) (baseline measured thresholdPct : UInt64)
    (permille : Int) : Text :=
  "REGRESSION  ".toList ++ scenario ++ ": ".toList ++ metric.name ++ " ".toList ++
    display measured.toNat ++ " vs baseline ".toList ++ display baseline.toNat ++ " (".toList ++
    fmtPct permille ++ "; threshold +".toList ++ display thresholdPct.toNat ++ "%)".toList

def describe (finding : Finding) (thresholdPct : UInt64) : Option Text :=
  match finding with
  | .regressed scenario metric baseline measured =>
    (deltaPermille baseline measured).map
      (regressionText scenario metric baseline measured thresholdPct)
  | .missingBaseline scenario =>
    some ("MISSING     ".toList ++ scenario ++ ": no entry in the baseline — run ".toList ++
      "`scripts/check_resource_budget.sh --update` and commit the result".toList)
  | .staleBaseline scenario =>
    some ("STALE       ".toList ++ scenario ++
      ": baseline entry has no matching scenario — re-run with --update to drop it".toList)

/-! ## The growth as an exact integer -/

/-- The growth in tenths of a percent, with the sentinel for growth from zero. -/
def growthPermille (base now : UInt64) : Int :=
  if base = 0 then if now = 0 then 0 else i128Max
  else (((now.toNat : Int) - base.toNat) * 1000).tdiv base.toNat

theorem checkedI128_eq {n : Int} (h : n.natAbs ≤ 2 ^ 127 - 1) : checkedI128 n = some n := by
  apply if_pos
  unfold i128Max
  omega

theorem natAbs_growth_le (base now : UInt64) :
    ((((now.toNat : Int) - base.toNat) * 1000).tdiv base.toNat).natAbs ≤ 2 ^ 64 * 1000 := by
  have hbase : base.toNat < 2 ^ 64 := base.toNat_lt
  have hnow : now.toNat < 2 ^ 64 := now.toNat_lt
  have hle := Int.natAbs_tdiv_le_natAbs (((now.toNat : Int) - base.toNat) * 1000) base.toNat
  omega

theorem deltaPermille_eq (base now : UInt64) :
    deltaPermille base now = some (growthPermille base now) := by
  have hbase : base.toNat < 2 ^ 64 := base.toNat_lt
  have hnow : now.toNat < 2 ^ 64 := now.toNat_lt
  have hgrowth : checkedI128 (now.toNat - base.toNat) = some ((now.toNat : Int) - base.toNat) := by
    apply checkedI128_eq
    omega
  have hscaled : checkedI128 (((now.toNat : Int) - base.toNat) * 1000) =
      some (((now.toNat : Int) - base.toNat) * 1000) := by
    apply checkedI128_eq
    omega
  have hquotient := natAbs_growth_le base now
  unfold deltaPermille growthPermille
  split_ifs with hzero
  · rfl
  · rfl
  · rw [hgrowth]
    dsimp only [Option.bind_eq_bind, Option.bind_some]
    rw [hscaled]
    dsimp only [Option.bind_some]
    apply checkedI128_eq
    omega

/-! ## The growth against the threshold -/

section Growth
variable {base now thresholdPct : UInt64}

end Growth

/-! ## The growth as it is printed -/

theorem fmtPct_max : fmtPct i128Max = ['+', 'i', 'n', 'f', '%'] := if_pos rfl

theorem fmtPct_of_ne {permille : Int} (h : permille ≠ i128Max) :
    fmtPct permille = (if permille < 0 then '-' else '+') ::
      (display (permille.natAbs / 10) ++ '.' :: (display (permille.natAbs % 10) ++ ['%'])) := by
  have hpoint : ".".toList = ['.'] := by rfl
  have hpercent : "%".toList = ['%'] := by rfl
  have hminus : "-".toList = ['-'] := by rfl
  have hplus : "+".toList = ['+'] := by rfl
  unfold fmtPct
  rw [if_neg h, hpoint, hpercent, hminus, hplus]
  dsimp only
  split_ifs <;> simp only [List.append_assoc, List.cons_append, List.nil_append]

theorem fmtPct_ne_max {permille : Int} (h : permille ≠ i128Max) :
    fmtPct permille ≠ fmtPct i128Max := by
  rw [fmtPct_of_ne h, fmtPct_max]
  intro heq
  have htail := (List.cons.inj heq).2
  -- a number starts with a digit
  cases hdigits : display (permille.natAbs / 10) with
  | nil => exact display_ne_nil _ hdigits
  | cons c s =>
    have hc : c.isDigit = true := by
      apply digit_of_mem_display (n := permille.natAbs / 10)
      rw [hdigits]
      exact List.mem_cons_self ..
    rw [hdigits, List.cons_append] at htail
    rw [(List.cons.inj htail).1] at hc
    cases hc

theorem fmtPct_injective : Function.Injective fmtPct := by
  intro p q h
  by_cases hp : p = i128Max
  · by_contra hne
    have hq : q ≠ i128Max := fun hq => hne (hp.trans hq.symm)
    rw [hp] at h
    exact fmtPct_ne_max hq h.symm
  by_cases hq : q = i128Max
  · rw [hq] at h
    exact absurd h (fmtPct_ne_max hp)
  rw [fmtPct_of_ne hp, fmtPct_of_ne hq] at h
  obtain ⟨hsign, hbody⟩ := List.cons.inj h
  have hpoint : ∀ n, '.' ∉ display n := not_mem_display rfl
  obtain ⟨hwhole, hrest⟩ := append_sep_inj (hpoint _) (hpoint _) hbody
  have htenth := display_injective (List.append_cancel_right hrest)
  have hwhole' := display_injective hwhole
  have habs : p.natAbs = q.natAbs := by omega
  split_ifs at hsign with hnegp hnegq
  · omega
  · exact absurd hsign (by decide)
  · exact absurd hsign (by decide)
  · omega

/-- The comparison does not overflow, nor does the growth of any regression it finds. -/
def ArithmeticFits (baseline : Baseline) (measured : BTreeMap Text Cost) (thresholdPct : UInt64) :
    Prop :=
  ∃ findings, baseline.compare measured thresholdPct = some findings ∧
    ∀ scenario metric b n, Finding.regressed scenario metric b n ∈ findings →
      deltaPermille b n ≠ none

theorem exceeds_ne_none_iff (base now thresholdPct : UInt64) :
    exceeds base now thresholdPct ≠ none ↔
      base.toNat * (100 + thresholdPct.toNat) < u128Size := by
  rw [exceeds_eq_ite]
  split_ifs with hfits
  · exact iff_of_true (Option.some_ne_none _) hfits
  · exact iff_of_false (fun hne => hne rfl) hfits

section Overflow
variable {baseline : Baseline} {measured : BTreeMap Text Cost} {thresholdPct : UInt64}

theorem metricLoop_ne_none_iff (scenario : Text) (base now : Cost) (metrics : List Metric)
    (findings : List Finding) :
    metricLoop scenario base now thresholdPct metrics findings ≠ none ↔
      ∀ metric ∈ metrics, exceeds (metric.of base) (metric.of now) thresholdPct ≠ none := by
  induction metrics generalizing findings with
  | nil => simp [metricLoop]
  | cons metric rest ih =>
    rw [metricLoop, List.forall_mem_cons]
    cases exceeds (metric.of base) (metric.of now) thresholdPct with
    | none => simp
    | some above =>
      dsimp only
      rw [ih, and_iff_right (Option.some_ne_none above)]

theorem forall_metric_iff {p : Metric → Prop} :
    (∀ metric ∈ [Metric.cpuInsns, .memBytes], p metric) ↔ ∀ metric, p metric := by
  constructor
  · intro h metric
    cases metric with
    | cpuInsns => exact h .cpuInsns (by decide)
    | memBytes => exact h .memBytes (by decide)
  · intro h metric _
    exact h metric

theorem measuredLoop_ne_none_iff (entries : List (Text × Cost)) (findings : List Finding) :
    measuredLoop baseline thresholdPct entries findings ≠ none ↔
      ∀ entry ∈ entries, ∀ base, baseline.entries[entry.1]? = some base → ∀ metric : Metric,
        exceeds (metric.of base) (metric.of entry.2) thresholdPct ≠ none := by
  induction entries generalizing findings with
  | nil => simp [measuredLoop]
  | cons entry rest ih =>
    obtain ⟨scenario, now⟩ := entry
    rw [measuredLoop, List.forall_mem_cons]
    cases baseline.entries[scenario]? with
    | none =>
      dsimp only
      rw [ih]
      exact (and_iff_right fun base hbase => by cases hbase).symm
    | some base =>
      have hhead : (∀ base', some base = some base' → ∀ metric : Metric,
          exceeds (metric.of base') (metric.of now) thresholdPct ≠ none) ↔
            metricLoop scenario base now thresholdPct [.cpuInsns, .memBytes] findings ≠ none := by
        rw [metricLoop_ne_none_iff, forall_metric_iff]
        constructor
        · intro h
          exact h base rfl
        · rintro h base' hbase
          rw [← Option.some.inj hbase]
          exact h
      dsimp only
      rw [hhead]
      cases metricLoop scenario base now thresholdPct [.cpuInsns, .memBytes] findings with
      | none => simp
      | some findings' =>
        dsimp only
        rw [ih, and_iff_right (Option.some_ne_none findings')]

theorem compare_ne_none_iff :
    baseline.compare measured thresholdPct ≠ none ↔
      measuredLoop baseline thresholdPct measured.toList [] ≠ none := by
  unfold Baseline.compare
  cases measuredLoop baseline thresholdPct measured.toList [] with
  | none => exact Iff.rfl
  | some findings => exact iff_of_true (Option.some_ne_none _) (Option.some_ne_none _)

theorem arithmeticFits_iff_compare :
    ArithmeticFits baseline measured thresholdPct ↔
      baseline.compare measured thresholdPct ≠ none := by
  rw [Option.ne_none_iff_exists']
  constructor
  · rintro ⟨findings, hcompare, _⟩
    exact ⟨findings, hcompare⟩
  · rintro ⟨findings, hcompare⟩
    refine ⟨findings, hcompare, fun scenario metric b n _ => ?_⟩
    rw [deltaPermille_eq]
    exact Option.some_ne_none _

theorem arithmeticFits_iff_exceeds :
    ArithmeticFits baseline measured thresholdPct ↔
      ∀ (scenario : Text) (base now : Cost), baseline.entries[scenario]? = some base →
        measured[scenario]? = some now → ∀ metric : Metric,
          exceeds (metric.of base) (metric.of now) thresholdPct ≠ none := by
  rw [arithmeticFits_iff_compare, compare_ne_none_iff, measuredLoop_ne_none_iff]
  constructor
  · intro h scenario base now hbase hnow
    exact h (scenario, now) (Std.ExtTreeMap.mem_toList_iff_getElem?_eq_some.mpr hnow) base hbase
  · rintro h ⟨scenario, now⟩ hentry base hbase
    exact h scenario base now hbase (Std.ExtTreeMap.mem_toList_iff_getElem?_eq_some.mp hentry)

end Overflow

/-- **The gate's arithmetic stays in range exactly if every budget does**: the product of
a baseline cost that is compared and the factor `100 + t` is below `2^128`. -/
theorem gate_arithmetic_fits_iff (baseline : Baseline) (measured : BTreeMap Text Cost)
    (thresholdPct : UInt64) :
    ArithmeticFits baseline measured thresholdPct ↔
      ∀ (scenario : Text) (base now : Cost), baseline.entries[scenario]? = some base →
        measured[scenario]? = some now → ∀ metric : Metric,
          (metric.of base).toNat * (100 + thresholdPct.toNat) < 2 ^ 128 := by
  have hsize : u128Size = 2 ^ 128 := by decide
  rw [arithmeticFits_iff_exceeds]
  simp only [exceeds_ne_none_iff, hsize]

def topCosts : BTreeMap Text Cost :=
  (∅ : BTreeMap Text Cost).insert ['x'] ⟨18446744073709551615, 18446744073709551615⟩

theorem topCosts_getElem? :
    topCosts[['x']]? = some ⟨18446744073709551615, 18446744073709551615⟩ :=
  Std.ExtTreeMap.getElem?_insert_self

theorem arithmeticFits_all_iff (thresholdPct : UInt64) :
    (∀ baseline measured, ArithmeticFits baseline measured thresholdPct) ↔
      thresholdPct.toNat + 99 ≤ 2 ^ 64 := by
  have hsize : u128Size = 2 ^ 128 := by decide
  constructor
  · intro h
    have hne := arithmeticFits_iff_exceeds.mp (h ⟨thresholdPct, topCosts⟩ topCosts) ['x'] _ _
      topCosts_getElem? topCosts_getElem? .cpuInsns
    have htop : (Metric.of .cpuInsns ⟨18446744073709551615, 18446744073709551615⟩).toNat =
        2 ^ 64 - 1 := rfl
    rw [exceeds_ne_none_iff, htop, hsize] at hne
    omega
  · intro h baseline measured
    rw [arithmeticFits_iff_exceeds]
    intro scenario base now _ _ metric
    have hbase : (metric.of base).toNat ≤ 2 ^ 64 - 1 :=
      Nat.le_sub_one_of_lt (UInt64.toNat_lt _)
    have hfactor : 100 + thresholdPct.toNat ≤ 2 ^ 64 + 1 := by omega
    rw [exceeds_ne_none_iff, hsize]
    calc (metric.of base).toNat * (100 + thresholdPct.toNat)
        ≤ (2 ^ 64 - 1) * (2 ^ 64 + 1) := Nat.mul_le_mul hbase hfactor
      _ < 2 ^ 128 := by decide

theorem gate_arithmetic_counterexample :
    ¬ ∀ (src : Text) (baseline : Baseline) (measured : BTreeMap Text Cost) (thresholdPct : UInt64),
      parseBaseline src = some (.ok baseline) →
        ArithmeticFits baseline measured thresholdPct := by
  intro h
  have hplain : ∀ entry ∈ topCosts.toList, PlainName entry.1 := by
    rintro ⟨name, cost⟩ hentry
    rw [Std.ExtTreeMap.mem_toList_iff_getElem?_eq_some, topCosts,
      Std.ExtTreeMap.getElem?_insert] at hentry
    split_ifs at hentry with heq
    · have hname : trim ['x'] = ['x'] ∧ '#' ∉ ['x'] ∧ '\n' ∉ ['x'] := by decide
      rw [← Std.LawfulEqOrd.eq_of_compare heq]
      exact hname
    · simp at hentry
  -- the largest cost under the largest threshold
  have hfits := h _ _ topCosts 18446744073709551615
    (parseBaseline_render hplain 18446744073709551615)
  have hne := arithmeticFits_iff_exceeds.mp hfits ['x'] _ _ topCosts_getElem? topCosts_getElem?
    .cpuInsns
  exact hne (by decide)

end Synapse
