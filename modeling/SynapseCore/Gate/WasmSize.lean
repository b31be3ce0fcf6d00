import SynapseCore.Foundation.KeyLines
import SynapseCore.Foundation.Runs

/-! The size gate of the release build: `scripts/check_wasm_size.sh` over its configuration
file. The numbers of the shell have 64 bits, and an arithmetic error makes a condition false. -/

namespace Synapse
open Text

def baselineKey : Text := "baseline_bytes".toList
def growthKey : Text := "max_growth_pct".toList
def ceilingKey : Text := "ceiling_bytes".toList
def limitKey : Text := "network_limit_bytes".toList

/-- `[0-9_]` -/
def isConfigDigit (c : Char) : Bool := c.isDigit || c == '_'

/-- An integer `key = value` of the configuration, underscores allowed. A repeated key has all
its values, each on a line. -/
def cfg (key config : Text) : Option Text :=
  let v := (erase '_' (unlines (KeyLines.fields isConfigDigit key config))).rdropWhile (· == '\n')
  if v.isEmpty then none else some v

/-- The number that the shell reads; a leading zero makes it octal. -/
def shellNumber (v : Text) : Option Int64 :=
  match v.dropWhile (· == '\n') with
  | '0' :: digits =>
    if digits.all (fun c => '0' ≤ c && c ≤ '7') then
      some (Int64.ofNat (Nat.ofDigitChars 8 digits 0))
    else none
  | digits =>
    if digits.all Char.isDigit then some (Int64.ofNat (Nat.ofDigitChars 10 digits 0)) else none

/-- `(( SIZE * 100 > BASELINE * (100 + GROWTH_PCT) ))` -/
def regressed (size : Nat) (baseline growthPct : Text) : Bool :=
  match shellNumber baseline, shellNumber growthPct with
  | some baseline, some growthPct => decide (Int64.ofNat size * 100 > baseline * (100 + growthPct))
  | _, _ => false

/-- `(( SIZE > CEILING ))` -/
def overCeiling (size : Nat) (ceiling : Text) : Bool :=
  match shellNumber ceiling with
  | some ceiling => decide (Int64.ofNat size > ceiling)
  | none => false

/-- A run of the script: the size of the build, if there is one, and the arguments. -/
structure SizeRun where
  wasm : Option Nat
  ceiling : Option Nat
  update : Bool
  expectFail : Bool

def sizeStatus (expectFail fail : Bool) : Nat :=
  if expectFail then (if fail then 0 else 1) else if fail then 1 else 0

/-- The file afterwards, and the exit status. -/
def sizeGate (config : Text) (run : SizeRun) : Text × Nat :=
  match run.wasm with
  | none => (config, 1)
  | some size =>
    match cfg baselineKey config, cfg growthKey config,
      run.ceiling.elim (cfg ceilingKey config) (some ∘ display), cfg limitKey config with
    | some baseline, some growthPct, some ceiling, some _ =>
      if run.update then (KeyLines.rewrite baselineKey (display size) config, 0)
      else (config, sizeStatus run.expectFail
        (regressed size baseline growthPct || overCeiling size ceiling))
    | _, _, _, _ => (config, 1)

/-! ## What the gate is for -/

structure SizeBudget where
  baseline : Nat
  growthPct : Nat
  ceiling : Nat
  limit : Nat

def SizeBudget.Admits (budget : SizeBudget) (ceiling : Option Nat) (size : Nat) : Prop :=
  size * 100 ≤ budget.baseline * (100 + budget.growthPct) ∧ size ≤ ceiling.getD budget.ceiling

instance (budget : SizeBudget) (ceiling : Option Nat) (size : Nat) :
    Decidable (budget.Admits ceiling size) :=
  inferInstanceAs (Decidable (_ ∧ _))

/-- An update accepts the size it is run on; a check succeeds if it ends as expected. -/
def SizeBudget.gate (budget : SizeBudget) (run : SizeRun) : SizeBudget × Nat :=
  match run.wasm with
  | none => (budget, 1)
  | some size =>
    if run.update then ({ budget with baseline := size }, 0)
    else (budget, if run.expectFail = decide (budget.Admits run.ceiling size) then 1 else 0)

/-- The line of a key, the only one of it. -/
def Declares (config key : Text) (n : Nat) : Prop :=
  ∃ digits, KeyLines.fields isConfigDigit key config = [digits] ∧ erase '_' digits = display n

structure SizeBudget.DeclaredBy (budget : SizeBudget) (config : Text) : Prop where
  baseline : Declares config baselineKey budget.baseline
  growthPct : Declares config growthKey budget.growthPct
  ceiling : Declares config ceilingKey budget.ceiling
  limit : Declares config limitKey budget.limit

/-! ## The numbers -/

theorem eq_zero_of_display {n : Nat} {digits : Text} (h : display n = '0' :: digits) : n = 0 := by
  induction n using Nat.strongRecOn generalizing digits with
  | ind n ih =>
    unfold display at h ih
    rw [Nat.toDigits_eq_if (by decide)] at h
    split_ifs at h with hsmall
    · have hdigit : Nat.digitChar n = '0' := (List.cons.inj h).1
      have hzero : display n = display 0 := by
        rw [display, Nat.toDigits_of_lt_base hsmall, hdigit]
        rfl
      exact display_injective hzero
    · obtain ⟨c, rest, hrest⟩ := List.exists_cons_of_ne_nil (display_ne_nil (n / 10))
      have hhead : Nat.toDigits 10 (n / 10) = '0' :: rest := by
        have hfirst := hrest
        unfold display at hfirst
        rw [hfirst, List.cons_append] at h
        rw [hfirst, (List.cons.inj h).1]
      have hten : n / 10 = 0 := ih (n / 10) (by omega) hhead
      omega

theorem shellNumber_display (n : Nat) : shellNumber (display n) = some (Int64.ofNat n) := by
  have hdigits : ∀ c ∈ display n, c.isDigit = true := fun c hc => digit_of_mem_display hc
  have hvalue : Nat.ofDigitChars 10 (display n) 0 = n := Nat.ofDigitChars_ten_toDigits
  have hstart : (display n).dropWhile (· == '\n') = display n := by
    cases hdisplay : display n with
    | nil => rfl
    | cons c digits =>
      apply List.dropWhile_cons_of_neg
      have hc : c ≠ '\n' := by
        rintro rfl
        exact not_mem_display rfl n (hdisplay ▸ List.mem_cons_self ..)
      simp [hc]
  unfold shellNumber
  rw [hstart]
  split
  · rename_i digits heq
    obtain rfl := eq_zero_of_display heq
    obtain rfl : digits = [] := (List.cons.inj heq).2.symm
    rfl
  · rw [if_pos (List.all_eq_true.mpr hdigits), hvalue]

def shellSize : Nat := 9223372036854775808

theorem ofNat_lt_iff {m n : Nat} (hm : m < shellSize) (hn : n < shellSize) :
    Int64.ofNat m < Int64.ofNat n ↔ m < n := Int64.ofNat_lt_iff_lt hm hn

theorem overCeiling_display {size ceiling : Nat} (hsize : size < shellSize)
    (hceiling : ceiling < shellSize) :
    overCeiling size (display ceiling) = decide (ceiling < size) := by
  unfold overCeiling
  rw [shellNumber_display]
  exact decide_eq_decide.mpr (ofNat_lt_iff hceiling hsize)

theorem regressed_display {size baseline growthPct : Nat} (hsize : size * 100 < shellSize)
    (hbudget : baseline * (100 + growthPct) < shellSize) :
    regressed size (display baseline) (display growthPct) =
      decide (baseline * (100 + growthPct) < size * 100) := by
  have hscaled : Int64.ofNat size * 100 = Int64.ofNat (size * 100) := (Int64.ofNat_mul ..).symm
  have hgrown : Int64.ofNat baseline * (100 + Int64.ofNat growthPct) =
      Int64.ofNat (baseline * (100 + growthPct)) := by
    rw [Int64.ofNat_mul, Int64.ofNat_add]
    rfl
  unfold regressed
  rw [shellNumber_display, shellNumber_display]
  dsimp only
  rw [hscaled, hgrown]
  exact decide_eq_decide.mpr (ofNat_lt_iff hbudget hsize)

/-! ## The file -/

theorem baselineKey_isKey : KeyLines.IsKey baselineKey := ⟨by decide, by decide⟩
theorem growthKey_isKey : KeyLines.IsKey growthKey := ⟨by decide, by decide⟩
theorem ceilingKey_isKey : KeyLines.IsKey ceilingKey := ⟨by decide, by decide⟩
theorem limitKey_isKey : KeyLines.IsKey limitKey := ⟨by decide, by decide⟩

section File
variable {config key : Text} {budget : SizeBudget} {n size : Nat}

theorem cfg_of_declares (h : Declares config key n) : cfg key config = some (display n) := by
  obtain ⟨digits, hfields, hdigits⟩ := h
  have hlast : (display n).rdropWhile (· == '\n') = display n := by
    rw [List.rdropWhile_eq_self_iff]
    intro hne hnewline
    have hmem := List.getLast_mem hne
    rw [beq_iff_eq.mp hnewline] at hmem
    exact not_mem_display rfl n hmem
  have hv : (erase '_' (unlines (KeyLines.fields isConfigDigit key config))).rdropWhile
      (· == '\n') = display n := by
    have herase : erase '_' (unlines [digits]) = display n ++ ['\n'] := by
      rw [← hdigits]
      simp [unlines, erase]
    rw [hfields, herase, List.rdropWhile_concat_pos _ _ _ rfl, hlast]
  unfold cfg
  rw [hv]
  exact if_neg (by simp [display_ne_nil])

theorem isConfigDigit_of_mem_display {c : Char} (h : c ∈ display n) : isConfigDigit c = true := by
  simp [isConfigDigit, digit_of_mem_display h]

theorem isSpace_of_mem_display {c : Char} (h : c ∈ display n) : KeyLines.isSpace c = false := by
  have hrange : 48 ≤ c.toNat ∧ c.toNat ≤ 57 := Char.isDigit_iff_toNat.mp (digit_of_mem_display h)
  have hspace : c ≠ ' ' := by
    rintro rfl
    exact absurd hrange (by decide)
  simp [KeyLines.isSpace, hspace]
  omega

theorem Declares.rewrite (hkey : KeyLines.IsKey key) (hne : key ≠ baselineKey)
    (h : Declares config key n) (size : Nat) :
    Declares (KeyLines.rewrite baselineKey (display size) config) key n := by
  obtain ⟨digits, hfields, hdigits⟩ := h
  refine ⟨digits, ?_, hdigits⟩
  rw [KeyLines.fields_rewrite_of_ne baselineKey_isKey hkey hne (not_mem_display rfl size), hfields]

theorem declares_baseline (h : Declares config baselineKey n)
    (hflush : KeyLines.Flush isConfigDigit baselineKey config) (size : Nat) :
    Declares (KeyLines.rewrite baselineKey (display size) config) baselineKey size := by
  obtain ⟨digits, hfields, -⟩ := h
  refine ⟨display size, ?_, erase_of_not_mem (not_mem_display rfl size)⟩
  rw [KeyLines.fields_rewrite baselineKey_isKey (fun c => isConfigDigit_of_mem_display)
    (fun c => isSpace_of_mem_display) hflush, hfields, List.map_singleton]

theorem SizeBudget.DeclaredBy.rewrite (h : budget.DeclaredBy config)
    (hflush : KeyLines.Flush isConfigDigit baselineKey config) (size : Nat) :
    SizeBudget.DeclaredBy { budget with baseline := size }
      (KeyLines.rewrite baselineKey (display size) config) where
  baseline := declares_baseline h.baseline hflush size
  growthPct := h.growthPct.rewrite growthKey_isKey (by decide) size
  ceiling := h.ceiling.rewrite ceilingKey_isKey (by decide) size
  limit := h.limit.rewrite limitKey_isKey (by decide) size

/-- The numbers of a run fit in those of the shell. -/
structure SizeBudget.Fits (budget : SizeBudget) (run : SizeRun) : Prop where
  size : ∀ size ∈ run.wasm, size * (100 + budget.growthPct) < shellSize
  ceiling : ∀ ceiling ∈ run.ceiling, ceiling < shellSize

structure SizeBudget.Bounded (budget : SizeBudget) : Prop where
  growth : budget.baseline * (100 + budget.growthPct) < shellSize
  ceiling : budget.ceiling < shellSize

theorem fits_of_size (h : size * (100 + budget.growthPct) < shellSize) (update : Bool) :
    budget.Fits ⟨some size, none, update, false⟩ where
  size size' hsize := by rwa [← Option.some.inj hsize]
  ceiling _ hceiling := absurd hceiling (Option.not_mem_none _)

theorem sizeStatus_eq (expectFail : Bool) {fail : Bool} {admits : Prop} [Decidable admits]
    (h : fail = !decide admits) :
    sizeStatus expectFail fail = if expectFail = decide admits then 1 else 0 := by
  subst h
  cases expectFail <;> cases decide admits <;> rfl

theorem sizeGate_of_declared (h : budget.DeclaredBy config) (hbounded : budget.Bounded)
    {run : SizeRun} (hfits : budget.Fits run) :
    sizeGate config run =
      ((run.wasm.filter fun _ => run.update).elim config fun size =>
        KeyLines.rewrite baselineKey (display size) config, (budget.gate run).2) := by
  obtain ⟨wasm, ceiling, update, expectFail⟩ := run
  cases wasm with
  | none => rfl
  | some size =>
    -- each key is read as it is declared, and each number is one of the shell's
    have hceiling : ceiling.elim (cfg ceilingKey config) (some ∘ display) =
        some (display (ceiling.getD budget.ceiling)) := by
      cases ceiling with
      | none => exact cfg_of_declares h.ceiling
      | some ceiling => rfl
    have hceilingFits : ceiling.getD budget.ceiling < shellSize := by
      cases ceiling with
      | none => exact hbounded.ceiling
      | some ceiling => exact hfits.ceiling ceiling rfl
    have hsize : size * 100 < shellSize :=
      lt_of_le_of_lt (Nat.mul_le_mul_left size (Nat.le_add_right ..)) (hfits.size size rfl)
    have hsmall : size < shellSize :=
      lt_of_le_of_lt (Nat.le_mul_of_pos_right size (by decide)) hsize
    unfold sizeGate SizeBudget.gate
    dsimp only
    rw [cfg_of_declares h.baseline, cfg_of_declares h.growthPct, hceiling, cfg_of_declares h.limit]
    dsimp only
    cases update with
    | true => rfl
    | false =>
      have hfail : (regressed size (display budget.baseline) (display budget.growthPct) ||
          overCeiling size (display (ceiling.getD budget.ceiling))) =
            !decide (budget.Admits ceiling size) := by
        rw [regressed_display hsize hbounded.growth, overCeiling_display hsmall hceilingFits,
          ← Bool.decide_or, ← decide_not]
        apply decide_eq_decide.mpr
        rw [SizeBudget.Admits, not_and_or, not_le, not_le]
      rw [sizeStatus_eq expectFail hfail]
      rfl

theorem sizeGate_simulates {config : Text} {budget : SizeBudget} {run : SizeRun}
    (h : budget.DeclaredBy config) (hflush : KeyLines.Flush isConfigDigit baselineKey config)
    (hbounded : budget.Bounded) (hfits : budget.Fits run) :
    ((budget.gate run).1.DeclaredBy (sizeGate config run).1 ∧
      KeyLines.Flush isConfigDigit baselineKey (sizeGate config run).1 ∧
      (budget.gate run).1.Bounded ∧ (budget.gate run).1.growthPct = budget.growthPct) ∧
    (sizeGate config run).2 = (budget.gate run).2 := by
  have hrun := sizeGate_of_declared h hbounded hfits
  refine ⟨?_, congrArg Prod.snd hrun⟩
  rw [hrun]
  obtain ⟨wasm, ceiling, update, expectFail⟩ := run
  cases wasm with
  | none => exact ⟨h, hflush, hbounded, rfl⟩
  | some size =>
    cases update with
    | false => exact ⟨h, hflush, hbounded, rfl⟩
    | true =>
      have hkept := KeyLines.flush_rewrite baselineKey_isKey
        (fun c => isSpace_of_mem_display (n := size)) hflush
      exact ⟨h.rewrite hflush size, hkept, ⟨hfits.size size rfl, hbounded.ceiling⟩, rfl⟩

end File

/-- **The script keeps the budget.** On a file that declares a budget, with no baseline line
indented, a run of updates, checks and expected failures in any order exits as the gate would,
and leaves a file that declares the budget the gate ends with. -/
theorem size_gate_refines {config : Text} {budget : SizeBudget} (h : budget.DeclaredBy config)
    (hflush : KeyLines.Flush isConfigDigit baselineKey config) (hbounded : budget.Bounded)
    {runs : List SizeRun} (hfits : ∀ run ∈ runs, budget.Fits run) :
    Machine.transcript sizeGate config runs =
        Machine.transcript SizeBudget.gate budget runs ∧
      (Machine.after SizeBudget.gate budget runs).DeclaredBy
        (Machine.after sizeGate config runs) := by
  have hfitsAll : ∀ run ∈ runs, ∀ budget' : SizeBudget,
      budget'.growthPct = budget.growthPct → budget'.Fits run := by
    intro run hrun budget' hgrowth
    refine ⟨?_, (hfits run hrun).ceiling⟩
    rw [hgrowth]
    exact (hfits run hrun).size
  -- an update changes the baseline only, so the growth allowed is that of the start throughout
  obtain ⟨⟨hafter, -⟩, htranscript⟩ := Machine.simulates_of_forall
    (R := fun config' (budget' : SizeBudget) => budget'.DeclaredBy config' ∧
      KeyLines.Flush isConfigDigit baselineKey config' ∧ budget'.Bounded ∧
      budget'.growthPct = budget.growthPct)
    (q := fun run => ∀ budget' : SizeBudget,
      budget'.growthPct = budget.growthPct → budget'.Fits run)
    (fun config' budget' run hok hrel => by
      obtain ⟨hdeclared, hflush', hbounded', hgrowth⟩ := hrel
      obtain ⟨⟨hdeclared', hflush'', hbounded'', hsame⟩, hstatus⟩ :=
        sizeGate_simulates hdeclared hflush' hbounded' (hok budget' hgrowth)
      exact ⟨⟨hdeclared', hflush'', hbounded'', hsame.trans hgrowth⟩, hstatus⟩)
    ⟨h, hflush, hbounded, rfl⟩ hfitsAll
  exact ⟨htranscript, hafter⟩

theorem check_succeeds_iff {config : Text} {budget : SizeBudget} (h : budget.DeclaredBy config)
    (hbounded : budget.Bounded) {size : Nat}
    (hfits : size * (100 + budget.growthPct) < shellSize) :
    (sizeGate config ⟨some size, none, false, false⟩).2 = 0 ↔ budget.Admits none size := by
  rw [sizeGate_of_declared h hbounded (fits_of_size hfits false)]
  show (if false = decide (budget.Admits none size) then 1 else 0) = 0 ↔ _
  by_cases hadmits : budget.Admits none size
  · simp [hadmits]
  · simp [hadmits]

/-- **An update does not reach an indented line.** It always reports success; but the check of
the size just accepted succeeds only if the line of the baseline is not indented, or the old
baseline admits the size. -/
theorem size_update_effective_iff {config : Text} {budget : SizeBudget}
    (h : budget.DeclaredBy config) (hbounded : budget.Bounded) {size : Nat}
    (hfits : size * (100 + budget.growthPct) < shellSize) :
    (sizeGate config ⟨some size, none, true, false⟩).2 = 0 ∧
    ((sizeGate (sizeGate config ⟨some size, none, true, false⟩).1
        ⟨some size, none, false, false⟩).2 = 0 ↔
      size ≤ budget.ceiling ∧ (KeyLines.Flush isConfigDigit baselineKey config ∨
        size * 100 ≤ budget.baseline * (100 + budget.growthPct))) := by
  rw [sizeGate_of_declared h hbounded (fits_of_size hfits true)]
  refine ⟨rfl, ?_⟩
  show (sizeGate (KeyLines.rewrite baselineKey (display size) config) _).2 = 0 ↔ _
  by_cases hflush : KeyLines.Flush isConfigDigit baselineKey config
  · have hbounded' : SizeBudget.Bounded { budget with baseline := size } :=
      ⟨hfits, hbounded.ceiling⟩
    have hgrowth : size * 100 ≤ size * (100 + budget.growthPct) :=
      Nat.mul_le_mul_left size (Nat.le_add_right ..)
    rw [check_succeeds_iff (h.rewrite hflush size) hbounded' hfits]
    show size * 100 ≤ size * (100 + budget.growthPct) ∧ size ≤ budget.ceiling ↔ _
    rw [and_iff_right hgrowth, and_iff_left (Or.inl hflush)]
  · -- the baseline line is indented, and stays as it is
    obtain ⟨digits, hfields, -⟩ := h.baseline
    have hindented := KeyLines.indented_of_not_flush hfields hflush
    rw [KeyLines.rewrite_of_indented baselineKey_isKey hindented,
      check_succeeds_iff h hbounded hfits,
      or_iff_right hflush]
    exact and_comm

def testConfig : Text := "# gate\nbaseline_bytes = 53_432\nmax_growth_pct=5 # percent\n".toList ++
  "  ceiling_bytes = 98304\nnetwork_limit_bytes = 131072".toList

def testBudget : SizeBudget := ⟨53432, 5, 98304, 131072⟩

theorem testBudget_declared : testBudget.DeclaredBy testConfig where
  baseline := ⟨"53_432".toList, by decide, by decide⟩
  growthPct := ⟨['5'], by decide, by decide⟩
  ceiling := ⟨"98304".toList, by decide, by decide⟩
  limit := ⟨"131072".toList, by decide, by decide⟩

theorem testBudget_bounded : testBudget.Bounded := ⟨by decide, by decide⟩

theorem size_gate_refines_fixture :
    (Machine.transcript sizeGate testConfig [⟨some 60000, none, false, false⟩,
      ⟨some 60000, none, true, false⟩, ⟨some 60000, none, false, false⟩]).map Prod.snd =
        [1, 0, 0] := by
  have hflush : KeyLines.Flush isConfigDigit baselineKey testConfig := by
    unfold KeyLines.Flush
    decide
  have hfits : ∀ run ∈ [(⟨some 60000, none, false, false⟩ : SizeRun),
      ⟨some 60000, none, true, false⟩, ⟨some 60000, none, false, false⟩],
      testBudget.Fits run := by
    have hsize : 60000 * (100 + testBudget.growthPct) < shellSize := by decide
    intro run hrun
    simp only [List.mem_cons, List.not_mem_nil, or_false] at hrun
    rcases hrun with rfl | rfl | rfl <;> exact fits_of_size hsize _
  rw [(size_gate_refines testBudget_declared hflush testBudget_bounded hfits).1]
  decide

theorem size_update_effective_iff_fixture :
    (sizeGate (sizeGate (' ' :: testConfig.drop 7) ⟨some 60000, none, true, false⟩).1
      ⟨some 60000, none, false, false⟩).2 ≠ 0 := by
  have hdeclared : testBudget.DeclaredBy (' ' :: testConfig.drop 7) := by
    exact ⟨⟨"53_432".toList, by decide, by decide⟩, ⟨['5'], by decide, by decide⟩,
      ⟨"98304".toList, by decide, by decide⟩, ⟨"131072".toList, by decide, by decide⟩⟩
  intro hsucceeds
  obtain ⟨-, hflush | hsmall⟩ := (size_update_effective_iff hdeclared testBudget_bounded
    (by decide)).2.mp hsucceeds
  · revert hflush
    unfold KeyLines.Flush
    decide
  · exact absurd hsmall (by decide)

end Synapse
