import SynapseCore.Rendering.BehaviourTrace
import SynapseCore.Rendering.LineDiff

/-! The comparison of two build profiles by their behaviour traces, and its two self-tests: a
fixture that writes to the ledger under `debug_assertions` only, and a write injected before
the final dump. -/

namespace Synapse
open Text Alignment

/-- What a build makes of the corpus, and the ledger that leaves. -/
structure Build (Contract Address Other Key Data : Type) where
  debugAssertions : Bool
  corpus : List (Invocation Contract Address Other Key Data)
  ledger : LedgerSnapshot Key Data

/-! ## The divergence fixture -/

/-- The ledger entries of the registered fixture. Of its instance, the data show whether `dbg`
is set. -/
structure FixtureContract (Key Data : Type) where
  others : LedgerSnapshot Key Data
  key : Key
  data : Bool → Data
  liveUntil : Option UInt32
  data_injective : Function.Injective data

/-- `DivergenceFixture::probe`: whether `dbg` is set behind it, and what it returns. -/
def probe (debugAssertions dbg : Bool) : Bool × UInt32 :=
  (if debugAssertions then true else dbg, 7)

section Trace
variable {Contract Address Other Key Data : Type} (shown : Displays Address Other)
  (toXdr : ScVal Address Other → List UInt8) (xdrKey : Key → List UInt8)
  (xdrData : Data → List UInt8) (fixture : FixtureContract Key Data)

def FixtureContract.entries (debugAssertions : Bool) : LedgerSnapshot Key Data :=
  fixture.others ++ [(fixture.key, fixture.data (probe debugAssertions false).1, fixture.liveUntil)]

/-- The invocation that `rec!` notes, with `format!("{:?}", Ok(Ok(7)))`. -/
def fixtureProbe (build : Build Contract Address Other Key Data) :
    Invocation Contract Address Other Key Data where
  name := ['f', 'i', 'x', 't', 'u', 'r', 'e', ' ', 'p', 'r', 'o', 'b', 'e']
  result := ['O', 'k', '(', 'O', 'k', '('] ++ display (probe build.debugAssertions false).2.toNat ++
    [')', ')']
  succeeded := true
  events := []
  ledger := build.ledger ++ fixture.entries build.debugAssertions

/-- The corpus of a run, with the fixture where it is included. -/
def Build.run (build : Build Contract Address Other Key Data) (includeFixture : Bool) :
    List (Invocation Contract Address Other Key Data) :=
  if includeFixture then build.corpus ++ [fixtureProbe fixture build] else build.corpus

def Build.final (build : Build Contract Address Other Key Data) (includeFixture : Bool) :
    LedgerSnapshot Key Data :=
  if includeFixture then build.ledger ++ fixture.entries build.debugAssertions else build.ledger

def behaviourTraceWith (build : Build Contract Address Other Key Data) (includeFixture : Bool)
    (extra : LedgerSnapshot Key Data → LedgerSnapshot Key Data) : Text :=
  behaviourTrace shown toXdr xdrKey xdrData (build.run fixture includeFixture)
    (extra (build.final fixture includeFixture))

/-- The file that `profile_diff_emit_trace` writes, unless it finds the trace too small. -/
def profileDiffEmitTrace (build : Build Contract Address Other Key Data) (includeFixture : Bool) :
    Option Text :=
  let trace := behaviourTraceWith shown toXdr xdrKey xdrData fixture build includeFixture id
  if ['s', 't', 'e', 'p', 's', ':', ' '] <:+: trace ∧ (lines trace).length > 100 then some trace
  else none

/-- The exit status of `diff_profiles.sh`: a failed test ends it with the status of `cargo test`,
an empty trace with `1`. -/
def diffProfiles (selfTest : Bool) (release withLogs : Build Contract Address Other Key Data) :
    Nat :=
  match profileDiffEmitTrace shown toXdr xdrKey xdrData fixture release selfTest with
  | none => 101
  | some a =>
    if a.isEmpty then 1
    else
      match profileDiffEmitTrace shown toXdr xdrKey xdrData fixture withLogs selfTest with
      | none => 101
      | some b =>
        if b.isEmpty then 1
        else if a = b then (if selfTest then 1 else 0)
        else if selfTest then 0 else 1

end Trace

/-! ## The corpus is large enough for the test -/

section Emitted
variable {Contract Address Other Key Data : Type} {shown : Displays Address Other}
  {toXdr : ScVal Address Other → List UInt8} {xdrKey : Key → List UInt8}
  {xdrData : Data → List UInt8} {fixture : FixtureContract Key Data}
  {build : Build Contract Address Other Key Data}

variable (shown toXdr xdrKey xdrData) in
theorem length_traceLines (n : Nat) (run : List (Invocation Contract Address Other Key Data)) :
    2 * run.length ≤ (traceLines shown toXdr xdrKey xdrData n run).length := by
  induction run generalizing n with
  | nil => exact Nat.zero_le _
  | cons i run ih =>
    have hrest := ih (n + 1)
    simp only [traceLines, invocationBody, List.length_cons, List.length_append, List.length_nil]
    omega

theorem lines_behaviourTrace (hshown : shown.OneLine)
    {run : List (Invocation Contract Address Other Key Data)} (hrun : ∀ i ∈ run, i.OneLine)
    (final : LedgerSnapshot Key Data) :
    lines (behaviourTrace shown toXdr xdrKey xdrData run final) =
      (traceLines shown toXdr xdrKey xdrData 0 run ++
        closingLines xdrKey xdrData run.length final).map
          fun line => (stripSuffix '\r' line).getD line := by
  rw [behaviourTrace_eq, lines_unlines_eq (newline_not_mem_trace hshown hrun _ _)]

variable (shown toXdr xdrKey xdrData) in
theorem steps_infix_behaviourTrace (run : List (Invocation Contract Address Other Key Data))
    (final : LedgerSnapshot Key Data) :
    ['s', 't', 'e', 'p', 's', ':', ' '] <:+:
      behaviourTrace shown toXdr xdrKey xdrData run final := by
  rw [behaviourTrace_eq, unlines_append, closingLines, unlines_cons]
  refine List.IsInfix.trans ?_ (List.suffix_append _ _).isInfix
  rw [List.append_assoc]
  exact (List.prefix_append _ _).isInfix

theorem profileDiffEmitTrace_eq (hshown : shown.OneLine) {includeFixture : Bool}
    (hrun : ∀ i ∈ build.run fixture includeFixture, i.OneLine)
    (hcorpus : 50 ≤ build.corpus.length) :
    profileDiffEmitTrace shown toXdr xdrKey xdrData fixture build includeFixture =
      some (behaviourTraceWith shown toXdr xdrKey xdrData fixture build includeFixture id) := by
  have hlength : build.corpus.length ≤ (build.run fixture includeFixture).length := by
    unfold Build.run
    split_ifs <;> simp
  have hlines := length_traceLines shown toXdr xdrKey xdrData 0 (build.run fixture includeFixture)
  unfold profileDiffEmitTrace
  refine if_pos ⟨steps_infix_behaviourTrace shown toXdr xdrKey xdrData _ _, ?_⟩
  rw [behaviourTraceWith, lines_behaviourTrace hshown hrun]
  simp only [List.length_map, List.length_append, closingLines, List.length_cons]
  omega

theorem behaviourTrace_ne_nil (run : List (Invocation Contract Address Other Key Data))
    (final : LedgerSnapshot Key Data) :
    behaviourTrace shown toXdr xdrKey xdrData run final ≠ [] := by
  intro hnil
  have hsteps := steps_infix_behaviourTrace shown toXdr xdrKey xdrData run final
  rw [hnil] at hsteps
  cases List.eq_nil_of_infix_nil hsteps

theorem diffProfiles_eq (hshown : shown.OneLine) {selfTest : Bool}
    {release withLogs : Build Contract Address Other Key Data}
    (hrun : ∀ i ∈ release.run fixture selfTest ++ withLogs.run fixture selfTest, i.OneLine)
    (hcorpus : 50 ≤ release.corpus.length) (hcorpus' : 50 ≤ withLogs.corpus.length) :
    diffProfiles shown toXdr xdrKey xdrData fixture selfTest release withLogs = 0 ↔
      (behaviourTraceWith shown toXdr xdrKey xdrData fixture release selfTest id =
        behaviourTraceWith shown toXdr xdrKey xdrData fixture withLogs selfTest id ↔
          selfTest = false) := by
  have hrelease := fun i hi => hrun i (List.mem_append_left _ hi)
  have hlogs := fun i hi => hrun i (List.mem_append_right _ hi)
  have hfull : ∀ build : Build Contract Address Other Key Data,
      (behaviourTraceWith shown toXdr xdrKey xdrData fixture build selfTest id).isEmpty = false :=
    fun build => List.isEmpty_eq_false_iff.mpr (behaviourTrace_ne_nil _ _)
  simp only [diffProfiles, profileDiffEmitTrace_eq hshown hrelease hcorpus,
    profileDiffEmitTrace_eq hshown hlogs hcorpus', hfull, Bool.false_eq_true, if_false]
  by_cases hsame : behaviourTraceWith shown toXdr xdrKey xdrData fixture release selfTest id =
      behaviourTraceWith shown toXdr xdrKey xdrData fixture withLogs selfTest id
  · rw [if_pos hsame, iff_true_left hsame]
    cases selfTest <;> decide
  · rw [if_neg hsame, iff_false_left hsame]
    cases selfTest <;> decide

end Emitted

/-! ## What the script finds -/

section Scripts
variable {Contract Address Other Key Data : Type} {fixture : FixtureContract Key Data}

/-- The fixture leaves other entries where it writes, whatever else the ledger holds. -/
theorem final_ne_of_fixture {release withLogs : Build Contract Address Other Key Data}
    (hrelease : release.debugAssertions = false) (hlogs : withLogs.debugAssertions = true)
    (hfresh : ∀ entry ∈ release.ledger ++ fixture.others, entry.1 ≠ fixture.key) :
    (release.final fixture true : Multiset (Key × Data × Option UInt32)) ≠
      withLogs.final fixture true := by
  intro hsame
  have hmem : (fixture.key, fixture.data (probe true false).1, fixture.liveUntil) ∈
      release.final fixture true := by
    rw [← Multiset.mem_coe, hsame, Multiset.mem_coe]
    simp [Build.final, FixtureContract.entries, hlogs]
  simp only [Build.final, FixtureContract.entries, hrelease, if_true, ← List.append_assoc,
    List.mem_append, List.mem_singleton] at hmem
  rcases hmem with hmem | hmem
  · exact hfresh _ (List.mem_append.mpr hmem) rfl
  · have hdata := fixture.data_injective (Prod.ext_iff.mp (Prod.ext_iff.mp hmem).2).1
    cases hdata

theorem mem_runs {release withLogs : Build Contract Address Other Key Data}
    {i : Invocation Contract Address Other Key Data}
    (hi : i ∈ release.run fixture true ++ withLogs.run fixture true) :
    i ∈ release.corpus ++ withLogs.corpus ∨ i = fixtureProbe fixture release ∨
      i = fixtureProbe fixture withLogs := by
  simp only [Build.run, if_true, List.mem_append, List.mem_singleton] at hi ⊢
  tauto

theorem oneLine_fixtureProbe (build : Build Contract Address Other Key Data) :
    (fixtureProbe fixture build).OneLine := by
  have hname : '\n' ∉ (fixtureProbe fixture build).name := by
    simp [fixtureProbe]
  have hresult : '\n' ∉ (fixtureProbe fixture build).result := by
    simp [fixtureProbe, not_mem_display]
  exact ⟨hname, hresult⟩

end Scripts

/-- **The script compares behaviour, and its self-test cannot fail.** Two builds pass exactly if
they show the same names, outcomes, events and digests on the corpus and leave the same ledger;
with the fixture included, the builds are always told apart. -/
theorem diff_profiles_exact {Contract Address Other Key Data : Type}
    {shown : Displays Address Other} (hshown : shown.OneLine)
    {toXdr : ScVal Address Other → List UInt8} {wire : Set (ScVal Address Other)}
    (hxdr : Set.InjOn toXdr wire) {xdrKey : Key → List UInt8} {xdrData : Data → List UInt8}
    (hkey : Function.Injective xdrKey) (hdata : Function.Injective xdrData)
    (fixture : FixtureContract Key Data)
    {release withLogs : Build Contract Address Other Key Data}
    (hrelease : release.debugAssertions = false) (hlogs : withLogs.debugAssertions = true)
    (hnoted : ∀ i ∈ release.corpus ++ withLogs.corpus, i.Noted)
    (hwire : ∀ i ∈ release.corpus ++ withLogs.corpus, ∀ event ∈ i.events, OnWire wire event.2)
    (hcorpus : 50 ≤ release.corpus.length) (hcorpus' : 50 ≤ withLogs.corpus.length)
    (hfresh : ∀ entry ∈ release.ledger ++ fixture.others, entry.1 ≠ fixture.key) :
    (diffProfiles shown toXdr xdrKey xdrData fixture false release withLogs = 0 ↔
      release.corpus.map (observed xdrKey xdrData) = withLogs.corpus.map (observed xdrKey xdrData) ∧
        (release.ledger : Multiset (Key × Data × Option UInt32)) = withLogs.ledger) ∧
    diffProfiles shown toXdr xdrKey xdrData fixture true release withLogs = 0 := by
  have hlines : ∀ i ∈ release.corpus ++ withLogs.corpus, i.OneLine :=
    fun i hi => (hnoted i hi).oneLine
  constructor
  · rw [diffProfiles_eq hshown hlines hcorpus hcorpus', iff_true_right rfl]
    rw [← Canonical.mergeSort_map_eq_iff (renderLedgerEntry_injective hkey hdata),
      ← map_traced_eq_iff hnoted]
    constructor
    · exact traced_of_trace hshown hxdr hlines hwire
    · rintro ⟨hrun, hledger⟩
      exact behaviourTrace_congr hrun hledger
  · have hruns : ∀ i ∈ release.run fixture true ++ withLogs.run fixture true,
        i.OneLine ∧ ∀ event ∈ i.events, OnWire wire event.2 := by
      intro i hi
      rcases mem_runs hi with hcorpus | hprobe
      · exact ⟨hlines i hcorpus, hwire i hcorpus⟩
      · rcases hprobe with rfl | rfl <;> exact ⟨oneLine_fixtureProbe _, by simp [fixtureProbe]⟩
    rw [diffProfiles_eq hshown (fun i hi => (hruns i hi).1) hcorpus hcorpus']
    refine iff_of_false (fun hsame => ?_) (by decide)
    have hfinal := (traced_of_trace hshown hxdr (fun i hi => (hruns i hi).1)
      (fun i hi => (hruns i hi).2) hsame).2
    refine final_ne_of_fixture hrelease hlogs hfresh ?_
    exact (Canonical.mergeSort_map_eq_iff (renderLedgerEntry_injective hkey hdata) _ _).mp hfinal

/-! In the fixture the corpus is one call fifty times. The entry data are those of a contract
instance, with and without `dbg` in its storage. -/

def instanceKeyXdr : Unit → List UInt8 := fun _ =>
  xdrWord 6 ++ xdrWord 1 ++ List.replicate 32 7 ++ xdrWord 20 ++ xdrWord 1

def instanceXdr (dbg : Bool) : List UInt8 :=
  xdrWord 6 ++ xdrWord 0 ++ xdrWord 1 ++ List.replicate 32 7 ++ xdrWord 20 ++ xdrWord 1 ++
    xdrWord 19 ++ xdrWord 0 ++ List.replicate 32 9 ++
      if dbg then xdrWord 1 ++ xdrWord 1 ++ xdrSymbol ⟨['d', 'b', 'g'], by decide, by decide⟩ ++
        xdrWord 0 ++ xdrWord 1
      else xdrWord 0

theorem instanceXdr_injective : Function.Injective instanceXdr := by
  have hne : instanceXdr false ≠ instanceXdr true := by
    simp [instanceXdr, xdrWord, xdrSymbol]
  intro dbg dbg' h
  cases dbg <;> cases dbg'
  · rfl
  · exact absurd h hne
  · exact absurd h.symm hne
  · rfl

def testFixture : FixtureContract Unit Bool where
  others := []
  key := ()
  data := id
  liveUntil := none
  data_injective := Function.injective_id

def fiftyCalls (debugAssertions : Bool) (ledger : LedgerSnapshot Unit Bool) :
    Build Nat Unit Empty Unit Bool :=
  ⟨debugAssertions,
    List.replicate 50 ⟨['p'], ['O', 'k', '(', 'O', 'k', '(', '7', ')', ')'], true, [], []⟩, ledger⟩

theorem fiftyCalls_noted (debugAssertions : Bool) (ledger : LedgerSnapshot Unit Bool) :
    ∀ i ∈ (fiftyCalls debugAssertions ledger).corpus, i.Noted := by
  intro i hi
  rw [List.eq_of_mem_replicate hi]
  exact ⟨⟨by simp, by simp⟩, by simp, rfl⟩

theorem diff_profiles_exact_fixture :
    diffProfiles testDisplays xdrOneTopic instanceKeyXdr instanceXdr testFixture false
        (fiftyCalls false []) (fiftyCalls true []) = 0 ∧
      diffProfiles testDisplays xdrOneTopic instanceKeyXdr instanceXdr testFixture true
        (fiftyCalls false []) (fiftyCalls true []) = 0 := by
  have hsilent : ∀ i ∈ (fiftyCalls false []).corpus ++ (fiftyCalls true []).corpus,
      i.Noted ∧ i.events = [] := by
    intro i hi
    rcases List.mem_append.mp hi with hi | hi <;>
      exact ⟨fiftyCalls_noted _ _ i hi, by rw [List.eq_of_mem_replicate hi]⟩
  have hexact := diff_profiles_exact testDisplays_oneLine xdrOneTopic_injOn
    (Function.injective_of_subsingleton instanceKeyXdr) instanceXdr_injective testFixture rfl rfl
    (fun i hi => (hsilent i hi).1) (fun i hi => by simp [(hsilent i hi).2]) (Nat.le_refl 50)
    (Nat.le_refl 50) (by simp [fiftyCalls, testFixture])
  exact ⟨hexact.1.mpr ⟨rfl, rfl⟩, hexact.2⟩

/-! ## A difference of the ledger only -/

section Injected
variable {Contract Address Other Key Data : Type} {shown : Displays Address Other}
  {toXdr : ScVal Address Other → List UInt8} {xdrKey : Key → List UInt8}
  {xdrData : Data → List UInt8}

theorem isLine_row {ledger : LedgerSnapshot Key Data} {row : Text}
    (h : row ∈ renderLedgerState xdrKey xdrData ledger) : IsLine (indent row) := by
  refine ⟨newline_not_mem_indent (newline_not_mem_rows ledger row h), fun hlast => ?_⟩
  obtain ⟨entry, -, rfl⟩ := List.mem_map.mp ((List.mergeSort_perm _ _).mem_iff.mp h)
  -- a row ends with a number or with `none`
  have hshow : renderTtl entry.2.2 ≠ [] ∧ '\r' ∉ renderTtl entry.2.2 := by
    cases entry.2.2 with
    | none => decide
    | some l => exact ⟨display_ne_nil _, not_mem_display rfl _⟩
  have hend := List.getLast?_append_of_ne_nil (indent (xdrHex xdrKey entry.1 ++ " => ".toList ++
    xdrHex xdrData entry.2.1 ++ " ttl=".toList)) hshow.1
  exact hshow.2 (List.mem_of_getLast? (hend.symm.trans hlast))

/-- The lines of a trace in front of the ledger. -/
def frontLines (shown : Displays Address Other) (toXdr : ScVal Address Other → List UInt8)
    (xdrKey : Key → List UInt8) (xdrData : Data → List UInt8)
    (run : List (Invocation Contract Address Other Key Data)) : List Text :=
  (traceLines shown toXdr xdrKey xdrData 0 run ++
    [['s', 't', 'e', 'p', 's', ':', ' '] ++ display run.length, "final ledger state:".toList]).map
      fun line => (stripSuffix '\r' line).getD line

theorem lines_behaviourTrace_rows (hshown : shown.OneLine)
    {run : List (Invocation Contract Address Other Key Data)} (hrun : ∀ i ∈ run, i.OneLine)
    (final : LedgerSnapshot Key Data) :
    lines (behaviourTrace shown toXdr xdrKey xdrData run final) =
      frontLines shown toXdr xdrKey xdrData run ++
        (renderLedgerState xdrKey xdrData final).map indent := by
  have hrows : ((renderLedgerState xdrKey xdrData final).map indent).map
      (fun line => (stripSuffix '\r' line).getD line) =
        (renderLedgerState xdrKey xdrData final).map indent := by
    refine (List.map_congr_left fun line hline => ?_).trans (List.map_id _)
    obtain ⟨row, hrow, rfl⟩ := List.mem_map.mp hline
    rw [stripSuffix_eq_none (isLine_row hrow).2]
    rfl
  rw [lines_behaviourTrace hshown hrun, frontLines, ← hrows, ← List.map_append, closingLines]
  simp only [List.append_assoc, List.cons_append, List.nil_append]

end Injected

/-- **A change of the ledger alone is reported.** Whatever is written before the final dump, if
it changes an entry and removes none, the line diff of the two traces has an added line. -/
theorem state_only_divergence_reported {Contract Address Other Key Data : Type}
    {shown : Displays Address Other} (hshown : shown.OneLine)
    (toXdr : ScVal Address Other → List UInt8) {xdrKey : Key → List UInt8}
    {xdrData : Data → List UInt8} (hkey : Function.Injective xdrKey)
    (hdata : Function.Injective xdrData) (fixture : FixtureContract Key Data)
    {build : Build Contract Address Other Key Data} (hlines : ∀ i ∈ build.corpus, i.OneLine)
    {extra : LedgerSnapshot Key Data → LedgerSnapshot Key Data}
    (hne : (build.ledger : Multiset (Key × Data × Option UInt32)) ≠ extra build.ledger)
    (hlength : build.ledger.length ≤ (extra build.ledger).length) :
    ∃ diff, lineDiff (behaviourTraceWith shown toXdr xdrKey xdrData fixture build false id)
        (behaviourTraceWith shown toXdr xdrKey xdrData fixture build false extra) = some diff ∧
      ∃ line ∈ lines diff, ['+'] <+: line := by
  have hrows : renderLedgerState xdrKey xdrData build.ledger ≠
      renderLedgerState xdrKey xdrData (extra build.ledger) := by
    intro heq
    exact hne ((Canonical.mergeSort_map_eq_iff (renderLedgerEntry_injective hkey hdata) _ _).mp heq)
  have hbase : lines (behaviourTraceWith shown toXdr xdrKey xdrData fixture build false id) = _ :=
    lines_behaviourTrace_rows hshown hlines build.ledger
  have hdiverged :
      lines (behaviourTraceWith shown toXdr xdrKey xdrData fixture build false extra) = _ :=
    lines_behaviourTrace_rows hshown hlines (extra build.ledger)
  have hother : lines (behaviourTraceWith shown toXdr xdrKey xdrData fixture build false id) ≠
      lines (behaviourTraceWith shown toXdr xdrKey xdrData fixture build false extra) := by
    rw [hbase, hdiverged, ne_eq, List.append_cancel_left_eq]
    exact fun heq => hrows (List.map_injective_iff.mpr indent_injective heq)
  obtain ⟨line, hadded⟩ := exists_added hother (by
    rw [hbase, hdiverged]
    simp [renderLedgerState, hlength])
  refine ⟨_, lineDiff_of_ne fun heq => hother (congrArg lines heq), ?_⟩
  · rw [lines_unlines_eq fun _ hentry => newline_not_mem_diffEntries hentry]
    refine ⟨_, List.mem_map_of_mem (List.mem_map_of_mem hadded), ?_⟩
    exact (List.prefix_append ['+'] [' ']).trans (mark_prefix_stripSuffix '+' line)

theorem state_only_divergence_reported_fixture :
    ∃ diff, lineDiff
        (behaviourTraceWith testDisplays xdrOneTopic instanceKeyXdr instanceXdr testFixture
          (fiftyCalls false [((), false, none)]) false id)
        (behaviourTraceWith testDisplays xdrOneTopic instanceKeyXdr instanceXdr testFixture
          (fiftyCalls false [((), false, none)]) false fun _ => [((), true, none)]) = some diff ∧
      ∃ line ∈ lines diff, ['+'] <+: line :=
  state_only_divergence_reported testDisplays_oneLine xdrOneTopic
    (Function.injective_of_subsingleton _) instanceXdr_injective testFixture
    (fun i hi => (fiftyCalls_noted _ _ i hi).oneLine) (by simp [fiftyCalls]) (by simp [fiftyCalls])

end Synapse
