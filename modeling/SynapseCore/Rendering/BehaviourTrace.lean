import SynapseCore.Rendering.LastEvents
import SynapseCore.Rendering.StateDigest

/-! The behaviour trace that two build profiles are compared by: for each invocation its
result, its events and a digest of the ledger, and at the end the ledger itself. -/

namespace Synapse
open Text Readable

/-- What a run shows of one invocation. A failed one has rolled its events back. -/
structure Invocation (Contract Address Other Key Data : Type) where
  name : Text
  result : Text
  succeeded : Bool
  events : List (PublishedEvent Contract Address Other)
  ledger : LedgerSnapshot Key Data

structure Trace where
  lines : List Text
  step : Nat

def indent (line : Text) : Text := ' ' :: ' ' :: ' ' :: ' ' :: line

/-- `format!("#{:03} {name} => {result}", step)` -/
def headLine (step : Nat) (name result : Text) : Text :=
  '#' :: (zeroPad 3 (display step) ++ ' ' :: (name ++ [' ', '=', '>', ' '] ++ result))

/-- `format!("    state: {:016x}", digest)` -/
def stateLine (digest : UInt64) : Text :=
  indent (['s', 't', 'a', 't', 'e', ':', ' '] ++ zeroPad 16 (displayHex digest.toNat))

section Trace
variable {Contract Address Other Key Data : Type} (shown : Displays Address Other)
  (toXdr : ScVal Address Other → List UInt8) (xdrKey : Key → List UInt8)
  (xdrData : Data → List UInt8)

/-- The dump of the ledger as one text, in bytes. -/
def stateBytes (ledger : LedgerSnapshot Key Data) : List UInt8 :=
  Utf8.encode (['\n'].intercalate (renderLedgerState xdrKey xdrData ledger))

def stateDigest (ledger : LedgerSnapshot Key Data) : UInt64 :=
  fnv1a64 (stateBytes xdrKey xdrData ledger)

def invocationBody (i : Invocation Contract Address Other Key Data) : List Text :=
  (if i.succeeded then (renderLastEvents shown toXdr i.events).map indent else []) ++
    [stateLine (stateDigest xdrKey xdrData i.ledger)]

def Trace.record (t : Trace) (i : Invocation Contract Address Other Key Data) : Trace where
  lines := t.lines ++ headLine (t.step + 1) i.name i.result ::
    invocationBody shown toXdr xdrKey xdrData i
  step := t.step + 1

def closingLines (steps : Nat) (final : LedgerSnapshot Key Data) : List Text :=
  (['s', 't', 'e', 'p', 's', ':', ' '] ++ display steps) :: "final ledger state:".toList ::
    (renderLedgerState xdrKey xdrData final).map indent

def Trace.finish (t : Trace) (final : LedgerSnapshot Key Data) : Text :=
  ['\n'].intercalate (t.lines ++ closingLines xdrKey xdrData t.step final) ++ ['\n']

/-- The trace of a run of the corpus, which leaves the ledger `final`. -/
def behaviourTrace (run : List (Invocation Contract Address Other Key Data))
    (final : LedgerSnapshot Key Data) : Text :=
  (run.foldl (Trace.record shown toXdr xdrKey xdrData) ⟨[], 0⟩).finish xdrKey xdrData final

/-- What is to be seen of an invocation: its name and outcome, its events, unless it failed, and
the digest. -/
def observed (i : Invocation Contract Address Other Key Data) :
    Text × Text × Bool × List (List (ScVal Address Other) × ScVal Address Other) × UInt64 :=
  (i.name, i.result, i.succeeded, if i.succeeded then i.events.map Prod.snd else [],
    stateDigest xdrKey xdrData i.ledger)

/-- What the trace keeps of it: name and result in one text, and no flag. -/
def traced (i : Invocation Contract Address Other Key Data) :
    Text × List (List (ScVal Address Other) × ScVal Address Other) × UInt64 :=
  (i.name ++ [' ', '=', '>', ' '] ++ i.result, if i.succeeded then i.events.map Prod.snd else [],
    stateDigest xdrKey xdrData i.ledger)

/-! ## The lines of a trace -/

def traceLines : Nat → List (Invocation Contract Address Other Key Data) → List Text
  | _, [] => []
  | n, i :: run =>
    headLine (n + 1) i.name i.result ::
      (invocationBody shown toXdr xdrKey xdrData i ++ traceLines (n + 1) run)

theorem foldl_record (run : List (Invocation Contract Address Other Key Data)) (t : Trace) :
    run.foldl (Trace.record shown toXdr xdrKey xdrData) t =
      ⟨t.lines ++ traceLines shown toXdr xdrKey xdrData t.step run, t.step + run.length⟩ := by
  induction run generalizing t with
  | nil => simp [traceLines]
  | cons i run ih =>
    rw [List.foldl_cons, ih]
    simp [Trace.record, traceLines]
    omega

theorem intercalate_newline {ls : List Text} (h : ls ≠ []) :
    ['\n'].intercalate ls ++ ['\n'] = unlines ls := by
  induction ls with
  | nil => exact absurd rfl h
  | cons line ls ih =>
    cases ls with
    | nil => simp [unlines]
    | cons line' ls =>
      rw [List.intercalate_cons_cons, unlines_cons, ← ih (by simp)]
      simp

theorem behaviourTrace_eq (run : List (Invocation Contract Address Other Key Data))
    (final : LedgerSnapshot Key Data) :
    behaviourTrace shown toXdr xdrKey xdrData run final =
      unlines (traceLines shown toXdr xdrKey xdrData 0 run ++
        closingLines xdrKey xdrData run.length final) := by
  rw [behaviourTrace, foldl_record, Trace.finish, intercalate_newline (by simp [closingLines])]
  simp

end Trace

/-! ## Nothing observed is lost -/

section Faithful
variable {Contract Address Other Key Data : Type} {shown : Displays Address Other}
  {toXdr : ScVal Address Other → List UInt8} {xdrKey : Key → List UInt8}
  {xdrData : Data → List UInt8}

def IsHead (line : Text) : Prop := line.head? ≠ some ' '

theorem indent_injective : Function.Injective indent := by
  intro line line' h
  simpa [indent] using h

theorem stateLine_injective : Function.Injective stateLine := by
  intro d d' h
  have hpad := List.append_cancel_left (indent_injective h)
  have hvalue := congrArg ofHex hpad
  rw [ofHex_zeroPad, ofHex_zeroPad, ofHex_displayHex, ofHex_displayHex] at hvalue
  exact UInt64.toNat_inj.mp hvalue

theorem headLine_inj {n : Nat} {name name' result result' : Text}
    (h : headLine n name result = headLine n name' result') :
    name ++ [' ', '=', '>', ' '] ++ result = name' ++ [' ', '=', '>', ' '] ++ result' := by
  simpa [headLine] using h

theorem not_isHead_invocationBody (i : Invocation Contract Address Other Key Data) :
    ∀ line ∈ invocationBody shown toXdr xdrKey xdrData i, ¬ IsHead line := by
  intro line hline
  rcases List.mem_append.mp hline with hevent | hstate
  · split_ifs at hevent
    · obtain ⟨event, -, rfl⟩ := List.mem_map.mp hevent
      simp [IsHead, indent]
    · cases hevent
  · rw [List.mem_singleton.mp hstate]
    simp [IsHead, stateLine, indent]

theorem invocationBody_inj {wire : Set (ScVal Address Other)} (hxdr : Set.InjOn toXdr wire)
    {i i' : Invocation Contract Address Other Key Data}
    (hi : ∀ event ∈ i.events, OnWire wire event.2) (hi' : ∀ event ∈ i'.events, OnWire wire event.2)
    (h : invocationBody shown toXdr xdrKey xdrData i =
      invocationBody shown toXdr xdrKey xdrData i') :
    (traced xdrKey xdrData i).2 = (traced xdrKey xdrData i').2 := by
  obtain ⟨hevents, hstate⟩ := List.append_inj' h rfl
  have hdigest := stateLine_injective (List.cons.inj hstate).1
  have hnone : ∀ {events : List (PublishedEvent Contract Address Other)},
      (renderLastEvents shown toXdr events).map indent = [] → events = [] := by
    intro events hempty
    rw [List.map_eq_nil_iff] at hempty
    cases events with
    | nil => rfl
    | cons event events => cases hempty
  refine Prod.ext ?_ hdigest
  dsimp only [traced]
  split_ifs at hevents ⊢ with hok hok' hok'
  · exact renderLastEvents_inj hxdr hi hi' (List.map_injective_iff.mpr indent_injective hevents)
  · rw [hnone hevents, List.map_nil]
  · rw [hnone hevents.symm, List.map_nil]
  · rfl

theorem stops_traceLines (n : Nat) (run : List (Invocation Contract Address Other Key Data))
    (steps : Nat) (final : LedgerSnapshot Key Data) :
    Stops IsHead (traceLines shown toXdr xdrKey xdrData n run ++
      closingLines xdrKey xdrData steps final) := by
  cases run <;> simp [traceLines, closingLines, IsHead, headLine]

theorem traceLines_inj {wire : Set (ScVal Address Other)} (hxdr : Set.InjOn toXdr wire)
    {run run' : List (Invocation Contract Address Other Key Data)}
    (hrun : ∀ i ∈ run, ∀ event ∈ i.events, OnWire wire event.2)
    (hrun' : ∀ i ∈ run', ∀ event ∈ i.events, OnWire wire event.2) {n steps steps' : Nat}
    {final final' : LedgerSnapshot Key Data}
    (h : traceLines shown toXdr xdrKey xdrData n run ++ closingLines xdrKey xdrData steps final =
      traceLines shown toXdr xdrKey xdrData n run' ++ closingLines xdrKey xdrData steps' final') :
    run.map (traced xdrKey xdrData) = run'.map (traced xdrKey xdrData) ∧
      renderLedgerState xdrKey xdrData final = renderLedgerState xdrKey xdrData final' := by
  induction run generalizing run' n with
  | nil =>
    cases run' with
    | nil =>
      refine ⟨rfl, ?_⟩
      have hrows := (List.cons.inj (List.cons.inj h).2).2
      exact List.map_injective_iff.mpr indent_injective hrows
    | cons i run' => simp [traceLines, closingLines, headLine] at h
  | cons i run ih =>
    cases run' with
    | nil => simp [traceLines, closingLines, headLine] at h
    | cons i' run' =>
      simp only [traceLines, List.cons_append, List.append_assoc, List.cons.injEq] at h
      obtain ⟨hhead, hrest⟩ := h
      obtain ⟨hbody, hrest⟩ := words_inj (not_isHead_invocationBody i)
        (not_isHead_invocationBody i') (stops_traceLines (n + 1) run steps final)
        (stops_traceLines (n + 1) run' steps' final') hrest
      have hi := invocationBody_inj hxdr (hrun i (List.mem_cons_self ..))
        (hrun' i' (List.mem_cons_self ..)) hbody
      obtain ⟨hmap, hfinal⟩ := ih (fun j hj => hrun j (List.mem_cons_of_mem i hj))
        (fun j hj => hrun' j (List.mem_cons_of_mem i' hj)) hrest
      refine ⟨?_, hfinal⟩
      rw [List.map_cons, List.map_cons, hmap, Prod.ext (headLine_inj hhead) hi]

/-! ## Each line is one line -/

def Invocation.OneLine (i : Invocation Contract Address Other Key Data) : Prop :=
  '\n' ∉ i.name ∧ '\n' ∉ i.result

theorem newline_not_mem_zeroPad (width : Nat) {s : Text} (h : '\n' ∉ s) :
    '\n' ∉ zeroPad width s := by
  simp [zeroPad, h]

theorem newline_not_mem_indent {line : Text} (h : '\n' ∉ line) : '\n' ∉ indent line := by
  simpa [indent] using h

theorem newline_not_mem_stateLine (digest : UInt64) : '\n' ∉ stateLine digest := by
  have hhex : '\n' ∉ displayHex digest.toNat := fun hmem => by cases digit_of_mem_displayHex hmem
  exact newline_not_mem_indent (by simp [newline_not_mem_zeroPad 16 hhex])

theorem newline_not_mem_rows (ledger : LedgerSnapshot Key Data) :
    ∀ row ∈ renderLedgerState xdrKey xdrData ledger, '\n' ∉ row := by
  intro row hrow
  obtain ⟨entry, -, rfl⟩ := List.mem_map.mp ((List.mergeSort_perm _ _).mem_iff.mp hrow)
  have httl : '\n' ∉ renderTtl entry.2.2 := by
    cases entry.2.2 with
    | none => decide
    | some l => exact not_mem_display rfl _
  simp [renderLedgerEntry, xdrHex, newline_not_mem_hex, httl]

theorem newline_not_mem_traceLines (hshown : shown.OneLine)
    {run : List (Invocation Contract Address Other Key Data)} (hrun : ∀ i ∈ run, i.OneLine)
    (n : Nat) : ∀ line ∈ traceLines shown toXdr xdrKey xdrData n run, '\n' ∉ line := by
  induction run generalizing n with
  | nil => simp [traceLines]
  | cons i run ih =>
    intro line hline
    obtain ⟨hname, hresult⟩ := hrun i (List.mem_cons_self ..)
    rcases List.mem_cons.mp hline with rfl | hline
    · have hnumber := newline_not_mem_zeroPad 3 (not_mem_display (c := '\n') rfl (n + 1))
      simp [headLine, hnumber, hname, hresult]
    rcases List.mem_append.mp hline with hbody | hrest
    · rcases List.mem_append.mp hbody with hevent | hstate
      · split_ifs at hevent
        · obtain ⟨event, hmem, rfl⟩ := List.mem_map.mp hevent
          exact newline_not_mem_indent (newline_not_mem_renderLastEvents hshown hmem)
        · cases hevent
      · rw [List.mem_singleton.mp hstate]
        exact newline_not_mem_stateLine _
    · exact ih (fun j hj => hrun j (List.mem_cons_of_mem i hj)) (n + 1) line hrest

theorem newline_not_mem_closingLines (steps : Nat) (final : LedgerSnapshot Key Data) :
    ∀ line ∈ closingLines xdrKey xdrData steps final, '\n' ∉ line := by
  intro line hline
  simp only [closingLines, List.mem_cons, List.mem_map] at hline
  rcases hline with rfl | rfl | ⟨row, hrow, rfl⟩
  · simp [not_mem_display]
  · decide
  · exact newline_not_mem_indent (newline_not_mem_rows final row hrow)

theorem traceLines_congr {run run' : List (Invocation Contract Address Other Key Data)}
    (h : run.map (traced xdrKey xdrData) = run'.map (traced xdrKey xdrData)) (n : Nat) :
    traceLines shown toXdr xdrKey xdrData n run = traceLines shown toXdr xdrKey xdrData n run' := by
  have hlines : ∀ n, ∀ i : Invocation Contract Address Other Key Data,
      headLine (n + 1) i.name i.result :: invocationBody shown toXdr xdrKey xdrData i =
        ('#' :: (zeroPad 3 (display (n + 1)) ++ ' ' :: (traced xdrKey xdrData i).1)) ::
          (((traced xdrKey xdrData i).2.1.flatMap (renderEvent shown toXdr)).map indent ++
            [stateLine (traced xdrKey xdrData i).2.2]) := by
    intro n i
    simp only [headLine, invocationBody, traced, renderLastEvents_eq]
    split_ifs <;> rfl
  induction run generalizing run' n with
  | nil => rw [List.map_eq_nil_iff.mp h.symm]
  | cons i run ih =>
    cases run' with
    | nil => cases h
    | cons i' run' =>
      obtain ⟨hi, hrun⟩ := List.cons.inj h
      rw [traceLines, traceLines, ← List.cons_append, ← List.cons_append, hlines, hlines, hi,
        ih hrun]

theorem newline_not_mem_trace (hshown : shown.OneLine)
    {run : List (Invocation Contract Address Other Key Data)} (hrun : ∀ i ∈ run, i.OneLine)
    (steps : Nat) (final : LedgerSnapshot Key Data) :
    ∀ line ∈ traceLines shown toXdr xdrKey xdrData 0 run ++
      closingLines xdrKey xdrData steps final, '\n' ∉ line := by
  intro line hline
  rcases List.mem_append.mp hline with hline | hline
  · exact newline_not_mem_traceLines hshown hrun 0 line hline
  · exact newline_not_mem_closingLines steps final line hline

/-- The invocations can be read off the trace, as far as it keeps them. -/
theorem traced_of_trace (hshown : shown.OneLine) {wire : Set (ScVal Address Other)}
    (hxdr : Set.InjOn toXdr wire) {run run' : List (Invocation Contract Address Other Key Data)}
    (hlines : ∀ i ∈ run ++ run', i.OneLine)
    (hwire : ∀ i ∈ run ++ run', ∀ event ∈ i.events, OnWire wire event.2)
    {final final' : LedgerSnapshot Key Data}
    (h : behaviourTrace shown toXdr xdrKey xdrData run final =
      behaviourTrace shown toXdr xdrKey xdrData run' final') :
    run.map (traced xdrKey xdrData) = run'.map (traced xdrKey xdrData) ∧
      renderLedgerState xdrKey xdrData final = renderLedgerState xdrKey xdrData final' := by
  rw [behaviourTrace_eq, behaviourTrace_eq] at h
  refine traceLines_inj hxdr (fun i hi => hwire i (List.mem_append_left _ hi))
    (fun i hi => hwire i (List.mem_append_right _ hi)) (unlines_inj ?_ ?_ h)
  · exact newline_not_mem_trace hshown (fun i hi => hlines i (List.mem_append_left _ hi)) _ _
  · exact newline_not_mem_trace hshown (fun i hi => hlines i (List.mem_append_right _ hi)) _ _

theorem behaviourTrace_congr {run run' : List (Invocation Contract Address Other Key Data)}
    {final final' : LedgerSnapshot Key Data}
    (hrun : run.map (traced xdrKey xdrData) = run'.map (traced xdrKey xdrData))
    (hfinal : renderLedgerState xdrKey xdrData final = renderLedgerState xdrKey xdrData final') :
    behaviourTrace shown toXdr xdrKey xdrData run final =
      behaviourTrace shown toXdr xdrKey xdrData run' final' := by
  have hlength := congrArg List.length hrun
  rw [List.length_map, List.length_map] at hlength
  rw [behaviourTrace_eq, behaviourTrace_eq, traceLines_congr hrun, hlength, closingLines,
    closingLines, hfinal]

/-! ## The head line tells name and outcome apart -/

/-- As `rec!` notes an invocation: the name has no arrow, and the flag is read off the result,
`Ok(Ok(..))` or another. -/
structure Invocation.Noted (i : Invocation Contract Address Other Key Data) : Prop where
  oneLine : i.OneLine
  name : '>' ∉ i.name
  succeeded : i.succeeded = decide (['O', 'k', '(', 'O', 'k', '('] <+: i.result)

theorem name_result_inj {name name' result result' : Text} (hname : '>' ∉ name)
    (hname' : '>' ∉ name')
    (h : name ++ [' ', '=', '>', ' '] ++ result = name' ++ [' ', '=', '>', ' '] ++ result') :
    name = name' ∧ result = result' := by
  have hbefore : ∀ {s : Text}, '>' ∉ s → ∀ c ∈ s ++ [' ', '='], ¬ c = '>' := by
    rintro s hs c hc rfl
    simp [hs] at hc
  have hsplit : (name ++ [' ', '=']) ++ ('>' :: ' ' :: result) =
      (name' ++ [' ', '=']) ++ ('>' :: ' ' :: result') := by simpa using h
  obtain ⟨hfront, hback⟩ := words_inj (hbefore hname) (hbefore hname')
    (stops_cons.mpr rfl) (stops_cons.mpr rfl) hsplit
  exact ⟨List.append_cancel_right hfront, (List.cons.inj (List.cons.inj hback).2).2⟩

theorem traced_eq_iff {i i' : Invocation Contract Address Other Key Data} (hi : i.Noted)
    (hi' : i'.Noted) :
    traced xdrKey xdrData i = traced xdrKey xdrData i' ↔
      observed xdrKey xdrData i = observed xdrKey xdrData i' := by
  simp only [traced, observed, Prod.mk.injEq]
  constructor
  · rintro ⟨hhead, hevents, hdigest⟩
    obtain ⟨hname, hresult⟩ := name_result_inj hi.name hi'.name hhead
    refine ⟨hname, hresult, ?_, hevents, hdigest⟩
    rw [hi.succeeded, hi'.succeeded, hresult]
  · rintro ⟨hname, hresult, -, hevents, hdigest⟩
    exact ⟨by rw [hname, hresult], hevents, hdigest⟩

theorem map_traced_eq_iff {run run' : List (Invocation Contract Address Other Key Data)}
    (hnoted : ∀ i ∈ run ++ run', i.Noted) :
    run.map (traced xdrKey xdrData) = run'.map (traced xdrKey xdrData) ↔
      run.map (observed xdrKey xdrData) = run'.map (observed xdrKey xdrData) := by
  induction run generalizing run' with
  | nil => cases run' <;> simp
  | cons i run ih =>
    cases run' with
    | nil => simp
    | cons i' run' =>
      have hi := hnoted i (by simp)
      have hi' := hnoted i' (by simp)
      have hrest : ∀ j ∈ run ++ run', j.Noted := by
        intro j hj
        rcases List.mem_append.mp hj with hmem | hmem
        · exact hnoted j (by simp [hmem])
        · exact hnoted j (by simp [hmem])
      rw [List.map_cons, List.map_cons, List.map_cons, List.map_cons, List.cons.injEq,
        List.cons.injEq, traced_eq_iff hi hi', ih hrest]

end Faithful

/-- **The trace is exact.** Two runs have one trace exactly if they show the same names and
outcomes, the same events and the same digests, invocation by invocation, and leave the same
entries in the ledger. -/
theorem behaviour_trace_exact {Contract Address Other Key Data : Type}
    {shown : Displays Address Other} (hshown : shown.OneLine)
    {toXdr : ScVal Address Other → List UInt8} {wire : Set (ScVal Address Other)}
    (hxdr : Set.InjOn toXdr wire) {xdrKey : Key → List UInt8} {xdrData : Data → List UInt8}
    (hkey : Function.Injective xdrKey) (hdata : Function.Injective xdrData)
    {run run' : List (Invocation Contract Address Other Key Data)}
    (hnoted : ∀ i ∈ run ++ run', i.Noted)
    (hwire : ∀ i ∈ run ++ run', ∀ event ∈ i.events, OnWire wire event.2)
    (final final' : LedgerSnapshot Key Data) :
    behaviourTrace shown toXdr xdrKey xdrData run final =
        behaviourTrace shown toXdr xdrKey xdrData run' final' ↔
      run.map (observed xdrKey xdrData) = run'.map (observed xdrKey xdrData) ∧
        (final : Multiset (Key × Data × Option UInt32)) = final' := by
  rw [← Canonical.mergeSort_map_eq_iff (renderLedgerEntry_injective hkey hdata),
    ← map_traced_eq_iff hnoted]
  constructor
  · exact traced_of_trace hshown hxdr (fun i hi => (hnoted i hi).oneLine) hwire
  · rintro ⟨hrun, hfinal⟩
    exact behaviourTrace_congr hrun hfinal

/-! The fixture is a probe that answers alike and writes an entry in one profile only. -/

def probeRun (ledger : LedgerSnapshot UInt32 UInt32) :
    List (Invocation Nat Unit Empty UInt32 UInt32) :=
  [⟨['p'], ['O', 'k', '(', 'O', 'k', '(', '7', ')', ')'], true, [], ledger⟩]

theorem probeRun_noted (ledger : LedgerSnapshot UInt32 UInt32) :
    ∀ i ∈ probeRun ledger, i.Noted := by
  intro i hi
  rw [List.mem_singleton.mp hi]
  exact ⟨⟨by simp, by simp⟩, by simp, rfl⟩

theorem behaviour_trace_exact_fixture :
    behaviourTrace testDisplays xdrOneTopic configKeyXdr configDataXdr (probeRun []) [] ≠
      behaviourTrace testDisplays xdrOneTopic configKeyXdr configDataXdr
        (probeRun [(0, 1, none)]) [(0, 1, none)] := by
  have hkey : Function.Injective configKeyXdr := fun m n h =>
    xdrWord_injective (List.append_cancel_left h)
  have hdata : Function.Injective configDataXdr := fun m n h =>
    xdrWord_injective (List.append_cancel_left h)
  intro hsame
  have hnoted : ∀ i ∈ probeRun [] ++ probeRun [(0, 1, none)], i.Noted := by
    intro i hi
    exact (List.mem_append.mp hi).elim (probeRun_noted _ i) (probeRun_noted _ i)
  have hfinal := ((behaviour_trace_exact testDisplays_oneLine xdrOneTopic_injOn hkey hdata hnoted
    (by simp [probeRun]) _ _).mp hsame).2
  simp at hfinal

/-- **A passing state shows in the trace.** If after some invocation the dumps of two runs
differ in a burst of up to four bytes, the traces differ, also where the ledgers agree again
in the end. -/
theorem behaviour_trace_shows_bursts {Contract Address Other Key Data : Type}
    {shown : Displays Address Other} (hshown : shown.OneLine)
    {toXdr : ScVal Address Other → List UInt8} {wire : Set (ScVal Address Other)}
    (hxdr : Set.InjOn toXdr wire) {xdrKey : Key → List UInt8} {xdrData : Data → List UInt8}
    {run run' : List (Invocation Contract Address Other Key Data)}
    (hlines : ∀ i ∈ run ++ run', i.OneLine)
    (hwire : ∀ i ∈ run ++ run', ∀ event ∈ i.events, OnWire wire event.2) {n : Nat}
    {i i' : Invocation Contract Address Other Key Data} (hi : run[n]? = some i)
    (hi' : run'[n]? = some i') {front back w w' : List UInt8}
    (hdump : stateBytes xdrKey xdrData i.ledger = front ++ w ++ back)
    (hdump' : stateBytes xdrKey xdrData i'.ledger = front ++ w' ++ back)
    (hlength : w.length = w'.length) (hfour : w.length ≤ 4) (hne : w ≠ w')
    (final final' : LedgerSnapshot Key Data) :
    behaviourTrace shown toXdr xdrKey xdrData run final ≠
      behaviourTrace shown toXdr xdrKey xdrData run' final' := by
  intro hsame
  have hobserved := congrArg (·[n]?) (traced_of_trace hshown hxdr hlines hwire hsame).1
  simp only [List.getElem?_map, hi, hi', Option.map_some, Option.some.injEq] at hobserved
  have hdigest := congrArg (fun o => o.2.2) hobserved
  simp only [traced, stateDigest, hdump, hdump'] at hdigest
  exact hne (window_of_digest hlength hfour hdigest)

/-- The entry is written with another live-until ledger, and gone at the end of both runs. -/
theorem behaviour_trace_shows_bursts_fixture :
    behaviourTrace testDisplays xdrOneTopic configKeyXdr configDataXdr
        (probeRun [(0, 1, some 7)]) [] ≠
      behaviourTrace testDisplays xdrOneTopic configKeyXdr configDataXdr
        (probeRun [(0, 1, some 8)]) [] := by
  have hdump : ∀ l : UInt32, stateBytes configKeyXdr configDataXdr [(0, 1, some l)] =
      Utf8.encode (hex (configKeyXdr 0) ++ " => ".toList ++ hex (configDataXdr 1) ++
        " ttl=".toList) ++ Utf8.encode (display l.toNat) ++ [] := by
    intro l
    rw [stateBytes, renderLedgerState, List.map_singleton, List.mergeSort_singleton,
      List.intercalate_singleton, List.append_nil, renderLedgerEntry, renderTtl, Utf8.encode,
      List.flatMap_append]
    rfl
  exact behaviour_trace_shows_bursts testDisplays_oneLine xdrOneTopic_injOn
    (by simp [probeRun, Invocation.OneLine]) (by simp [probeRun])
    (show (probeRun _)[0]? = _ from rfl) (show (probeRun _)[0]? = _ from rfl) (hdump 7) (hdump 8)
    (by decide) (by decide) (by decide) _ _

end Synapse
