import SynapseCore.Contract.Types
import SynapseCore.Gate.Comparison

/-! The baseline file of the resource gate: its line-based parser and its renderer. -/

namespace Synapse
open Text

def defaultThresholdPct : UInt64 := 15

/-- What the parser carries from line to line. -/
structure ParseState where
  thresholdPct : UInt64
  entries : BTreeMap Text (Option UInt64 × Option UInt64)
  current : Option Text

def lineError (lineno : Nat) (message : Text) : Text :=
  "line ".toList ++ display (lineno + 1) ++ ": ".toList ++ message

def unknownKey (lineno : Nat) (key : Text) : Text :=
  lineError lineno ("unknown key `".toList ++ key ++ "`".toList)

/-- The `match` on section and key. `get_mut(s).unwrap()` panics on a section without entry. -/
def assignKey (lineno : Nat) (key : Text) (value : UInt64) (st : ParseState) :
    Outcome Text ParseState :=
  match st.current with
  | none =>
    if key = "threshold_pct".toList then some (.ok { st with thresholdPct := value })
    else some (.error (unknownKey lineno key))
  | some name =>
    if key = Metric.cpuInsns.name then
      match st.entries[name]? with
      | none => none
      | some entry => some (.ok { st with entries := st.entries.insert name (some value, entry.2) })
    else if key = Metric.memBytes.name then
      match st.entries[name]? with
      | none => none
      | some entry => some (.ok { st with entries := st.entries.insert name (entry.1, some value) })
    else some (.error (unknownKey lineno key))

def parseLine (lineno : Nat) (raw : Text) (st : ParseState) : Outcome Text ParseState :=
  let line := trim (firstPiece '#' raw)
  if line = [] then some (.ok st)
  else
    match (stripPrefix '[' line).bind (stripSuffix ']') with
    | some name =>
      let name := trim name
      some (.ok { st with
        entries := st.entries.insertIfNew name (none, none), current := some name })
    | none =>
      match splitOnce '=' line with
      | none => some (.error (lineError lineno "expected `key = value`".toList))
      | some (key, value) =>
        match parseNat UInt64.size (erase '_' (trim value)) with
        | none => some (.error (lineError lineno
            ("`".toList ++ trim value ++ "` is not an integer".toList)))
        | some n => assignKey lineno (trim key) (UInt64.ofNat n) st

/-- The `for` loop over the numbered lines. -/
def parseLines : Nat → List Text → ParseState → Outcome Text ParseState
  | _, [], st => some (.ok st)
  | lineno, raw :: rest, st =>
    match parseLine lineno raw st with
    | none => none
    | some (.error e) => some (.error e)
    | some (.ok st) => parseLines (lineno + 1) rest st

/-- The closing `for` loop: an entry with both metrics is a cost. -/
def completeEntries : List (Text × (Option UInt64 × Option UInt64)) → BTreeMap Text Cost →
    Except Text (BTreeMap Text Cost)
  | [], out => .ok out
  | (name, entry) :: rest, out =>
    match entry with
    | (some cpuInsns, some memBytes) => completeEntries rest (out.insert name ⟨cpuInsns, memBytes⟩)
    | _ => .error ("[".toList ++ name ++ "] needs both cpu_insns and mem_bytes".toList)

def parseBaseline (src : Text) : Outcome Text Baseline :=
  match parseLines 0 (lines src) ⟨defaultThresholdPct, ∅, none⟩ with
  | none => none
  | some (.error e) => some (.error e)
  | some (.ok st) =>
    match completeEntries st.entries.toList ∅ with
    | .error e => some (.error e)
    | .ok entries => some (.ok ⟨st.thresholdPct, entries⟩)

def headerLines : List Text :=
  ["# Resource-usage baseline for the release WASM (#119).".toList, "#".toList,
    "# Generated by `scripts/check_resource_budget.sh --update`; do not edit".toList,
    "# numbers by hand. See COST_MODEL.md §12 for the update process.".toList, []]

def renderEntry (entry : Text × Cost) : Text :=
  "\n[".toList ++ entry.1 ++ "]\ncpu_insns = ".toList ++ display entry.2.cpuInsns.toNat ++
    "\nmem_bytes = ".toList ++ display entry.2.memBytes.toNat ++ "\n".toList

def renderBaseline (thresholdPct : UInt64) (measured : BTreeMap Text Cost) : Text :=
  unlines headerLines ++ "threshold_pct = ".toList ++ display thresholdPct.toNat ++ "\n".toList ++
    measured.toList.flatMap renderEntry

/-! ## No line makes the parser panic -/

def Opened (st : ParseState) : Prop := ∀ name, st.current = some name → name ∈ st.entries

theorem Opened.insert {st : ParseState} (h : Opened st) (name : Text)
    (noted : Option UInt64 × Option UInt64) :
    Opened { st with entries := st.entries.insert name noted } := by
  intro current hcurrent
  exact Std.ExtTreeMap.mem_insert.mpr (Or.inr (h current hcurrent))

def StaysOpened (out : Outcome Text ParseState) : Prop :=
  ∃ result, out = some result ∧ ∀ st, result = .ok st → Opened st

theorem staysOpened_ok {st : ParseState} (h : Opened st) : StaysOpened (some (.ok st)) := by
  refine ⟨_, rfl, fun st' hst' => ?_⟩
  obtain rfl := Except.ok.inj hst'
  exact h

theorem staysOpened_error (e : Text) : StaysOpened (some (.error e)) := by
  refine ⟨_, rfl, fun st' hst' => ?_⟩
  cases hst'

theorem staysOpened_assignKey {st : ParseState} (h : Opened st) (lineno : Nat) (key : Text)
    (value : UInt64) : StaysOpened (assignKey lineno key value st) := by
  obtain ⟨thresholdPct, entries, current⟩ := st
  unfold assignKey
  rcases current with _ | name
  · dsimp only
    split_ifs
    · exact staysOpened_ok h
    · exact staysOpened_error _
  · -- the entry the source unwraps is there
    obtain ⟨entry, hentry⟩ := BTreeMap.mem_iff_getElem?.mp (h name rfl)
    dsimp only
    rw [hentry]
    split_ifs
    · exact staysOpened_ok (h.insert name _)
    · exact staysOpened_ok (h.insert name _)
    · exact staysOpened_error _

theorem staysOpened_parseLine {st : ParseState} (h : Opened st) (lineno : Nat) (raw : Text) :
    StaysOpened (parseLine lineno raw st) := by
  unfold parseLine
  dsimp only
  split_ifs
  · exact staysOpened_ok h
  rcases (stripPrefix '[' (trim (firstPiece '#' raw))).bind (stripSuffix ']') with _ | name
  · dsimp only
    rcases splitOnce '=' (trim (firstPiece '#' raw)) with _ | ⟨key, value⟩
    · exact staysOpened_error _
    dsimp only
    rcases parseNat UInt64.size (erase '_' (trim value)) with _ | n
    · exact staysOpened_error _
    · exact staysOpened_assignKey h lineno _ _
  · apply staysOpened_ok
    intro current hcurrent
    obtain rfl := Option.some.inj hcurrent
    exact Std.ExtTreeMap.mem_insertIfNew_self

theorem parseLines_ne_none {st : ParseState} (h : Opened st) (ls : List Text) (lineno : Nat) :
    parseLines lineno ls st ≠ none := by
  induction ls generalizing lineno st with
  | nil => exact Option.some_ne_none _
  | cons raw rest ih =>
    obtain ⟨result, hresult, hopened⟩ := staysOpened_parseLine h lineno raw
    rw [parseLines, hresult]
    cases result with
    | error e => exact Option.some_ne_none _
    | ok st' => exact ih (hopened st' rfl) (lineno + 1)

/-- The `unwrap` on the entry of the section never panics, whatever the file. -/
theorem parseBaseline_ne_none (src : Text) : parseBaseline src ≠ none := by
  have hstart : Opened ⟨defaultThresholdPct, ∅, none⟩ := by
    intro name hname
    cases hname
  have hlines := parseLines_ne_none hstart (lines src) 0
  unfold parseBaseline
  cases hparse : parseLines 0 (lines src) ⟨defaultThresholdPct, ∅, none⟩ with
  | none => exact absurd hparse hlines
  | some result =>
    cases result with
    | error e => exact Option.some_ne_none _
    | ok st =>
      dsimp only
      cases completeEntries st.entries.toList ∅ with
      | error e => exact Option.some_ne_none _
      | ok entries => exact Option.some_ne_none _

/-! ## The rendered file line by line -/

def assignment (key : Text) (value : UInt64) : Text := key ++ " = ".toList ++ display value.toNat

def entryLines (entry : Text × Cost) : List Text :=
  [[], '[' :: entry.1 ++ [']'], assignment Metric.cpuInsns.name entry.2.cpuInsns,
    assignment Metric.memBytes.name entry.2.memBytes]

def renderedLines (thresholdPct : UInt64) (measured : BTreeMap Text Cost) : List Text :=
  headerLines ++ [assignment "threshold_pct".toList thresholdPct] ++
    measured.toList.flatMap entryLines

theorem renderEntry_eq (entry : Text × Cost) : renderEntry entry = unlines (entryLines entry) := by
  have hopen : "\n[".toList = ['\n', '['] := by rfl
  have hcpu : "]\ncpu_insns = ".toList =
      ']' :: '\n' :: Metric.cpuInsns.name ++ " = ".toList := by rfl
  have hmem : "\nmem_bytes = ".toList = '\n' :: Metric.memBytes.name ++ " = ".toList := by rfl
  have hend : "\n".toList = ['\n'] := by rfl
  unfold renderEntry entryLines assignment unlines
  rw [hopen, hcpu, hmem, hend]
  simp only [List.flatMap_cons, List.flatMap_nil, List.append_assoc, List.cons_append,
    List.nil_append]

theorem renderBaseline_eq (thresholdPct : UInt64) (measured : BTreeMap Text Cost) :
    renderBaseline thresholdPct measured = unlines (renderedLines thresholdPct measured) := by
  have hentries : measured.toList.flatMap renderEntry =
      unlines (measured.toList.flatMap entryLines) := by
    induction measured.toList with
    | nil => rfl
    | cons entry entries ih =>
      rw [List.flatMap_cons, ih, renderEntry_eq, List.flatMap_cons]
      exact (unlines_append _ _).symm
  have hthreshold : "threshold_pct = ".toList = "threshold_pct".toList ++ " = ".toList := by rfl
  have hend : "\n".toList = ['\n'] := by rfl
  have hline : unlines [assignment "threshold_pct".toList thresholdPct] =
      "threshold_pct = ".toList ++ display thresholdPct.toNat ++ "\n".toList := by
    unfold unlines assignment
    rw [hthreshold, hend]
    simp only [List.flatMap_cons, List.flatMap_nil, List.append_nil]
  unfold renderBaseline renderedLines
  rw [hentries, unlines_append, unlines_append, hline]
  simp only [List.append_assoc]

/-! ## Reading the rendered lines -/

/-- The lines take the parser from one state to the other, whatever their numbers. -/
inductive Reads : List Text → ParseState → ParseState → Prop
  | nil (st : ParseState) : Reads [] st st
  | cons {line : Text} {ls : List Text} {st st' st'' : ParseState} :
      (∀ lineno, parseLine lineno line st = some (.ok st')) → Reads ls st' st'' →
        Reads (line :: ls) st st''

theorem Reads.append {ls ls' : List Text} {st st' st'' : ParseState} (h : Reads ls st st')
    (h' : Reads ls' st' st'') : Reads (ls ++ ls') st st'' := by
  induction h with
  | nil st => exact h'
  | cons hline _ ih => exact .cons hline (ih h')

theorem Reads.parseLines_eq {ls : List Text} {st st' : ParseState} (h : Reads ls st st')
    (lineno : Nat) : parseLines lineno ls st = some (.ok st') := by
  induction h generalizing lineno with
  | nil st => rfl
  | cons hline _ ih =>
    rw [parseLines, hline lineno]
    exact ih (lineno + 1)

theorem parseLine_skip {raw : Text} (h : trim (firstPiece '#' raw) = []) (lineno : Nat)
    (st : ParseState) : parseLine lineno raw st = some (.ok st) := by
  unfold parseLine
  exact if_pos h

theorem parseLine_comment {raw : Text} (h : raw.head? = some '#') (lineno : Nat)
    (st : ParseState) : parseLine lineno raw st = some (.ok st) := by
  apply parseLine_skip
  obtain ⟨rest, rfl⟩ := List.head?_eq_some_iff.mp h
  rfl

/-- The names a section line gives back: trimmed, without comment sign or newline. -/
def PlainName (name : Text) : Prop := trim name = name ∧ '#' ∉ name ∧ '\n' ∉ name

theorem parseLine_section {name : Text} (h : PlainName name) (lineno : Nat) (st : ParseState) :
    parseLine lineno ('[' :: name ++ [']']) st =
      some (.ok { st with entries := st.entries.insertIfNew name (none, none),
                          current := some name }) := by
  have hcomment : '#' ∉ '[' :: name ++ [']'] := by
    intro hmem
    rcases List.mem_append.mp hmem with hmem | hmem
    · rcases List.mem_cons.mp hmem with heq | hname
      · exact absurd heq (by decide)
      · exact h.2.1 hname
    · exact absurd (List.mem_singleton.mp hmem) (by decide)
  have htrim : trim ('[' :: name ++ [']']) = '[' :: name ++ [']'] := by
    apply trim_eq_self
    · intro c hc
      rw [← Option.some.inj hc]
      rfl
    · intro c hc
      rw [List.getLast?_concat] at hc
      rw [← Option.some.inj hc]
      rfl
  have hprefix : stripPrefix '[' ('[' :: name ++ [']']) = some (name ++ [']']) := by
    rw [List.cons_append, stripPrefix, if_pos rfl]
  have hne : '[' :: name ++ [']'] ≠ [] := List.cons_ne_nil _ _
  unfold parseLine
  dsimp only
  rw [firstPiece_of_not_mem hcomment, htrim, if_neg hne, hprefix,
    Option.bind_some, stripSuffix_concat]
  dsimp only
  rw [h.1]

/-- The keys an assignment line gives back. -/
structure PlainKey (key : Text) : Prop where
  visible : ∀ c ∈ key.head?, isWhitespace c = false ∧ c ≠ '['
  nonempty : key ≠ []
  trimmed : trim (key ++ [' ']) = key
  unsplit : '=' ∉ key
  uncommented : '#' ∉ key

theorem assignment_eq (key : Text) (value : UInt64) :
    assignment key value = (key ++ [' ']) ++ '=' :: ' ' :: display value.toNat := by
  have hequals : " = ".toList = [' ', '=', ' '] := by rfl
  rw [assignment, hequals]
  simp only [List.append_assoc, List.cons_append, List.nil_append]

theorem not_mem_assignment {key : Text} {c : Char} (hkey : c ∉ key) (hspace : c ≠ ' ')
    (hequals : c ≠ '=') (hdigit : c.isDigit = false) (value : UInt64) :
    c ∉ assignment key value := by
  rw [assignment_eq]
  simp only [List.mem_append, List.mem_cons, List.not_mem_nil, or_false, not_or]
  exact ⟨⟨hkey, hspace⟩, hequals, hspace, not_mem_display hdigit value.toNat⟩

theorem getLast?_assignment (key : Text) (value : UInt64) :
    ∀ c ∈ (assignment key value).getLast?, c.isDigit = true := by
  intro c hc
  unfold assignment at hc
  rw [List.getLast?_append_of_ne_nil _ (display_ne_nil _)] at hc
  exact digit_of_mem_display (List.mem_of_mem_getLast? hc)

theorem parseLine_assignment {key : Text} (h : PlainKey key) (value : UInt64) (lineno : Nat)
    (st : ParseState) :
    parseLine lineno (assignment key value) st = assignKey lineno key value st := by
  have hhead : ∀ c ∈ (assignment key value).head?, isWhitespace c = false ∧ c ≠ '[' := by
    intro c hc
    rw [assignment, List.append_assoc, List.head?_append_of_ne_nil _ h.nonempty] at hc
    exact h.visible c hc
  have hcomment : '#' ∉ assignment key value :=
    not_mem_assignment h.uncommented (by decide) (by decide) rfl value
  have htrim : trim (assignment key value) = assignment key value := by
    apply trim_eq_self
    · intro c hc
      exact (hhead c hc).1
    · intro c hc
      exact whitespace_of_isDigit (getLast?_assignment key value c hc)
  have hne : assignment key value ≠ [] := by
    rw [assignment_eq]
    simp
  have hprefix : stripPrefix '[' (assignment key value) = none := by
    cases hline : assignment key value with
    | nil => rfl
    | cons c s =>
      rw [hline] at hhead
      exact if_neg (hhead c rfl).2
  have hunsplit : '=' ∉ key ++ [' '] := by
    simp only [List.mem_append, List.mem_cons, List.not_mem_nil, or_false, not_or]
    exact ⟨h.unsplit, by decide⟩
  have hvalue : parseNat UInt64.size (erase '_' (trim (' ' :: display value.toNat))) =
      some value.toNat := by
    have hspace : isWhitespace ' ' = true := rfl
    rw [trim_cons_of_whitespace hspace, trim_display,
      erase_of_not_mem (not_mem_display rfl value.toNat), parseNat_display value.toNat_lt_size]
  unfold parseLine
  dsimp only
  rw [firstPiece_of_not_mem hcomment, htrim, if_neg hne, hprefix, Option.bind_none]
  dsimp only
  rw [assignment_eq, splitOnce_append hunsplit]
  dsimp only
  rw [hvalue, h.trimmed]
  dsimp only
  rw [UInt64.ofNat_toNat]

def isKeyChar (c : Char) : Bool := c.isLower || c == '_'

theorem whitespace_of_isKeyChar {c : Char} (h : isKeyChar c = true) : isWhitespace c = false := by
  have hrange : 95 ≤ c.toNat ∧ c.toNat ≤ 122 := by
    rcases Bool.or_eq_true_iff.mp h with hlower | hunderscore
    · obtain ⟨hge, hle⟩ := Bool.and_eq_true_iff.mp hlower
      have hge' : 97 ≤ c.toNat := UInt32.le_iff_toNat_le.mp (of_decide_eq_true hge)
      have hle' : c.toNat ≤ 122 := UInt32.le_iff_toNat_le.mp (of_decide_eq_true hle)
      omega
    · rw [eq_of_beq hunderscore]
      decide
  simp only [isWhitespace, Bool.or_eq_false_iff, Bool.and_eq_false_iff, decide_eq_false_iff_not,
    beq_eq_false_iff_ne]
  omega

theorem plainKey_of_keyChars {key : Text} (hne : key ≠ []) (h : key.all isKeyChar = true) :
    PlainKey key := by
  have hall : ∀ c ∈ key, isKeyChar c = true := List.all_eq_true.mp h
  have hnot : ∀ c, isKeyChar c = false → c ∉ key := by
    intro c hc hmem
    rw [hall c hmem] at hc
    cases hc
  have hhead : ∀ c ∈ key.head?, isWhitespace c = false := fun c hc =>
    whitespace_of_isKeyChar (hall c (List.mem_of_mem_head? hc))
  have hlast : ∀ c ∈ key.getLast?, isWhitespace c = false := fun c hc =>
    whitespace_of_isKeyChar (hall c (List.mem_of_mem_getLast? hc))
  constructor
  · intro c hc
    refine ⟨hhead c hc, ?_⟩
    intro hbracket
    have hkey := hall c (List.mem_of_mem_head? hc)
    rw [hbracket] at hkey
    cases hkey
  · exact hne
  · exact trim_concat_of_whitespace hne hhead hlast rfl
  · exact hnot '=' rfl
  · exact hnot '#' rfl

theorem plainKey_threshold : PlainKey "threshold_pct".toList :=
  plainKey_of_keyChars (by simp) (by simp [isKeyChar])

/-- The metric names character by character, for `decide` to look at. -/
theorem Metric.name_chars (metric : Metric) : metric.name = match metric with
    | .cpuInsns => ['c', 'p', 'u', '_', 'i', 'n', 's', 'n', 's']
    | .memBytes => ['m', 'e', 'm', '_', 'b', 'y', 't', 'e', 's'] := by
  cases metric with
  | cpuInsns => rfl
  | memBytes => rfl

theorem plainKey_metric (metric : Metric) : PlainKey metric.name := by
  rw [Metric.name_chars]
  cases metric with
  | cpuInsns => exact plainKey_of_keyChars (by decide) (by decide)
  | memBytes => exact plainKey_of_keyChars (by decide) (by decide)

theorem headerLines_spec :
    ∀ line ∈ headerLines, IsLine line ∧ (line = [] ∨ line.head? = some '#') := by
  unfold headerLines IsLine
  simp

theorem reads_skipped {ls : List Text} (h : ∀ line ∈ ls, line = [] ∨ line.head? = some '#')
    (st : ParseState) : Reads ls st st := by
  induction ls with
  | nil => exact .nil st
  | cons line ls ih =>
    have hrest : Reads ls st st := ih fun l hl => h l (List.mem_cons_of_mem line hl)
    refine .cons (fun lineno => ?_) hrest
    rcases h line (List.mem_cons_self ..) with rfl | hcomment
    · exact parseLine_skip rfl lineno st
    · exact parseLine_comment hcomment lineno st

theorem reads_threshold (thresholdPct : UInt64) {st : ParseState} (h : st.current = none) :
    Reads [assignment "threshold_pct".toList thresholdPct] st
      { st with thresholdPct := thresholdPct } := by
  refine .cons (fun lineno => ?_) (.nil _)
  rw [parseLine_assignment plainKey_threshold, assignKey, h]
  exact if_pos rfl

def noted (cost : Cost) : Option UInt64 × Option UInt64 := (some cost.cpuInsns, some cost.memBytes)

theorem assignKey_cpuInsns {st : ParseState} {name : Text} (hcurrent : st.current = some name)
    {old : Option UInt64 × Option UInt64} (hold : st.entries[name]? = some old) (value : UInt64)
    (lineno : Nat) :
    assignKey lineno Metric.cpuInsns.name value st =
      some (.ok { st with entries := st.entries.insert name (some value, old.2) }) := by
  unfold assignKey
  rw [hcurrent]
  dsimp only
  rw [if_pos rfl, hold]

theorem assignKey_memBytes {st : ParseState} {name : Text} (hcurrent : st.current = some name)
    {old : Option UInt64 × Option UInt64} (hold : st.entries[name]? = some old) (value : UInt64)
    (lineno : Nat) :
    assignKey lineno Metric.memBytes.name value st =
      some (.ok { st with entries := st.entries.insert name (old.1, some value) }) := by
  have hother : Metric.memBytes.name ≠ Metric.cpuInsns.name := by
    rw [Metric.name_chars, Metric.name_chars]
    decide
  unfold assignKey
  rw [hcurrent]
  dsimp only
  rw [if_neg hother, if_pos rfl, hold]

theorem reads_entry {entry : Text × Cost} (h : PlainName entry.1) (st : ParseState) :
    Reads (entryLines entry) st { st with
      entries := st.entries.insert entry.1 (noted entry.2), current := some entry.1 } := by
  obtain ⟨name, cost⟩ := entry
  have hempty : ∀ lineno, parseLine lineno [] st = some (.ok st) := fun lineno =>
    parseLine_skip rfl lineno st
  have hopened : name ∈ st.entries.insertIfNew name (none, none) :=
    Std.ExtTreeMap.mem_insertIfNew_self
  obtain ⟨old, hold⟩ := BTreeMap.mem_iff_getElem?.mp hopened
  have hfilled : ((st.entries.insertIfNew name (none, none)).insert name
      (some cost.cpuInsns, old.2))[name]? = some (some cost.cpuInsns, old.2) :=
    Std.ExtTreeMap.getElem?_insert_self
  have hentries : ((st.entries.insertIfNew name (none, none)).insert name
      (some cost.cpuInsns, old.2)).insert name (noted cost) =
        st.entries.insert name (noted cost) := by
    rw [BTreeMap.insert_insert, BTreeMap.insert_insertIfNew]
  have hcpu : ∀ lineno, parseLine lineno (assignment Metric.cpuInsns.name cost.cpuInsns)
      ⟨st.thresholdPct, st.entries.insertIfNew name (none, none), some name⟩ =
        some (.ok ⟨st.thresholdPct, (st.entries.insertIfNew name (none, none)).insert name
          (some cost.cpuInsns, old.2), some name⟩) := by
    intro lineno
    rw [parseLine_assignment (plainKey_metric .cpuInsns)]
    exact assignKey_cpuInsns rfl hold cost.cpuInsns lineno
  have hmem : ∀ lineno, parseLine lineno (assignment Metric.memBytes.name cost.memBytes)
      ⟨st.thresholdPct, (st.entries.insertIfNew name (none, none)).insert name
        (some cost.cpuInsns, old.2), some name⟩ =
        some (.ok ⟨st.thresholdPct, st.entries.insert name (noted cost), some name⟩) := by
    intro lineno
    rw [parseLine_assignment (plainKey_metric .memBytes),
      assignKey_memBytes rfl hfilled cost.memBytes lineno]
    dsimp only
    rw [← hentries]
    rfl
  exact .cons hempty (.cons (fun lineno => parseLine_section h lineno st)
    (.cons hcpu (.cons hmem (.nil _))))

theorem reads_entries {entries : List (Text × Cost)} (h : ∀ entry ∈ entries, PlainName entry.1)
    (st : ParseState) : ∃ current, Reads (entries.flatMap entryLines) st
      { st with entries := BTreeMap.collect noted entries st.entries, current := current } := by
  induction entries generalizing st with
  | nil => exact ⟨st.current, .nil st⟩
  | cons entry entries ih =>
    have hentry := reads_entry (h entry (List.mem_cons_self ..)) st
    obtain ⟨current, hrest⟩ := ih (fun e he => h e (List.mem_cons_of_mem entry he))
      { st with entries := st.entries.insert entry.1 (noted entry.2), current := some entry.1 }
    rw [List.flatMap_cons]
    exact ⟨current, hentry.append hrest⟩

/-! ## The completed entries -/

def costOf (entry : Option UInt64 × Option UInt64) : Cost :=
  ⟨entry.1.getD 0, entry.2.getD 0⟩

theorem completeEntries_eq {entries : List (Text × (Option UInt64 × Option UInt64))}
    (h : ∀ entry ∈ entries, ∃ cost, entry.2 = noted cost) (out : BTreeMap Text Cost) :
    completeEntries entries out = .ok (BTreeMap.collect costOf entries out) := by
  induction entries generalizing out with
  | nil => rfl
  | cons entry entries ih =>
    obtain ⟨name, noted'⟩ := entry
    obtain ⟨cost, hcost⟩ := h (name, noted') (List.mem_cons_self ..)
    obtain rfl : noted' = noted cost := hcost
    exact ih (fun e he => h e (List.mem_cons_of_mem _ he)) _

/-- What the parser collects from a rendered map is the map. -/
theorem completeEntries_collect (m : BTreeMap Text Cost) :
    completeEntries (BTreeMap.collect noted m.toList ∅).toList ∅ = .ok m := by
  have hnoted : ∀ name, (BTreeMap.collect noted m.toList ∅)[name]? = m[name]?.map noted :=
    BTreeMap.collect_toList_getElem? noted m
  rw [completeEntries_eq]
  · congr 1
    apply Std.ExtTreeMap.ext_getElem?
    intro name
    rw [BTreeMap.collect_toList_getElem?, hnoted, Option.map_map]
    exact Option.map_id'
  · rintro ⟨name, noted'⟩ hmem
    rw [Std.ExtTreeMap.mem_toList_iff_getElem?_eq_some, hnoted] at hmem
    obtain ⟨cost, _, hcost⟩ := Option.map_eq_some_iff.mp hmem
    exact ⟨cost, hcost.symm⟩

/-! ## The round trip -/

theorem isLine_assignment {key : Text} (hkey : '\n' ∉ key) (value : UInt64) :
    IsLine (assignment key value) := by
  constructor
  · exact not_mem_assignment hkey (by decide) (by decide) rfl value
  · intro hlast
    have hdigit := getLast?_assignment key value '\r' hlast
    cases hdigit

theorem isLine_section {name : Text} (h : PlainName name) : IsLine ('[' :: name ++ [']']) := by
  constructor
  · simp only [List.mem_append, List.mem_cons, List.not_mem_nil, or_false, not_or]
    exact ⟨⟨by decide, h.2.2⟩, by decide⟩
  · rw [List.getLast?_concat]
    decide

theorem isLine_entryLines {entry : Text × Cost} (h : PlainName entry.1) :
    ∀ line ∈ entryLines entry, IsLine line := by
  have hkey : ∀ metric : Metric, '\n' ∉ metric.name := by
    intro metric
    rw [Metric.name_chars]
    cases metric <;> decide
  intro line hline
  simp only [entryLines, List.mem_cons, List.not_mem_nil, or_false] at hline
  rcases hline with rfl | rfl | rfl | rfl
  · exact ⟨List.not_mem_nil, by decide⟩
  · exact isLine_section h
  · exact isLine_assignment (hkey .cpuInsns) _
  · exact isLine_assignment (hkey .memBytes) _

section RoundTrip
variable {measured : BTreeMap Text Cost}

theorem lines_renderBaseline (h : ∀ entry ∈ measured.toList, PlainName entry.1)
    (thresholdPct : UInt64) :
    lines (renderBaseline thresholdPct measured) = renderedLines thresholdPct measured := by
  rw [renderBaseline_eq]
  apply lines_unlines
  intro line hline
  rcases List.mem_append.mp hline with hline | hentry
  · rcases List.mem_append.mp hline with hheader | hthreshold
    · exact (headerLines_spec line hheader).1
    · rw [List.mem_singleton.mp hthreshold]
      exact isLine_assignment (by simp) thresholdPct
  · obtain ⟨entry, hmem, hline⟩ := List.mem_flatMap.mp hentry
    exact isLine_entryLines (h entry hmem) line hline

theorem reads_rendered (h : ∀ entry ∈ measured.toList, PlainName entry.1)
    (thresholdPct : UInt64) :
    ∃ current, Reads (renderedLines thresholdPct measured) ⟨defaultThresholdPct, ∅, none⟩
      ⟨thresholdPct, BTreeMap.collect noted measured.toList ∅, current⟩ := by
  obtain ⟨current, hentries⟩ := reads_entries h ⟨thresholdPct, ∅, none⟩
  have hheader : Reads headerLines ⟨defaultThresholdPct, ∅, none⟩ ⟨defaultThresholdPct, ∅, none⟩ :=
    reads_skipped (fun line hline => (headerLines_spec line hline).2) _
  have hstart : Reads (headerLines ++ [assignment "threshold_pct".toList thresholdPct])
      ⟨defaultThresholdPct, ∅, none⟩ ⟨thresholdPct, ∅, none⟩ :=
    hheader.append (reads_threshold thresholdPct rfl)
  exact ⟨current, hstart.append hentries⟩

/-- A text is read if its lines are and every entry has both its metrics. -/
theorem parseBaseline_of_lines {src : Text} {st : ParseState} {entries : BTreeMap Text Cost}
    (hlines : parseLines 0 (lines src) ⟨defaultThresholdPct, ∅, none⟩ = some (.ok st))
    (hentries : completeEntries st.entries.toList ∅ = .ok entries) :
    parseBaseline src = some (.ok ⟨st.thresholdPct, entries⟩) := by
  unfold parseBaseline
  rw [hlines]
  dsimp only
  rw [hentries]

theorem parseBaseline_render (h : ∀ entry ∈ measured.toList, PlainName entry.1)
    (thresholdPct : UInt64) :
    parseBaseline (renderBaseline thresholdPct measured) = some (.ok ⟨thresholdPct, measured⟩) := by
  obtain ⟨current, hreads⟩ := reads_rendered h thresholdPct
  have hlines := hreads.parseLines_eq 0
  rw [← lines_renderBaseline h] at hlines
  exact parseBaseline_of_lines hlines (completeEntries_collect measured)

end RoundTrip

theorem withinBudget_self (measured : BTreeMap Text Cost) (thresholdPct thresholdPct' : UInt64) :
    WithinBudget ⟨thresholdPct', measured⟩ measured thresholdPct := by
  refine ⟨fun scenario => Iff.rfl, ?_⟩
  intro scenario base now hbase hnow metric
  obtain rfl : base = now := Option.some.inj (hbase.symm.trans hnow)
  have hcost : (0 : ℚ) ≤ (metric.of base).toNat := Nat.cast_nonneg _
  have hfactor : (1 : ℚ) ≤ 1 + thresholdPct.toNat / 100 := by
    have hpct : (0 : ℚ) ≤ thresholdPct.toNat / 100 := by positivity
    linarith
  exact le_mul_of_one_le_right hcost hfactor

/-- **What `--update` writes is read back, and the gate then passes.** The names are those
a section line can hold. -/
theorem baseline_round_trip (thresholdPct : UInt64) (measured : BTreeMap Text Cost)
    (hnames : ∀ name ∈ measured, trim name = name ∧ '#' ∉ name ∧ '\n' ∉ name) :
    parseBaseline (renderBaseline thresholdPct measured) = some (.ok ⟨thresholdPct, measured⟩) ∧
    (thresholdPct.toNat + 100 < UInt64.size →
      (⟨thresholdPct, measured⟩ : Baseline).compare measured thresholdPct = some []) := by
  have hplain : ∀ entry ∈ measured.toList, PlainName entry.1 := by
    rintro ⟨name, cost⟩ hentry
    exact hnames name (BTreeMap.mem_iff_mem_toList.mpr ⟨cost, hentry⟩)
  refine ⟨parseBaseline_render hplain thresholdPct, fun hfits => ?_⟩
  rw [compare_eq hfits]
  exact congrArg some (findingsOf_eq_nil_iff.mpr (withinBudget_self measured thresholdPct _))

theorem baseline_round_trip_fixture :
    let measured : BTreeMap Text Cost := (∅ : BTreeMap Text Cost).insert "[a] = b".toList ⟨12, 0⟩
    parseBaseline (renderBaseline 15 measured) = some (.ok ⟨15, measured⟩) ∧
      (⟨15, measured⟩ : Baseline).compare measured 15 = some [] := by
  intro measured
  have hnames : ∀ name ∈ measured, trim name = name ∧ '#' ∉ name ∧ '\n' ∉ name := by
    intro name hname
    rcases Std.ExtTreeMap.mem_insert.mp hname with heq | hempty
    · have hchars : "[a] = b".toList = ['[', 'a', ']', ' ', '=', ' ', 'b'] := by rfl
      rw [← Std.LawfulEqOrd.eq_of_compare heq, hchars]
      decide
    · exact absurd hempty Std.ExtTreeMap.not_mem_empty
  obtain ⟨hparse, hcompare⟩ := baseline_round_trip 15 measured hnames
  exact ⟨hparse, hcompare (by decide)⟩

end Synapse
