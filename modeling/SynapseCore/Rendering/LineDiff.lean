import SynapseCore.Foundation.Alignment
import SynapseCore.Foundation.Text

/-! The line diff that the snapshot tests report. It compares position by position, up to
the end of the longer text. -/

namespace Synapse
open Text Alignment

def formatLine (mark line : Text) : Text := mark ++ line ++ ['\n']

/-- What the loop writes on the lines at one index. -/
def diffAt (e a : Option Text) : Text :=
  match e, a with
  | some e, some a =>
    if e = a then formatLine [' ', ' '] e
    else formatLine ['-', ' '] e ++ formatLine ['+', ' '] a
  | some e, none => formatLine ['-', ' '] e
  | none, some a => formatLine ['+', ' '] a
  | none, none => []

/-- The loop from index `i`, with `n` indices left. -/
def diffLoop (exp act : List Text) : Nat → Nat → Text → Text
  | 0, _, out => out
  | n + 1, i, out => diffLoop exp act n (i + 1) (out ++ diffAt exp[i]? act[i]?)

def lineDiff (expected actual : Text) : Option Text :=
  if expected = actual then none
  else
    let exp := lines expected
    let act := lines actual
    some (diffLoop exp act (max exp.length act.length) 0 [])

/-! ## The loop writes an alignment of the lines -/

/-- How a change is written. -/
def entryText : Change Text → Text
  | .kept line => ' ' :: ' ' :: line
  | .removed line => '-' :: ' ' :: line
  | .added line => '+' :: ' ' :: line

def diffEntries (exp act : List Text) : List Text := (align exp act).map entryText

theorem formatLine_append (c : Char) (line : Text) (ls : List Text) :
    formatLine [c, ' '] line ++ unlines ls = unlines ((c :: ' ' :: line) :: ls) := by
  rw [unlines_cons, formatLine, List.append_assoc, List.append_assoc]
  rfl

theorem diffAt_append_pair (e a : Text) (ls : List Text) :
    diffAt (some e) (some a) ++ unlines ls = unlines ((pair e a).map entryText ++ ls) := by
  unfold diffAt pair
  dsimp only
  split_ifs
  · exact formatLine_append ' ' e ls
  · rw [List.append_assoc, formatLine_append, formatLine_append]
    rfl

theorem diffAt_append_tail (exp act : List Text) :
    diffAt exp.head? act.head? ++ unlines (diffEntries exp.tail act.tail) =
      unlines (diffEntries exp act) := by
  rcases exp with _ | ⟨e, exp⟩ <;> rcases act with _ | ⟨a, act⟩
  · rfl
  · exact formatLine_append '+' a _
  · rw [diffEntries, diffEntries, align, List.map_cons]
    exact formatLine_append '-' e _
  · rw [diffEntries, diffEntries, align, List.map_append]
    exact diffAt_append_pair e a _

theorem diffLoop_eq (exp act : List Text) {n i : Nat} (hexp : exp.length ≤ i + n)
    (hact : act.length ≤ i + n) (out : Text) :
    diffLoop exp act n i out = out ++ unlines (diffEntries (exp.drop i) (act.drop i)) := by
  induction n generalizing i out with
  | zero =>
    have hexp' : exp.drop i = [] := List.drop_eq_nil_of_le hexp
    have hact' : act.drop i = [] := List.drop_eq_nil_of_le hact
    rw [diffLoop, hexp', hact']
    exact (List.append_nil out).symm
  | succ n ih =>
    rw [diffLoop, ih (by omega) (by omega), List.append_assoc, ← List.head?_drop,
      ← List.head?_drop, ← List.tail_drop, ← List.tail_drop, diffAt_append_tail]

theorem lineDiff_of_ne {expected actual : Text} (h : expected ≠ actual) :
    lineDiff expected actual = some (unlines (diffEntries (lines expected) (lines actual))) := by
  unfold lineDiff
  rw [if_neg h]
  dsimp only
  rw [diffLoop_eq _ _ (by omega) (by omega), List.drop_zero, List.drop_zero, List.nil_append]

theorem lineDiff_eq_none_iff (expected actual : Text) :
    lineDiff expected actual = none ↔ expected = actual := by
  constructor
  · intro h
    by_contra hne
    rw [lineDiff_of_ne hne] at h
    cases h
  · intro h
    exact if_pos h

theorem newline_not_mem_diffEntries {expected actual entry : Text}
    (h : entry ∈ diffEntries (lines expected) (lines actual)) : '\n' ∉ entry := by
  obtain ⟨c, hc, rfl⟩ := List.mem_map.mp h
  have hold : ∀ line, c.old = some line → '\n' ∉ line := fun _ hline =>
    not_mem_of_mem_lines (mem_of_old hc hline)
  have hnew : ∀ line, c.new = some line → '\n' ∉ line := fun _ hline =>
    not_mem_of_mem_lines (mem_of_new hc hline)
  have hmark : ∀ {d : Char} {line : Text}, '\n' ≠ d → '\n' ∉ line → '\n' ∉ d :: ' ' :: line :=
    fun hd hline => List.not_mem_cons_of_ne_of_not_mem hd
      (List.not_mem_cons_of_ne_of_not_mem (by decide) hline)
  cases c with
  | kept line => exact hmark (by decide) (hold line rfl)
  | removed line => exact hmark (by decide) (hold line rfl)
  | added line => exact hmark (by decide) (hnew line rfl)

/-! ## Both texts can be read off the diff -/

def hasMark (mark mark' : Text) (entry : Text) : Bool :=
  mark.isPrefixOf entry || mark'.isPrefixOf entry

/-- The entries with one of two marks, without it. -/
def unmarked (mark mark' : Text) (out : Text) : List Text :=
  ((out.splitOn '\n').filter (hasMark mark mark')).map (List.drop 2)

section Sides
variable {mark mark' : Text} {side : Change Text → Option Text}

theorem filter_entryText (hside : ∀ c, side c =
    if hasMark mark mark' (entryText c) then some ((entryText c).drop 2) else none)
    (cs : List (Change Text)) :
    ((cs.map entryText).filter (hasMark mark mark')).map (List.drop 2) = cs.filterMap side := by
  induction cs with
  | nil => rfl
  | cons c cs ih =>
    have hc := hside c
    rw [List.map_cons]
    split_ifs at hc with hmark
    · rw [List.filter_cons_of_pos hmark, List.map_cons, ih, List.filterMap_cons_some hc]
    · rw [List.filter_cons_of_neg hmark, ih, List.filterMap_cons_none hc]

theorem unmarked_diff (hempty : hasMark mark mark' [] = false) (hside : ∀ c, side c =
    if hasMark mark mark' (entryText c) then some ((entryText c).drop 2) else none)
    (expected actual : Text) :
    unmarked mark mark' (unlines (diffEntries (lines expected) (lines actual))) =
      (align (lines expected) (lines actual)).filterMap side := by
  have hrest : [([] : Text)].filter (hasMark mark mark') = [] := by
    simp [hempty]
  unfold unmarked
  rw [splitOn_unlines fun _ hentry => newline_not_mem_diffEntries hentry, List.filter_append,
    hrest, List.append_nil]
  exact filter_entryText hside _

end Sides

/-- **The line diff loses nothing.** Of two different texts, the entries with the mark of
the expected text, and those without a change, are its lines, and so for the actual text. -/
theorem line_diff_lossless (expected actual : Text) (h : expected ≠ actual) :
    ∃ out, lineDiff expected actual = some out ∧
      unmarked [' ', ' '] ['-', ' '] out = lines expected ∧
      unmarked [' ', ' '] ['+', ' '] out = lines actual := by
  have hold : ∀ c : Change Text, c.old = if hasMark [' ', ' '] ['-', ' '] (entryText c) then
      some ((entryText c).drop 2) else none := by
    rintro (line | line | line) <;> rfl
  have hnew : ∀ c : Change Text, c.new = if hasMark [' ', ' '] ['+', ' '] (entryText c) then
      some ((entryText c).drop 2) else none := by
    rintro (line | line | line) <;> rfl
  refine ⟨_, lineDiff_of_ne h, ?_, ?_⟩
  · rw [unmarked_diff rfl hold, filterMap_old_align]
  · rw [unmarked_diff rfl hnew, filterMap_new_align]

theorem line_diff_lossless_fixture :
    ∃ out, lineDiff "a\nb\nc".toList "a\nd\n".toList = some out ∧
      unmarked [' ', ' '] ['-', ' '] out = lines "a\nb\nc".toList ∧
      unmarked [' ', ' '] ['+', ' '] out = lines "a\nd\n".toList :=
  line_diff_lossless _ _ (by decide)

/-! ## Which differences are shown -/

/-- A line with the mark of the expected or of the actual text. -/
def IsMarked (line : Text) : Prop := ['-', ' '] <+: line ∨ ['+', ' '] <+: line

/-- Nothing is returned exactly for equal texts, and what is returned has a marked line. -/
def ShowsDifference (expected actual : Text) : Prop :=
  (lineDiff expected actual = none ↔ expected = actual) ∧
    ∀ out, lineDiff expected actual = some out → ∃ line ∈ lines out, IsMarked line

theorem mark_prefix_stripSuffix (c : Char) (line : Text) :
    [c, ' '] <+: (stripSuffix '\r' (c :: ' ' :: line)).getD (c :: ' ' :: line) := by
  cases h : stripSuffix '\r' (c :: ' ' :: line) with
  | none => exact ⟨line, rfl⟩
  | some t =>
    have htext := stripSuffix_eq_some h
    rcases t with _ | ⟨d, _ | ⟨d', t⟩⟩
    · cases htext
    · have hspace := (List.cons.inj (List.cons.inj htext).2).1
      exact absurd hspace (by decide)
    · obtain ⟨rfl, hrest⟩ := List.cons.inj htext
      obtain ⟨rfl, _⟩ := List.cons.inj hrest
      exact ⟨t, rfl⟩

theorem isMarked_entryText_iff (c : Change Text) :
    IsMarked ((stripSuffix '\r' (entryText c)).getD (entryText c)) ↔ ¬ c.IsKept := by
  cases c with
  | kept line =>
    have hprefix := stripSuffix_prefix_self '\r' (entryText (.kept line))
    have hspace : ∀ d, [d, ' '] <+: entryText (.kept line) → d = ' ' := fun d h =>
      (List.cons_prefix_cons.mp h).1
    refine iff_of_false ?_ (not_not_intro trivial)
    rintro (h | h)
    · exact absurd (hspace '-' (h.trans hprefix)) (by decide)
    · exact absurd (hspace '+' (h.trans hprefix)) (by decide)
  | removed line => exact iff_of_true (Or.inl (mark_prefix_stripSuffix '-' line)) id
  | added line => exact iff_of_true (Or.inr (mark_prefix_stripSuffix '+' line)) id

theorem exists_marked_iff (expected actual : Text) :
    (∃ line ∈ lines (unlines (diffEntries (lines expected) (lines actual))), IsMarked line) ↔
      lines expected ≠ lines actual := by
  have hnewline : ∀ entry ∈ diffEntries (lines expected) (lines actual), '\n' ∉ entry :=
    fun _ hentry => newline_not_mem_diffEntries hentry
  have hchanges : (∃ c ∈ align (lines expected) (lines actual), ¬ c.IsKept) ↔
      lines expected ≠ lines actual := by
    rw [ne_eq, ← forall_kept_iff]
    push Not
    rfl
  rw [lines_unlines_eq hnewline, ← hchanges]
  constructor
  · rintro ⟨line, hline, hmarked⟩
    obtain ⟨entry, hentry, rfl⟩ := List.mem_map.mp hline
    obtain ⟨c, hc, rfl⟩ := List.mem_map.mp hentry
    exact ⟨c, hc, (isMarked_entryText_iff c).mp hmarked⟩
  · rintro ⟨c, hc, hkept⟩
    have hentry : entryText c ∈ diffEntries (lines expected) (lines actual) :=
      List.mem_map_of_mem hc
    exact ⟨_, List.mem_map_of_mem hentry, (isMarked_entryText_iff c).mpr hkept⟩

/-- **The line diff shows a difference of the lines.** Two texts with the same lines that
differ in how the lines end have a diff without a mark. -/
theorem line_diff_shows_iff (expected actual : Text) :
    ShowsDifference expected actual ↔ expected = actual ∨ lines expected ≠ lines actual := by
  constructor
  · rintro ⟨_, hmarked⟩
    rw [or_iff_not_imp_left]
    intro hne
    exact (exists_marked_iff expected actual).mp (hmarked _ (lineDiff_of_ne hne))
  · intro hcond
    refine ⟨lineDiff_eq_none_iff expected actual, fun out hout => ?_⟩
    have hne : expected ≠ actual := by
      intro heq
      rw [(lineDiff_eq_none_iff expected actual).mpr heq] at hout
      cases hout
    rw [lineDiff_of_ne hne] at hout
    rw [← Option.some.inj hout, exists_marked_iff]
    exact hcond.resolve_left hne

/-- The final newline is lost on the way to the lines. -/
theorem line_diff_shows_counterexample : ¬ ShowsDifference "a".toList "a\n".toList := by
  have ha : "a".toList = ['a'] := by rfl
  have ha' : "a\n".toList = ['a', '\n'] := by rfl
  rw [ha, ha']
  rintro ⟨_, hmarked⟩
  have hout : lineDiff ['a'] ['a', '\n'] = some [' ', ' ', 'a', '\n'] := by decide
  have hlines : lines [' ', ' ', 'a', '\n'] = [[' ', ' ', 'a']] := by decide
  obtain ⟨line, hline, hmark⟩ := hmarked _ hout
  rw [hlines, List.mem_singleton] at hline
  rw [hline] at hmark
  rcases hmark with h | h
  · exact absurd h (by decide)
  · exact absurd h (by decide)

end Synapse
