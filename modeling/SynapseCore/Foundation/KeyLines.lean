import SynapseCore.Foundation.Text

/-! Texts of `key = value` lines, read and rewritten line by line as a stream editor does it.
Reading allows spaces before the key, rewriting does not. -/

namespace KeyLines
open Text

def isSpace (c : Char) : Bool := c == ' ' || (9 ≤ c.toNat && c.toNat ≤ 13)

/-- The text behind the key at the start of the line, and behind the equals sign. -/
def behindKey (key line : Text) : Option Text :=
  match key.isPrefixOf? line with
  | none => none
  | some rest => stripPrefix '=' (rest.dropWhile isSpace)

/-- The value on a line of the key, as far as its characters are accepted. -/
def fieldOf (accepted : Char → Bool) (key line : Text) : Option Text :=
  (behindKey key (line.dropWhile isSpace)).map fun value =>
    (value.dropWhile isSpace).takeWhile accepted

def fields (accepted : Char → Bool) (key text : Text) : List Text :=
  (text.splitOn '\n').filterMap (fieldOf accepted key)

def keyLine (key value : Text) : Text := key ++ ' ' :: '=' :: ' ' :: value

def rewriteLine (key value line : Text) : Text :=
  if (behindKey key line).isSome then keyLine key value else line

def rewrite (key value text : Text) : Text :=
  ['\n'].intercalate ((text.splitOn '\n').map (rewriteLine key value))

/-- A word that can stand before an equals sign. -/
structure IsKey (key : Text) : Prop where
  ne_nil : key ≠ []
  plain : key.all (fun c => !isSpace c && c != '=') = true

/-! ## Lines -/

section Lines
variable {key key' value line : Text} {accepted : Char → Bool}

theorem IsKey.isSpace_eq_false (hkey : IsKey key) {c : Char} (h : c ∈ key) :
    isSpace c = false := by
  have hplain := List.all_eq_true.mp hkey.plain c h
  rw [Bool.and_eq_true] at hplain
  simpa using hplain.1

/-- The characters before the first space or equals sign. -/
def word (line : Text) : Text := line.takeWhile fun c => !isSpace c && c != '='

theorem word_of_behindKey (hkey : IsKey key) (h : behindKey key line = some value) :
    word line = key := by
  unfold behindKey at h
  cases hrest : key.isPrefixOf? line with
  | none => simp [hrest] at h
  | some rest =>
    rw [hrest] at h
    obtain rfl := List.isPrefixOf?_eq_some_iff_append_eq.mp hrest
    have hequals : stripPrefix '=' (rest.dropWhile isSpace) = some value := h
    have hword : ∀ c ∈ key, (!isSpace c && c != '=') = true := List.all_eq_true.mp hkey.plain
    -- behind the key stands a space or the equals sign
    have hstop : rest.takeWhile (fun c => !isSpace c && c != '=') = [] := by
      cases rest with
      | nil => rfl
      | cons c rest =>
        apply List.takeWhile_cons_of_neg
        by_cases hspace : isSpace c = true
        · simp [hspace]
        · rw [List.dropWhile_cons_of_neg hspace] at hequals
          obtain ⟨rfl, -⟩ := List.cons.inj (stripPrefix_eq_some hequals)
          simp
    show (key ++ rest).takeWhile _ = key
    rw [List.takeWhile_append_of_pos hword, hstop, List.append_nil]

theorem behindKey_eq_none (hkey : IsKey key) (hkey' : IsKey key') (hne : key' ≠ key)
    (h : (behindKey key line).isSome = true) : behindKey key' line = none := by
  obtain ⟨value, hvalue⟩ := Option.isSome_iff_exists.mp h
  cases hother : behindKey key' line with
  | none => rfl
  | some value' =>
    exact absurd ((word_of_behindKey hkey' hother).symm.trans (word_of_behindKey hkey hvalue)) hne

theorem dropWhile_of_behindKey (hkey : IsKey key) (h : (behindKey key line).isSome = true) :
    line.dropWhile isSpace = line := by
  unfold behindKey at h
  cases hrest : key.isPrefixOf? line with
  | none => simp [hrest] at h
  | some rest =>
    obtain rfl := List.isPrefixOf?_eq_some_iff_append_eq.mp hrest
    cases key with
    | nil => exact absurd rfl hkey.ne_nil
    | cons c key =>
      have hc : ¬ isSpace c = true := by simp [hkey.isSpace_eq_false (List.mem_cons_self ..)]
      rw [List.cons_append, List.dropWhile_cons_of_neg hc]

theorem behindKey_keyLine (key value : Text) :
    behindKey key (keyLine key value) = some (' ' :: value) := by
  have hrest : key.isPrefixOf? (keyLine key value) = some (' ' :: '=' :: ' ' :: value) :=
    List.isPrefixOf?_eq_some_iff_append_eq.mpr rfl
  unfold behindKey
  rw [hrest]
  rfl

theorem fieldOf_keyLine (hkey : IsKey key) (haccepted : ∀ c ∈ value, accepted c = true)
    (hspace : ∀ c ∈ value, isSpace c = false) :
    fieldOf accepted key (keyLine key value) = some value := by
  have hbehind := behindKey_keyLine key value
  have hvalue : value.dropWhile isSpace = value := by
    cases value with
    | nil => rfl
    | cons c value =>
      exact List.dropWhile_cons_of_neg (by simp [hspace c (List.mem_cons_self ..)])
  have hall : value.takeWhile accepted = value := List.takeWhile_eq_self_iff.mpr haccepted
  rw [fieldOf, dropWhile_of_behindKey hkey (by rw [hbehind]; rfl), hbehind, Option.map_some,
    List.dropWhile_cons_of_pos rfl, hvalue, hall]

theorem fieldOf_of_other (hkey : IsKey key) (hkey' : IsKey key') (hne : key' ≠ key)
    (h : (behindKey key line).isSome = true) : fieldOf accepted key' line = none := by
  rw [fieldOf, dropWhile_of_behindKey hkey h, behindKey_eq_none hkey hkey' hne h, Option.map_none]

theorem fieldOf_rewriteLine_of_ne (hkey : IsKey key) (hkey' : IsKey key') (hne : key' ≠ key)
    (value line : Text) :
    fieldOf accepted key' (rewriteLine key value line) = fieldOf accepted key' line := by
  unfold rewriteLine
  split_ifs with h
  · rw [fieldOf_of_other hkey hkey' hne h,
      fieldOf_of_other hkey hkey' hne (by rw [behindKey_keyLine]; rfl)]
  · rfl

theorem newline_not_mem_rewriteLine (hkey : IsKey key) (hvalue : '\n' ∉ value)
    (hline : '\n' ∉ line) : '\n' ∉ rewriteLine key value line := by
  have hkeyline : '\n' ∉ key := by
    intro hmem
    exact Bool.noConfusion (hkey.isSpace_eq_false hmem)
  unfold rewriteLine
  split_ifs
  · simp [keyLine, hkeyline, hvalue]
  · exact hline

end Lines

/-! ## Texts -/

section Texts
variable {key key' value text : Text} {accepted : Char → Bool}

theorem newline_not_mem_piece {line : Text} (h : line ∈ text.splitOn '\n') : '\n' ∉ line := by
  induction text generalizing line with
  | nil =>
    rw [List.splitOn_nil, List.mem_singleton] at h
    rw [h]
    exact List.not_mem_nil
  | cons c text ih =>
    obtain ⟨piece, pieces, hpieces⟩ := List.exists_cons_of_ne_nil (List.splitOn_ne_nil '\n' text)
    rw [List.splitOn_cons_eq_if_modifyHead] at h
    split_ifs at h with hc
    · rcases List.mem_cons.mp h with rfl | htail
      · exact List.not_mem_nil
      · exact ih htail
    · rw [hpieces, List.modifyHead_cons] at h
      rcases List.mem_cons.mp h with rfl | htail
      · have hpiece : '\n' ∉ piece := ih (hpieces ▸ List.mem_cons_self ..)
        have hne : '\n' ≠ c := fun heq => hc (by simp [← heq])
        simp [hne, hpiece]
      · exact ih (hpieces ▸ List.mem_cons_of_mem _ htail)

theorem splitOn_rewrite (hkey : IsKey key) (hvalue : '\n' ∉ value) (text : Text) :
    (rewrite key value text).splitOn '\n' = (text.splitOn '\n').map (rewriteLine key value) := by
  apply List.splitOn_intercalate
  · intro line hline
    obtain ⟨old, hold, rfl⟩ := List.mem_map.mp hline
    exact newline_not_mem_rewriteLine hkey hvalue (newline_not_mem_piece hold)
  · intro hnil
    exact List.splitOn_ne_nil '\n' text (List.map_eq_nil_iff.mp hnil)

theorem fields_rewrite_of_ne (hkey : IsKey key) (hkey' : IsKey key') (hne : key' ≠ key)
    (hvalue : '\n' ∉ value) (text : Text) :
    fields accepted key' (rewrite key value text) = fields accepted key' text := by
  rw [fields, splitOn_rewrite hkey hvalue, List.filterMap_map]
  apply List.filterMap_congr
  intro line _
  exact fieldOf_rewriteLine_of_ne hkey hkey' hne value line

/-- Every line of the key that has a value starts with the key. -/
def Flush (accepted : Char → Bool) (key text : Text) : Prop :=
  ∀ line ∈ text.splitOn '\n', (fieldOf accepted key line).isSome → line.dropWhile isSpace = line

/-- Where no line of the key is indented, the values are replaced. -/
theorem fields_rewrite (hkey : IsKey key) (haccepted : ∀ c ∈ value, accepted c = true)
    (hspace : ∀ c ∈ value, isSpace c = false) (hflush : Flush accepted key text) :
    fields accepted key (rewrite key value text) =
      (fields accepted key text).map fun _ => value := by
  have hvalue : '\n' ∉ value := fun hmem => Bool.noConfusion (hspace '\n' hmem)
  rw [fields, splitOn_rewrite hkey hvalue, List.filterMap_map, fields, List.map_filterMap]
  apply List.filterMap_congr
  intro line hline
  show fieldOf accepted key (rewriteLine key value line) = _
  unfold rewriteLine
  split_ifs with h
  · have hfield : (fieldOf accepted key line).isSome = true := by
      rw [fieldOf, dropWhile_of_behindKey hkey h, Option.isSome_map, h]
    obtain ⟨old, hold⟩ := Option.isSome_iff_exists.mp hfield
    rw [fieldOf_keyLine hkey haccepted hspace, hold, Option.map_some]
  · -- a line that is not rewritten has no value of the key
    cases hfield : fieldOf accepted key line with
    | none => rfl
    | some old =>
      have hnone := hflush line hline (by rw [hfield]; rfl)
      rw [fieldOf, hnone, Option.map_eq_some_iff] at hfield
      obtain ⟨rest, hrest, -⟩ := hfield
      exact absurd (by rw [hrest]; rfl) h

theorem flush_rewrite (hkey : IsKey key) (hspace : ∀ c ∈ value, isSpace c = false)
    (hflush : Flush accepted key text) : Flush accepted key (rewrite key value text) := by
  have hvalue : '\n' ∉ value := fun hmem => Bool.noConfusion (hspace '\n' hmem)
  intro line hline hfield
  rw [splitOn_rewrite hkey hvalue] at hline
  obtain ⟨old, hold, rfl⟩ := List.mem_map.mp hline
  unfold rewriteLine at hfield ⊢
  split_ifs at hfield ⊢ with h
  · exact dropWhile_of_behindKey hkey (by rw [behindKey_keyLine]; rfl)
  · exact hflush old hold hfield

/-- Where the lines of the key are indented, nothing is rewritten. -/
def Indented (accepted : Char → Bool) (key text : Text) : Prop :=
  ∀ line ∈ text.splitOn '\n', (fieldOf accepted key line).isSome → line.dropWhile isSpace ≠ line

theorem rewrite_of_indented (hkey : IsKey key) (h : Indented accepted key text) (value : Text) :
    rewrite key value text = text := by
  have hsame : ∀ line ∈ text.splitOn '\n', rewriteLine key value line = line := by
    intro line hline
    apply if_neg
    intro hbehind
    have hstart := dropWhile_of_behindKey hkey hbehind
    refine h line hline ?_ hstart
    rw [fieldOf, hstart, Option.isSome_map, hbehind]
  rw [rewrite, List.map_congr_left hsame, List.map_id', List.intercalate_splitOn]

theorem indented_of_not_flush {value : Text} (h : fields accepted key text = [value])
    (hnot : ¬ Flush accepted key text) : Indented accepted key text := by
  simp only [Flush, not_forall] at hnot
  obtain ⟨line, hline, hfield, hstart⟩ := hnot
  obtain ⟨field, hsome⟩ := Option.isSome_iff_exists.mp hfield
  -- the line found has the one value, so no line before or behind it has any
  obtain ⟨pre, post, hsplit⟩ := List.append_of_mem hline
  rw [fields, hsplit, List.filterMap_append, List.filterMap_cons_some hsome] at h
  obtain ⟨hpre, hrest⟩ := List.append_eq_singleton_iff.mp h |>.resolve_right (by simp)
  have hpost : post.filterMap (fieldOf accepted key) = [] := (List.cons.inj hrest).2
  have hnone : ∀ other ∈ pre ++ post, fieldOf accepted key other = none := by
    intro other hother
    rcases List.mem_append.mp hother with hmem | hmem
    · exact List.filterMap_eq_nil_iff.mp hpre other hmem
    · exact List.filterMap_eq_nil_iff.mp hpost other hmem
  intro other hother hothers
  rw [hsplit, List.mem_append, List.mem_cons] at hother
  by_cases heq : other = line
  · rwa [heq]
  · have hmem : other ∈ pre ++ post := by
      rw [List.mem_append]
      exact hother.imp_right fun h => h.resolve_left heq
    rw [hnone other hmem] at hothers
    cases hothers

end Texts

end KeyLines
