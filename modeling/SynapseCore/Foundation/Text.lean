import Mathlib.Data.List.DropRight
import Mathlib.Data.List.TakeWhile

/-! Strings as lists of characters, with the operations of a line-based parser: trimming,
splitting, lines, and decimal numbers read and printed. -/

/-- A string: its Unicode scalar values. Comparing these lists is comparing the UTF-8 bytes. -/
abbrev Text := List Char

namespace Text

/-- The `White_Space` property of Unicode. -/
def isWhitespace (c : Char) : Bool :=
  (9 ≤ c.toNat && c.toNat ≤ 13) || c.toNat == 0x20 || c.toNat == 0x85 || c.toNat == 0xA0 ||
    c.toNat == 0x1680 || (0x2000 ≤ c.toNat && c.toNat ≤ 0x200A) || c.toNat == 0x2028 ||
    c.toNat == 0x2029 || c.toNat == 0x202F || c.toNat == 0x205F || c.toNat == 0x3000

def trim (s : Text) : Text := (s.dropWhile isWhitespace).rdropWhile isWhitespace

/-- What comes before the first `sep`: the first piece of a split. -/
def firstPiece (sep : Char) (s : Text) : Text := s.takeWhile fun c => c != sep

/-- The pieces around the first `sep`, if there is one. -/
def splitOnce (sep : Char) (s : Text) : Option (Text × Text) :=
  match s.dropWhile fun c => c != sep with
  | [] => none
  | _ :: rest => some (s.takeWhile fun c => c != sep, rest)

def stripPrefix (c : Char) : Text → Option Text
  | [] => none
  | d :: s => if d = c then some s else none

def stripSuffix (c : Char) (s : Text) : Option Text := (stripPrefix c s.reverse).map List.reverse

def erase (c : Char) (s : Text) : Text := s.filter fun d => d != c

/-- The pieces of a split behind each `sep`, each with its `sep`; no empty last piece. -/
def splitInclusive (sep : Char) : Text → List Text
  | [] => []
  | c :: s =>
    if c = sep then [c] :: splitInclusive sep s
    else
      match splitInclusive sep s with
      | [] => [[c]]
      | piece :: pieces => (c :: piece) :: pieces

/-- A line without its terminator: a newline, and a carriage return right before it. -/
def dropTerminator (line : Text) : Text :=
  match stripSuffix '\n' line with
  | none => line
  | some line => (stripSuffix '\r' line).getD line

def lines (s : Text) : List Text := (splitInclusive '\n' s).map dropTerminator

def unlines (ls : List Text) : Text := ls.flatMap fun line => line ++ ['\n']

/-! ## Decimal numbers -/

def display (n : Nat) : Text := Nat.toDigits 10 n

def displayInt : Int → Text
  | .ofNat n => display n
  | .negSucc n => '-' :: display (n + 1)

def displayHex (n : Nat) : Text := Nat.toDigits 16 n

/-- Zeros in front, up to a width. -/
def zeroPad (width : Nat) (digits : Text) : Text :=
  List.replicate (width - digits.length) '0' ++ digits

def digitValue (c : Char) : Option Nat := if c.isDigit then some (c.toNat - '0'.toNat) else none

/-- Read digits behind the number `acc`, within `size`. -/
def parseDigits (size : Nat) : Nat → Text → Option Nat
  | acc, [] => some acc
  | acc, c :: s =>
    match digitValue c with
    | none => none
    | some d => if 10 * acc + d < size then parseDigits size (10 * acc + d) s else none

/-- An unsigned number below `size`: digits, behind one `+` or none. -/
def parseNat (size : Nat) : Text → Option Nat
  | [] => none
  | ['+'] => none
  | '+' :: s => parseDigits size 0 s
  | s => parseDigits size 0 s

/-! ## Trimming and splitting -/

theorem dropWhile_of_visible {s : Text} (h : ∀ c ∈ s.head?, isWhitespace c = false) :
    s.dropWhile isWhitespace = s := by
  cases s with
  | nil => rfl
  | cons c s =>
    have hc : ¬ isWhitespace c = true := by simpa using h c rfl
    exact List.dropWhile_cons_of_neg hc

theorem rdropWhile_of_visible {s : Text} (h : ∀ c ∈ s.getLast?, isWhitespace c = false) :
    s.rdropWhile isWhitespace = s := by
  rw [List.rdropWhile_eq_self_iff]
  intro hne
  simpa using h (s.getLast hne) (List.getLast?_eq_some_getLast hne)

theorem trim_eq_self {s : Text} (hhead : ∀ c ∈ s.head?, isWhitespace c = false)
    (hlast : ∀ c ∈ s.getLast?, isWhitespace c = false) : trim s = s := by
  rw [trim, dropWhile_of_visible hhead, rdropWhile_of_visible hlast]

theorem trim_cons_of_whitespace {c : Char} (h : isWhitespace c = true) (s : Text) :
    trim (c :: s) = trim s := by
  unfold trim
  rw [List.dropWhile_cons_of_pos h]

theorem trim_concat_of_whitespace {s : Text} (hne : s ≠ [])
    (hhead : ∀ c ∈ s.head?, isWhitespace c = false)
    (hlast : ∀ c ∈ s.getLast?, isWhitespace c = false) {c : Char} (h : isWhitespace c = true) :
    trim (s ++ [c]) = s := by
  have hhead' : ∀ d ∈ (s ++ [c]).head?, isWhitespace d = false := by
    intro d hd
    rw [List.head?_append_of_ne_nil _ hne] at hd
    exact hhead d hd
  rw [trim, dropWhile_of_visible hhead', List.rdropWhile_concat_pos _ _ _ h,
    rdropWhile_of_visible hlast]

theorem firstPiece_of_not_mem {sep : Char} {s : Text} (h : sep ∉ s) : firstPiece sep s = s := by
  apply List.takeWhile_eq_self_iff.mpr
  intro c hc
  have hne : c ≠ sep := fun heq => h (heq ▸ hc)
  simpa using hne

theorem splitOnce_append {sep : Char} {s : Text} (h : sep ∉ s) (rest : Text) :
    splitOnce sep (s ++ sep :: rest) = some (s, rest) := by
  have hall : ∀ c ∈ s, (c != sep) = true := by
    intro c hc
    have hne : c ≠ sep := fun heq => h (heq ▸ hc)
    simpa using hne
  have hsep : ¬ (sep != sep) = true := by simp
  unfold splitOnce
  rw [List.dropWhile_append_of_pos hall, List.dropWhile_cons_of_neg (p := fun c => c != sep) hsep,
    List.takeWhile_append_of_pos hall, List.takeWhile_cons_of_neg (p := fun c => c != sep) hsep,
    List.append_nil]

theorem append_sep_inj {sep : Char} {s s' rest rest' : Text} (hs : sep ∉ s) (hs' : sep ∉ s')
    (h : s ++ sep :: rest = s' ++ sep :: rest') : s = s' ∧ rest = rest' := by
  have hsplit : some (s, rest) = some (s', rest') := by
    rw [← splitOnce_append hs, ← splitOnce_append hs', h]
  exact Prod.ext_iff.mp (Option.some.inj hsplit)

theorem stripSuffix_concat (c : Char) (s : Text) : stripSuffix c (s ++ [c]) = some s := by
  unfold stripSuffix
  rw [List.reverse_append, List.reverse_singleton, List.singleton_append, stripPrefix, if_pos rfl,
    Option.map_some, List.reverse_reverse]

theorem stripSuffix_eq_none {c : Char} {s : Text} (h : s.getLast? ≠ some c) :
    stripSuffix c s = none := by
  unfold stripSuffix
  rw [← List.head?_reverse] at h
  cases hrev : s.reverse with
  | nil => rfl
  | cons d t =>
    rw [hrev] at h
    have hne : d ≠ c := fun heq => h (congrArg some heq)
    rw [stripPrefix, if_neg hne]
    rfl

theorem stripPrefix_eq_some {c : Char} {s t : Text} (h : stripPrefix c s = some t) :
    s = c :: t := by
  cases s with
  | nil => cases h
  | cons d s =>
    rw [stripPrefix] at h
    split_ifs at h with heq
    rw [heq, Option.some.inj h]

theorem stripSuffix_eq_some {c : Char} {s t : Text} (h : stripSuffix c s = some t) :
    s = t ++ [c] := by
  obtain ⟨rev, hrev, rfl⟩ := Option.map_eq_some_iff.mp h
  rw [← List.reverse_cons, ← stripPrefix_eq_some hrev, List.reverse_reverse]

theorem stripSuffix_prefix_self (c : Char) (s : Text) : (stripSuffix c s).getD s <+: s := by
  cases h : stripSuffix c s with
  | none => exact List.prefix_rfl
  | some t => exact ⟨[c], (stripSuffix_eq_some h).symm⟩

theorem erase_of_not_mem {c : Char} {s : Text} (h : c ∉ s) : erase c s = s := by
  apply List.filter_eq_self.mpr
  intro d hd
  have hne : d ≠ c := fun heq => h (heq ▸ hd)
  simpa using hne

/-! ## Lines -/

theorem splitInclusive_append {sep : Char} {s : Text} (h : sep ∉ s) (rest : Text) :
    splitInclusive sep (s ++ sep :: rest) = (s ++ [sep]) :: splitInclusive sep rest := by
  induction s with
  | nil => rw [List.nil_append, List.nil_append, splitInclusive, if_pos rfl]
  | cons c s ih =>
    have hc : c ≠ sep := fun heq => h (heq ▸ List.mem_cons_self ..)
    have hs : sep ∉ s := fun hmem => h (List.mem_cons_of_mem c hmem)
    rw [List.cons_append, splitInclusive, if_neg hc, ih hs]
    rfl

theorem splitInclusive_piece {sep : Char} {s piece : Text} (h : piece ∈ splitInclusive sep s) :
    sep ∉ piece ∨ ∃ t, sep ∉ t ∧ piece = t ++ [sep] := by
  induction s generalizing piece with
  | nil => cases h
  | cons c s ih =>
    rw [splitInclusive] at h
    split_ifs at h with hc
    · rcases List.mem_cons.mp h with rfl | hrest
      · exact Or.inr ⟨[], List.not_mem_nil, congrArg (fun d => [d]) hc⟩
      · exact ih hrest
    · have hne : sep ≠ c := fun heq => hc heq.symm
      cases hpieces : splitInclusive sep s with
      | nil =>
        rw [hpieces] at h
        rw [List.mem_singleton.mp h]
        exact Or.inl fun hmem => hne (List.mem_singleton.mp hmem)
      | cons first pieces =>
        rw [hpieces] at h ih
        rcases List.mem_cons.mp h with rfl | hrest
        · rcases ih (List.mem_cons_self ..) with hnot | ⟨t, ht, rfl⟩
          · exact Or.inl (List.not_mem_cons_of_ne_of_not_mem hne hnot)
          · exact Or.inr ⟨c :: t, List.not_mem_cons_of_ne_of_not_mem hne ht, rfl⟩
        · exact ih (List.mem_cons_of_mem first hrest)

theorem dropTerminator_of_not_mem {line : Text} (h : '\n' ∉ line) : dropTerminator line = line := by
  have hlast : line.getLast? ≠ some '\n' := fun hlast => h (List.mem_of_getLast? hlast)
  unfold dropTerminator
  rw [stripSuffix_eq_none hlast]

theorem dropTerminator_newline (line : Text) :
    dropTerminator (line ++ ['\n']) = (stripSuffix '\r' line).getD line := by
  unfold dropTerminator
  rw [stripSuffix_concat]

theorem not_mem_of_mem_lines {s line : Text} (h : line ∈ lines s) : '\n' ∉ line := by
  obtain ⟨piece, hpiece, rfl⟩ := List.mem_map.mp h
  rcases splitInclusive_piece hpiece with hnot | ⟨t, ht, rfl⟩
  · rw [dropTerminator_of_not_mem hnot]
    exact hnot
  · rw [dropTerminator_newline]
    exact fun hmem => ht ((stripSuffix_prefix_self '\r' t).subset hmem)

theorem unlines_cons (line : Text) (ls : List Text) :
    unlines (line :: ls) = line ++ '\n' :: unlines ls := by
  unfold unlines
  rw [List.flatMap_cons, List.append_assoc, List.singleton_append]

theorem unlines_append (ls ls' : List Text) : unlines (ls ++ ls') = unlines ls ++ unlines ls' :=
  List.flatMap_append

theorem splitOn_unlines {ls : List Text} (h : ∀ line ∈ ls, '\n' ∉ line) :
    (unlines ls).splitOn '\n' = ls ++ [[]] := by
  induction ls with
  | nil => rfl
  | cons line ls ih =>
    have hline : '\n' ∉ line := h line (List.mem_cons_self ..)
    have hrest : ∀ l ∈ ls, '\n' ∉ l := fun l hl => h l (List.mem_cons_of_mem line hl)
    rw [unlines_cons, List.splitOn_append_cons_self_of_not_mem hline, ih hrest, List.cons_append]

/-- Reading takes a carriage return from the end of each line. -/
theorem unlines_inj {ls ls' : List Text} (h : ∀ line ∈ ls, '\n' ∉ line)
    (h' : ∀ line ∈ ls', '\n' ∉ line) (heq : unlines ls = unlines ls') : ls = ls' := by
  have hsplit := splitOn_unlines h
  rw [heq, splitOn_unlines h'] at hsplit
  exact (List.append_cancel_right hsplit).symm

theorem lines_unlines_eq {ls : List Text} (h : ∀ line ∈ ls, '\n' ∉ line) :
    lines (unlines ls) = ls.map fun line => (stripSuffix '\r' line).getD line := by
  induction ls with
  | nil => rfl
  | cons line ls ih =>
    have hline : '\n' ∉ line := h line (List.mem_cons_self ..)
    have hrest : ∀ l ∈ ls, '\n' ∉ l := fun l hl => h l (List.mem_cons_of_mem line hl)
    have hlines : lines (unlines ls) = (splitInclusive '\n' (unlines ls)).map dropTerminator := rfl
    rw [unlines_cons, List.map_cons, ← ih hrest, hlines, ← dropTerminator_newline, lines,
      splitInclusive_append hline, List.map_cons]

/-- A line that reading gives back: no newline in it, no carriage return at its end. -/
def IsLine (line : Text) : Prop := '\n' ∉ line ∧ line.getLast? ≠ some '\r'

theorem lines_unlines {ls : List Text} (h : ∀ line ∈ ls, IsLine line) :
    lines (unlines ls) = ls := by
  have hkept : ∀ line ∈ ls, (stripSuffix '\r' line).getD line = line := by
    intro line hline
    rw [stripSuffix_eq_none (h line hline).2, Option.getD_none]
  rw [lines_unlines_eq fun line hline => (h line hline).1, List.map_congr_left hkept, List.map_id']

/-! ## Numbers -/

theorem display_ne_nil (n : Nat) : display n ≠ [] := Nat.toDigits_ne_nil

theorem display_injective : Function.Injective display := by
  intro m n h
  have hm : Nat.ofDigitChars 10 (display m) 0 = m := Nat.ofDigitChars_ten_toDigits
  have hn : Nat.ofDigitChars 10 (display n) 0 = n := Nat.ofDigitChars_ten_toDigits
  rw [← hm, ← hn, h]

theorem digit_of_mem_display {n : Nat} {c : Char} (h : c ∈ display n) : c.isDigit = true :=
  Nat.isDigit_of_mem_toDigits (by decide) (by decide) h

theorem not_mem_display {c : Char} (h : c.isDigit = false) (n : Nat) : c ∉ display n := by
  intro hmem
  rw [digit_of_mem_display hmem] at h
  cases h

theorem whitespace_of_isDigit {c : Char} (h : c.isDigit = true) : isWhitespace c = false := by
  have hrange : 48 ≤ c.toNat ∧ c.toNat ≤ 57 := Char.isDigit_iff_toNat.mp h
  simp only [isWhitespace, Bool.or_eq_false_iff, Bool.and_eq_false_iff, decide_eq_false_iff_not,
    beq_eq_false_iff_ne]
  omega

theorem trim_display (n : Nat) : trim (display n) = display n := by
  apply trim_eq_self
  · intro c hc
    exact whitespace_of_isDigit (digit_of_mem_display (List.mem_of_mem_head? hc))
  · intro c hc
    exact whitespace_of_isDigit (digit_of_mem_display (List.mem_of_mem_getLast? hc))

theorem le_ofDigitChars (s : Text) (acc : Nat) : acc ≤ Nat.ofDigitChars 10 s acc := by
  induction s generalizing acc with
  | nil => rw [Nat.ofDigitChars_nil]
  | cons c s ih =>
    rw [Nat.ofDigitChars_cons]
    exact le_trans (by omega) (ih _)

theorem parseDigits_eq {size : Nat} {s : Text} (hdigits : ∀ c ∈ s, c.isDigit = true) {acc : Nat}
    (hsize : Nat.ofDigitChars 10 s acc < size) :
    parseDigits size acc s = some (Nat.ofDigitChars 10 s acc) := by
  induction s generalizing acc with
  | nil => rw [parseDigits, Nat.ofDigitChars_nil]
  | cons c s ih =>
    have hc : digitValue c = some (c.toNat - '0'.toNat) :=
      if_pos (hdigits c (List.mem_cons_self ..))
    have hs : ∀ d ∈ s, d.isDigit = true := fun d hd => hdigits d (List.mem_cons_of_mem c hd)
    rw [Nat.ofDigitChars_cons] at hsize ⊢
    -- the number read so far is no larger than the whole one
    have hnext : 10 * acc + (c.toNat - '0'.toNat) < size :=
      lt_of_le_of_lt (le_ofDigitChars s _) hsize
    rw [parseDigits, hc]
    dsimp only
    rw [if_pos hnext]
    exact ih hs hsize

theorem parseNat_of_digit {size : Nat} {c : Char} {s : Text} (h : c.isDigit = true) :
    parseNat size (c :: s) = parseDigits size 0 (c :: s) := by
  have hplus : c ≠ '+' := by
    rintro rfl
    cases h
  unfold parseNat
  split
  · rename_i heq
    cases heq
  · rename_i heq
    exact absurd (List.cons.inj heq).1 hplus
  · rename_i heq
    exact absurd (List.cons.inj heq).1 hplus
  · rfl

theorem parseNat_display {size n : Nat} (h : n < size) : parseNat size (display n) = some n := by
  have hdigits : ∀ c ∈ display n, c.isDigit = true := fun c hc => digit_of_mem_display hc
  have hvalue : Nat.ofDigitChars 10 (display n) 0 = n := Nat.ofDigitChars_ten_toDigits
  have hparse : parseDigits size 0 (display n) = some n := by
    rw [parseDigits_eq hdigits (by rw [hvalue]; exact h), hvalue]
  cases hdisplay : display n with
  | nil => exact absurd hdisplay (display_ne_nil n)
  | cons c s =>
    rw [hdisplay] at hdigits hparse
    rw [parseNat_of_digit (hdigits c (List.mem_cons_self ..)), hparse]

theorem displayInt_injective : Function.Injective displayInt := by
  have hsign : ∀ m n : Nat, display m ≠ '-' :: display n := by
    intro m n h
    have hmem : '-' ∈ display m := by simp [h]
    exact not_mem_display rfl m hmem
  intro m n h
  rcases m with m | m <;> rcases n with n | n
  · rw [display_injective h]
  · exact absurd h (hsign m (n + 1))
  · exact absurd h.symm (hsign n (m + 1))
  · have hsucc := display_injective (List.cons.inj h).2
    rw [Nat.succ.inj hsucc]

theorem digit_of_mem_displayInt {n : Int} {c : Char} (h : c ∈ displayInt n) :
    c.isDigit = true ∨ c = '-' := by
  rcases n with n | n
  · exact .inl (digit_of_mem_display h)
  · rcases List.mem_cons.mp h with hc | hc
    · exact .inr hc
    · exact .inl (digit_of_mem_display hc)

def hexValue (c : Char) : Nat :=
  if c.isDigit then c.toNat - '0'.toNat else c.toNat - 'a'.toNat + 10

def ofHex (s : Text) : Nat := s.foldl (fun acc c => 16 * acc + hexValue c) 0

theorem ofHex_displayHex (n : Nat) : ofHex (displayHex n) = n := by
  have hdigit : ∀ d : Fin 16, hexValue (Nat.digitChar d) = d := by decide
  induction n using Nat.strong_induction_on with
  | _ n ih =>
    unfold displayHex
    rw [Nat.toDigits_eq_if (by decide)]
    split_ifs with hlt
    · simpa [ofHex] using hdigit ⟨n, hlt⟩
    · have hhigh : ofHex (Nat.toDigits 16 (n / 16)) = n / 16 := ih (n / 16) (by omega)
      have hlow : hexValue (Nat.digitChar (n % 16)) = n % 16 := hdigit ⟨n % 16, by omega⟩
      unfold ofHex at hhigh ⊢
      rw [List.foldl_append, hhigh, List.foldl_cons, hlow, List.foldl_nil]
      omega

theorem displayHex_injective : Function.Injective displayHex := fun m n h => by
  rw [← ofHex_displayHex m, h, ofHex_displayHex]

theorem ofHex_zeroPad (width : Nat) (s : Text) : ofHex (zeroPad width s) = ofHex s := by
  have hzero : hexValue '0' = 0 := by decide
  have hzeros : ∀ k, ofHex (List.replicate k '0') = 0 := by
    intro k
    induction k with
    | zero => rfl
    | succ k ih =>
      rw [List.replicate_succ']
      unfold ofHex at ih ⊢
      simp [ih, hzero]
  have hacc := hzeros (width - s.length)
  unfold ofHex at hacc ⊢
  rw [zeroPad, List.foldl_append, hacc]

theorem digit_of_mem_displayHex {n : Nat} {c : Char} (h : c ∈ displayHex n) :
    c.isAlphanum = true := by
  have hdigit : ∀ d : Fin 16, (Nat.digitChar d).isAlphanum = true := by decide
  induction n using Nat.strong_induction_on with
  | _ n ih =>
    unfold displayHex at h
    rw [Nat.toDigits_eq_if (by decide)] at h
    split_ifs at h with hlt
    · rw [List.mem_singleton.mp h]
      exact hdigit ⟨n, hlt⟩
    · rcases List.mem_append.mp h with hhigh | hlow
      · exact ih (n / 16) (by omega) hhigh
      · rw [List.mem_singleton.mp hlow]
        exact hdigit ⟨n % 16, by omega⟩

end Text
