import SynapseCore.Foundation.Readable
import SynapseCore.Foundation.Utf8
import SynapseCore.Rendering.StateDump

/-! The readable rendering of a contract value, and what it keeps of the value. The
rendering of an address, the class of printable characters and the `Debug` text of the
rarer values are the host's and Rust's. -/

namespace Synapse
open Text Readable

def isSymbolChar (c : Char) : Bool := c.isAlphanum || c == '_'

@[ext] structure ScSymbol where
  chars : Text
  valid : chars.all isSymbolChar = true
  short : chars.length ≤ 32

/-- A value as it stands on the wire. The rarer kinds (errors, 256-bit numbers, absent
vectors and maps, ledger keys) are `other`. -/
inductive ScVal (Address Other : Type) where
  | bool (b : Bool)
  | void
  | u32 (n : UInt32)
  | i32 (n : Int32)
  | u64 (n : UInt64)
  | i64 (n : Int64)
  | i128 (hi : Int64) (lo : UInt64)
  | u128 (hi lo : UInt64)
  | symbol (s : ScSymbol)
  | string (s : List UInt8)
  | bytes (b : List UInt8)
  | address (a : Address)
  | vec (items : List (ScVal Address Other))
  | map (entries : List (ScVal Address Other × ScVal Address Other))
  | other (v : Other)

/-- What the rendering leaves to others. -/
structure Displays (Address Other : Type) where
  printable : Char → Bool
  address : Address → Text
  other : Other → Text

def escapeLetters : List (Char × Char) :=
  [('\x00', '0'), ('\t', 't'), ('\r', 'r'), ('\n', 'n'), ('\\', '\\'), ('"', '"')]

def escapeDebug (printable : Char → Bool) (c : Char) : Text :=
  match escapeLetters.lookup c with
  | some letter => ['\\', letter]
  | none => if printable c then [c] else ['\\', 'u', '{'] ++ displayHex c.toNat ++ ['}']

def debugText (printable : Char → Bool) (s : Text) : Text :=
  '"' :: (s.flatMap (escapeDebug printable) ++ ['"'])

def i128OfParts (hi : Int64) (lo : UInt64) : BitVec 128 :=
  (hi.toBitVec.signExtend 128 <<< 64) ||| lo.toBitVec.setWidth 128

def u128OfParts (hi lo : UInt64) : BitVec 128 :=
  (hi.toBitVec.setWidth 128 <<< 64) ||| lo.toBitVec.setWidth 128

variable {Address Other : Type} (shown : Displays Address Other)

def renderMapKey (k : ScVal Address Other) (rendered : Text) : Text :=
  match k with
  | .symbol s => s.chars
  | _ => rendered

mutual

def renderScval : ScVal Address Other → Text
  | .bool b => if b then ['t', 'r', 'u', 'e'] else ['f', 'a', 'l', 's', 'e']
  | .void => ['v', 'o', 'i', 'd']
  | .u32 n => ['u', '3', '2', ':'] ++ display n.toNat
  | .i32 n => ['i', '3', '2', ':'] ++ displayInt n.toInt
  | .u64 n => ['u', '6', '4', ':'] ++ display n.toNat
  | .i64 n => ['i', '6', '4', ':'] ++ displayInt n.toInt
  | .i128 hi lo => ['i', '1', '2', '8', ':'] ++ displayInt (i128OfParts hi lo).toInt
  | .u128 hi lo => ['u', '1', '2', '8', ':'] ++ display (u128OfParts hi lo).toNat
  | .symbol s => ['s', 'y', 'm', ':'] ++ s.chars
  | .string s => ['s', 't', 'r', ':'] ++ debugText shown.printable (Utf8.lossy s)
  | .bytes b => ['b', 'y', 't', 'e', 's', ':'] ++ hex b
  | .address a => ['a', 'd', 'd', 'r', ':'] ++ shown.address a
  | .vec items => '[' :: ([',', ' '].intercalate (renderItems items) ++ [']'])
  | .map entries => '{' :: ([',', ' '].intercalate (renderEntries entries) ++ ['}'])
  | .other v => shown.other v

def renderItems : List (ScVal Address Other) → List Text
  | [] => []
  | v :: items => renderScval v :: renderItems items

def renderEntries : List (ScVal Address Other × ScVal Address Other) → List Text
  | [] => []
  | (k, v) :: entries =>
    (renderMapKey k (renderScval k) ++ [':', ' '] ++ renderScval v) :: renderEntries entries

end

theorem renderItems_eq (items : List (ScVal Address Other)) :
    renderItems shown items = items.map (renderScval shown) := by
  induction items with
  | nil => rfl
  | cons v items ih => rw [renderItems, ih, List.map_cons]

def renderMapEntry (e : ScVal Address Other × ScVal Address Other) : Text :=
  renderMapKey e.1 (renderScval shown e.1) ++ [':', ' '] ++ renderScval shown e.2

theorem renderEntries_eq (entries : List (ScVal Address Other × ScVal Address Other)) :
    renderEntries shown entries = entries.map (renderMapEntry shown) := by
  induction entries with
  | nil => rfl
  | cons e entries ih => rw [renderEntries, ih, List.map_cons, renderMapEntry]

/-! ## The characters of a rendering -/

theorem digitChar_alphanum {n : Nat} (h : n < 16) : (Nat.digitChar n).isAlphanum = true := by
  have hall : ∀ i : Fin 16, (Nat.digitChar i).isAlphanum = true := by decide
  exact hall ⟨n, h⟩

theorem alphanum_of_mem_hex {bytes : List UInt8} {c : Char} (h : c ∈ hex bytes) :
    c.isAlphanum = true := by
  obtain ⟨b, _, hb⟩ := List.mem_flatMap.mp h
  have hlt : b.toNat < 256 := b.toNat_lt
  rcases List.mem_cons.mp hb with rfl | hb
  · exact digitChar_alphanum (by omega)
  · rw [List.mem_singleton.mp hb]
    exact digitChar_alphanum (by omega)

theorem escapeLetters_spec {c letter : Char} (h : escapeLetters.lookup c = some letter) :
    (c, letter) ∈ escapeLetters := by
  obtain ⟨l, r, heq, _⟩ := List.lookup_eq_some_iff.mp h
  simp [heq]

theorem escapeLetters_inj : ∀ p ∈ escapeLetters, p.2 ≠ 'u' ∧
    ∀ q ∈ escapeLetters, p.2 = q.2 → p.1 = q.1 := by decide

theorem escapeDebug_cases (printable : Char → Bool) (c : Char) :
    (∃ l, (c, l) ∈ escapeLetters ∧ escapeDebug printable c = ['\\', l]) ∨
    (c ≠ '\\' ∧ c ≠ '"' ∧ c ≠ '\n') ∧
      (escapeDebug printable c = [c] ∨
        escapeDebug printable c = '\\' :: 'u' :: '{' :: (displayHex c.toNat ++ ['}'])) := by
  unfold escapeDebug
  rcases hc : escapeLetters.lookup c with _ | l
  · refine .inr ⟨?_, ?_⟩
    · refine ⟨?_, ?_, ?_⟩ <;> rintro rfl <;> cases hc
    · dsimp only
      split_ifs
      · exact .inl rfl
      · exact .inr rfl
  · exact .inl ⟨l, escapeLetters_spec hc, rfl⟩

/-- The escape of a character shows where it ends and which character it stands for. -/
theorem escapeDebug_inj {printable : Char → Bool} {c d : Char} {x y : Text}
    (h : escapeDebug printable c ++ x = escapeDebug printable d ++ y) : c = d ∧ x = y := by
  rcases escapeDebug_cases printable c with ⟨l, hl, hc⟩ | ⟨⟨hcslash, -, -⟩, hc | hc⟩ <;>
    rcases escapeDebug_cases printable d with ⟨m, hm, hd⟩ | ⟨⟨hdslash, -, -⟩, hd | hd⟩ <;>
    rw [hc, hd] at h <;>
    simp only [List.cons_append, List.nil_append, List.append_assoc, List.cons.injEq,
      true_and] at h
  · obtain ⟨rfl, hrest⟩ := h
    exact ⟨(escapeLetters_inj _ hl).2 _ hm rfl, hrest⟩
  · exact absurd h.1.symm hdslash
  · exact absurd h.1 (escapeLetters_inj _ hl).1
  · exact absurd h.1 hcslash
  · exact h
  · exact absurd h.1 hcslash
  · exact absurd h.1.symm (escapeLetters_inj _ hm).1
  · exact absurd h.1.symm hdslash
  · have hword : ∀ k, '}' ∉ displayHex k := fun k hmem => by
      cases digit_of_mem_displayHex hmem
    obtain ⟨hdigits, hrest⟩ := append_sep_inj (hword _) (hword _) h
    refine ⟨Char.toNat_inj.mp (displayHex_injective hdigits), ?_⟩
    simpa using hrest

theorem escapeDebug_ne_quote (printable : Char → Bool) (c : Char) (x y : Text) :
    escapeDebug printable c ++ x ≠ '"' :: y := by
  intro h
  rcases escapeDebug_cases printable c with ⟨l, -, hc⟩ | ⟨⟨-, hquote, -⟩, hc | hc⟩ <;>
    rw [hc] at h <;> simp at h
  exact hquote h.1

theorem debugText_inj {printable : Char → Bool} {s t : Text} {x y : Text}
    (h : debugText printable s ++ x = debugText printable t ++ y) : s = t ∧ x = y := by
  simp only [debugText, List.cons_append, List.append_assoc, List.nil_append, List.cons.injEq,
    true_and] at h
  exact quoted_inj (fun _ _ _ _ => escapeDebug_inj) (escapeDebug_ne_quote printable) h

theorem newline_not_mem_debugText (printable : Char → Bool) (s : Text) :
    '\n' ∉ debugText printable s := by
  have hletters : ∀ p ∈ escapeLetters, p.2 ≠ '\n' := by decide
  have hcode : ∀ c, '\n' ∉ escapeDebug printable c := by
    intro c hmem
    rcases escapeDebug_cases printable c with ⟨l, hl, hc⟩ | ⟨⟨-, -, hnewline⟩, hc | hc⟩ <;>
      rw [hc] at hmem <;> simp at hmem
    · exact hletters _ hl hmem.symm
    · exact hnewline hmem.symm
    · cases digit_of_mem_displayHex hmem
  simpa [debugText] using fun c _ => hcode c

/-! ## The parts of a 128-bit number -/

theorem i128OfParts_toInt (hi : Int64) (lo : UInt64) :
    (i128OfParts hi lo).toInt = 2 ^ 64 * hi.toInt + lo.toNat := by
  have happend : i128OfParts hi lo = hi.toBitVec ++ lo.toBitVec := by
    rw [i128OfParts, BitVec.append_def]
    ext i hlt
    simp
    grind
  rw [happend, BitVec.toInt_append]
  simp

theorem u128OfParts_toNat (hi lo : UInt64) :
    (u128OfParts hi lo).toNat = 2 ^ 64 * hi.toNat + lo.toNat := by
  have happend : u128OfParts hi lo = hi.toBitVec ++ lo.toBitVec := by
    rw [u128OfParts, BitVec.append_def]
    ext i hlt
    simp
    grind
  have hlo : lo.toNat < 2 ^ 64 := lo.toNat_lt
  rw [happend, BitVec.toNat_append, UInt64.toNat_toBitVec, UInt64.toNat_toBitVec,
    ← Nat.shiftLeft_add_eq_or_of_lt hlo, Nat.shiftLeft_eq, Nat.mul_comm]

/-! ## A plain value can be read off its rendering -/

/-- The values with a rendering of their own: strings are UTF-8 and keys are symbols. -/
inductive Plain : ScVal Address Other → Prop
  | bool (b : Bool) : Plain (.bool b)
  | void : Plain .void
  | u32 (n : UInt32) : Plain (.u32 n)
  | i32 (n : Int32) : Plain (.i32 n)
  | u64 (n : UInt64) : Plain (.u64 n)
  | i64 (n : Int64) : Plain (.i64 n)
  | i128 (hi : Int64) (lo : UInt64) : Plain (.i128 hi lo)
  | u128 (hi lo : UInt64) : Plain (.u128 hi lo)
  | symbol (s : ScSymbol) : Plain (.symbol s)
  | string (s : Text) : Plain (.string (Utf8.encode s))
  | bytes (b : List UInt8) : Plain (.bytes b)
  | address (a : Address) : Plain (.address a)
  | vec (items : List (ScVal Address Other)) (h : ∀ v ∈ items, Plain v) : Plain (.vec items)
  | map (entries : List (ScVal Address Other × ScVal Address Other))
      (hkeys : ∀ e ∈ entries, ∃ s, e.1 = .symbol s) (hvals : ∀ e ∈ entries, Plain e.2) :
      Plain (.map entries)

/-- An address prints as letters and digits that belong to no other address. -/
structure Displays.Strkeys (shown : Displays Address Other) : Prop where
  injective : Function.Injective shown.address
  alphanum : ∀ a, ∀ c ∈ shown.address a, c.isAlphanum = true

inductive Kind where
  | bool (b : Bool)
  | void | u32 | i32 | u64 | i64 | i128 | u128 | symbol | string | bytes | address
  | vec | map | other
  deriving DecidableEq

def Kind.label : Kind → Text
  | .bool true => ['t', 'r', 'u', 'e']
  | .bool false => ['f', 'a', 'l', 's', 'e']
  | .void => ['v', 'o', 'i', 'd']
  | .u32 => ['u', '3', '2', ':']
  | .i32 => ['i', '3', '2', ':']
  | .u64 => ['u', '6', '4', ':']
  | .i64 => ['i', '6', '4', ':']
  | .i128 => ['i', '1', '2', '8', ':']
  | .u128 => ['u', '1', '2', '8', ':']
  | .symbol => ['s', 'y', 'm', ':']
  | .string => ['s', 't', 'r', ':']
  | .bytes => ['b', 'y', 't', 'e', 's', ':']
  | .address => ['a', 'd', 'd', 'r', ':']
  | .vec => ['[']
  | .map => ['{']
  | .other => []

def kind : ScVal Address Other → Kind
  | .bool b => .bool b
  | .void => .void
  | .u32 _ => .u32
  | .i32 _ => .i32
  | .u64 _ => .u64
  | .i64 _ => .i64
  | .i128 _ _ => .i128
  | .u128 _ _ => .u128
  | .symbol _ => .symbol
  | .string _ => .string
  | .bytes _ => .bytes
  | .address _ => .address
  | .vec _ => .vec
  | .map _ => .map
  | .other _ => .other

def payload : ScVal Address Other → Text
  | .bool _ => []
  | .void => []
  | .u32 n => display n.toNat
  | .i32 n => displayInt n.toInt
  | .u64 n => display n.toNat
  | .i64 n => displayInt n.toInt
  | .i128 hi lo => displayInt (i128OfParts hi lo).toInt
  | .u128 hi lo => display (u128OfParts hi lo).toNat
  | .symbol s => s.chars
  | .string s => debugText shown.printable (Utf8.lossy s)
  | .bytes b => hex b
  | .address a => shown.address a
  | .vec items => [',', ' '].intercalate (items.map (renderScval shown)) ++ [']']
  | .map entries => [',', ' '].intercalate (entries.map (renderMapEntry shown)) ++ ['}']
  | .other v => shown.other v

theorem renderScval_eq (v : ScVal Address Other) :
    renderScval shown v = (kind v).label ++ payload shown v := by
  cases v with
  | bool b => cases b <;> rfl
  | void => rfl
  | vec items => simp [renderScval, kind, Kind.label, payload, renderItems_eq]
  | map entries => simp [renderScval, kind, Kind.label, payload, renderEntries_eq]
  | _ => simp [renderScval, kind, Kind.label, payload]

theorem Plain.kind_ne_other {v : ScVal Address Other} (h : Plain v) : kind v ≠ .other := by
  cases h <;> simp [kind]

theorem Kind.label_free {k l : Kind} (hk : k ≠ .other) (hl : l ≠ .other)
    (h : k.label <+: l.label) : k = l := by
  rcases k with (_ | _) | _ <;> rcases l with (_ | _) | _ <;> revert hk hl h <;> decide

def IsStop (c : Char) : Prop := c = ',' ∨ c = ']' ∨ c = '}'

theorem not_stop_of_alphanum {c : Char} (h : c.isAlphanum = true ∨ c = '-' ∨ c = '_') :
    ¬ IsStop c := by
  rintro (rfl | rfl | rfl) <;> simp at h

section Plain
variable {shown : Displays Address Other}

theorem Plain.readBack_of_payload {v : ScVal Address Other} (hv : Plain v)
    (h : ReadBack IsStop (fun w => Plain w ∧ kind w = kind v) (payload shown) v) :
    ReadBack IsStop Plain (renderScval shown) v := by
  refine readBack_of_label (renderScval_eq shown) ?_ hv ?_
  · intro a b ha hb hpre
    rw [Kind.label_free ha.kind_ne_other hb.kind_ne_other hpre]
  · intro w rest rest' ⟨hw, hlabel⟩
    have hpre : (kind w).label <+: (kind v).label := by rw [hlabel]
    exact h w rest rest' ⟨hw, Kind.label_free hw.kind_ne_other hv.kind_ne_other hpre⟩

def IsWord : ScVal Address Other → Prop
  | .string _ | .vec _ | .map _ | .other _ => False
  | _ => True

theorem not_stop_of_mem_payload (hshown : shown.Strkeys) {v : ScVal Address Other}
    (hword : IsWord v) : ∀ c ∈ payload shown v, ¬ IsStop c := by
  have hdigit : ∀ c : Char, c.isDigit = true → c.isAlphanum = true := fun c hc => by
    simp [Char.isAlphanum, hc]
  have hnat : ∀ n, ∀ c ∈ display n, ¬ IsStop c := fun n c hc =>
    not_stop_of_alphanum (.inl (hdigit c (digit_of_mem_display hc)))
  have hint : ∀ n, ∀ c ∈ displayInt n, ¬ IsStop c := fun n c hc =>
    not_stop_of_alphanum ((digit_of_mem_displayInt hc).imp (hdigit c) .inl)
  cases v with
  | bool b => simp [payload]
  | void => simp [payload]
  | u32 n => exact hnat _
  | i32 n => exact hint _
  | u64 n => exact hnat _
  | i64 n => exact hint _
  | i128 hi lo => exact hint _
  | u128 hi lo => exact hnat _
  | symbol s =>
    intro c hc
    have hvalid := List.all_eq_true.mp s.valid c hc
    simp only [isSymbolChar, Bool.or_eq_true, beq_iff_eq] at hvalid
    exact not_stop_of_alphanum (hvalid.imp id .inr)
  | bytes b => exact fun c hc => not_stop_of_alphanum (.inl (alphanum_of_mem_hex hc))
  | address a => exact fun c hc => not_stop_of_alphanum (.inl (hshown.alphanum a c hc))
  | _ => cases hword

theorem word_inj (hshown : shown.Strkeys) {v w : ScVal Address Other} (hword : IsWord v)
    (hkind : kind w = kind v) (h : payload shown v = payload shown w) : v = w := by
  cases v with
  | bool b => cases w <;> cases hkind; rfl
  | void => cases w <;> cases hkind; rfl
  | u32 n =>
    cases w <;> cases hkind
    rw [UInt32.toNat_inj.mp (display_injective h)]
  | i32 n =>
    cases w <;> cases hkind
    rw [Int32.toInt_inj.mp (displayInt_injective h)]
  | u64 n =>
    cases w <;> cases hkind
    rw [UInt64.toNat_inj.mp (display_injective h)]
  | i64 n =>
    cases w <;> cases hkind
    rw [Int64.toInt_inj.mp (displayInt_injective h)]
  | i128 hi lo =>
    cases w <;> cases hkind
    rename_i hi' lo'
    have hvalue := displayInt_injective h
    rw [i128OfParts_toInt, i128OfParts_toInt] at hvalue
    have hlo : lo.toNat < 2 ^ 64 := lo.toNat_lt
    have hlo' : lo'.toNat < 2 ^ 64 := lo'.toNat_lt
    rw [Int64.toInt_inj.mp (show hi.toInt = hi'.toInt by omega),
      UInt64.toNat_inj.mp (show lo.toNat = lo'.toNat by omega)]
  | u128 hi lo =>
    cases w <;> cases hkind
    rename_i hi' lo'
    have hvalue := display_injective h
    rw [u128OfParts_toNat, u128OfParts_toNat] at hvalue
    have hlo : lo.toNat < 2 ^ 64 := lo.toNat_lt
    have hlo' : lo'.toNat < 2 ^ 64 := lo'.toNat_lt
    rw [UInt64.toNat_inj.mp (show hi.toNat = hi'.toNat by omega),
      UInt64.toNat_inj.mp (show lo.toNat = lo'.toNat by omega)]
  | symbol s =>
    cases w <;> cases hkind
    rw [ScSymbol.ext h]
  | bytes b =>
    cases w <;> cases hkind
    rw [hex_injective h]
  | address a =>
    cases w <;> cases hkind
    rw [hshown.injective h]
  | _ => cases hword

theorem IsWord.of_kind {v w : ScVal Address Other} (hword : IsWord v) (h : kind w = kind v) :
    IsWord w := by
  cases w <;> first | trivial | cases v <;> first | exact hword | cases h

theorem readBack_word (hshown : shown.Strkeys) {v : ScVal Address Other} (hv : Plain v)
    (hword : IsWord v) : ReadBack IsStop Plain (renderScval shown) v := by
  refine hv.readBack_of_payload (readBack_of_words ?_ ?_ ⟨hv, rfl⟩)
  · intro w hw
    exact not_stop_of_mem_payload hshown (hword.of_kind hw.2)
  · intro w x hw hx h
    exact word_inj hshown (hword.of_kind hw.2) (hx.2.trans hw.2.symm) h

def PlainEntry (e : ScVal Address Other × ScVal Address Other) : Prop :=
  (∃ s, e.1 = .symbol s) ∧ Plain e.2

theorem readBack_entry {e : ScVal Address Other × ScVal Address Other}
    (hkey : ∃ s, e.1 = .symbol s) (h : ReadBack IsStop Plain (renderScval shown) e.2) :
    ReadBack IsStop PlainEntry (renderMapEntry shown) e := by
  have hcolon : ∀ s : ScSymbol, ':' ∉ s.chars := by
    intro s hmem
    have hvalid := List.all_eq_true.mp s.valid _ hmem
    simp [isSymbolChar] at hvalid
  obtain ⟨k, v⟩ := e
  obtain ⟨s, rfl⟩ := hkey
  rintro ⟨k, w⟩ rest rest' ⟨⟨t, rfl⟩, hw⟩ hrest hrest' heq
  simp only [renderMapEntry, renderMapKey, List.append_assoc, List.cons_append,
    List.nil_append] at heq
  obtain ⟨hkey, htail⟩ := append_sep_inj (hcolon s) (hcolon t) heq
  simp only [List.cons.injEq, true_and] at htail
  obtain ⟨rfl, hrests⟩ := h w rest rest' hw hrest hrest' htail
  rw [ScSymbol.ext hkey]
  exact ⟨rfl, hrests⟩

theorem Plain.renderScval_start {v : ScVal Address Other} (h : Plain v) :
    ∃ c w, renderScval shown v = c :: w ∧ c ≠ ']' := by
  rw [renderScval_eq]
  cases h with
  | bool b => cases b <;> exact ⟨_, _, rfl, by decide⟩
  | _ => exact ⟨_, _, rfl, by decide⟩

theorem PlainEntry.renderMapEntry_start {e : ScVal Address Other × ScVal Address Other}
    (h : PlainEntry e) : ∃ c w, renderMapEntry shown e = c :: w ∧ c ≠ '}' := by
  obtain ⟨⟨s, hs⟩, -⟩ := h
  have hvalid := s.valid
  unfold renderMapEntry
  rw [hs, renderMapKey]
  cases hchars : s.chars with
  | nil => exact ⟨_, _, rfl, by decide⟩
  | cons c chars =>
    refine ⟨_, _, rfl, ?_⟩
    rintro rfl
    rw [hchars] at hvalid
    simp [isSymbolChar] at hvalid

theorem Plain.readBack (hshown : shown.Strkeys) {v : ScVal Address Other} (h : Plain v) :
    ReadBack IsStop Plain (renderScval shown) v := by
  induction h with
  | string s =>
    refine (Plain.string s).readBack_of_payload ?_
    rintro w rest rest' ⟨hw, hkind⟩ - - heq
    cases hw <;> cases hkind
    rename_i t
    simp only [payload, Utf8.lossy_encode] at heq
    obtain ⟨rfl, hrests⟩ := debugText_inj heq
    exact ⟨rfl, hrests⟩
  | vec items hitems ih =>
    refine (Plain.vec items hitems).readBack_of_payload ?_
    rintro w rest rest' ⟨hw, hkind⟩ - - heq
    cases hw <;> cases hkind
    rename_i items' hitems'
    simp only [payload, List.append_assoc, List.cons_append, List.nil_append] at heq
    obtain ⟨rfl, hrests⟩ := listing_inj (by decide) (.inl rfl) (.inr (.inl rfl))
      (fun v hv => hv.renderScval_start) (fun v hv => ⟨hitems v hv, ih v hv⟩) hitems' heq
    exact ⟨rfl, hrests⟩
  | map entries hkeys hvals ih =>
    refine (Plain.map entries hkeys hvals).readBack_of_payload ?_
    rintro w rest rest' ⟨hw, hkind⟩ - - heq
    cases hw <;> cases hkind
    rename_i entries' hkeys' hvals'
    simp only [payload, List.append_assoc, List.cons_append, List.nil_append] at heq
    have hentry : ∀ e ∈ entries,
        PlainEntry e ∧ ReadBack IsStop PlainEntry (renderMapEntry shown) e := fun e he =>
      ⟨⟨hkeys e he, hvals e he⟩, readBack_entry (hkeys e he) (ih e he)⟩
    obtain ⟨rfl, hrests⟩ := listing_inj (by decide) (.inl rfl) (.inr (.inr rfl))
      (fun e he => he.renderMapEntry_start) hentry (fun e he => ⟨hkeys' e he, hvals' e he⟩) heq
    exact ⟨rfl, hrests⟩
  | _ => exact readBack_word hshown (by constructor) trivial

end Plain

/-- **The readable rendering shows the value.** Two plain values have one rendering exactly
if they are the same value. -/
theorem render_scval_faithful {shown : Displays Address Other} (hshown : shown.Strkeys)
    {v w : ScVal Address Other} (hv : Plain v) (hw : Plain w) :
    renderScval shown v = renderScval shown w ↔ v = w :=
  ⟨(hv.readBack hshown).eq hw, congrArg (renderScval shown)⟩

def testDisplays : Displays Unit Empty where
  printable := fun c => decide (' ' ≤ c ∧ c ≤ '~')
  address := fun _ =>
    ['G', 'A', '7', 'Q', 'Y', 'N', 'F', '7', 'S', 'O', 'W', 'Q', '3', 'G', 'L', 'R', '2', 'B',
      'G', 'M', 'Z', 'E', 'H', 'X', 'A', 'V', 'I', 'R', 'Z', 'A', '4', 'K', 'V', 'W', 'L', 'T',
      'J', 'J', 'F', 'C', '7', 'M', 'G', 'X', 'U', 'A', '7', '4', 'P', '7', 'U', 'J', 'V', 'S',
      'G', 'Z']
  other := Empty.elim

theorem testDisplays_strkeys : testDisplays.Strkeys where
  injective := fun _ _ _ => rfl
  alphanum := fun _ => by
    have hall : (testDisplays.address ()).all Char.isAlphanum = true := by rfl
    exact List.all_eq_true.mp hall

theorem render_scval_faithful_fixture :
    renderScval testDisplays (.vec [.string (Utf8.encode ['a', '"', ',', ' ', 'v', 'o', 'i', 'd'])])
      ≠ renderScval testDisplays (.vec [.string (Utf8.encode ['a', '"']), .void]) := by
  intro heq
  have hplain : ∀ s, Plain (.string (Utf8.encode s) : ScVal Unit Empty) := Plain.string
  cases (render_scval_faithful testDisplays_strkeys (.vec _ (by simp [hplain]))
    (.vec _ (by simp [hplain, Plain.void]))).mp heq

/-! ## A rendering is one line -/

section OneLine
variable {shown : Displays Address Other}

structure Displays.OneLine (shown : Displays Address Other) : Prop where
  address : ∀ a, '\n' ∉ shown.address a
  other : ∀ v, '\n' ∉ shown.other v

theorem newline_not_mem_intercalate {sep : Text} (hsep : '\n' ∉ sep) {l : List Text}
    (h : ∀ s ∈ l, '\n' ∉ s) : '\n' ∉ sep.intercalate l := by
  induction l with
  | nil => simp
  | cons s l ih =>
    have hs := h s (List.mem_cons_self ..)
    have hl := ih fun t ht => h t (List.mem_cons_of_mem s ht)
    cases l with
    | nil => simpa using hs
    | cons t l =>
      rw [List.intercalate_cons_cons]
      simp [hs, hsep, hl]

theorem newline_not_mem_displayInt (n : Int) : '\n' ∉ displayInt n := fun hmem => by
  rcases digit_of_mem_displayInt hmem with h | h <;> cases h

theorem newline_not_mem_hex (bytes : List UInt8) : '\n' ∉ hex bytes := fun hmem => by
  cases alphanum_of_mem_hex hmem

theorem newline_not_mem_symbol (s : ScSymbol) : '\n' ∉ s.chars := fun hmem => by
  cases List.all_eq_true.mp s.valid _ hmem

mutual

theorem newline_not_mem_renderScval (hshown : shown.OneLine) :
    ∀ v : ScVal Address Other, '\n' ∉ renderScval shown v
  | .bool b => by cases b <;> simp [renderScval]
  | .void => by simp [renderScval]
  | .u32 n => by simp [renderScval, not_mem_display]
  | .i32 n => by simp [renderScval, newline_not_mem_displayInt]
  | .u64 n => by simp [renderScval, not_mem_display]
  | .i64 n => by simp [renderScval, newline_not_mem_displayInt]
  | .i128 hi lo => by simp [renderScval, newline_not_mem_displayInt]
  | .u128 hi lo => by simp [renderScval, not_mem_display]
  | .symbol s => by simp [renderScval, newline_not_mem_symbol]
  | .string s => by simp [renderScval, newline_not_mem_debugText]
  | .bytes b => by simp [renderScval, newline_not_mem_hex]
  | .address a => by simp [renderScval, hshown.address]
  | .vec items => by
    have hitems := newline_not_mem_intercalate (show '\n' ∉ [',', ' '] by decide)
      (newline_not_mem_renderItems hshown items)
    simp [renderScval, hitems]
  | .map entries => by
    have hentries := newline_not_mem_intercalate (show '\n' ∉ [',', ' '] by decide)
      (newline_not_mem_renderEntries hshown entries)
    simp [renderScval, hentries]
  | .other v => by simp [renderScval, hshown.other]

theorem newline_not_mem_renderItems (hshown : shown.OneLine) :
    ∀ items : List (ScVal Address Other), ∀ s ∈ renderItems shown items, '\n' ∉ s
  | [] => by simp [renderItems]
  | v :: items => by
    have hv := newline_not_mem_renderScval hshown v
    have hitems := newline_not_mem_renderItems hshown items
    simpa [renderItems, hv] using hitems

theorem newline_not_mem_renderEntries (hshown : shown.OneLine) :
    ∀ entries : List (ScVal Address Other × ScVal Address Other),
      ∀ s ∈ renderEntries shown entries, '\n' ∉ s
  | [] => by simp [renderEntries]
  | (k, v) :: entries => by
    have hk := newline_not_mem_renderScval hshown k
    have hv := newline_not_mem_renderScval hshown v
    have hentries := newline_not_mem_renderEntries hshown entries
    have hkey : '\n' ∉ renderMapKey k (renderScval shown k) := by
      unfold renderMapKey
      split
      · exact newline_not_mem_symbol _
      · exact hk
    simpa [renderEntries, hkey, hv] using hentries

end

end OneLine

theorem testDisplays_oneLine : testDisplays.OneLine where
  address := fun a hmem => by cases testDisplays_strkeys.alphanum a _ hmem
  other := fun v => v.elim

end Synapse
