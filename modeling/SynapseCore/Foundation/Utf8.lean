import Mathlib.Data.List.Basic

/-! UTF-8: the bytes of a text, and the text read from bytes that need not be well formed,
with a replacement character for each broken sequence. -/

namespace Utf8

def encode (s : List Char) : List UInt8 := s.flatMap String.utf8EncodeChar

/-- How many bytes a sequence has that begins with this one; `0` if none does. -/
def width (lead : Nat) : Nat :=
  if lead < 0x80 then 1
  else if 0xC2 ≤ lead ∧ lead ≤ 0xDF then 2
  else if 0xE0 ≤ lead ∧ lead ≤ 0xEF then 3
  else if 0xF0 ≤ lead ∧ lead ≤ 0xF4 then 4
  else 0

def isContinuation (b : Nat) : Bool := decide (0x80 ≤ b) && decide (b < 0xC0)

/-- The second byte of a longer sequence: no overlong form, no surrogate, no code point
above the last. -/
def isSecond (lead b : Nat) : Bool :=
  if lead = 0xE0 then decide (0xA0 ≤ b) && decide (b < 0xC0)
  else if lead = 0xED then decide (0x80 ≤ b) && decide (b < 0xA0)
  else if lead = 0xF0 then decide (0x90 ≤ b) && decide (b < 0xC0)
  else if lead = 0xF4 then decide (0x80 ≤ b) && decide (b < 0x90)
  else isContinuation b

/-- Take `n` continuation bytes behind the bits `acc`; stop in front of any other byte. -/
def takeContinuation : Nat → Nat → List UInt8 → Option Nat × List UInt8
  | 0, acc, rest => (some acc, rest)
  | _ + 1, _, [] => (none, [])
  | n + 1, acc, b :: rest =>
    if isContinuation b.toNat then takeContinuation n (acc * 64 + b.toNat % 64) rest
    else (none, b :: rest)

/-- As `takeContinuation`, where the first of the bytes is the second of the sequence. -/
def takeSecond (lead n acc : Nat) : List UInt8 → Option Nat × List UInt8
  | [] => (none, [])
  | b :: rest =>
    if isSecond lead b.toNat then takeContinuation n (acc * 64 + b.toNat % 64) rest
    else (none, b :: rest)

/-- The code point of the sequence behind its first byte, and what is left to read. -/
def takeChar (lead : Nat) (rest : List UInt8) : Option Nat × List UInt8 :=
  match width lead with
  | 1 => (some lead, rest)
  | 2 => takeContinuation 1 (lead % 32) rest
  | 3 => takeSecond lead 1 (lead % 16) rest
  | 4 => takeSecond lead 2 (lead % 8) rest
  | _ => (none, rest)

/-- Each round reads one byte at least, so `fuel` bytes are read. -/
def lossyLoop : Nat → List UInt8 → List Char
  | 0, _ => []
  | _ + 1, [] => []
  | fuel + 1, b :: rest =>
    ((takeChar b.toNat rest).1.elim '\uFFFD' Char.ofNat) ::
      lossyLoop fuel (takeChar b.toNat rest).2

def lossy (bytes : List UInt8) : List Char := lossyLoop bytes.length bytes

/-! ## What is well formed is read back -/

theorem toNat_ofNat {n : Nat} (h : n < 256) : (UInt8.ofNat n).toNat = n :=
  UInt8.toNat_ofNat_of_lt' h

theorem takeContinuation_cons (n acc v : Nat) (rest : List UInt8) :
    takeContinuation (n + 1) acc (UInt8.ofNat (v % 0x40 + 0x80) :: rest) =
      takeContinuation n (acc * 64 + v % 0x40) rest := by
  have hbyte : (UInt8.ofNat (v % 0x40 + 0x80)).toNat = v % 0x40 + 0x80 := toNat_ofNat (by omega)
  have hcont : isContinuation (v % 0x40 + 0x80) = true := by
    simp only [isContinuation, Bool.and_eq_true, decide_eq_true_eq]
    omega
  have hbits : (v % 0x40 + 0x80) % 64 = v % 0x40 := by omega
  rw [takeContinuation, hbyte, if_pos hcont, hbits]

theorem takeSecond_cons {lead v : Nat} (h : isSecond lead (v % 0x40 + 0x80) = true)
    (n acc : Nat) (rest : List UInt8) :
    takeSecond lead n acc (UInt8.ofNat (v % 0x40 + 0x80) :: rest) =
      takeContinuation n (acc * 64 + v % 0x40) rest := by
  have hbyte : (UInt8.ofNat (v % 0x40 + 0x80)).toNat = v % 0x40 + 0x80 := toNat_ofNat (by omega)
  have hbits : (v % 0x40 + 0x80) % 64 = v % 0x40 := by omega
  rw [takeSecond, hbyte, if_pos h, hbits]

/-- The second byte of a code point is within the bounds for its first. -/
theorem isSecond_three {v : Nat} (hlow : 0x7ff < v) (hhigh : v ≤ 0xffff)
    (hsurrogate : v < 0xD800 ∨ 0xDFFF < v) :
    isSecond (v / 4096 % 0x10 + 0xe0) (v / 64 % 0x40 + 0x80) = true := by
  simp only [isSecond, isContinuation]
  split_ifs <;> simp only [Bool.and_eq_true, decide_eq_true_eq] <;> omega

theorem isSecond_four {v : Nat} (hlow : 0xffff < v) (hhigh : v < 0x110000) :
    isSecond (v / 262144 % 0x08 + 0xf0) (v / 4096 % 0x40 + 0x80) = true := by
  simp only [isSecond, isContinuation]
  split_ifs <;> simp only [Bool.and_eq_true, decide_eq_true_eq] <;> omega

theorem takeChar_one {lead : Nat} (h : width lead = 1) (rest : List UInt8) :
    takeChar lead rest = (some lead, rest) := by simp [takeChar, h]

theorem takeChar_two {lead : Nat} (h : width lead = 2) (rest : List UInt8) :
    takeChar lead rest = takeContinuation 1 (lead % 32) rest := by simp [takeChar, h]

theorem takeChar_three {lead : Nat} (h : width lead = 3) (rest : List UInt8) :
    takeChar lead rest = takeSecond lead 1 (lead % 16) rest := by simp [takeChar, h]

theorem takeChar_four {lead : Nat} (h : width lead = 4) (rest : List UInt8) :
    takeChar lead rest = takeSecond lead 2 (lead % 8) rest := by simp [takeChar, h]

theorem takeChar_encode (c : Char) (rest : List UInt8) :
    ∃ b tail, String.utf8EncodeChar c = b :: tail ∧
      takeChar b.toNat (tail ++ rest) = (some c.toNat, rest) := by
  have hvalid : c.toNat < 0xD800 ∨ 0xDFFF < c.toNat ∧ c.toNat < 0x110000 := c.valid
  have hval : c.val.toNat = c.toNat := rfl
  unfold String.utf8EncodeChar
  rw [hval]
  generalize c.toNat = v at hvalid
  dsimp only
  split_ifs with hone htwo hthree
  · refine ⟨_, _, rfl, ?_⟩
    have hwidth : width v = 1 := if_pos (by omega)
    rw [toNat_ofNat (by omega), takeChar_one hwidth]
    rfl
  · refine ⟨_, _, rfl, ?_⟩
    have hwidth : width (v / 64 % 0x20 + 0xc0) = 2 := by
      unfold width
      rw [if_neg (by omega), if_pos (by omega)]
    have hpoint : (v / 64 % 0x20 + 0xc0) % 32 * 64 + v % 0x40 = v := by omega
    rw [toNat_ofNat (by omega), takeChar_two hwidth]
    rw [List.cons_append, takeContinuation_cons, hpoint]
    rfl
  · refine ⟨_, _, rfl, ?_⟩
    have hwidth : width (v / 4096 % 0x10 + 0xe0) = 3 := by
      unfold width
      rw [if_neg (by omega), if_neg (by omega), if_pos (by omega)]
    have hpoint : ((v / 4096 % 0x10 + 0xe0) % 16 * 64 + v / 64 % 0x40) * 64 + v % 0x40 = v := by
      omega
    rw [toNat_ofNat (by omega), takeChar_three hwidth]
    rw [List.cons_append, takeSecond_cons (isSecond_three (by omega) hthree (by omega)),
      List.cons_append, takeContinuation_cons, hpoint]
    rfl
  · refine ⟨_, _, rfl, ?_⟩
    have hwidth : width (v / 262144 % 0x08 + 0xf0) = 4 := by
      unfold width
      rw [if_neg (by omega), if_neg (by omega), if_neg (by omega), if_pos (by omega)]
    have hpoint : (((v / 262144 % 0x08 + 0xf0) % 8 * 64 + v / 4096 % 0x40) * 64 +
        v / 64 % 0x40) * 64 + v % 0x40 = v := by
      omega
    rw [toNat_ofNat (by omega), takeChar_four hwidth]
    rw [List.cons_append, takeSecond_cons (isSecond_four (by omega) (by omega)),
      List.cons_append, takeContinuation_cons, List.cons_append, takeContinuation_cons, hpoint]
    rfl

theorem lossyLoop_encode (s : List Char) {fuel : Nat} (h : (encode s).length ≤ fuel) :
    lossyLoop fuel (encode s) = s := by
  induction s generalizing fuel with
  | nil => cases fuel <;> rfl
  | cons c s ih =>
    obtain ⟨b, tail, hbytes, hread⟩ := takeChar_encode c (encode s)
    have hencode : encode (c :: s) = b :: (tail ++ encode s) := by
      simp [encode, hbytes]
    rw [hencode, List.length_cons, List.length_append] at h
    obtain ⟨fuel, rfl⟩ : ∃ n, fuel = n + 1 := ⟨fuel - 1, by omega⟩
    rw [hencode, lossyLoop, hread, ih (by omega)]
    simp

theorem lossy_encode (s : List Char) : lossy (encode s) = s := lossyLoop_encode s (Nat.le_refl _)

theorem encode_injective : Function.Injective encode := fun s t h => by
  rw [← lossy_encode s, h, lossy_encode]

end Utf8
