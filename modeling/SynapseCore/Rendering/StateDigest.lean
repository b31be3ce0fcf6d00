import Mathlib

/-! The digest of a ledger state: 64-bit FNV-1a. A change of up to four bytes in a row always
shows in the digest. -/

namespace Synapse

def fnvOffset : UInt64 := 0xcbf29ce484222325

def fnvPrime : UInt64 := 0x00000100000001b3

/-- `h ^= b as u64; h = h.wrapping_mul(prime)` -/
def fnvStep (h : UInt64) (b : UInt8) : UInt64 := (h ^^^ b.toUInt64) * fnvPrime

def fnv1a64 (data : List UInt8) : UInt64 := data.foldl fnvStep fnvOffset

/-! ## A step loses nothing -/

theorem xor_byte_div (h : UInt64) (b : UInt8) : (h ^^^ b.toUInt64).toNat / 256 = h.toNat / 256 := by
  have hb : b.toNat / 2 ^ 8 = 0 := Nat.div_eq_of_lt b.toNat_lt
  have hxor : (h.toNat ^^^ b.toNat) / 2 ^ 8 = h.toNat / 2 ^ 8 ^^^ b.toNat / 2 ^ 8 :=
    Nat.xor_div_two_pow
  rw [hb, Nat.xor_zero] at hxor
  simpa using hxor

theorem fnvStep_injective (b : UInt8) : Function.Injective fun h => fnvStep h b := by
  -- the prime is odd, so it has an inverse
  have hinv : fnvPrime * 0xce965057aff6957b = 1 := by decide
  intro h h' heq
  have hmul := congrArg (· * 0xce965057aff6957b) heq
  simp only [fnvStep, UInt64.mul_assoc, hinv, UInt64.mul_one] at hmul
  exact (UInt64.xor_left_inj _).mp hmul

theorem foldl_fnvStep_injective (data : List UInt8) :
    Function.Injective fun h => data.foldl fnvStep h := by
  induction data with
  | nil => exact fun _ _ h => h
  | cons b data ih => exact fun h h' heq => fnvStep_injective b (ih heq)

/-! ## How two digests drift apart -/

def gap (h h' : UInt64) : Int := (h.toNat : Int) - h'.toNat

/-- How far the bytes move the two accumulators apart. -/
def drift (h h' : UInt64) (b b' : UInt8) : Int :=
  gap (h ^^^ b.toUInt64) (h' ^^^ b'.toUInt64) - gap h h'

theorem drift_bound (h h' : UInt64) (b b' : UInt8) :
    -510 ≤ drift h h' b b' ∧ drift h h' b b' ≤ 510 := by
  have hb := xor_byte_div h b
  have hb' := xor_byte_div h' b'
  unfold drift gap
  omega

theorem gap_fnvStep (h h' : UInt64) (b b' : UInt8) :
    gap (fnvStep h b) (fnvStep h' b') ≡ (gap h h' + drift h h' b b') * 1099511628211
      [ZMOD 2 ^ 64] := by
  have hprime : fnvPrime.toNat = 1099511628211 := rfl
  have hsum : gap h h' + drift h h' b b' = gap (h ^^^ b.toUInt64) (h' ^^^ b'.toUInt64) := by
    unfold drift
    omega
  rw [hsum, gap, gap, fnvStep, fnvStep, UInt64.toNat_mul, UInt64.toNat_mul, hprime, Int.sub_mul]
  push_cast
  exact (Int.mod_modEq _ _).sub (Int.mod_modEq _ _)

/-- The drifts along two windows. -/
def drifts : UInt64 → UInt64 → List (UInt8 × UInt8) → List Int
  | _, _, [] => []
  | h, h', (b, b') :: window => drift h h' b b' :: drifts (fnvStep h b) (fnvStep h' b') window

theorem drifts_bound (h h' : UInt64) (window : List (UInt8 × UInt8)) :
    ∀ e ∈ drifts h h' window, -510 ≤ e ∧ e ≤ 510 := by
  induction window generalizing h h' with
  | nil => simp [drifts]
  | cons pair window ih =>
    simpa [drifts] using ⟨drift_bound h h' pair.1 pair.2, ih _ _⟩

theorem drifts_length (h h' : UInt64) (window : List (UInt8 × UInt8)) :
    (drifts h h' window).length = window.length := by
  induction window generalizing h h' with
  | nil => rfl
  | cons pair window ih => simp [drifts, ih]

theorem gap_foldl (h h' : UInt64) (window : List (UInt8 × UInt8)) :
    gap ((window.map Prod.fst).foldl fnvStep h) ((window.map Prod.snd).foldl fnvStep h') ≡
      (drifts h h' window).foldl (fun t e => (t + e) * 1099511628211) (gap h h')
      [ZMOD 2 ^ 64] := by
  have hmono : ∀ (es : List Int) {s t : Int}, s ≡ t [ZMOD 2 ^ 64] →
      es.foldl (fun t e => (t + e) * 1099511628211) s ≡
        es.foldl (fun t e => (t + e) * 1099511628211) t [ZMOD 2 ^ 64] := by
    intro es
    induction es with
    | nil => exact fun h => h
    | cons e es ih => exact fun h => ih ((h.add_right e).mul_right _)
  induction window generalizing h h' with
  | nil => exact Int.ModEq.refl _
  | cons pair window ih =>
    exact (ih (fnvStep h pair.1) (fnvStep h' pair.2)).trans
      (hmono _ (gap_fnvStep h h' pair.1 pair.2))

theorem eq_of_drifts_zero {h : UInt64} {window : List (UInt8 × UInt8)}
    (hzero : ∀ e ∈ drifts h h window, e = 0) : window.map Prod.fst = window.map Prod.snd := by
  induction window generalizing h with
  | nil => rfl
  | cons pair window ih =>
    obtain ⟨b, b'⟩ := pair
    have hdrift : drift h h b b' = 0 := hzero _ (List.mem_cons_self ..)
    have hsame : h ^^^ b.toUInt64 = h ^^^ b'.toUInt64 := by
      apply UInt64.toNat_inj.mp
      unfold drift gap at hdrift
      omega
    have hb : b = b' := by
      have hwide := congrArg UInt64.toNat ((UInt64.xor_right_inj h).mp hsame)
      exact UInt8.toNat_inj.mp (by simpa using hwide)
    subst hb
    rw [List.map_cons, List.map_cons, ih fun e he => hzero e (List.mem_cons_of_mem _ he)]

/-- Four small numbers at the first powers of the prime sum up to zero only if all are zero. -/
theorem powers_independent {a b c d : Int} (ha : -510 ≤ a ∧ a ≤ 510) (hb : -510 ≤ b ∧ b ≤ 510)
    (hc : -510 ≤ c ∧ c ≤ 510) (hd : -510 ≤ d ∧ d ≤ 510)
    (h : (2 ^ 64 : Int) ∣ ((a * 1099511628211 + b) * 1099511628211 + c) * 1099511628211 + d) :
    a = 0 ∧ b = 0 ∧ c = 0 ∧ d = 0 := by
  obtain ⟨m, hm⟩ := h
  -- the part below the fortieth bit vanishes, then the part above it
  have hlow : 82312875 * a + 189225 * b + 435 * c + d = 0 := by omega
  have hhigh : 567675 * a + 870 * b + c =
      2 ^ 24 * (m - 2 ^ 16 * (b + 1305 * a) - 2 ^ 56 * a) := by omega
  have hone : -1 ≤ a ∧ a ≤ 1 := by omega
  have hnone : m - 2 ^ 16 * (b + 1305 * a) - 2 ^ 56 * a = 0 := by omega
  rw [hnone, mul_zero] at hhigh
  have hb0 : b = 0 := by omega
  omega

theorem drifts_zero {es : List Int} (hlength : es.length ≤ 4)
    (hbound : ∀ e ∈ es, -510 ≤ e ∧ e ≤ 510)
    (h : es.foldl (fun t e => (t + e) * 1099511628211) 0 ≡ 0 [ZMOD 2 ^ 64]) :
    ∀ e ∈ es, e = 0 := by
  have hcancel : ∀ {t : Int}, t * 1099511628211 ≡ 0 [ZMOD 2 ^ 64] → (2 ^ 64 : Int) ∣ t := by
    intro t ht
    refine (Int.isCoprime_iff_gcd_eq_one.mpr ?_).dvd_of_dvd_mul_right (Int.modEq_zero_iff_dvd.mp ht)
    decide
  have hzero : (-510 : Int) ≤ 0 ∧ (0 : Int) ≤ 510 := by decide
  match es, hlength with
  | [], _ => simp
  | [d], _ =>
    have hd := hbound d (List.mem_cons_self ..)
    have hall := powers_independent hzero hzero hzero hd (by simpa using hcancel h)
    simp [hall]
  | [c, d], _ =>
    simp only [List.forall_mem_cons] at hbound
    obtain ⟨hc, hd, -⟩ := hbound
    have hall := powers_independent hzero hzero hc hd (by simpa using hcancel h)
    simp [hall]
  | [b, c, d], _ =>
    simp only [List.forall_mem_cons] at hbound
    obtain ⟨hb, hc, hd, -⟩ := hbound
    have hall := powers_independent hzero hb hc hd (by simpa using hcancel h)
    simp [hall]
  | [a, b, c, d], _ =>
    simp only [List.forall_mem_cons] at hbound
    obtain ⟨ha, hb, hc, hd, -⟩ := hbound
    have hall := powers_independent ha hb hc hd (by simpa using hcancel h)
    simp [hall]

theorem window_of_digest {front back w w' : List UInt8} (hsame : w.length = w'.length)
    (hfour : w.length ≤ 4) (h : fnv1a64 (front ++ w ++ back) = fnv1a64 (front ++ w' ++ back)) :
    w = w' := by
  simp only [fnv1a64, List.foldl_append] at h
  have hwindow := foldl_fnvStep_injective back h
  generalize front.foldl fnvStep fnvOffset = start at hwindow
  have hfst : (w.zip w').map Prod.fst = w := List.map_fst_zip hsame.le
  have hsnd : (w.zip w').map Prod.snd = w' := List.map_snd_zip hsame.ge
  have hgap := gap_foldl start start (w.zip w')
  rw [hfst, hsnd] at hgap
  rw [hwindow] at hgap
  have hself : ∀ x : UInt64, gap x x = 0 := fun x => by simp [gap]
  rw [hself, hself] at hgap
  have hlength : (drifts start start (w.zip w')).length ≤ 4 := by
    rw [drifts_length, List.length_zip]
    omega
  have hzero := drifts_zero hlength (drifts_bound _ _ _) hgap.symm
  have heq := eq_of_drifts_zero hzero
  rwa [hfst, hsnd] at heq

/-- **The digest shows every short burst.** Among states that differ within at most four
neighbouring bytes, wherever they are, the digest tells all apart. -/
theorem state_digest_shows_bursts (front back : List UInt8) {w w' : List UInt8}
    (hsame : w.length = w'.length) (hfour : w.length ≤ 4) :
    fnv1a64 (front ++ w ++ back) = fnv1a64 (front ++ w' ++ back) ↔ w = w' :=
  ⟨window_of_digest hsame hfour, fun h => by rw [h]⟩

theorem state_digest_shows_bursts_fixture :
    fnv1a64 ([1, 2] ++ [0, 0, 0, 1] ++ [3]) ≠ fnv1a64 ([1, 2] ++ [1, 0, 0, 0] ++ [3]) := by
  intro h
  have hwindow := (state_digest_shows_bursts [1, 2] [3] (by decide) (by decide)).mp h
  exact absurd hwindow (by decide)

example : fnv1a64 [97] = 0xaf63dc4c8601ec8c := by decide

end Synapse
