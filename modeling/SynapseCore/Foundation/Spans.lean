import Mathlib.Data.List.Basic
import Mathlib.Order.Lattice

/-! The part of a list whose keys lie in a half-open span, and how the parts of adjacent
spans compose. -/

namespace Spans
variable {α K : Type*} [LinearOrder K]

/-- The entries with `lo < key ≤ hi`, in the order of the list. -/
def span (key : α → K) (lo hi : K) (l : List α) : List α :=
  l.filter fun x => decide (lo < key x) && decide (key x ≤ hi)

/-- The parts between consecutive cuts, one after the other. -/
def spans (key : α → K) (l : List α) : K → List K → List α
  | _, [] => []
  | lo, hi :: cuts => span key lo hi l ++ spans key l hi cuts

theorem span_cons_of_mem (key : α → K) {lo hi : K} {x : α} (h : lo < key x ∧ key x ≤ hi)
    (l : List α) : span key lo hi (x :: l) = x :: span key lo hi l := by
  unfold span
  rw [List.filter_cons_of_pos]
  rw [Bool.and_eq_true, decide_eq_true_iff, decide_eq_true_iff]
  exact h

theorem span_cons_of_not_mem (key : α → K) {lo hi : K} {x : α} (h : ¬ (lo < key x ∧ key x ≤ hi))
    (l : List α) : span key lo hi (x :: l) = span key lo hi l := by
  unfold span
  rw [List.filter_cons_of_neg]
  rw [Bool.and_eq_true, decide_eq_true_iff, decide_eq_true_iff]
  exact h

/-- If acceptance passes back to earlier entries, what is accepted comes first. -/
theorem filter_append_filter_not {p : α → Bool} {l : List α}
    (h : l.Pairwise fun x y => p y = true → p x = true) :
    l.filter p ++ l.filter (fun x => !p x) = l := by
  induction l with
  | nil => rfl
  | cons x l ih =>
    obtain ⟨hx, hl⟩ := List.pairwise_cons.mp h
    by_cases hp : p x = true
    · have hnot : ¬ (!p x) = true := by simp [hp]
      rw [List.filter_cons_of_pos hp, List.filter_cons_of_neg (p := fun x => !p x) hnot,
        List.cons_append, ih hl]
    · -- nothing behind a refused entry is accepted
      have hnone : (x :: l).filter p = [] := by
        rw [List.filter_eq_nil_iff]
        intro y hy hpy
        rcases List.mem_cons.mp hy with rfl | hy
        · exact hp hpy
        · exact hp (hx y hy hpy)
      have hall : (x :: l).filter (fun x => !p x) = x :: l := by
        rw [List.filter_eq_self]
        intro y hy
        have hpy : ¬ p y = true := List.filter_eq_nil_iff.mp hnone y hy
        simpa using hpy
      rw [hnone, hall, List.nil_append]

section Adjacent
variable (key : α → K) {a b c : K}

theorem span_low (hbc : b ≤ c) (a : K) (l : List α) :
    (span key a c l).filter (fun x => decide (key x ≤ b)) = span key a b l := by
  unfold span
  rw [List.filter_filter]
  apply List.filter_congr
  intro x _
  have himp : key x ≤ b → key x ≤ c := fun h => h.trans hbc
  by_cases hb : key x ≤ b
  · simp [hb, himp hb]
  · simp [hb]

theorem span_high (hab : a ≤ b) (c : K) (l : List α) :
    (span key a c l).filter (fun x => !decide (key x ≤ b)) = span key b c l := by
  unfold span
  rw [List.filter_filter]
  apply List.filter_congr
  intro x _
  have himp : b < key x → a < key x := fun h => hab.trans_lt h
  by_cases hb : key x ≤ b
  · simp [hb, not_lt.mpr hb]
  · have hlt : b < key x := not_le.mp hb
    simp [hb, hlt, himp hlt]

theorem span_append_perm (hab : a ≤ b) (hbc : b ≤ c) (l : List α) :
    (span key a b l ++ span key b c l).Perm (span key a c l) := by
  rw [← span_low key hbc a, ← span_high key hab c]
  exact List.filter_append_perm _ _

theorem span_append_of_sorted (hab : a ≤ b) (hbc : b ≤ c) {l : List α}
    (h : l.Pairwise fun x y => key x ≤ key y) :
    span key a b l ++ span key b c l = span key a c l := by
  rw [← span_low key hbc a, ← span_high key hab c]
  apply filter_append_filter_not
  have hsorted : (span key a c l).Pairwise fun x y => key x ≤ key y := h.filter _
  refine hsorted.imp fun {x y} hxy hy => ?_
  exact decide_eq_true (hxy.trans (of_decide_eq_true hy))

end Adjacent

section Chains
variable (key : α → K) (l : List α)

theorem span_self (a : K) : span key a a l = [] := by
  unfold span
  rw [List.filter_eq_nil_iff]
  intro x _ hx
  rw [Bool.and_eq_true, decide_eq_true_iff, decide_eq_true_iff] at hx
  exact absurd hx.1 (not_lt.mpr hx.2)

theorem le_getLast {a : K} {cuts : List K} (h : (a :: cuts).Pairwise (· ≤ ·)) :
    a ≤ (a :: cuts).getLast (List.cons_ne_nil a cuts) := by
  rcases List.mem_cons.mp (List.getLast_mem (List.cons_ne_nil a cuts)) with hlast | hmem
  · exact hlast.ge
  · exact (List.pairwise_cons.mp h).1 _ hmem

theorem spans_perm {a : K} {cuts : List K} (h : (a :: cuts).Pairwise (· ≤ ·)) :
    (spans key l a cuts).Perm (span key a ((a :: cuts).getLast (List.cons_ne_nil a cuts)) l) := by
  induction cuts generalizing a with
  | nil =>
    rw [List.getLast_singleton, span_self]
    exact List.Perm.refl []
  | cons b cuts ih =>
    obtain ⟨ha, hcuts⟩ := List.pairwise_cons.mp h
    have hab : a ≤ b := ha b (List.mem_cons_self ..)
    have hlast : b ≤ (b :: cuts).getLast (List.cons_ne_nil b cuts) := le_getLast hcuts
    rw [List.getLast_cons_cons, spans]
    exact ((ih hcuts).append_left _).trans (span_append_perm key hab hlast l)

theorem spans_of_sorted {a : K} {cuts : List K} (h : (a :: cuts).Pairwise (· ≤ ·))
    (hl : l.Pairwise fun x y => key x ≤ key y) :
    spans key l a cuts = span key a ((a :: cuts).getLast (List.cons_ne_nil a cuts)) l := by
  induction cuts generalizing a with
  | nil =>
    rw [List.getLast_singleton, span_self]
    rfl
  | cons b cuts ih =>
    obtain ⟨ha, hcuts⟩ := List.pairwise_cons.mp h
    have hab : a ≤ b := ha b (List.mem_cons_self ..)
    have hlast : b ≤ (b :: cuts).getLast (List.cons_ne_nil b cuts) := le_getLast hcuts
    rw [List.getLast_cons_cons, spans, ih hcuts]
    exact span_append_of_sorted key hab hlast hl

end Chains

end Spans
