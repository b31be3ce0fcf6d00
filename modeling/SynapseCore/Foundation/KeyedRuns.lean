import Mathlib.Logic.Function.Basic
import SynapseCore.Foundation.Runs

/-! A family of independent cells, driven by calls that each address one cell.
A run of the family is, cell by cell, the run of the calls addressed there. -/

namespace Machine
variable {K V I O : Type*} [DecidableEq K]

/-- Let a call act on the one cell its key selects. -/
def keyed (key : I → K) (cell : V → I → V × O) (m : K → V) (i : I) : (K → V) × O :=
  (Function.update m (key i) (cell (m (key i)) i).1, (cell (m (key i)) i).2)

def addressed (key : I → K) (k : K) (is : List I) : List I := is.filter fun i => key i = k

variable (key : I → K) (cell : V → I → V × O)

@[simp] theorem addressed_nil (k : K) : addressed key k [] = [] := rfl

theorem addressed_cons_self (i : I) (is : List I) :
    addressed key (key i) (i :: is) = i :: addressed key (key i) is := by
  simp [addressed]

theorem addressed_cons_of_ne {i : I} {k : K} (h : key i ≠ k) (is : List I) :
    addressed key k (i :: is) = addressed key k is := by
  simp [addressed, h]

theorem keyed_apply_self (m : K → V) (i : I) :
    (keyed key cell m i).1 (key i) = (cell (m (key i)) i).1 := Function.update_self ..

theorem keyed_apply_of_ne (m : K → V) {i : I} {k : K} (h : key i ≠ k) :
    (keyed key cell m i).1 k = m k := Function.update_of_ne (Ne.symm h) ..

/-- Each cell ends where the calls addressed to it alone would take it. -/
theorem after_keyed_apply (m : K → V) (is : List I) (k : K) :
    after (keyed key cell) m is k = after cell (m k) (addressed key k is) := by
  induction is generalizing m with
  | nil => rfl
  | cons i is ih =>
    rw [after_cons, ih]
    by_cases h : key i = k
    · subst h
      rw [addressed_cons_self, after_cons, keyed_apply_self]
    · rw [addressed_cons_of_ne key h, keyed_apply_of_ne key cell m h]

/-- Two runs that address each cell alike end alike, however they interleave the cells. -/
theorem after_keyed_eq_of_addressed (m : K → V) {is js : List I}
    (h : ∀ k, addressed key k is = addressed key k js) :
    after (keyed key cell) m is = after (keyed key cell) m js := by
  funext k
  rw [after_keyed_apply, after_keyed_apply, h k]

theorem transcript_keyed_filter (m : K → V) (is : List I) (k : K) :
    (transcript (keyed key cell) m is).filter (fun entry => key entry.1 = k) =
      transcript cell (m k) (addressed key k is) := by
  induction is generalizing m with
  | nil => rfl
  | cons i is ih =>
    rw [transcript_cons, List.filter_cons, ih]
    by_cases h : key i = k
    · subst h
      simp only [decide_true, if_true, addressed_cons_self, transcript_cons, keyed_apply_self]
      rfl
    · simp only [h, decide_false, Bool.false_eq_true, if_false,
        addressed_cons_of_ne key h, keyed_apply_of_ne key cell m h]

end Machine
