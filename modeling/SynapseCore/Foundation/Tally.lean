import Mathlib.Data.Finset.Card
import SynapseCore.Foundation.Runs

/-! Votes counted against a threshold. A ballot lists the voters so far, each
once; the vote that brings it to the threshold empties it again. -/

namespace Tally
open Machine
variable {V : Type*} [DecidableEq V]

/-- Note a voter. One already on the ballot is not noted again. -/
def record (ballot : List V) (v : V) : List V := if v ∈ ballot then ballot else ballot ++ [v]

/-- Cast one vote: the ballot it leaves, and whether it brought quorum. -/
def cast (threshold : Nat) (ballot : List V) (v : V) : List V × Bool :=
  if threshold ≤ (record ballot v).length then ([], true) else (record ballot v, false)

section OneVote
variable {ballot : List V}

theorem mem_record (v a : V) : a ∈ record ballot v ↔ a = v ∨ a ∈ ballot := by
  unfold record
  split_ifs with hmem
  · constructor
    · exact Or.inr
    · rintro (rfl | ha)
      · exact hmem
      · exact ha
  · rw [List.mem_append, List.mem_singleton, or_comm]

theorem record_nodup (h : ballot.Nodup) (v : V) : (record ballot v).Nodup := by
  unfold record
  split_ifs with hmem
  · exact h
  · exact h.append (List.nodup_singleton v) (List.disjoint_singleton.mpr hmem)

theorem record_toFinset (v : V) : (record ballot v).toFinset = insert v ballot.toFinset := by
  ext a
  rw [List.mem_toFinset, mem_record, Finset.mem_insert, List.mem_toFinset]

theorem record_length (h : ballot.Nodup) (v : V) :
    (record ballot v).length = (insert v ballot.toFinset).card := by
  rw [← record_toFinset, List.toFinset_card_of_nodup (record_nodup h v)]

theorem cast_quorum {threshold : Nat} {v : V} (h : threshold ≤ (record ballot v).length) :
    cast threshold ballot v = ([], true) := if_pos h

theorem cast_short {threshold : Nat} {v : V} (h : ¬ threshold ≤ (record ballot v).length) :
    cast threshold ballot v = (record ballot v, false) := if_neg h

theorem cast_quorum_iff (threshold : Nat) (v : V) :
    (cast threshold ballot v).2 = true ↔ threshold ≤ (record ballot v).length := by
  unfold cast
  split_ifs with hquorum
  · simp [hquorum]
  · simp [hquorum]

theorem cast_emptied {threshold : Nat} {v : V} (h : (cast threshold ballot v).2 = true) :
    (cast threshold ballot v).1 = [] := by
  rw [cast_quorum ((cast_quorum_iff threshold v).mp h)]

end OneVote

/-! ## Runs without quorum -/

/-- A sequence of votes never brings quorum exactly when all its voters together
with those on the ballot stay below the threshold. -/
theorem no_quorum_iff (threshold : Nat) {ballot : List V} (h : ballot.Nodup) (votes : List V) :
    (transcript (cast threshold) ballot votes).countP (fun entry => entry.2) = 0 ↔
      votes = [] ∨ (ballot.toFinset ∪ votes.toFinset).card < threshold := by
  induction votes generalizing ballot with
  | nil => simp
  | cons v votes ih =>
    have hvoters : ballot.toFinset ∪ (v :: votes).toFinset =
        (record ballot v).toFinset ∪ votes.toFinset := by
      rw [record_toFinset, List.toFinset_cons, Finset.union_insert, Finset.insert_union]
    have hle : (record ballot v).length ≤ (ballot.toFinset ∪ (v :: votes).toFinset).card := by
      rw [hvoters, ← List.toFinset_card_of_nodup (record_nodup h v)]
      exact Finset.card_le_card Finset.subset_union_left
    -- as long as no vote brings quorum the ballot only grows, so `votes` runs on from it
    rw [transcript_cons]
    by_cases hquorum : threshold ≤ (record ballot v).length
    · rw [cast_quorum hquorum, List.countP_cons_of_pos rfl]
      constructor
      · intro hzero
        omega
      · rintro (hnil | hshort)
        · cases hnil
        · omega
    · rw [cast_short hquorum, List.countP_cons_of_neg (by simp), ih (record_nodup h v), ← hvoters]
      constructor
      · rintro (rfl | hshort)
        · have hcard := List.toFinset_card_of_nodup (record_nodup h v)
          right
          rw [hvoters, List.toFinset_nil, Finset.union_empty, hcard]
          omega
        · exact Or.inr hshort
      · rintro (hnil | hshort)
        · cases hnil
        · exact Or.inr hshort

theorem no_quorum_from_empty_iff (threshold : Nat) (votes : List V) :
    (transcript (cast threshold) [] votes).countP (fun entry => entry.2) = 0 ↔
      votes.toFinset.card < max 1 threshold := by
  rw [no_quorum_iff threshold List.nodup_nil, List.toFinset_nil, Finset.empty_union,
    ← List.toFinset_eq_empty_iff, ← Finset.card_eq_zero]
  omega

end Tally
