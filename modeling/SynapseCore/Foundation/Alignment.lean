import Mathlib.Data.List.Basic

/-! Two lists laid side by side, position by position: what is kept, what is removed from
the first and what is added by the second. Both lists can be read off. -/

namespace Alignment
variable {α : Type*}

inductive Change (α : Type*)
  | kept (a : α)
  | removed (a : α)
  | added (a : α)

namespace Change

/-- What the change takes from the first list. -/
def old : Change α → Option α
  | kept a => some a
  | removed a => some a
  | added _ => none

/-- What the change brings to the second list. -/
def new : Change α → Option α
  | kept a => some a
  | removed _ => none
  | added a => some a

def IsKept : Change α → Prop
  | kept _ => True
  | _ => False

theorem old_eq_new {c : Change α} (h : c.IsKept) : c.old = c.new := by
  cases c with
  | kept a => rfl
  | removed a => exact h.elim
  | added a => exact h.elim

end Change

variable [DecidableEq α]

/-- The change, or the two changes, at a position where both lists have an entry. -/
def pair (a b : α) : List (Change α) := if a = b then [.kept a] else [.removed a, .added b]

def align : List α → List α → List (Change α)
  | [], l' => l'.map .added
  | a :: l, [] => .removed a :: align l []
  | a :: l, b :: l' => pair a b ++ align l l'

theorem filterMap_old_pair (a b : α) : (pair a b).filterMap Change.old = [a] := by
  unfold pair
  split_ifs <;> rfl

theorem filterMap_new_pair (a b : α) : (pair a b).filterMap Change.new = [b] := by
  unfold pair
  split_ifs with heq
  · rw [heq]
    rfl
  · rfl

theorem filterMap_old_align (l l' : List α) : (align l l').filterMap Change.old = l := by
  induction l, l' using align.induct with
  | case1 l' =>
    rw [align, List.filterMap_map]
    exact List.filterMap_eq_nil_iff.mpr fun _ _ => rfl
  | case2 a l ih =>
    have hhead : (Change.removed a).old = some a := rfl
    rw [align, List.filterMap_cons_some hhead, ih]
  | case3 a l b l' ih =>
    rw [align, List.filterMap_append, filterMap_old_pair, ih, List.singleton_append]

theorem filterMap_new_align (l l' : List α) : (align l l').filterMap Change.new = l' := by
  induction l, l' using align.induct with
  | case1 l' =>
    rw [align, List.filterMap_map]
    exact List.filterMap_some
  | case2 a l ih =>
    have hhead : (Change.removed a).new = none := rfl
    rw [align, List.filterMap_cons_none hhead, ih]
  | case3 a l b l' ih =>
    rw [align, List.filterMap_append, filterMap_new_pair, ih, List.singleton_append]

theorem mem_of_old {l l' : List α} {c : Change α} {a : α} (hc : c ∈ align l l')
    (h : c.old = some a) : a ∈ l := by
  rw [← filterMap_old_align l l']
  exact List.mem_filterMap.mpr ⟨c, hc, h⟩

theorem mem_of_new {l l' : List α} {c : Change α} {b : α} (hc : c ∈ align l l')
    (h : c.new = some b) : b ∈ l' := by
  rw [← filterMap_new_align l l']
  exact List.mem_filterMap.mpr ⟨c, hc, h⟩

theorem isKept_of_mem_align_self {l : List α} {c : Change α} (h : c ∈ align l l) : c.IsKept := by
  induction l with
  | nil => cases h
  | cons a l ih =>
    rw [align, pair, if_pos rfl, List.singleton_append] at h
    rcases List.mem_cons.mp h with rfl | hmem
    · trivial
    · exact ih hmem

/-- Everything is kept exactly if the lists are equal. -/
theorem forall_kept_iff (l l' : List α) : (∀ c ∈ align l l', c.IsKept) ↔ l = l' := by
  constructor
  · intro h
    calc l = (align l l').filterMap Change.old := (filterMap_old_align l l').symm
      _ = (align l l').filterMap Change.new :=
        List.filterMap_congr fun c hc => Change.old_eq_new (h c hc)
      _ = l' := filterMap_new_align l l'
  · rintro rfl c hc
    exact isKept_of_mem_align_self hc

/-- Of two different lists, the second no shorter than the first, the second adds something. -/
theorem exists_added {l l' : List α} (hne : l ≠ l') (hlength : l.length ≤ l'.length) :
    ∃ b, Change.added b ∈ align l l' := by
  induction l, l' using align.induct with
  | case1 l' =>
    obtain ⟨b, hb⟩ := List.exists_mem_of_ne_nil l' hne.symm
    exact ⟨b, List.mem_map_of_mem hb⟩
  | case2 a l => cases hlength
  | case3 a l b l' ih =>
    by_cases hab : a = b
    · have hrest : l ≠ l' := fun heq => hne (by rw [hab, heq])
      obtain ⟨c, hc⟩ := ih hrest (Nat.le_of_succ_le_succ hlength)
      exact ⟨c, List.mem_append_right _ hc⟩
    · refine ⟨b, List.mem_append_left _ ?_⟩
      simp [pair, hab]

end Alignment
