import Mathlib

/-! Canonical forms: codes of one width are read back from their concatenation, and a
sorted listing of rendered items shows the multiset of the items and nothing else. -/

namespace Canonical
variable {α β : Type*}

theorem flatMap_injective {code : α → List β} {width : Nat} (hpos : 0 < width)
    (hwidth : ∀ a, (code a).length = width) (hcode : Function.Injective code) :
    Function.Injective (List.flatMap code) := by
  have hne : ∀ a l, List.flatMap code (a :: l) ≠ [] := by
    intro a l hnil
    have hhead : code a = [] := (List.append_eq_nil_iff.mp hnil).1
    have hlen := hwidth a
    rw [hhead] at hlen
    exact absurd hlen (Nat.ne_of_lt hpos)
  intro l
  induction l with
  | nil =>
    intro l' h
    cases l' with
    | nil => rfl
    | cons a l' => exact absurd h.symm (hne a l')
  | cons a l ih =>
    intro l' h
    cases l' with
    | nil => exact absurd h (hne a l)
    | cons a' l' =>
      rw [List.flatMap_cons, List.flatMap_cons] at h
      obtain ⟨hhead, htail⟩ := List.append_inj h ((hwidth a).trans (hwidth a').symm)
      rw [hcode hhead, ih htail]

/-- As `flatMap_injective`, where the items of both lists have codes of their own. -/
theorem flatMap_inj_of_mem {code : α → List β} {width : Nat} (hpos : 0 < width)
    (hwidth : ∀ a, (code a).length = width) {l l' : List α}
    (hcode : ∀ a ∈ l, ∀ b ∈ l', code a = code b → a = b)
    (h : l.flatMap code = l'.flatMap code) : l = l' := by
  have hne : ∀ a, code a ≠ [] := fun a => List.ne_nil_of_length_pos (hwidth a ▸ hpos)
  induction l generalizing l' with
  | nil =>
    cases l' with
    | nil => rfl
    | cons b l' => simp [hne b] at h
  | cons a l ih =>
    cases l' with
    | nil => simp [hne a] at h
    | cons b l' =>
      rw [List.flatMap_cons, List.flatMap_cons] at h
      obtain ⟨hhead, htail⟩ := List.append_inj h ((hwidth a).trans (hwidth b).symm)
      rw [hcode a (List.mem_cons_self ..) b (List.mem_cons_self ..) hhead,
        ih (fun x hx y hy => hcode x (List.mem_cons_of_mem a hx) y (List.mem_cons_of_mem b hy))
          htail]

variable [LinearOrder β]

/-- A list sorted is the sort of its multiset. -/
theorem mergeSort_eq_iff (l l' : List β) :
    l.mergeSort (fun a b => decide (a ≤ b)) = l'.mergeSort (fun a b => decide (a ≤ b)) ↔
      (l : Multiset β) = l' := by
  rw [← Multiset.coe_sort l (· ≤ ·), ← Multiset.coe_sort l' (· ≤ ·)]
  constructor
  · intro h
    rw [← Multiset.sort_eq (l : Multiset β) (· ≤ ·), h, Multiset.sort_eq]
  · intro h
    rw [h]

/-- Injective rendering followed by sorting determines the multiset, and nothing more. -/
theorem mergeSort_map_eq_iff {render : α → β} (hrender : Function.Injective render)
    (l l' : List α) :
    (l.map render).mergeSort (fun a b => decide (a ≤ b)) =
      (l'.map render).mergeSort (fun a b => decide (a ≤ b)) ↔ (l : Multiset α) = l' := by
  rw [mergeSort_eq_iff, ← Multiset.map_coe, ← Multiset.map_coe]
  exact (Multiset.map_injective hrender).eq_iff

end Canonical
