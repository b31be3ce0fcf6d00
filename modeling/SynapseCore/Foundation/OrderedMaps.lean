import Mathlib

/-! Ordered maps: the map a loop over the entries of another one collects. -/

/-- A map iterated in the order of its keys. Maps with equal entries are equal. -/
abbrev BTreeMap (K V : Type*) [Ord K] := Std.ExtTreeMap K V compare

namespace BTreeMap
variable {K V W : Type*} [Ord K] [Std.TransOrd K]

/-- Insert the entries one after the other, each with the image of its value. -/
def collect (f : V → W) (entries : List (K × V)) (m : BTreeMap K W) : BTreeMap K W :=
  entries.foldl (fun m entry => m.insert entry.1 (f entry.2)) m

@[simp] theorem collect_cons (f : V → W) (k : K) (v : V) (entries : List (K × V))
    (m : BTreeMap K W) :
    collect f ((k, v) :: entries) m = collect f entries (m.insert k (f v)) := rfl

theorem mem_iff_getElem? {m : BTreeMap K V} {k : K} : k ∈ m ↔ ∃ v, m[k]? = some v := by
  rw [Std.ExtTreeMap.mem_iff_isSome_getElem?, Option.isSome_iff_exists]

theorem not_mem_iff_getElem? {m : BTreeMap K V} {k : K} : k ∉ m ↔ m[k]? = none := by
  rw [Std.ExtTreeMap.mem_iff_isSome_getElem?, Bool.not_eq_true, Option.isSome_eq_false_iff,
    Option.isNone_iff_eq_none]

variable [Std.LawfulEqOrd K]

theorem mem_iff_mem_toList {m : BTreeMap K V} {k : K} : k ∈ m ↔ ∃ v, (k, v) ∈ m.toList := by
  rw [mem_iff_getElem?]
  simp only [Std.ExtTreeMap.mem_toList_iff_getElem?_eq_some]

theorem insert_insert (m : BTreeMap K V) (k : K) (v w : V) :
    (m.insert k v).insert k w = m.insert k w := by
  apply Std.ExtTreeMap.ext_getElem?
  intro k'
  simp only [Std.ExtTreeMap.getElem?_insert]
  split_ifs <;> rfl

theorem insert_insertIfNew (m : BTreeMap K V) (k : K) (v w : V) :
    (m.insertIfNew k v).insert k w = m.insert k w := by
  apply Std.ExtTreeMap.ext_getElem?
  intro k'
  simp only [Std.ExtTreeMap.getElem?_insert, Std.ExtTreeMap.getElem?_insertIfNew]
  split_ifs with heq hnew
  · rfl
  · exact absurd hnew.1 heq
  · rfl

theorem collect_of_not_mem (f : V → W) {entries : List (K × V)} {k : K}
    (h : ∀ v, (k, v) ∉ entries) (m : BTreeMap K W) : (collect f entries m)[k]? = m[k]? := by
  induction entries generalizing m with
  | nil => rfl
  | cons entry entries ih =>
    obtain ⟨k', v'⟩ := entry
    have hne : ¬ compare k' k = .eq := by
      intro heq
      have hk : k' = k := Std.LawfulEqOrd.eq_of_compare heq
      exact h v' (hk ▸ List.mem_cons_self ..)
    have hrest : ∀ v, (k, v) ∉ entries := fun v hmem => h v (List.mem_cons_of_mem _ hmem)
    rw [collect_cons, ih hrest, Std.ExtTreeMap.getElem?_insert, if_neg hne]

theorem collect_of_mem (f : V → W) {entries : List (K × V)}
    (hdistinct : entries.Pairwise fun a b => a.1 ≠ b.1) {k : K} {v : V} (h : (k, v) ∈ entries)
    (m : BTreeMap K W) : (collect f entries m)[k]? = some (f v) := by
  induction entries generalizing m with
  | nil => cases h
  | cons entry entries ih =>
    obtain ⟨k', v'⟩ := entry
    obtain ⟨hhead, hrest⟩ := List.pairwise_cons.mp hdistinct
    rcases List.mem_cons.mp h with heq | hmem
    · obtain ⟨rfl, rfl⟩ := Prod.ext_iff.mp heq
      have hnot : ∀ w, (k, w) ∉ entries := fun w hw => hhead (k, w) hw rfl
      rw [collect_cons, collect_of_not_mem f hnot]
      exact Std.ExtTreeMap.getElem?_insert_self
    · rw [collect_cons]
      exact ih hrest hmem _

theorem distinct_toList (m : BTreeMap K V) : m.toList.Pairwise fun a b => a.1 ≠ b.1 := by
  apply m.distinct_keys_toList.imp
  intro a b hne heq
  exact hne (heq ▸ Std.ReflCmp.compare_self)

/-- Collecting the entries of a map gives its image. -/
theorem collect_toList_getElem? (f : V → W) (m : BTreeMap K V) (k : K) :
    (collect f m.toList ∅)[k]? = m[k]?.map f := by
  cases hget : m[k]? with
  | none =>
    have hnot : ∀ v, (k, v) ∉ m.toList := by
      intro v hmem
      rw [Std.ExtTreeMap.mem_toList_iff_getElem?_eq_some, hget] at hmem
      cases hmem
    rw [collect_of_not_mem f hnot]
    exact Std.ExtTreeMap.getElem?_empty
  | some v =>
    have hmem : (k, v) ∈ m.toList := Std.ExtTreeMap.mem_toList_iff_getElem?_eq_some.mpr hget
    rw [collect_of_mem f (distinct_toList m) hmem]
    rfl

end BTreeMap
