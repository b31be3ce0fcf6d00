import Mathlib.Data.List.Basic

/-! Runs that may fail on the way, and the rules for those that do not: each step succeeds
and hands its postcondition on to the next. -/

universe u

namespace Trial
variable {α β S : Type u}

/-- The run gets to its end, with a result of this kind. -/
def Succeeds (run : Option α) (post : α → Prop) : Prop := ∃ a, run = some a ∧ post a

/-- An assertion on the way. -/
def check (p : Prop) [Decidable p] : Option PUnit := if p then some ⟨⟩ else none

section Rules
variable {run : Option α} {post post' : α → Prop}

theorem succeeds_some {a : α} (h : post a) : Succeeds (some a) post := ⟨a, rfl, h⟩

theorem succeeds_of_eq {a : α} (hrun : run = some a) (h : post a) : Succeeds run post :=
  ⟨a, hrun, h⟩

theorem Succeeds.mono (h : Succeeds run post) (hpost : ∀ a, post a → post' a) :
    Succeeds run post' := by
  obtain ⟨a, hrun, ha⟩ := h
  exact ⟨a, hrun, hpost a ha⟩

theorem Succeeds.bind {f : α → Option β} {goal : β → Prop} (h : Succeeds run post)
    (hf : ∀ a, post a → Succeeds (f a) goal) : Succeeds (run >>= f) goal := by
  obtain ⟨a, rfl, ha⟩ := h
  exact hf a ha

theorem succeeds_check {p : Prop} [Decidable p] (h : p) {f : PUnit → Option β} {goal : β → Prop}
    (hf : Succeeds (f ⟨⟩) goal) : Succeeds (check p >>= f) goal := by
  have hcheck : check p = some ⟨⟩ := if_pos h
  rw [hcheck]
  exact hf

theorem rest_of_bind {a : α} (hrun : run = some a) {f : α → Option β} {b : β}
    (h : (run >>= f) = some b) : f a = some b := by
  rw [hrun] at h
  exact h

theorem of_check {p : Prop} [Decidable p] {u : PUnit} (h : check p = some u) : p := by
  unfold check at h
  split_ifs at h with hp
  exact hp

theorem Succeeds.ite {p : Prop} [Decidable p] {run' : Option α} (h : p → Succeeds run post)
    (h' : ¬ p → Succeeds run' post) : Succeeds (if p then run else run') post := by
  split_ifs with hp
  · exact h hp
  · exact h' hp

end Rules

/-! ## Loops -/

section Loops
variable {γ : Type*} {f : S → γ → Option S}

/-- A loop succeeds if each round does that starts in its invariant; the invariant may speak
of the rounds that are done. -/
theorem succeeds_foldlM (xs : List γ) (inv : List γ → S → Prop)
    (hround : ∀ done x rest s, xs = done ++ x :: rest → inv done s →
      Succeeds (f s x) (inv (done ++ [x])))
    {s : S} (hs : inv [] s) : Succeeds (xs.foldlM f s) (inv xs) := by
  have hloop : ∀ rest done s, xs = done ++ rest → inv done s →
      Succeeds (rest.foldlM f s) (inv xs) := by
    intro rest
    induction rest with
    | nil =>
      intro done s hcut hinv
      rw [List.append_nil] at hcut
      rw [hcut]
      exact succeeds_some hinv
    | cons x rest ih =>
      intro done s hcut hinv
      rw [List.foldlM_cons]
      refine (hround done x rest s hcut hinv).bind fun s' hs' => ?_
      exact ih (done ++ [x]) s' (by rw [hcut, List.append_assoc]; rfl) hs'
  exact hloop xs [] s rfl hs

theorem succeeds_foldlM_kept (xs : List γ) (inv : S → Prop)
    (hround : ∀ s, ∀ x ∈ xs, inv s → Succeeds (f s x) inv) {s : S} (hs : inv s) :
    Succeeds (xs.foldlM f s) inv := by
  refine succeeds_foldlM xs (fun _ => inv) (fun done x rest s hcut hinv => ?_) hs
  exact hround s x (by rw [hcut]; simp) hinv

/-- A loop that gets to its end went through each round. -/
theorem exists_round_of_foldlM {xs : List γ} {s s' : S} (h : xs.foldlM f s = some s') {x : γ}
    (hx : x ∈ xs) : ∃ s₁ s₂, f s₁ x = some s₂ := by
  induction xs generalizing s with
  | nil => cases hx
  | cons y xs ih =>
    rw [List.foldlM_cons] at h
    obtain ⟨s₁, hround, hrest⟩ := Option.bind_eq_some_iff.mp h
    rcases List.mem_cons.mp hx with rfl | hmem
    · exact ⟨s, s₁, hround⟩
    · exact ih hrest hmem

/-- A loop that counts, by the same in each round. -/
theorem foldlM_count {count : Nat → γ → Option Nat} {k : Nat} {xs : List γ}
    (h : ∀ x ∈ xs, ∀ n, count n x = some (n + k)) (n : Nat) :
    xs.foldlM count n = some (n + xs.length * k) := by
  induction xs generalizing n with
  | nil => simp
  | cons x xs ih =>
    rw [List.foldlM_cons, h x (List.mem_cons_self ..), Option.bind_eq_bind, Option.bind_some,
      ih fun y hy => h y (List.mem_cons_of_mem x hy), List.length_cons, Nat.succ_mul]
    congr 1
    omega

end Loops
end Trial
