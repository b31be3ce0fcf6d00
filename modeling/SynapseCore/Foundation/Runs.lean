import Mathlib.Data.List.Basic
import Mathlib.Data.List.Infix

/-! Runs of a deterministic machine that answers every call: the state a run
ends in, the transcript of its answers, and the induction rules for both. -/

namespace Machine
variable {S T I J O P : Type*}

/-- The state a finite sequence of calls leaves behind. -/
def after (step : S → I → S × O) : S → List I → S
  | s, [] => s
  | s, i :: is => after step (step s i).1 is

/-- The calls of a run, each paired with the answer it received. -/
def transcript (step : S → I → S × O) : S → List I → List (I × O)
  | _, [] => []
  | s, i :: is => (i, (step s i).2) :: transcript step (step s i).1 is

/-- Every call of the run meets `ok` at the state it is made in. -/
def Along (step : S → I → S × O) (ok : S → I → Prop) : S → List I → Prop
  | _, [] => True
  | s, i :: is => ok s i ∧ Along step ok (step s i).1 is

section Splitting
variable (step : S → I → S × O)

@[simp] theorem after_nil (s : S) : after step s [] = s := rfl

@[simp] theorem after_cons (s : S) (i : I) (is : List I) :
    after step s (i :: is) = after step (step s i).1 is := rfl

@[simp] theorem transcript_nil (s : S) : transcript step s [] = [] := rfl

@[simp] theorem transcript_cons (s : S) (i : I) (is : List I) :
    transcript step s (i :: is) = (i, (step s i).2) :: transcript step (step s i).1 is := rfl

theorem after_append (s : S) (is js : List I) :
    after step s (is ++ js) = after step (after step s is) js := by
  induction is generalizing s with
  | nil => rfl
  | cons i is ih => exact ih (step s i).1

theorem after_concat (s : S) (is : List I) (i : I) :
    after step s (is ++ [i]) = (step (after step s is) i).1 := by
  rw [after_append]
  rfl

theorem transcript_append (s : S) (is js : List I) :
    transcript step s (is ++ js) =
      transcript step s is ++ transcript step (after step s is) js := by
  induction is generalizing s with
  | nil => rfl
  | cons i is ih => exact congrArg _ (ih (step s i).1)

theorem transcript_concat (s : S) (is : List I) (i : I) :
    transcript step s (is ++ [i]) =
      transcript step s is ++ [(i, (step (after step s is) i).2)] := by
  rw [transcript_append]
  rfl

theorem filter_transcript_concat_of_pos (p : I × O → Bool) {s : S} {is : List I} {i : I}
    (h : p (i, (step (after step s is) i).2) = true) :
    (transcript step s (is ++ [i])).filter p =
      (transcript step s is).filter p ++ [(i, (step (after step s is) i).2)] := by
  rw [transcript_concat, List.filter_append, List.filter_cons_of_pos h, List.filter_nil]

theorem filter_transcript_concat_of_neg (p : I × O → Bool) {s : S} {is : List I} {i : I}
    (h : ¬ p (i, (step (after step s is) i).2) = true) :
    (transcript step s (is ++ [i])).filter p = (transcript step s is).filter p := by
  rw [transcript_concat, List.filter_append, List.filter_cons_of_neg h, List.filter_nil,
    List.append_nil]

theorem along_append {ok : S → I → Prop} (s : S) (is js : List I) :
    Along step ok s (is ++ js) ↔ Along step ok s is ∧ Along step ok (after step s is) js := by
  induction is generalizing s with
  | nil => simp [Along]
  | cons i is ih => simp only [List.cons_append, Along, ih, after_cons, and_assoc]

/-- A condition holds along a run exactly when it holds at every cut of the run. -/
theorem along_iff_split {ok : S → I → Prop} (s : S) (is : List I) :
    Along step ok s is ↔ ∀ pre i post, is = pre ++ i :: post → ok (after step s pre) i := by
  constructor
  · rintro h pre i post rfl
    exact ((along_append step s pre (i :: post)).mp h).2.1
  · intro h
    induction is generalizing s with
    | nil => trivial
    | cons i is ih =>
      refine ⟨h [] i is rfl, ih (step s i).1 fun pre j post hcut => ?_⟩
      have hcut' : i :: is = (i :: pre) ++ j :: post := by
        rw [hcut, List.cons_append]
      exact h (i :: pre) j post hcut'

theorem along_of_forall {ok : S → I → Prop} {q : I → Prop} (hq : ∀ s i, q i → ok s i) (s : S)
    {is : List I} (h : ∀ i ∈ is, q i) : Along step ok s is := by
  rw [along_iff_split]
  rintro pre i post rfl
  exact hq _ i (h i (by simp))

end Splitting

section Induction
variable (step : S → I → S × O)

theorem after_invariant_along (ok : S → I → Prop) (Inv : S → Prop)
    (hstep : ∀ s i, ok s i → Inv s → Inv (step s i).1) {s : S} {is : List I}
    (hok : Along step ok s is) (hs : Inv s) : Inv (after step s is) := by
  induction is generalizing s with
  | nil => exact hs
  | cons i is ih =>
    obtain ⟨hi, his⟩ := hok
    have hnext : Inv (step s i).1 := hstep s i hi hs
    exact ih his hnext

theorem after_invariant_of_forall (q : I → Prop) (Inv : S → Prop)
    (hstep : ∀ s i, q i → Inv s → Inv (step s i).1) {s : S} {is : List I}
    (hq : ∀ i ∈ is, q i) (hs : Inv s) : Inv (after step s is) := by
  have halong : Along step (fun _ i => q i) s is := along_of_forall step (fun _ _ h => h) s hq
  exact after_invariant_along step (fun _ i => q i) Inv hstep halong hs

theorem after_invariant (Inv : S → Prop) (hstep : ∀ s i, Inv s → Inv (step s i).1) {s : S}
    (hs : Inv s) (is : List I) : Inv (after step s is) := by
  induction is generalizing s with
  | nil => exact hs
  | cons i is ih => exact ih (hstep s i hs)

/-- Two conditions that agree wherever an invariant holds agree along runs, if a step that
meets the first keeps the invariant. -/
theorem along_congr_of_kept (ok ok' : S → I → Prop) (Inv : S → Prop)
    (hstep : ∀ s i, ok s i → Inv s → Inv (step s i).1)
    (hok : ∀ s i, Inv s → (ok s i ↔ ok' s i)) {s : S} (hs : Inv s) (is : List I) :
    Along step ok s is ↔ Along step ok' s is := by
  induction is generalizing s with
  | nil => exact Iff.rfl
  | cons i is ih =>
    constructor
    · rintro ⟨hi, hrest⟩
      have hnext : Inv (step s i).1 := hstep s i hi hs
      exact ⟨(hok s i hs).mp hi, (ih hnext).mp hrest⟩
    · rintro ⟨hi, hrest⟩
      have hfirst : ok s i := (hok s i hs).mpr hi
      have hnext : Inv (step s i).1 := hstep s i hfirst hs
      exact ⟨hfirst, (ih hnext).mpr hrest⟩

theorem along_congr_of_invariant (ok ok' : S → I → Prop) (Inv : S → Prop)
    (hstep : ∀ s i, Inv s → Inv (step s i).1) (hok : ∀ s i, Inv s → (ok s i ↔ ok' s i)) {s : S}
    (hs : Inv s) (is : List I) : Along step ok s is ↔ Along step ok' s is :=
  along_congr_of_kept step ok ok' Inv (fun s i _ => hstep s i) hok hs is

/-- A property that a step keeps exactly when its condition holds is kept all
along a run exactly when the condition holds all along it. -/
theorem forall_prefix_iff_along (ok : S → I → Prop) (Inv : S → Prop)
    (hstep : ∀ s i, Inv s → (Inv (step s i).1 ↔ ok s i)) {s : S} (hs : Inv s) (is : List I) :
    (∀ pre, pre <+: is → Inv (after step s pre)) ↔ Along step ok s is := by
  induction is generalizing s with
  | nil =>
    refine ⟨fun _ => trivial, fun _ pre hpre => ?_⟩
    rw [List.prefix_nil.mp hpre]
    exact hs
  | cons i is ih =>
    constructor
    · intro h
      have hnext : Inv (step s i).1 := h [i] ⟨is, rfl⟩
      refine ⟨(hstep s i hs).mp hnext, (ih hnext).mp fun pre hpre => ?_⟩
      exact h (i :: pre) (List.cons_prefix_cons.mpr ⟨rfl, hpre⟩)
    · rintro ⟨hok, hrest⟩ pre hpre
      -- a prefix is empty, or the first call and a prefix of the others
      cases pre with
      | nil => exact hs
      | cons j pre =>
        obtain ⟨rfl, htail⟩ := List.cons_prefix_cons.mp hpre
        exact (ih ((hstep s j hs).mpr hok)).mpr hrest pre htail

/-- Ghost state noted from the calls and their answers stays related to the state. -/
theorem after_noted {G : Type*} (note : G → I × O → G) (R : S → G → Prop)
    (hstep : ∀ s g i, R s g → R (step s i).1 (note g (i, (step s i).2))) {s : S} {g : G}
    (h : R s g) (is : List I) :
    R (after step s is) ((transcript step s is).foldl note g) := by
  induction is generalizing s g with
  | nil => exact h
  | cons i is ih => exact ih (hstep s g i h)

theorem after_monotone (rel : S → S → Prop) (hrefl : ∀ s, rel s s)
    (htrans : ∀ s t u, rel s t → rel t u → rel s u) (hstep : ∀ s i, rel s (step s i).1)
    (s : S) (is : List I) : rel s (after step s is) := by
  induction is generalizing s with
  | nil => exact hrefl s
  | cons i is ih =>
    have hfirst : rel s (step s i).1 := hstep s i
    exact htrans _ _ _ hfirst (ih (step s i).1)

/-- If every answer counted by `p` lowers the measure and no step raises it, a
run holds at most as many counted answers as the measure it starts with. -/
theorem countP_transcript_le (p : I × O → Bool) (μ : S → Nat)
    (hle : ∀ s i, μ (step s i).1 ≤ μ s)
    (hlt : ∀ s i, p (i, (step s i).2) = true → μ (step s i).1 < μ s) (s : S) (is : List I) :
    (transcript step s is).countP p ≤ μ s := by
  induction is generalizing s with
  | nil => exact Nat.zero_le _
  | cons i is ih =>
    have hrest := ih (step s i).1
    rw [transcript_cons, List.countP_cons]
    by_cases hp : p (i, (step s i).2) = true
    · have := hlt s i hp
      rw [if_pos hp]
      omega
    · rw [if_neg hp]
      exact hrest.trans (hle s i)

theorem countP_transcript_le_one_iff (p : I × O → Bool) (s : S) (is : List I) :
    (transcript step s is).countP p ≤ 1 ↔
      ∀ pre i post, is = pre ++ i :: post → p (i, (step (after step s pre) i).2) = true →
        (transcript step (after step s (pre ++ [i])) post).countP p = 0 := by
  constructor
  · rintro hle pre i post rfl hp
    rw [transcript_append, List.countP_append, transcript_cons, List.countP_cons_of_pos hp] at hle
    rw [after_concat]
    omega
  · intro h
    induction is generalizing s with
    | nil => exact Nat.zero_le _
    | cons i is ih =>
      rw [transcript_cons]
      by_cases hp : p (i, (step s i).2) = true
      · -- the first counted answer: the others, all behind it, number none
        have hrest := h [] i is rfl hp
        rw [List.nil_append, after_cons, after_nil] at hrest
        rw [List.countP_cons_of_pos hp, hrest]
      · rw [List.countP_cons_of_neg hp]
        apply ih (step s i).1
        intro pre j post hcut
        have hcut' : i :: is = (i :: pre) ++ j :: post := by
          rw [hcut, List.cons_append]
        exact h (i :: pre) j post hcut'

end Induction

section Simulation
section SameCalls
variable {step : S → I → S × O} {step' : T → I → T × O} {R : S → T → Prop}
  (hstep : ∀ s t i, R s t → R (step s i).1 (step' t i).1)

include hstep

theorem after_simulates {s : S} {t : T} (h : R s t) (is : List I) :
    R (after step s is) (after step' t is) := by
  induction is generalizing s t with
  | nil => exact h
  | cons i is ih => exact ih (hstep s t i h)

theorem transcript_simulates (hanswer : ∀ s t i, R s t → (step s i).2 = (step' t i).2)
    {s : S} {t : T} (h : R s t) (is : List I) : transcript step s is = transcript step' t is := by
  induction is generalizing s t with
  | nil => rfl
  | cons i is ih => rw [transcript_cons, transcript_cons, hanswer s t i h, ih (hstep s t i h)]

end SameCalls

/-- The simulation of a run whose calls all meet a condition. -/
theorem simulates_of_forall {step : S → I → S × O} {step' : T → I → T × O} {R : S → T → Prop}
    {q : I → Prop}
    (hstep : ∀ s t i, q i → R s t →
      R (step s i).1 (step' t i).1 ∧ (step s i).2 = (step' t i).2)
    {s : S} {t : T} (h : R s t) {is : List I} (hq : ∀ i ∈ is, q i) :
    R (after step s is) (after step' t is) ∧ transcript step s is = transcript step' t is := by
  induction is generalizing s t with
  | nil => exact ⟨h, rfl⟩
  | cons i is ih =>
    obtain ⟨hnext, hanswer⟩ := hstep s t i (hq i (List.mem_cons_self ..)) h
    obtain ⟨hafter, hrest⟩ := ih hnext fun j hj => hq j (List.mem_cons_of_mem i hj)
    exact ⟨hafter, by rw [transcript_cons, transcript_cons, hanswer, hrest]⟩

variable {step : S → I → S × O} {step' : T → J → T × P}

/-- What a run says to an observer: the images of the calls it takes notice of. -/
def heard (step : S → I → S × O) (g : S → I → Option J) : S → List I → List J
  | _, [] => []
  | s, i :: is => (g s i).toList ++ heard step g (step s i).1 is

/-- A machine that follows only the calls it hears, and answers those alike,
answers a whole run alike. -/
theorem countP_transcript_heard {R : S → T → Prop} (ok : I → Prop) (g : S → I → Option J)
    (p : I × O → Bool) (p' : J × P → Bool)
    (hquiet : ∀ s t i, ok i → R s t → g s i = none →
      R (step s i).1 t ∧ p (i, (step s i).2) = false)
    (hheard : ∀ s t i j, ok i → R s t → g s i = some j →
      R (step s i).1 (step' t j).1 ∧ p (i, (step s i).2) = p' (j, (step' t j).2))
    {s : S} {t : T} (h : R s t) {is : List I} (hok : ∀ i ∈ is, ok i) :
    (transcript step s is).countP p = (transcript step' t (heard step g s is)).countP p' := by
  induction is generalizing s t with
  | nil => rfl
  | cons i is ih =>
    have hi : ok i := hok i (List.mem_cons_self ..)
    have hrest : ∀ j ∈ is, ok j := fun j hj => hok j (List.mem_cons_of_mem i hj)
    cases hg : g s i with
    | none =>
      obtain ⟨hnext, hp⟩ := hquiet s t i hi h hg
      have htail := ih hnext hrest
      simpa [heard, hg, List.countP_cons, hp] using htail
    | some j =>
      obtain ⟨hnext, hp⟩ := hheard s t i j hi h hg
      have htail := ih hnext hrest
      simpa [heard, hg, List.countP_cons, hp] using htail

end Simulation

end Machine
