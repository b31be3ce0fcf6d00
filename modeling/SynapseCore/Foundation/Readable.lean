import Mathlib.Data.List.Basic

/-! Printing that can be undone in front of any rest: the text shows which value was
printed and where its print ends. -/

namespace Readable
variable {σ α : Type*}

/-- The rest of a text is empty or begins with a stop. -/
def Stops (stop : σ → Prop) (rest : List σ) : Prop := ∀ c ∈ rest.head?, stop c

/-- Among the values of `A`, the value and the rest behind it show from the text. -/
def ReadBack (stop : σ → Prop) (A : α → Prop) (print : α → List σ) (a : α) : Prop :=
  ∀ b rest rest', A b → Stops stop rest → Stops stop rest' →
    print a ++ rest = print b ++ rest' → a = b ∧ rest = rest'

section Words
variable {stop : σ → Prop}

@[simp] theorem stops_nil : Stops stop [] := by simp [Stops]

@[simp] theorem stops_cons {c : σ} {rest : List σ} : Stops stop (c :: rest) ↔ stop c := by
  simp [Stops]

/-- Words of other characters end where the first stop is. -/
theorem words_inj {w w' rest rest' : List σ} (hw : ∀ c ∈ w, ¬ stop c)
    (hw' : ∀ c ∈ w', ¬ stop c) (hrest : Stops stop rest) (hrest' : Stops stop rest')
    (h : w ++ rest = w' ++ rest') : w = w' ∧ rest = rest' := by
  induction w generalizing w' with
  | nil =>
    cases w' with
    | nil => exact ⟨rfl, h⟩
    | cons d w' =>
      rw [List.nil_append] at h
      rw [h, List.cons_append, stops_cons] at hrest
      exact absurd hrest (hw' d (List.mem_cons_self ..))
  | cons c w ih =>
    cases w' with
    | nil =>
      rw [List.nil_append] at h
      rw [← h, List.cons_append, stops_cons] at hrest'
      exact absurd hrest' (hw c (List.mem_cons_self ..))
    | cons d w' =>
      obtain ⟨rfl, htail⟩ := List.cons.inj h
      obtain ⟨rfl, hrests⟩ := ih (fun e he => hw e (List.mem_cons_of_mem c he))
        (fun e he => hw' e (List.mem_cons_of_mem c he)) htail
      exact ⟨rfl, hrests⟩

theorem readBack_of_words {A : α → Prop} {print : α → List σ}
    (hword : ∀ a, A a → ∀ c ∈ print a, ¬ stop c)
    (hinj : ∀ a b, A a → A b → print a = print b → a = b) {a : α} (ha : A a) :
    ReadBack stop A print a := by
  intro b rest rest' hb hrest hrest' h
  obtain ⟨hprint, hrests⟩ := words_inj (hword a ha) (hword b hb) hrest hrest' h
  exact ⟨hinj a b ha hb hprint, hrests⟩

theorem ReadBack.eq {A : α → Prop} {print : α → List σ} {a b : α}
    (h : ReadBack stop A print a) (hb : A b) (heq : print a = print b) : a = b :=
  (h b [] [] hb stops_nil stops_nil (by rw [heq])).1

end Words

/-! ## Labels and quotes -/

/-- A print that begins with a label, where no label begins another, reads back if what
stands behind the label does among the values of the same label. -/
theorem readBack_of_label {stop : σ → Prop} {A : α → Prop} {print label payload : α → List σ}
    (hprint : ∀ a, print a = label a ++ payload a)
    (hfree : ∀ a b, A a → A b → label a <+: label b → label a = label b) {a : α} (ha : A a)
    (h : ReadBack stop (fun b => A b ∧ label b = label a) payload a) :
    ReadBack stop A print a := by
  intro b rest rest' hb hrest hrest' heq
  rw [hprint, hprint, List.append_assoc, List.append_assoc] at heq
  have hlabel : label b = label a := by
    have hpre : label a <+: label b ++ (payload b ++ rest') := ⟨_, heq⟩
    rcases List.prefix_or_prefix_of_prefix hpre (List.prefix_append ..) with hab | hba
    · exact (hfree a b ha hb hab).symm
    · exact hfree b a hb ha hba
  rw [hlabel] at heq
  exact h b rest rest' ⟨hb, hlabel⟩ hrest hrest' (List.append_cancel_left heq)

/-- A text of codes up to a quote, where no code begins another or begins with the quote. -/
theorem quoted_inj {code : α → List σ} {quote : σ}
    (hcode : ∀ a b x y, code a ++ x = code b ++ y → a = b ∧ x = y)
    (hquote : ∀ a x y, code a ++ x ≠ quote :: y) {l l' : List α} {rest rest' : List σ}
    (h : l.flatMap code ++ quote :: rest = l'.flatMap code ++ quote :: rest') :
    l = l' ∧ rest = rest' := by
  induction l generalizing l' with
  | nil =>
    cases l' with
    | nil => simpa using h
    | cons b l' =>
      rw [List.flatMap_cons, List.append_assoc] at h
      exact absurd h.symm (hquote b _ _)
  | cons a l ih =>
    cases l' with
    | nil =>
      rw [List.flatMap_cons, List.append_assoc] at h
      exact absurd h (hquote a _ _)
    | cons b l' =>
      rw [List.flatMap_cons, List.flatMap_cons, List.append_assoc, List.append_assoc] at h
      obtain ⟨rfl, htail⟩ := hcode a b _ _ h
      obtain ⟨rfl, hrest⟩ := ih htail
      exact ⟨rfl, hrest⟩

/-! ## Lists between brackets -/

section Lists
variable {stop : σ → Prop} {A : α → Prop} {print : α → List σ} {comma bracket : σ}
  {space : List σ}

/-- The further items, each behind a separator, then the bracket. -/
def further (print : α → List σ) (comma : σ) (space : List σ) (bracket : σ) :
    List α → List σ
  | [] => [bracket]
  | a :: l => comma :: (space ++ (print a ++ further print comma space bracket l))

theorem intercalate_append_bracket (a : α) (l : List α) :
    (comma :: space).intercalate ((a :: l).map print) ++ [bracket] =
      print a ++ further print comma space bracket l := by
  induction l generalizing a with
  | nil => simp [further]
  | cons b l ih =>
    rw [List.map_cons, List.map_cons, List.intercalate_cons_cons, ← List.map_cons,
      List.append_assoc, ih, further]
    simp

theorem stops_further (hcomma : stop comma) (hbracket : stop bracket) (l : List α)
    (rest : List σ) : Stops stop (further print comma space bracket l ++ rest) := by
  cases l with
  | nil => simpa [further] using hbracket
  | cons a l => simpa [further] using hcomma

theorem further_inj (hne : comma ≠ bracket) (hcomma : stop comma) (hbracket : stop bracket)
    {l l' : List α} (hl : ∀ a ∈ l, ReadBack stop A print a) (hl' : ∀ b ∈ l', A b)
    {rest rest' : List σ}
    (h : further print comma space bracket l ++ rest =
      further print comma space bracket l' ++ rest') : l = l' ∧ rest = rest' := by
  induction l generalizing l' with
  | nil =>
    cases l' with
    | nil => exact ⟨rfl, (List.cons.inj h).2⟩
    | cons b l' => exact absurd (List.cons.inj h).1.symm hne
  | cons a l ih =>
    cases l' with
    | nil => exact absurd (List.cons.inj h).1 hne
    | cons b l' =>
      simp only [further, List.cons_append, List.append_assoc, List.cons.injEq, true_and,
        List.append_cancel_left_eq] at h
      obtain ⟨rfl, hrests⟩ := hl a (List.mem_cons_self ..) b _ _ (hl' b (List.mem_cons_self ..))
        (stops_further hcomma hbracket l rest) (stops_further hcomma hbracket l' rest') h
      obtain ⟨rfl, hrest⟩ := ih (fun e he => hl e (List.mem_cons_of_mem a he))
        (fun e he => hl' e (List.mem_cons_of_mem a he)) hrests
      exact ⟨rfl, hrest⟩

/-- A list of items that can be read back can be read back, whatever follows its bracket. -/
theorem listing_inj (hne : comma ≠ bracket) (hcomma : stop comma) (hbracket : stop bracket)
    (hstart : ∀ a, A a → ∃ c w, print a = c :: w ∧ c ≠ bracket)
    {l l' : List α} (hl : ∀ a ∈ l, A a ∧ ReadBack stop A print a) (hl' : ∀ b ∈ l', A b)
    {rest rest' : List σ}
    (h : (comma :: space).intercalate (l.map print) ++ bracket :: rest =
      (comma :: space).intercalate (l'.map print) ++ bracket :: rest') :
    l = l' ∧ rest = rest' := by
  have hsplit : ∀ w : List σ, w ++ bracket :: rest = (w ++ [bracket]) ++ rest := by simp
  have hsplit' : ∀ w : List σ, w ++ bracket :: rest' = (w ++ [bracket]) ++ rest' := by simp
  rw [hsplit, hsplit'] at h
  cases l with
  | nil =>
    cases l' with
    | nil => simpa using h
    | cons b l' =>
      obtain ⟨c, w, hb, hc⟩ := hstart b (hl' b (List.mem_cons_self ..))
      rw [intercalate_append_bracket, hb] at h
      exact absurd (List.cons.inj h).1.symm hc
  | cons a l =>
    have ha := hl a (List.mem_cons_self ..)
    cases l' with
    | nil =>
      obtain ⟨c, w, ha', hc⟩ := hstart a ha.1
      rw [intercalate_append_bracket, ha'] at h
      exact absurd (List.cons.inj h).1 hc
    | cons b l' =>
      rw [intercalate_append_bracket, intercalate_append_bracket, List.append_assoc,
        List.append_assoc] at h
      obtain ⟨rfl, htail⟩ := ha.2 b _ _ (hl' b (List.mem_cons_self ..))
        (stops_further hcomma hbracket l rest) (stops_further hcomma hbracket l' rest') h
      obtain ⟨rfl, hrest⟩ := further_inj hne hcomma hbracket
        (fun e he => (hl e (List.mem_cons_of_mem a he)).2)
        (fun e he => hl' e (List.mem_cons_of_mem a he)) htail
      exact ⟨rfl, hrest⟩

end Lists

end Readable
