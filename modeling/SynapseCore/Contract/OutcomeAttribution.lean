import SynapseCore.Contract.TerminalStatuses

/-! Whose outcome a record shows. Status, caller and reason are written together, so
they all belong to the last call that succeeded, and a reason to the one call that
ended the transaction with one. -/

namespace Synapse
open Machine
variable {TxId Address : Type}

/-- The two statuses that come with a reason. -/
def TransactionStatus.Reasoned (status : TransactionStatus) : Prop :=
  status = .failed ∨ status = .cancelled

instance (status : TransactionStatus) : Decidable status.Reasoned :=
  inferInstanceAs (Decidable (status = .failed ∨ status = .cancelled))

abbrev LifecycleEntry (TxId Address : Type) :=
  LifecycleCall TxId Address × Except TransitionError (Transaction TxId Address)

/-- The entries of calls that gave a transaction a status with a reason. -/
def reasonedEntries (entries : List (LifecycleEntry TxId Address)) :
    List (LifecycleEntry TxId Address) :=
  entries.filter fun entry => decide entry.1.target.Reasoned

theorem LifecycleCall.reason_isSome_iff (call : LifecycleCall TxId Address) :
    call.reason.isSome = true ↔ call.target.Reasoned := by
  cases call <;> simp [LifecycleCall.reason, LifecycleCall.target, TransactionStatus.Reasoned]

/-- The record has a reason exactly in the statuses that come with one, and a short one. -/
def ReasonInOrder (L : Limits) (tx : Transaction TxId Address) : Prop :=
  (tx.reason.isSome = true ↔ tx.status.Reasoned) ∧
    ∀ reason ∈ tx.reason, reason.length ≤ L.maxReasonLen

theorem reasonInOrder_moved {L : Limits} {call : LifecycleCall TxId Address}
    (h : call.ReasonFits L) (tx : Transaction TxId Address) : ReasonInOrder L (call.moved tx) :=
  ⟨call.reason_isSome_iff, h⟩

/-! ## Attribution within one cell -/

/-- The record against the successful calls so far: the last one gave its caller, the
only one with a reason gave its status and reason. -/
structure Attributed (entries : List (LifecycleEntry TxId Address))
    (tx : Transaction TxId Address) : Prop where
  caller : ∀ entry ∈ entries.getLast?, tx.caller = entry.1.caller
  unreasoned : ¬ tx.status.Reasoned → reasonedEntries entries = []
  reasoned : tx.status.Reasoned → ∃ entry, reasonedEntries entries = [entry] ∧
    entry.1.reason = tx.reason ∧ entry.1.target = tx.status

theorem attributed_nil {tx : Transaction TxId Address} (h : ¬ tx.status.Reasoned) :
    Attributed [] tx where
  caller := by
    intro entry hlast
    cases hlast
  unreasoned := fun _ => rfl
  reasoned := fun hreasoned => absurd hreasoned h

theorem reasonedEntries_concat {entries : List (LifecycleEntry TxId Address)}
    (h : reasonedEntries entries = []) (entry : LifecycleEntry TxId Address) :
    reasonedEntries (entries ++ [entry]) = if entry.1.target.Reasoned then [entry] else [] := by
  unfold reasonedEntries at h ⊢
  rw [List.filter_append, h, List.nil_append]
  split_ifs with hreasoned <;> simp [hreasoned]

theorem Attributed.moved {entries : List (LifecycleEntry TxId Address)}
    {tx : Transaction TxId Address} (h : Attributed entries tx)
    {call : LifecycleCall TxId Address} (hsource : tx.status ∈ call.sources)
    (answer : Except TransitionError (Transaction TxId Address)) :
    Attributed (entries ++ [(call, answer)]) (call.moved tx) := by
  have hopen : ¬ tx.status.Reasoned := by
    intro hreasoned
    exact call.terminal_not_source (Or.inr hreasoned) hsource
  have hentries := reasonedEntries_concat (h.unreasoned hopen) (call, answer)
  constructor
  · intro entry hlast
    rw [List.getLast?_concat] at hlast
    rw [← Option.some.inj hlast]
    rfl
  · intro hunreasoned
    exact hentries.trans (if_neg hunreasoned)
  · intro hreasoned
    exact ⟨(call, answer), hentries.trans (if_pos hreasoned), rfl, rfl⟩

theorem attributed_cell {L : Limits} {cell : Option (Transaction TxId Address)}
    (h : ∀ tx ∈ cell, tx.status = .pending) (calls : List (LifecycleCall TxId Address)) :
    ∀ tx ∈ after (lifecycleCell L) cell calls,
      Attributed ((transcript (lifecycleCell L) cell calls).filter
        fun entry => entry.2.isOk) tx := by
  induction calls using List.reverseRecOn with
  | nil =>
    intro tx htx
    apply attributed_nil
    rw [h tx htx]
    simp [TransactionStatus.Reasoned]
  | append_singleton calls call ih =>
    intro tx htx
    rw [after_concat] at htx
    by_cases hok : (lifecycleCell L (after (lifecycleCell L) cell calls) call).2.isOk = true
    · rw [filter_transcript_concat_of_pos (lifecycleCell L) (fun entry => entry.2.isOk) hok]
      obtain ⟨tx', hcell, hstep, hmodel⟩ := lifecycleCell_ok hok
      have hsource : tx'.status ∈ call.sources := by
        by_contra hnot
        rw [call.modelTransition_of_not_mem hnot] at hmodel
        cases hmodel
      rw [hstep] at htx
      rw [← Option.some.inj htx]
      exact (ih tx' hcell).moved hsource _
    · rw [lifecycleCell_not_ok hok] at htx
      rw [filter_transcript_concat_of_neg (lifecycleCell L) (fun entry => entry.2.isOk) hok]
      exact ih tx htx

/-! ## Attribution in the store -/

section Store
variable [DecidableEq TxId]

/-- The successful calls on `id`. -/
def successes (L : Limits) (σ : Storage TxId Address) (calls : List (LifecycleCall TxId Address))
    (id : TxId) : List (LifecycleEntry TxId Address) :=
  (transcript (lifecycleStep L) σ calls).filter fun entry =>
    entry.2.isOk && decide (entry.1.txId = id)

/-- After the run every reason stands where one belongs, fits, and is the one passed by
the single call that gave the transaction its status; the caller is that of the last
success on the id. -/
def OutcomesAttributed (L : Limits) (σ : Storage TxId Address)
    (calls : List (LifecycleCall TxId Address)) : Prop :=
  ∀ id tx, getTransaction (after (lifecycleStep L) σ calls) id = some tx →
    ReasonInOrder L tx ∧
    (∀ reason ∈ tx.reason, ∃ entry, reasonedEntries (successes L σ calls id) = [entry] ∧
      entry.1.reason = some reason ∧ entry.1.target = tx.status) ∧
    (∀ entry ∈ (successes L σ calls id).getLast?, tx.caller = entry.1.caller)

def answersWith (id : TxId) : Except TransitionError (Transaction TxId Address) → Bool
  | .ok tx => decide (tx.txId = id)
  | .error _ => false

def writesTo (L : Limits) (σ : Storage TxId Address) (calls : List (LifecycleCall TxId Address))
    (id : TxId) : List (LifecycleEntry TxId Address) :=
  (transcript (lifecycleStep L) σ calls).filter fun entry => answersWith id entry.2

variable {L : Limits} {σ : Storage TxId Address}

theorem reasonInOrder_after (hσ : ∀ id tx, getTransaction σ id = some tx →
      tx.status = .pending ∧ tx.reason = none) (calls : List (LifecycleCall TxId Address)) :
    ∀ id tx, getTransaction (after (lifecycleStep L) σ calls) id = some tx →
      ReasonInOrder L tx := by
  apply after_invariant (lifecycleStep L)
    (fun τ => ∀ id tx, getTransaction τ id = some tx → ReasonInOrder L tx)
  · intro τ call hτ id tx hget
    rcases lifecycleStep_cases L τ call with ⟨tx', haccepts, hstep⟩ | ⟨_, e, hstep⟩
    · rw [hstep, getTransaction_setTransaction] at hget
      split_ifs at hget
      · rw [← Option.some.inj hget]
        exact reasonInOrder_moved haccepts.2.2 tx'
      · exact hτ id tx hget
    · rw [hstep] at hget
      exact hτ id tx hget
  · intro id tx hget
    obtain ⟨hstatus, hreason⟩ := hσ id tx hget
    rw [ReasonInOrder, hstatus, hreason]
    simp [TransactionStatus.Reasoned]

/-- A record is what the last success that answered with its id answered. -/
theorem last_write_shown (calls : List (LifecycleCall TxId Address)) (id : TxId) :
    ∀ entry ∈ (writesTo L σ calls id).getLast?, ∃ tx,
      getTransaction (after (lifecycleStep L) σ calls) id = some tx ∧ entry.2 = .ok tx ∧
        tx.status = entry.1.target ∧ tx.caller = entry.1.caller ∧ tx.reason = entry.1.reason := by
  unfold writesTo
  induction calls using List.reverseRecOn with
  | nil =>
    intro entry hlast
    cases hlast
  | append_singleton calls call ih =>
    intro entry hlast
    rw [after_concat]
    rcases lifecycleStep_cases L (after (lifecycleStep L) σ calls) call with
      ⟨tx, _, hstep⟩ | ⟨_, e, hstep⟩
    · by_cases hid : (call.moved tx).txId = id
      · have hwrites : answersWith id
            (lifecycleStep L (after (lifecycleStep L) σ calls) call).2 = true := by
          rw [hstep]
          exact decide_eq_true hid
        rw [filter_transcript_concat_of_pos _ (fun entry => answersWith id entry.2) hwrites,
          List.getLast?_concat, hstep] at hlast
        rw [hstep, getTransaction_setTransaction, if_pos hid.symm, ← Option.some.inj hlast]
        exact ⟨call.moved tx, rfl, rfl, rfl, rfl, rfl⟩
      · have hother : ¬ answersWith id
            (lifecycleStep L (after (lifecycleStep L) σ calls) call).2 = true := by
          rw [hstep]
          exact fun hwrites => hid (of_decide_eq_true hwrites)
        rw [filter_transcript_concat_of_neg _ (fun entry => answersWith id entry.2) hother] at hlast
        rw [hstep, getTransaction_setTransaction, if_neg (Ne.symm hid)]
        exact ih entry hlast
    · have hother : ¬ answersWith id
          (lifecycleStep L (after (lifecycleStep L) σ calls) call).2 = true := by
        rw [hstep]
        exact Bool.false_ne_true
      rw [filter_transcript_concat_of_neg _ (fun entry => answersWith id entry.2) hother] at hlast
      rw [hstep]
      exact ih entry hlast

theorem successes_eq (hσ : WellKeyed σ) (calls : List (LifecycleCall TxId Address)) (id : TxId) :
    successes L σ calls id =
      (transcript (lifecycleCell L) (getTransaction σ id)
        (addressed LifecycleCall.txId id calls)).filter fun entry => entry.2.isOk := by
  rw [← transcript_addressed hσ, List.filter_filter]
  rfl

theorem outcomesAttributed_of_wellKeyed (hkeyed : WellKeyed σ)
    (hσ : ∀ id tx, getTransaction σ id = some tx → tx.status = .pending ∧ tx.reason = none)
    (calls : List (LifecycleCall TxId Address)) : OutcomesAttributed L σ calls := by
  intro id tx hget
  have horder : ReasonInOrder L tx := reasonInOrder_after hσ calls id tx hget
  have hattributed : Attributed (successes L σ calls id) tx := by
    rw [successes_eq hkeyed]
    rw [getTransaction_after hkeyed] at hget
    exact attributed_cell (fun tx htx => (hσ id tx htx).1) _ tx hget
  refine ⟨horder, ?_, hattributed.caller⟩
  intro reason hreason
  have hreasoned : tx.status.Reasoned := horder.1.mp (Option.isSome_of_mem hreason)
  obtain ⟨entry, hsingle, hpassed, htarget⟩ := hattributed.reasoned hreasoned
  exact ⟨entry, hsingle, hpassed.trans hreason, htarget⟩

end Store

/-- **Outcome attribution.** From records all `Pending` without a reason, reasons stand in
order and every record written shows the last write; where records sit under their own
ids, that is the last success on the id, and a reason is that of its single ending call. -/
theorem outcome_attribution [DecidableEq TxId] (L : Limits) (σ : Storage TxId Address)
    (hσ : ∀ id tx, getTransaction σ id = some tx → tx.status = .pending ∧ tx.reason = none)
    (calls : List (LifecycleCall TxId Address)) :
    (∀ id tx, getTransaction (after (lifecycleStep L) σ calls) id = some tx →
      ReasonInOrder L tx) ∧
    (∀ id, ∀ entry ∈ (writesTo L σ calls id).getLast?, ∃ tx,
      getTransaction (after (lifecycleStep L) σ calls) id = some tx ∧ entry.2 = .ok tx ∧
        tx.status = entry.1.target ∧ tx.caller = entry.1.caller ∧ tx.reason = entry.1.reason) ∧
    (WellKeyed σ → OutcomesAttributed L σ calls) := by
  refine ⟨reasonInOrder_after hσ calls, ?_, ?_⟩
  · intro id
    exact last_write_shown calls id
  · intro hkeyed
    exact outcomesAttributed_of_wellKeyed hkeyed hσ calls

theorem outcome_attribution_fixture :
    OutcomesAttributed testLimits testStore
      [.startProcessing 1 9, .failTransaction 1 [0x78] 8, .cancelTransaction 1 [] 7] := by
  apply (outcome_attribution testLimits testStore _ _).2.2 testStore_wellKeyed
  intro id tx hget
  rw [eq_testTransaction hget]
  exact ⟨rfl, rfl⟩

/-- The record of transaction 2, stored under 1. -/
def misfiledStore : Storage Nat Nat :=
  Ledger.empty.setPersistent (.transaction 1) { testTransaction with txId := 2 }

theorem outcome_attribution_counterexample :
    ¬ ∀ (σ : Storage Nat Nat) (calls : List (LifecycleCall Nat Nat)),
      (∀ id tx, getTransaction σ id = some tx → tx.status = .pending ∧ tx.reason = none) →
        OutcomesAttributed testLimits σ calls := by
  intro h
  have hpending : ∀ id tx, getTransaction misfiledStore id = some tx →
      tx.status = .pending ∧ tx.reason = none := by
    intro id tx hget
    by_cases hid : id = 1
    · subst hid
      rw [← Option.some.inj hget]
      exact ⟨rfl, rfl⟩
    · have hnone : getTransaction misfiledStore id = none := by
        simp [getTransaction, misfiledStore, hid]
      rw [hnone] at hget
      cases hget
  -- the call on 1 succeeds and writes under 2: the record under 1 keeps its caller
  have hcaller := (h misfiledStore [.startProcessing 1 9] hpending 1
    { testTransaction with txId := 2 } rfl).2.2 _ rfl
  cases hcaller

end Synapse
