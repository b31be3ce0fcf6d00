import SynapseCore.Contract.TransactionRecords

/-! The lifecycle helpers refine the reference transition function of the chaos
test: every record is one cell, and a run moves the cell of an id exactly as the
calls addressed to that id tell it to. -/

namespace Synapse
open Machine
variable {TxId Address : Type}

/-! ## The reference machine -/

inductive Op
  | start | complete | fail | cancel
  deriving DecidableEq, Repr

/-- `model_transition` of `test_rotation_chaos.rs`, with the cancellation it leaves out. -/
def modelTransition : TransactionStatus → Op → Option TransactionStatus
  | .pending, .start => some .processing
  | .processing, .complete => some .completed
  | .pending, .fail | .processing, .fail => some .failed
  | .pending, .cancel | .processing, .cancel => some .cancelled
  | _, _ => none

def modelStep (status : TransactionStatus) (op : Op) : TransactionStatus :=
  (modelTransition status op).getD status

namespace TransactionStatus

/-- How many more transitions a status can make. -/
def stepsLeft : TransactionStatus → Nat
  | pending => 2
  | processing => 1
  | _ => 0

def endsLeft : TransactionStatus → Nat
  | pending | processing => 1
  | _ => 0

theorem stepsLeft_le_two (status : TransactionStatus) : status.stepsLeft ≤ 2 := by
  cases status <;> decide

theorem endsLeft_le_one (status : TransactionStatus) : status.endsLeft ≤ 1 := by
  cases status <;> decide

end TransactionStatus

section Model
variable {status status' : TransactionStatus} {op : Op}

theorem modelTransition_stepsLeft (h : modelTransition status op = some status') :
    status'.stepsLeft < status.stepsLeft := by
  cases status <;> cases op <;> cases h <;> decide

theorem modelTransition_endsLeft (h : modelTransition status op = some status') :
    status'.endsLeft ≤ status.endsLeft := by
  cases status <;> cases op <;> cases h <;> decide

theorem modelTransition_ends (h : modelTransition status op = some status') (hop : op ≠ .start) :
    status'.endsLeft < status.endsLeft := by
  cases status <;> cases op <;> cases h <;> first | decide | exact absurd rfl hop

end Model

/-! ## Calls as operations of the reference machine -/

namespace LifecycleCall

def op : LifecycleCall TxId Address → Op
  | startProcessing _ _ => .start
  | completeTransaction _ _ => .complete
  | failTransaction _ _ _ => .fail
  | cancelTransaction _ _ _ => .cancel

theorem modelTransition_op (status : TransactionStatus) (call : LifecycleCall TxId Address) :
    modelTransition status call.op =
      if status ∈ call.sources then some call.target else none := by
  cases call <;> cases status <;> rfl

theorem modelTransition_of_mem {status : TransactionStatus} {call : LifecycleCall TxId Address}
    (h : status ∈ call.sources) : modelTransition status call.op = some call.target := by
  rw [modelTransition_op, if_pos h]

theorem modelTransition_of_not_mem {status : TransactionStatus}
    {call : LifecycleCall TxId Address} (h : status ∉ call.sources) :
    modelTransition status call.op = none := by
  rw [modelTransition_op, if_neg h]

end LifecycleCall

/-! ## The cell of one record -/

def lifecycleCell (L : Limits) (cell : Option (Transaction TxId Address))
    (call : LifecycleCall TxId Address) :
    Option (Transaction TxId Address) × Except TransitionError (Transaction TxId Address) :=
  if call.ReasonFits L then
    match cell with
    | none => (none, .error .notFound)
    | some tx =>
      if tx.status ∈ call.sources then (some (call.moved tx), .ok (call.moved tx))
      else (some tx, .error .invalidSource)
  else (cell, .error .invalidSource)

section Cell
variable {L : Limits} {call : LifecycleCall TxId Address} {tx : Transaction TxId Address}

theorem lifecycleCell_overlong (h : ¬ call.ReasonFits L)
    (cell : Option (Transaction TxId Address)) :
    lifecycleCell L cell call = (cell, .error .invalidSource) := if_neg h

theorem lifecycleCell_none (h : call.ReasonFits L) :
    lifecycleCell L none call = (none, .error .notFound) := if_pos h

theorem lifecycleCell_moves (h : call.ReasonFits L) (hsource : tx.status ∈ call.sources) :
    lifecycleCell L (some tx) call = (some (call.moved tx), .ok (call.moved tx)) := by
  simp only [lifecycleCell, if_pos h, if_pos hsource]

theorem lifecycleCell_stays (h : call.ReasonFits L) (hsource : tx.status ∉ call.sources) :
    lifecycleCell L (some tx) call = (some tx, .error .invalidSource) := by
  simp only [lifecycleCell, if_pos h, if_neg hsource]

theorem lifecycleCell_status (h : call.ReasonFits L)
    (cell : Option (Transaction TxId Address)) :
    (lifecycleCell L cell call).1.map Transaction.status =
      (cell.map Transaction.status).map fun status => modelStep status call.op := by
  cases cell with
  | none =>
    rw [lifecycleCell_none h]
    rfl
  | some tx =>
    unfold modelStep
    by_cases hsource : tx.status ∈ call.sources
    · rw [lifecycleCell_moves h hsource]
      simp only [Option.map_some, call.modelTransition_of_mem hsource]
      rfl
    · rw [lifecycleCell_stays h hsource]
      simp only [Option.map_some, call.modelTransition_of_not_mem hsource]
      rfl

theorem lifecycleCell_ok {cell : Option (Transaction TxId Address)}
    (h : (lifecycleCell L cell call).2.isOk = true) :
    ∃ tx, cell = some tx ∧ lifecycleCell L cell call = (some (call.moved tx), .ok (call.moved tx)) ∧
      modelTransition tx.status call.op = some call.target := by
  by_cases hfits : call.ReasonFits L
  · cases cell with
    | none =>
      rw [lifecycleCell_none hfits] at h
      cases h
    | some tx =>
      by_cases hsource : tx.status ∈ call.sources
      · exact ⟨tx, rfl, lifecycleCell_moves hfits hsource, call.modelTransition_of_mem hsource⟩
      · rw [lifecycleCell_stays hfits hsource] at h
        cases h
  · rw [lifecycleCell_overlong hfits] at h
    cases h

theorem lifecycleCell_not_ok {cell : Option (Transaction TxId Address)}
    (h : ¬ (lifecycleCell L cell call).2.isOk = true) : (lifecycleCell L cell call).1 = cell := by
  by_cases hfits : call.ReasonFits L
  · cases cell with
    | none => rw [lifecycleCell_none hfits]
    | some tx =>
      by_cases hsource : tx.status ∈ call.sources
      · rw [lifecycleCell_moves hfits hsource] at h
        exact absurd rfl h
      · rw [lifecycleCell_stays hfits hsource]
  · rw [lifecycleCell_overlong hfits]

end Cell

/-- A measure of the status that transitions answered by `p` lower bounds how many there are. -/
theorem lifecycleCell_countP_le {L : Limits} (μ : TransactionStatus → Nat)
    (q : LifecycleCall TxId Address → Bool)
    (hle : ∀ status status' op, modelTransition status op = some status' → μ status' ≤ μ status)
    (hlt : ∀ status (call : LifecycleCall TxId Address), q call = true →
      modelTransition status call.op = some call.target → μ call.target < μ status)
    (cell : Option (Transaction TxId Address)) (calls : List (LifecycleCall TxId Address)) :
    (transcript (lifecycleCell L) cell calls).countP (fun e => e.2.isOk && q e.1) ≤
      (cell.map fun tx => μ tx.status).getD 0 := by
  refine countP_transcript_le (lifecycleCell L) _
    (fun cell => (cell.map fun tx => μ tx.status).getD 0)
    (fun cell call => ?_) (fun cell call hp => ?_) cell calls
  · by_cases hok : (lifecycleCell L cell call).2.isOk = true
    · obtain ⟨tx, rfl, hstep, hmodel⟩ := lifecycleCell_ok hok
      rw [hstep]
      exact hle _ _ _ hmodel
    · rw [lifecycleCell_not_ok hok]
  · obtain ⟨hok, hq⟩ := Bool.and_eq_true_iff.mp hp
    obtain ⟨tx, rfl, hstep, hmodel⟩ := lifecycleCell_ok hok
    rw [hstep]
    exact hlt _ _ hq hmodel

theorem measure_getD_le {μ : TransactionStatus → Nat} {n : Nat} (h : ∀ status, μ status ≤ n)
    (cell : Option (Transaction TxId Address)) :
    (cell.map fun tx => μ tx.status).getD 0 ≤ n := by
  cases cell with
  | none => exact Nat.zero_le n
  | some tx => exact h tx.status

theorem lifecycleCell_status_after {L : Limits} (cell : Option (Transaction TxId Address))
    {calls : List (LifecycleCall TxId Address)} (h : ∀ call ∈ calls, call.ReasonFits L) :
    (after (lifecycleCell L) cell calls).map Transaction.status =
      (cell.map Transaction.status).map fun status =>
        (calls.map LifecycleCall.op).foldl modelStep status := by
  induction calls generalizing cell with
  | nil => cases cell <;> rfl
  | cons call calls ih =>
    have hcall := h call (by simp)
    have hrest := fun c hc => h c (List.mem_cons_of_mem call hc)
    rw [after_cons, ih _ hrest, lifecycleCell_status hcall, Option.map_map]
    rfl

/-! ## The store as a family of cells -/

section Store
variable [DecidableEq TxId]

def statusOf (σ : Storage TxId Address) (id : TxId) : Option TransactionStatus :=
  (getTransaction σ id).map Transaction.status

theorem lifecycleStep_answer (L : Limits) (σ : Storage TxId Address)
    (call : LifecycleCall TxId Address) :
    (lifecycleStep L σ call).2 = (lifecycleCell L (getTransaction σ call.txId) call).2 := by
  rw [lifecycleStep_eq]
  by_cases hfits : call.ReasonFits L
  · rw [if_pos hfits]
    cases hget : getTransaction σ call.txId with
    | none => rw [transitionStatus_of_none hget, lifecycleCell_none hfits]
    | some tx =>
      rw [transitionStatus_of_some hget]
      by_cases hsource : tx.status ∈ call.sources
      · rw [if_pos hsource, lifecycleCell_moves hfits hsource]
        rfl
      · rw [if_neg hsource, lifecycleCell_stays hfits hsource]
  · rw [if_neg hfits, lifecycleCell_overlong hfits]

theorem getTransaction_lifecycleStep {L : Limits} {σ : Storage TxId Address} (h : WellKeyed σ)
    (call : LifecycleCall TxId Address) :
    getTransaction (lifecycleStep L σ call).1 =
      (keyed LifecycleCall.txId (lifecycleCell L) (getTransaction σ) call).1 := by
  obtain ⟨tx, ⟨hget, hsource, hfits⟩, hstep⟩ | ⟨hnot, e, hstep⟩ := lifecycleStep_cases L σ call
  · have hid : tx.txId = call.txId := h _ _ hget
    rw [hstep, keyed, hget, lifecycleCell_moves hfits hsource]
    funext id
    change _ = Function.update (getTransaction σ) call.txId (some (call.moved tx)) id
    rw [getTransaction_setTransaction, Function.update_apply]
    simp only [LifecycleCall.moved, hid]
  · have hcell : (lifecycleCell L (getTransaction σ call.txId) call).1 =
        getTransaction σ call.txId := by
      apply lifecycleCell_not_ok
      rw [← lifecycleStep_answer, hstep]
      exact Bool.false_ne_true
    rw [hstep, keyed, hcell, Function.update_eq_self]

def Represents (σ : Storage TxId Address) (m : TxId → Option (Transaction TxId Address)) : Prop :=
  WellKeyed σ ∧ getTransaction σ = m

theorem represents_step {L : Limits} (σ : Storage TxId Address)
    (m : TxId → Option (Transaction TxId Address)) (call : LifecycleCall TxId Address)
    (h : Represents σ m) :
    Represents (lifecycleStep L σ call).1
      (keyed LifecycleCall.txId (lifecycleCell L) m call).1 := by
  obtain ⟨hkeyed, rfl⟩ := h
  exact ⟨wellKeyed_lifecycleStep hkeyed call, getTransaction_lifecycleStep hkeyed call⟩

theorem represents_answer {L : Limits} (σ : Storage TxId Address)
    (m : TxId → Option (Transaction TxId Address)) (call : LifecycleCall TxId Address)
    (h : Represents σ m) :
    (lifecycleStep L σ call).2 = (keyed LifecycleCall.txId (lifecycleCell L) m call).2 := by
  obtain ⟨_, rfl⟩ := h
  exact lifecycleStep_answer L σ call

theorem getTransaction_after {L : Limits} {σ : Storage TxId Address} (h : WellKeyed σ)
    (calls : List (LifecycleCall TxId Address)) (id : TxId) :
    getTransaction (after (lifecycleStep L) σ calls) id =
      after (lifecycleCell L) (getTransaction σ id) (addressed LifecycleCall.txId id calls) := by
  have hstart : Represents σ (getTransaction σ) := ⟨h, rfl⟩
  have hrun := after_simulates (represents_step (L := L)) hstart calls
  rw [hrun.2, after_keyed_apply]

theorem transcript_addressed {L : Limits} {σ : Storage TxId Address} (h : WellKeyed σ)
    (calls : List (LifecycleCall TxId Address)) (id : TxId) :
    (transcript (lifecycleStep L) σ calls).filter (fun entry => entry.1.txId = id) =
      transcript (lifecycleCell L) (getTransaction σ id)
        (addressed LifecycleCall.txId id calls) := by
  have hstart : Represents σ (getTransaction σ) := ⟨h, rfl⟩
  rw [transcript_simulates (represents_step (L := L)) represents_answer hstart calls,
    transcript_keyed_filter]

theorem statusOf_after {L : Limits} {σ : Storage TxId Address} (h : WellKeyed σ)
    {calls : List (LifecycleCall TxId Address)} (hfits : ∀ call ∈ calls, call.ReasonFits L)
    (id : TxId) :
    statusOf (after (lifecycleStep L) σ calls) id =
      (statusOf σ id).map fun status =>
        ((addressed LifecycleCall.txId id calls).map LifecycleCall.op).foldl modelStep status := by
  unfold statusOf
  rw [getTransaction_after h]
  exact lifecycleCell_status_after _ fun call hcall => hfits call (List.mem_filter.mp hcall).1

theorem lifecycleStep_isOk_iff {L : Limits} (σ : Storage TxId Address)
    {call : LifecycleCall TxId Address} (hfits : call.ReasonFits L) :
    (lifecycleStep L σ call).2.isOk = true ↔
      ∃ status, statusOf σ call.txId = some status ∧
        (modelTransition status call.op).isSome = true := by
  rw [lifecycleStep_answer]
  constructor
  · intro hok
    obtain ⟨tx, hget, _, hmodel⟩ := lifecycleCell_ok hok
    have hstatus : statusOf σ call.txId = some tx.status := by
      rw [statusOf, hget]
      rfl
    refine ⟨tx.status, hstatus, ?_⟩
    rw [hmodel]
    rfl
  · rintro ⟨status, hstatus, hmodel⟩
    obtain ⟨tx, hget, rfl⟩ := Option.map_eq_some_iff.mp hstatus
    have hsource : tx.status ∈ call.sources := by
      by_contra hnot
      rw [call.modelTransition_of_not_mem hnot] at hmodel
      cases hmodel
    rw [hget, lifecycleCell_moves hfits hsource]
    rfl

theorem lifecycleStep_err_unchanged {L : Limits} {σ : Storage TxId Address}
    {call : LifecycleCall TxId Address} (h : (lifecycleStep L σ call).2.isOk = false) :
    (lifecycleStep L σ call).1 = σ := by
  obtain ⟨tx, _, hstep⟩ | ⟨_, e, hstep⟩ := lifecycleStep_cases L σ call
  · rw [hstep] at h
    cases h
  · rw [hstep]

theorem countP_addressed_le {L : Limits} {σ : Storage TxId Address} (h : WellKeyed σ)
    (calls : List (LifecycleCall TxId Address)) (id : TxId) (μ : TransactionStatus → Nat)
    (q : LifecycleCall TxId Address → Bool)
    (hle : ∀ status status' op, modelTransition status op = some status' → μ status' ≤ μ status)
    (hlt : ∀ status (call : LifecycleCall TxId Address), q call = true →
      modelTransition status call.op = some call.target → μ call.target < μ status) :
    (transcript (lifecycleStep L) σ calls).countP
        (fun e => (e.2.isOk && q e.1) && decide (e.1.txId = id)) ≤
      ((getTransaction σ id).map fun tx => μ tx.status).getD 0 := by
  rw [← List.countP_filter, transcript_addressed h]
  exact lifecycleCell_countP_le μ q hle hlt _ _

/-- **Lifecycle refinement.** Over any run from a well-keyed store, statuses are
the fold of the reference machine over the calls addressed to each id, a call is
`Ok` exactly where the reference transition is defined, an `Err` leaves the store
alone, and an id makes at most two transitions, at most one of them terminal. -/
theorem lifecycle_refines_model (L : Limits) (σ : Storage TxId Address) (hσ : WellKeyed σ)
    (calls : List (LifecycleCall TxId Address)) (hfits : ∀ call ∈ calls, call.ReasonFits L) :
    (∀ id, statusOf (after (lifecycleStep L) σ calls) id =
      (statusOf σ id).map fun status =>
        ((addressed LifecycleCall.txId id calls).map LifecycleCall.op).foldl modelStep status) ∧
    (∀ pre call post, calls = pre ++ call :: post →
      let τ := after (lifecycleStep L) σ pre
      ((lifecycleStep L τ call).2.isOk = true ↔
        ∃ status, statusOf τ call.txId = some status ∧
          (modelTransition status call.op).isSome = true) ∧
      ((lifecycleStep L τ call).2.isOk = false → (lifecycleStep L τ call).1 = τ)) ∧
    (∀ id, (transcript (lifecycleStep L) σ calls).countP
        (fun e => e.2.isOk && decide (e.1.txId = id)) ≤ 2 ∧
      (transcript (lifecycleStep L) σ calls).countP
        (fun e => (e.2.isOk && decide (e.1.op ≠ .start)) && decide (e.1.txId = id)) ≤ 1) := by
  refine ⟨statusOf_after hσ hfits, ?_, fun id => ⟨?_, ?_⟩⟩
  · rintro pre call post rfl
    exact ⟨lifecycleStep_isOk_iff _ (hfits call (by simp)), lifecycleStep_err_unchanged⟩
  · -- a pending record is two successful transitions away from the end, and at most that
    have hcount := countP_addressed_le (L := L) hσ calls id TransactionStatus.stepsLeft
      (fun _ => true) (fun _ _ _ h => (modelTransition_stepsLeft h).le)
      (fun _ _ _ h => modelTransition_stepsLeft h)
    simp only [Bool.and_true] at hcount
    exact hcount.trans (measure_getD_le TransactionStatus.stepsLeft_le_two _)
  · refine (countP_addressed_le hσ calls id TransactionStatus.endsLeft
      (fun call => decide (call.op ≠ .start)) (fun _ _ _ h => modelTransition_endsLeft h)
      (fun _ _ hq h => modelTransition_ends h (of_decide_eq_true hq))).trans ?_
    exact measure_getD_le TransactionStatus.endsLeft_le_one _

theorem lifecycle_refines_model_fixture :
    statusOf (after (lifecycleStep testLimits) testStore
      [.startProcessing 1 7, .failTransaction 2 [] 7, .completeTransaction 1 7,
        .cancelTransaction 1 [0x78] 9]) 1 = some .completed :=
  (lifecycle_refines_model testLimits testStore testStore_wellKeyed _ (by decide)).1 1

end Store
end Synapse
