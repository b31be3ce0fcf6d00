import SynapseCore.Contract.Types
import SynapseCore.Foundation.KeyedRuns

/-! The transaction records of `storage.rs` and the four lifecycle helpers that
move their status. `get_transaction` and `set_transaction` are read out of the
damaged fragment at lines 129-149. -/

namespace Synapse
variable {TxId Address : Type} [DecidableEq TxId]

def getTransaction (σ : Storage TxId Address) (txId : TxId) : Option (Transaction TxId Address) :=
  σ.persistent.get (.transaction txId)

def setTransaction (σ : Storage TxId Address) (tx : Transaction TxId Address) :
    Storage TxId Address :=
  σ.setPersistent (.transaction tx.txId) tx

def transitionStatus (σ : Storage TxId Address) (txId : TxId)
    (validSources : List TransactionStatus) (target : TransactionStatus) (caller : Address)
    (reason : Option Str) :
    Storage TxId Address × Except TransitionError (Transaction TxId Address) :=
  match getTransaction σ txId with
  | none => (σ, .error .notFound)
  | some tx =>
    if tx.status ∉ validSources then (σ, .error .invalidSource)
    else
      let tx' := { tx with status := target, caller := caller, reason := reason }
      (setTransaction σ tx', .ok tx')

def assertStatusAndTransition (σ : Storage TxId Address) (txId : TxId)
    (source target : TransactionStatus) (caller : Address) (reason : Option Str) :
    Storage TxId Address × Except TransitionError (Transaction TxId Address) :=
  transitionStatus σ txId [source] target caller reason

def startProcessing (σ : Storage TxId Address) (txId : TxId) (caller : Address) :
    Storage TxId Address × Except TransitionError (Transaction TxId Address) :=
  assertStatusAndTransition σ txId .pending .processing caller none

def completeTransaction (σ : Storage TxId Address) (txId : TxId) (caller : Address) :
    Storage TxId Address × Except TransitionError (Transaction TxId Address) :=
  assertStatusAndTransition σ txId .processing .completed caller none

def cancelTransaction (L : Limits) (σ : Storage TxId Address) (txId : TxId) (reason : Str)
    (caller : Address) :
    Storage TxId Address × Except TransitionError (Transaction TxId Address) :=
  if reason.length > L.maxReasonLen then (σ, .error .invalidSource)
  else transitionStatus σ txId [.pending, .processing] .cancelled caller (some reason)

def failTransaction (L : Limits) (σ : Storage TxId Address) (txId : TxId) (reason : Str)
    (caller : Address) :
    Storage TxId Address × Except TransitionError (Transaction TxId Address) :=
  if reason.length > L.maxReasonLen then (σ, .error .invalidSource)
  else transitionStatus σ txId [.pending, .processing] .failed caller (some reason)

/-- The call `set_transaction(env, tx_id, &tx)` in its body hands over the key to write at. -/
def setTransactionStatus (σ : Storage TxId Address) (txId : TxId) (status : TransactionStatus) :
    Storage TxId Address :=
  match getTransaction σ txId with
  | some tx => σ.setPersistent (.transaction txId) { tx with status := status }
  | none => σ

/-! Lifecycle calls as data, with the guard and the target each one hands to
`transition_status`. -/

inductive LifecycleCall (TxId Address : Type)
  | startProcessing (txId : TxId) (caller : Address)
  | completeTransaction (txId : TxId) (caller : Address)
  | failTransaction (txId : TxId) (reason : Str) (caller : Address)
  | cancelTransaction (txId : TxId) (reason : Str) (caller : Address)

def lifecycleStep (L : Limits) (σ : Storage TxId Address) :
    LifecycleCall TxId Address →
      Storage TxId Address × Except TransitionError (Transaction TxId Address)
  | .startProcessing txId caller => startProcessing σ txId caller
  | .completeTransaction txId caller => completeTransaction σ txId caller
  | .failTransaction txId reason caller => failTransaction L σ txId reason caller
  | .cancelTransaction txId reason caller => cancelTransaction L σ txId reason caller

namespace LifecycleCall

def txId : LifecycleCall TxId Address → TxId
  | startProcessing txId _ => txId
  | completeTransaction txId _ => txId
  | failTransaction txId _ _ => txId
  | cancelTransaction txId _ _ => txId

def caller : LifecycleCall TxId Address → Address
  | startProcessing _ caller => caller
  | completeTransaction _ caller => caller
  | failTransaction _ _ caller => caller
  | cancelTransaction _ _ caller => caller

def reason : LifecycleCall TxId Address → Option Str
  | startProcessing _ _ => none
  | completeTransaction _ _ => none
  | failTransaction _ reason _ => some reason
  | cancelTransaction _ reason _ => some reason

def sources : LifecycleCall TxId Address → List TransactionStatus
  | startProcessing _ _ => [.pending]
  | completeTransaction _ _ => [.processing]
  | failTransaction _ _ _ => [.pending, .processing]
  | cancelTransaction _ _ _ => [.pending, .processing]

def target : LifecycleCall TxId Address → TransactionStatus
  | startProcessing _ _ => .processing
  | completeTransaction _ _ => .completed
  | failTransaction _ _ _ => .failed
  | cancelTransaction _ _ _ => .cancelled

/-- The reason, where the call takes one, is within the cap. -/
def ReasonFits (L : Limits) (call : LifecycleCall TxId Address) : Prop :=
  ∀ reason ∈ call.reason, reason.length ≤ L.maxReasonLen

instance (L : Limits) (call : LifecycleCall TxId Address) : Decidable (call.ReasonFits L) :=
  inferInstanceAs (Decidable (∀ reason ∈ call.reason, reason.length ≤ L.maxReasonLen))

/-- The record a successful call leaves in place of `tx`. -/
def moved (call : LifecycleCall TxId Address) (tx : Transaction TxId Address) :
    Transaction TxId Address :=
  { tx with status := call.target, caller := call.caller, reason := call.reason }

omit [DecidableEq TxId] in
@[simp] theorem moved_txId (call : LifecycleCall TxId Address) (tx : Transaction TxId Address) :
    (call.moved tx).txId = tx.txId := rfl

end LifecycleCall

/-! ## What one call can do -/

theorem getTransaction_setTransaction (σ : Storage TxId Address) (tx : Transaction TxId Address)
    (id : TxId) :
    getTransaction (setTransaction σ tx) id =
      if id = tx.txId then some tx else getTransaction σ id := by
  unfold getTransaction setTransaction
  split_ifs with h
  · subst h
    simp
  · simp [h]

theorem transitionStatus_of_none {σ : Storage TxId Address} {txId : TxId}
    (h : getTransaction σ txId = none) (sources : List TransactionStatus)
    (target : TransactionStatus) (caller : Address) (reason : Option Str) :
    transitionStatus σ txId sources target caller reason = (σ, .error .notFound) := by
  simp only [transitionStatus, h]

theorem transitionStatus_of_some {σ : Storage TxId Address} {txId : TxId}
    {tx : Transaction TxId Address} (h : getTransaction σ txId = some tx)
    (sources : List TransactionStatus) (target : TransactionStatus) (caller : Address)
    (reason : Option Str) :
    transitionStatus σ txId sources target caller reason =
      if tx.status ∈ sources then
        (setTransaction σ { tx with status := target, caller := caller, reason := reason },
          .ok { tx with status := target, caller := caller, reason := reason })
      else (σ, .error .invalidSource) := by
  simp only [transitionStatus, h, ite_not]

/-- All four helpers are one guarded transition behind one length check. -/
theorem lifecycleStep_eq (L : Limits) (σ : Storage TxId Address)
    (call : LifecycleCall TxId Address) :
    lifecycleStep L σ call =
      if call.ReasonFits L then
        transitionStatus σ call.txId call.sources call.target call.caller call.reason
      else (σ, .error .invalidSource) := by
  cases call with
  | startProcessing txId caller => simp [LifecycleCall.ReasonFits, LifecycleCall.reason]; rfl
  | completeTransaction txId caller => simp [LifecycleCall.ReasonFits, LifecycleCall.reason]; rfl
  | failTransaction txId reason caller =>
    simp only [lifecycleStep, failTransaction, LifecycleCall.ReasonFits, LifecycleCall.reason,
      Option.mem_some_iff, forall_eq', gt_iff_lt, ← not_le, ite_not]
    rfl
  | cancelTransaction txId reason caller =>
    simp only [lifecycleStep, cancelTransaction, LifecycleCall.ReasonFits, LifecycleCall.reason,
      Option.mem_some_iff, forall_eq', gt_iff_lt, ← not_le, ite_not]
    rfl

/-- A call is accepted at the record it addresses: the record is there, in one
of the call's source statuses, and the reason fits. -/
def Accepts (L : Limits) (σ : Storage TxId Address) (call : LifecycleCall TxId Address)
    (tx : Transaction TxId Address) : Prop :=
  getTransaction σ call.txId = some tx ∧ tx.status ∈ call.sources ∧ call.ReasonFits L

theorem lifecycleStep_of_accepts {L : Limits} {σ : Storage TxId Address}
    {call : LifecycleCall TxId Address} {tx : Transaction TxId Address}
    (h : Accepts L σ call tx) :
    lifecycleStep L σ call = (setTransaction σ (call.moved tx), .ok (call.moved tx)) := by
  rw [lifecycleStep_eq, if_pos h.2.2, transitionStatus_of_some h.1, if_pos h.2.1]
  rfl

theorem lifecycleStep_of_not_accepts {L : Limits} {σ : Storage TxId Address}
    {call : LifecycleCall TxId Address} (h : ∀ tx, ¬ Accepts L σ call tx) :
    ∃ e, lifecycleStep L σ call = (σ, .error e) := by
  rw [lifecycleStep_eq]
  by_cases hfits : call.ReasonFits L
  · rw [if_pos hfits]
    cases hget : getTransaction σ call.txId with
    | none => exact ⟨_, transitionStatus_of_none hget ..⟩
    | some tx =>
      have hsource : tx.status ∉ call.sources := fun hs => h tx ⟨hget, hs, hfits⟩
      rw [transitionStatus_of_some hget, if_neg hsource]
      exact ⟨_, rfl⟩
  · exact ⟨_, if_neg hfits⟩

theorem lifecycleStep_cases (L : Limits) (σ : Storage TxId Address)
    (call : LifecycleCall TxId Address) :
    (∃ tx, Accepts L σ call tx ∧
      lifecycleStep L σ call = (setTransaction σ (call.moved tx), .ok (call.moved tx))) ∨
    ((∀ tx, ¬ Accepts L σ call tx) ∧ ∃ e, lifecycleStep L σ call = (σ, .error e)) := by
  by_cases h : ∃ tx, Accepts L σ call tx
  · obtain ⟨tx, htx⟩ := h
    exact .inl ⟨tx, htx, lifecycleStep_of_accepts htx⟩
  · have hnot := not_exists.mp h
    exact .inr ⟨hnot, lifecycleStep_of_not_accepts hnot⟩

theorem stored_setTransaction {σ : Storage TxId Address} {id : TxId}
    (h : (getTransaction σ id).isSome) (tx : Transaction TxId Address) :
    (getTransaction (setTransaction σ tx) id).isSome := by
  rw [getTransaction_setTransaction]
  split_ifs
  · rfl
  · exact h

theorem stored_lifecycleStep {L : Limits} {σ : Storage TxId Address} {id : TxId}
    (h : (getTransaction σ id).isSome) (call : LifecycleCall TxId Address) :
    (getTransaction (lifecycleStep L σ call).1 id).isSome := by
  obtain ⟨tx, _, hstep⟩ | ⟨_, e, hstep⟩ := lifecycleStep_cases L σ call
  · rw [hstep]
    exact stored_setTransaction h _
  · rw [hstep]
    exact h

theorem lifecycleStep_frame (L : Limits) (σ : Storage TxId Address)
    (call : LifecycleCall TxId Address) :
    (lifecycleStep L σ call).1.inst = σ.inst ∧
      (lifecycleStep L σ call).1.temporary = σ.temporary ∧
      (lifecycleStep L σ call).1.events = σ.events := by
  obtain ⟨tx, _, hstep⟩ | ⟨_, e, hstep⟩ := lifecycleStep_cases L σ call
  · rw [hstep]
    exact ⟨rfl, rfl, rfl⟩
  · rw [hstep]
    exact ⟨rfl, rfl, rfl⟩

/-! ## Stores in which each record sits under its own id -/

def WellKeyed (σ : Storage TxId Address) : Prop :=
  ∀ id tx, getTransaction σ id = some tx → tx.txId = id

omit [DecidableEq TxId] in
theorem wellKeyed_empty : WellKeyed (Ledger.empty : Storage TxId Address) := by
  intro id tx hget
  cases hget

theorem wellKeyed_setTransaction {σ : Storage TxId Address} (h : WellKeyed σ)
    (tx : Transaction TxId Address) : WellKeyed (setTransaction σ tx) := by
  intro id tx' hget
  rw [getTransaction_setTransaction] at hget
  split_ifs at hget with hid
  · rw [hid, ← Option.some.inj hget]
  · exact h id tx' hget

theorem wellKeyed_lifecycleStep {L : Limits} {σ : Storage TxId Address} (h : WellKeyed σ)
    (call : LifecycleCall TxId Address) : WellKeyed (lifecycleStep L σ call).1 := by
  obtain ⟨tx, _, hstep⟩ | ⟨_, e, hstep⟩ := lifecycleStep_cases L σ call
  · rw [hstep]
    exact wellKeyed_setTransaction h _
  · rw [hstep]
    exact h

theorem stored_lifecycleStep_iff {L : Limits} {σ : Storage TxId Address} (h : WellKeyed σ)
    (call : LifecycleCall TxId Address) (id : TxId) :
    (getTransaction (lifecycleStep L σ call).1 id).isSome ↔ (getTransaction σ id).isSome := by
  refine ⟨fun hstored => ?_, fun hstored => stored_lifecycleStep hstored call⟩
  obtain ⟨tx, haccepts, hstep⟩ | ⟨_, e, hstep⟩ := lifecycleStep_cases L σ call
  · rw [hstep, getTransaction_setTransaction, call.moved_txId, h _ _ haccepts.1] at hstored
    split_ifs at hstored with hid
    · rw [hid, haccepts.1]
      rfl
    · exact hstored
  · rwa [hstep] at hstored

/-! A store with one pending record, for concrete runs. -/

def testTransaction : Transaction Nat Nat where
  txId := 1
  status := .pending
  amount := 1000
  stellarAccount := 3
  assetCode := [0x55, 0x53, 0x44, 0x43]
  assetIssuer := 3
  relaySigner := some 7
  caller := 7
  reason := none
  stellarTxHash := none

def testStore : Storage Nat Nat := setTransaction Ledger.empty testTransaction

theorem eq_testTransaction {id : Nat} {tx : Transaction Nat Nat}
    (h : getTransaction testStore id = some tx) : tx = testTransaction := by
  unfold testStore at h
  rw [getTransaction_setTransaction] at h
  split_ifs at h
  · exact (Option.some.inj h).symm
  · cases h

theorem testStore_wellKeyed : WellKeyed testStore := wellKeyed_setTransaction wellKeyed_empty _

end Synapse
