import SynapseCore.Contract.LifecycleRefinement

/-! Which writers of the status field respect a terminal status. The guarded
helpers do; `set_transaction_status` writes whatever it is handed. -/

namespace Synapse
open Machine
variable {TxId Address : Type}

def TransactionStatus.Terminal (status : TransactionStatus) : Prop :=
  status = .completed ∨ status = .failed ∨ status = .cancelled

theorem LifecycleCall.terminal_not_source {status : TransactionStatus} (h : status.Terminal)
    (call : LifecycleCall TxId Address) : status ∉ call.sources := by
  rcases h with rfl | rfl | rfl <;> cases call <;> simp [LifecycleCall.sources]

inductive StatusCall (TxId Address : Type)
  | lifecycle (call : LifecycleCall TxId Address)
  | setTransactionStatus (txId : TxId) (status : TransactionStatus)

variable [DecidableEq TxId]

def statusStep (L : Limits) (σ : Storage TxId Address) :
    StatusCall TxId Address →
      Storage TxId Address × Option (Except TransitionError (Transaction TxId Address))
  | .lifecycle call => ((lifecycleStep L σ call).1, some (lifecycleStep L σ call).2)
  | .setTransactionStatus txId status => (setTransactionStatus σ txId status, none)

/-- The call does not write another status than `status` over the record at `id`.
A guarded call writes where the record it reads says, not where it was asked. -/
def Spares (L : Limits) (id : TxId) (status : TransactionStatus) (σ : Storage TxId Address) :
    StatusCall TxId Address → Prop
  | .lifecycle call => ∀ tx, Accepts L σ call tx → tx.txId = id → call.target = status
  | .setTransactionStatus txId status' => txId = id → status' = status

section Steps
variable {L : Limits} {σ : Storage TxId Address} {id : TxId} {status : TransactionStatus}

theorem statusOf_setTransaction (σ : Storage TxId Address) (tx : Transaction TxId Address)
    (id : TxId) :
    statusOf (setTransaction σ tx) id = if id = tx.txId then some tx.status else statusOf σ id := by
  unfold statusOf
  rw [getTransaction_setTransaction]
  split_ifs <;> rfl

theorem getTransaction_setTransactionStatus (σ : Storage TxId Address) (txId : TxId)
    (status : TransactionStatus) (id : TxId) :
    getTransaction (setTransactionStatus σ txId status) id =
      if id = txId then (getTransaction σ id).map fun tx => { tx with status := status }
      else getTransaction σ id := by
  unfold setTransactionStatus
  cases hget : getTransaction σ txId with
  | none =>
    split_ifs with h
    · rw [h, hget]
      rfl
    · rfl
  | some tx =>
    split_ifs with h
    · subst h
      rw [hget]
      simp [getTransaction]
    · simp [getTransaction, h]

theorem statusOf_setTransactionStatus (σ : Storage TxId Address) (txId : TxId)
    (status : TransactionStatus) (id : TxId) :
    statusOf (setTransactionStatus σ txId status) id =
      if id = txId then (statusOf σ id).map fun _ => status else statusOf σ id := by
  unfold statusOf
  rw [getTransaction_setTransactionStatus]
  split_ifs with h
  · rw [Option.map_map, Option.map_map]
    rfl
  · rfl

theorem statusStep_keeps_iff (call : StatusCall TxId Address) (h : statusOf σ id = some status) :
    statusOf (statusStep L σ call).1 id = some status ↔ Spares L id status σ call := by
  cases call with
  | lifecycle call =>
    dsimp only [statusStep, Spares]
    obtain ⟨tx, haccepts, hstep⟩ | ⟨hnot, e, hstep⟩ := lifecycleStep_cases L σ call
    · have honly : ∀ tx', Accepts L σ call tx' → tx' = tx := fun tx' h' =>
        Option.some.inj (h'.1.symm.trans haccepts.1)
      rw [hstep, statusOf_setTransaction]
      constructor
      · rintro hkept tx' h' rfl
        rw [honly tx' h', call.moved_txId, if_pos rfl] at hkept
        exact Option.some.inj hkept
      · intro hspares
        split_ifs with hid
        · exact congrArg some (hspares tx haccepts hid.symm)
        · exact h
    · rw [hstep]
      exact ⟨fun _ tx haccepts => absurd haccepts (hnot tx), fun _ => h⟩
  | setTransactionStatus txId status' =>
    dsimp only [statusStep, Spares]
    rw [statusOf_setTransactionStatus, h]
    by_cases hid : id = txId
    · simp [hid]
    · simp [hid, Ne.symm hid]

theorem wellKeyed_statusStep (h : WellKeyed σ) (call : StatusCall TxId Address) :
    WellKeyed (statusStep L σ call).1 := by
  cases call with
  | lifecycle call => exact wellKeyed_lifecycleStep h call
  | setTransactionStatus txId status' =>
    intro id tx hget
    dsimp only [statusStep] at hget
    rw [getTransaction_setTransactionStatus] at hget
    split_ifs at hget with hid
    · obtain ⟨tx', hget', rfl⟩ := Option.map_eq_some_iff.mp hget
      exact h id tx' hget'
    · exact h id tx hget

theorem stored_setTransactionStatus (σ : Storage TxId Address) (txId : TxId)
    (status : TransactionStatus) (id : TxId) :
    (getTransaction (setTransactionStatus σ txId status) id).isSome =
      (getTransaction σ id).isSome := by
  rw [getTransaction_setTransactionStatus]
  split_ifs
  · rw [Option.isSome_map]
  · rfl

theorem stored_statusStep (h : (getTransaction σ id).isSome) (call : StatusCall TxId Address) :
    (getTransaction (statusStep L σ call).1 id).isSome := by
  cases call with
  | lifecycle call => exact stored_lifecycleStep h call
  | setTransactionStatus txId status' =>
    dsimp only [statusStep]
    rwa [stored_setTransactionStatus]

/-- In a well-keyed store no status writer creates or deletes a record. -/
theorem stored_statusStep_iff (h : WellKeyed σ) (call : StatusCall TxId Address) (id : TxId) :
    (getTransaction (statusStep L σ call).1 id).isSome ↔ (getTransaction σ id).isSome := by
  cases call with
  | lifecycle call => exact stored_lifecycleStep_iff h call id
  | setTransactionStatus txId status' =>
    dsimp only [statusStep]
    rw [stored_setTransactionStatus]

theorem statusStep_frame (L : Limits) (σ : Storage TxId Address) (call : StatusCall TxId Address) :
    (statusStep L σ call).1.inst = σ.inst ∧
      (statusStep L σ call).1.temporary = σ.temporary ∧
      (statusStep L σ call).1.events = σ.events := by
  cases call with
  | lifecycle call => exact lifecycleStep_frame L σ call
  | setTransactionStatus txId status' =>
    dsimp only [statusStep, setTransactionStatus]
    cases getTransaction σ txId <;> exact ⟨rfl, rfl, rfl⟩

omit [DecidableEq TxId] in
/-- Where records sit under their own ids, the guard already spares every terminal status. -/
theorem spares_iff_of_wellKeyed (hσ : WellKeyed σ) (h : statusOf σ id = some status)
    (hterm : status.Terminal) (call : StatusCall TxId Address) :
    Spares L id status σ call ↔ ∀ status', call = .setTransactionStatus id status' →
      status' = status := by
  cases call with
  | lifecycle call =>
    constructor
    · intro _ status' hcall
      cases hcall
    intro _ tx haccepts hid
    have hat : tx.txId = call.txId := hσ _ _ haccepts.1
    obtain ⟨tx', hget, hstatus⟩ := Option.map_eq_some_iff.mp h
    have hsame : tx' = tx := by
      rw [← hid, hat, haccepts.1] at hget
      exact (Option.some.inj hget).symm
    rw [hsame] at hstatus
    exact absurd haccepts.2.1 (hstatus ▸ call.terminal_not_source hterm)
  | setTransactionStatus txId status' =>
    constructor
    · rintro hspares _ ⟨⟩
      exact hspares rfl
    · rintro hcall rfl
      exact hcall status' rfl

end Steps

/-- **Terminal statuses are absorbing exactly for runs that spare them.** In a
well-keyed store that means: no `set_transaction_status` call hands the
transaction a status other than the terminal one it has. -/
theorem terminal_absorbing_iff (L : Limits) (σ : Storage TxId Address) (id : TxId)
    (status : TransactionStatus) (h : statusOf σ id = some status) (hterm : status.Terminal)
    (calls : List (StatusCall TxId Address)) :
    ((∀ pre, pre <+: calls → statusOf (after (statusStep L) σ pre) id = some status) ↔
      Along (statusStep L) (Spares L id status) σ calls) ∧
    (WellKeyed σ →
      ((∀ pre, pre <+: calls → statusOf (after (statusStep L) σ pre) id = some status) ↔
        ∀ status', .setTransactionStatus id status' ∈ calls → status' = status)) := by
  have hexact := forall_prefix_iff_along (statusStep L) (Spares L id status)
    (fun τ => statusOf τ id = some status) (fun τ call hτ => statusStep_keeps_iff call hτ) h calls
  refine ⟨hexact, fun hσ => ?_⟩
  have hkeyed : ∀ pre, WellKeyed (after (statusStep L) σ pre) :=
    after_invariant (statusStep L) WellKeyed (fun _ call hτ => wellKeyed_statusStep hτ call) hσ
  -- the two conditions agree as long as the store is well-keyed and the status has held so far
  have hrun := forall_prefix_iff_along (statusStep L)
    (fun _ call => ∀ status', call = .setTransactionStatus id status' → status' = status)
    (fun τ => WellKeyed τ ∧ statusOf τ id = some status) (fun τ call hτ => by
      rw [← spares_iff_of_wellKeyed (L := L) hτ.1 hτ.2 hterm, ← statusStep_keeps_iff call hτ.2]
      exact and_iff_right (wellKeyed_statusStep hτ.1 call)) ⟨hσ, h⟩ calls
  simp only [hkeyed, true_and] at hrun
  rw [hrun, along_iff_split]
  constructor
  · intro hok status' hmem
    obtain ⟨pre, post, hcut⟩ := List.append_of_mem hmem
    exact hok pre _ post hcut status' rfl
  · rintro hok pre call post rfl status' rfl
    exact hok status' (by simp)

/-- A completed record, as the lifecycle leaves it. -/
def completedStore : Storage Nat Nat :=
  after (lifecycleStep testLimits) testStore [.startProcessing 1 7, .completeTransaction 1 7]

theorem completedStore_wellKeyed : WellKeyed completedStore :=
  after_invariant (lifecycleStep testLimits) WellKeyed
    (fun _ call h => wellKeyed_lifecycleStep h call) testStore_wellKeyed _

theorem terminal_absorbing_iff_fixture :
    statusOf (after (statusStep testLimits) completedStore
      [.lifecycle (.failTransaction 1 [] 7), .setTransactionStatus 1 .completed]) 1 =
        some .completed :=
  ((terminal_absorbing_iff testLimits completedStore 1 .completed rfl (.inl rfl) _).2
    completedStore_wellKeyed).mpr (by simp) _ (List.prefix_refl _)

theorem terminal_absorbing_counterexample :
    ¬ ∀ (σ : Storage Nat Nat) (id : Nat) (status : TransactionStatus)
        (calls : List (StatusCall Nat Nat)),
      statusOf σ id = some status → status.Terminal →
        statusOf (after (statusStep testLimits) σ calls) id = some status := by
  intro h
  have hkept := h completedStore 1 .completed [.setTransactionStatus 1 .pending] rfl (.inl rfl)
  have hwritten : statusOf (after (statusStep testLimits) completedStore
      [.setTransactionStatus 1 .pending]) 1 = some .pending := rfl
  rw [hwritten] at hkept
  cases hkept

end Synapse
