import SynapseCore.Contract.TerminalStatuses
import SynapseCore.Contract.TransactionTags

/-! Requests on different transactions do not see each other. All the entries a request
reads or writes belong to one id, so the store is a family of cells, one for each id, and
a run is settled cell by cell. -/

namespace Synapse
open Machine
variable {TxId Address : Type}

inductive RequestCall (TxId Address : Type)
  | status (call : StatusCall TxId Address)
  | addTransactionTag (txId : TxId) (tag : Str)

def StatusCall.txId : StatusCall TxId Address → TxId
  | .lifecycle call => call.txId
  | .setTransactionStatus txId _ => txId

def RequestCall.txId : RequestCall TxId Address → TxId
  | .status call => call.txId
  | .addTransactionTag txId _ => txId

/-- The answer of a request: a lifecycle result, or nothing from the two other helpers. -/
abbrev RequestAnswer (TxId Address : Type) :=
  Option (Except TransitionError (Transaction TxId Address))

def requestStep [DecidableEq TxId] (L : Limits) (σ : Storage TxId Address) :
    RequestCall TxId Address → Storage TxId Address × RequestAnswer TxId Address
  | .status call => statusStep L σ call
  | .addTransactionTag txId tag => (addTransactionTag σ txId tag, none)

/-! ## The cell of one id -/

/-- What the store holds for one id: its record and its tags, where there are any. -/
abbrev RequestCell (TxId Address : Type) := Option (Transaction TxId Address) × Option (List Str)

def requestCell (L : Limits) (cell : RequestCell TxId Address) :
    RequestCall TxId Address → RequestCell TxId Address × RequestAnswer TxId Address
  | .status (.lifecycle call) =>
    (((lifecycleCell L cell.1 call).1, cell.2), some (lifecycleCell L cell.1 call).2)
  | .status (.setTransactionStatus _ status) =>
    ((cell.1.map fun tx => { tx with status := status }, cell.2), none)
  | .addTransactionTag _ tag => ((cell.1, some (cell.2.getD [] ++ [tag])), none)

def cellOf (σ : Storage TxId Address) (id : TxId) : RequestCell TxId Address :=
  (getTransaction σ id, σ.persistent.get (.transactionTags id))

/-- The entries no request touches. -/
structure SameElsewhere (σ σ' : Storage TxId Address) : Prop where
  persistent : ∀ key, (∀ id, key ≠ .transaction id) → (∀ id, key ≠ .transactionTags id) →
    σ'.persistent.get key = σ.persistent.get key
  inst : σ'.inst = σ.inst
  temporary : σ'.temporary = σ.temporary
  events : σ'.events = σ.events

theorem SameElsewhere.refl (σ : Storage TxId Address) : SameElsewhere σ σ :=
  ⟨fun _ _ _ => rfl, rfl, rfl, rfl⟩

theorem SameElsewhere.trans {σ σ' σ'' : Storage TxId Address} (h : SameElsewhere σ σ')
    (h' : SameElsewhere σ' σ'') : SameElsewhere σ σ'' where
  persistent := by
    intro key htx htags
    exact (h'.persistent key htx htags).trans (h.persistent key htx htags)
  inst := h'.inst.trans h.inst
  temporary := h'.temporary.trans h.temporary
  events := h'.events.trans h.events

theorem eq_of_cells {σ τ τ' : Storage TxId Address} (h : SameElsewhere σ τ)
    (h' : SameElsewhere σ τ') (hcells : cellOf τ = cellOf τ') : τ = τ' := by
  have hpersistent : τ.persistent = τ'.persistent := by
    funext key
    change τ.persistent.get key = τ'.persistent.get key
    by_cases htx : ∃ id, key = .transaction id
    · obtain ⟨id, rfl⟩ := htx
      exact (Prod.ext_iff.mp (congrFun hcells id)).1
    by_cases htags : ∃ id, key = .transactionTags id
    · obtain ⟨id, rfl⟩ := htags
      exact (Prod.ext_iff.mp (congrFun hcells id)).2
    have hother := h.persistent key (not_exists.mp htx) (not_exists.mp htags)
    have hother' := h'.persistent key (not_exists.mp htx) (not_exists.mp htags)
    exact hother.trans hother'.symm
  have hinst : τ.inst = τ'.inst := h.inst.trans h'.inst.symm
  have htemporary : τ.temporary = τ'.temporary := h.temporary.trans h'.temporary.symm
  have hevents : τ.events = τ'.events := h.events.trans h'.events.symm
  exact Ledger.ext hinst hpersistent htemporary hevents

/-! ## Steps -/

section Steps
variable [DecidableEq TxId] {L : Limits} {σ : Storage TxId Address}

theorem persistent_statusStep (call : StatusCall TxId Address) {key : DataKey TxId}
    (hkey : ∀ id, key ≠ .transaction id) :
    (statusStep L σ call).1.persistent.get key = σ.persistent.get key := by
  cases call with
  | lifecycle call =>
    dsimp only [statusStep]
    rcases lifecycleStep_cases L σ call with ⟨tx, _, hstep⟩ | ⟨_, e, hstep⟩
    · rw [hstep]
      exact Tier.get_set_of_ne _ (hkey _) _
    · rw [hstep]
  | setTransactionStatus txId status =>
    dsimp only [statusStep, setTransactionStatus]
    cases getTransaction σ txId with
    | none => rfl
    | some tx => exact Tier.get_set_of_ne _ (hkey _) _

theorem tags_statusStep (call : StatusCall TxId Address) (id : TxId) :
    (statusStep L σ call).1.persistent.get (.transactionTags id) =
      σ.persistent.get (.transactionTags id) := by
  apply persistent_statusStep
  intro id' heq
  cases heq

theorem sameElsewhere_requestStep (call : RequestCall TxId Address) :
    SameElsewhere σ (requestStep L σ call).1 := by
  cases call with
  | status call =>
    obtain ⟨hinst, htemporary, hevents⟩ := statusStep_frame L σ call
    exact ⟨fun _ htx _ => persistent_statusStep call htx, hinst, htemporary, hevents⟩
  | addTransactionTag txId tag =>
    exact ⟨fun _ _ htags => Tier.get_set_of_ne _ (htags txId) _, rfl, rfl, rfl⟩

theorem getTransaction_addTransactionTag (σ : Storage TxId Address) (txId : TxId) (tag : Str) :
    getTransaction (addTransactionTag σ txId tag) = getTransaction σ := by
  funext id
  have hother : (DataKey.transaction id) ≠ .transactionTags txId := by
    intro heq
    cases heq
  exact Tier.get_set_of_ne _ hother _

theorem wellKeyed_requestStep (hσ : WellKeyed σ) (call : RequestCall TxId Address) :
    WellKeyed (requestStep L σ call).1 := by
  cases call with
  | status call => exact wellKeyed_statusStep hσ call
  | addTransactionTag txId tag =>
    dsimp only [requestStep]
    unfold WellKeyed
    rw [getTransaction_addTransactionTag]
    exact hσ

theorem requestStep_answer (call : RequestCall TxId Address) :
    (requestStep L σ call).2 = (requestCell L (cellOf σ call.txId) call).2 := by
  cases call with
  | status call =>
    cases call with
    | lifecycle call => exact congrArg some (lifecycleStep_answer L σ call)
    | setTransactionStatus txId status => rfl
  | addTransactionTag txId tag => rfl

theorem getTransaction_statusStep_self (hσ : WellKeyed σ) (call : StatusCall TxId Address) :
    getTransaction (statusStep L σ call).1 call.txId =
      (requestCell L (cellOf σ call.txId) (.status call)).1.1 := by
  cases call with
  | lifecycle call =>
    have hstep := getTransaction_lifecycleStep (L := L) hσ call
    exact (congrFun hstep call.txId).trans
      (keyed_apply_self LifecycleCall.txId (lifecycleCell L) (getTransaction σ) call)
  | setTransactionStatus txId status =>
    exact (getTransaction_setTransactionStatus σ txId status txId).trans (if_pos rfl)

theorem getTransaction_statusStep_of_ne (hσ : WellKeyed σ) {call : StatusCall TxId Address}
    {id : TxId} (h : call.txId ≠ id) :
    getTransaction (statusStep L σ call).1 id = getTransaction σ id := by
  cases call with
  | lifecycle call =>
    have hstep := getTransaction_lifecycleStep (L := L) hσ call
    exact (congrFun hstep id).trans
      (keyed_apply_of_ne LifecycleCall.txId (lifecycleCell L) (getTransaction σ) h)
  | setTransactionStatus txId status =>
    exact (getTransaction_setTransactionStatus σ txId status id).trans (if_neg (Ne.symm h))

theorem cellOf_requestStep (hσ : WellKeyed σ) (call : RequestCall TxId Address) :
    cellOf (requestStep L σ call).1 =
      (keyed RequestCall.txId (requestCell L) (cellOf σ) call).1 := by
  funext id
  by_cases hid : call.txId = id
  · subst hid
    rw [keyed_apply_self]
    cases call with
    | status call =>
      apply Prod.ext
      · exact getTransaction_statusStep_self hσ call
      · refine (tags_statusStep call call.txId).trans ?_
        cases call <;> rfl
    | addTransactionTag txId tag =>
      apply Prod.ext
      · exact congrFun (getTransaction_addTransactionTag σ txId tag) txId
      · exact Tier.get_set_self ..
  · rw [keyed_apply_of_ne RequestCall.txId (requestCell L) _ hid]
    cases call with
    | status call =>
      exact Prod.ext (getTransaction_statusStep_of_ne hσ hid) (tags_statusStep call id)
    | addTransactionTag txId tag =>
      have hother : (DataKey.transactionTags id) ≠ .transactionTags txId := by
        intro heq
        exact hid (DataKey.transactionTags.inj heq).symm
      apply Prod.ext
      · exact congrFun (getTransaction_addTransactionTag σ txId tag) id
      · exact Tier.get_set_of_ne _ hother _

end Steps

/-! ## Runs -/

section Runs
variable [DecidableEq TxId] {L : Limits} {σ : Storage TxId Address}

def HasCells (σ : Storage TxId Address) (m : TxId → RequestCell TxId Address) : Prop :=
  WellKeyed σ ∧ cellOf σ = m

theorem hasCells_step (σ : Storage TxId Address) (m : TxId → RequestCell TxId Address)
    (call : RequestCall TxId Address) (h : HasCells σ m) :
    HasCells (requestStep L σ call).1 (keyed RequestCall.txId (requestCell L) m call).1 := by
  obtain ⟨hkeyed, rfl⟩ := h
  exact ⟨wellKeyed_requestStep hkeyed call, cellOf_requestStep hkeyed call⟩

theorem hasCells_answer (σ : Storage TxId Address) (m : TxId → RequestCell TxId Address)
    (call : RequestCall TxId Address) (h : HasCells σ m) :
    (requestStep L σ call).2 = (keyed RequestCall.txId (requestCell L) m call).2 := by
  obtain ⟨_, rfl⟩ := h
  exact requestStep_answer call

theorem cellOf_after (hσ : WellKeyed σ) (calls : List (RequestCall TxId Address)) :
    cellOf (after (requestStep L) σ calls) =
      after (keyed RequestCall.txId (requestCell L)) (cellOf σ) calls := by
  have hstart : HasCells σ (cellOf σ) := ⟨hσ, rfl⟩
  exact (after_simulates (hasCells_step (L := L)) hstart calls).2

theorem transcript_requests_addressed (hσ : WellKeyed σ) (calls : List (RequestCall TxId Address))
    (id : TxId) :
    (transcript (requestStep L) σ calls).filter (fun entry => entry.1.txId = id) =
      transcript (requestCell L) (cellOf σ id) (addressed RequestCall.txId id calls) := by
  have hstart : HasCells σ (cellOf σ) := ⟨hσ, rfl⟩
  rw [transcript_simulates (hasCells_step (L := L)) hasCells_answer hstart calls,
    transcript_keyed_filter]

theorem sameElsewhere_after (calls : List (RequestCall TxId Address)) :
    SameElsewhere σ (after (requestStep L) σ calls) := by
  apply after_monotone (requestStep L) SameElsewhere
  · exact SameElsewhere.refl
  · intro τ τ' τ'' h h'
    exact h.trans h'
  · intro τ call
    exact sameElsewhere_requestStep call

/-- **Requests on different transactions are independent of order.** What a run leaves at
an id, and what it answers there, depends on the calls addressed to the id alone; so two
interleavings of the same requests for each id end in one store. -/
theorem requests_order_independent (L : Limits) (σ : Storage TxId Address) (hσ : WellKeyed σ)
    (calls calls' : List (RequestCall TxId Address)) :
    (∀ id, addressed RequestCall.txId id calls = addressed RequestCall.txId id calls' →
      cellOf (after (requestStep L) σ calls) id = cellOf (after (requestStep L) σ calls') id ∧
      (transcript (requestStep L) σ calls).filter (fun entry => entry.1.txId = id) =
        (transcript (requestStep L) σ calls').filter (fun entry => entry.1.txId = id)) ∧
    ((∀ id, addressed RequestCall.txId id calls = addressed RequestCall.txId id calls') →
      after (requestStep L) σ calls = after (requestStep L) σ calls') := by
  constructor
  · intro id hsame
    rw [cellOf_after hσ, cellOf_after hσ, after_keyed_apply, after_keyed_apply,
      transcript_requests_addressed hσ, transcript_requests_addressed hσ, hsame]
    exact ⟨rfl, rfl⟩
  · intro hsame
    have hcells : cellOf (after (requestStep L) σ calls) =
        cellOf (after (requestStep L) σ calls') := by
      rw [cellOf_after hσ, cellOf_after hσ]
      exact after_keyed_eq_of_addressed RequestCall.txId (requestCell L) _ hsame
    exact eq_of_cells (sameElsewhere_after calls) (sameElsewhere_after calls') hcells

theorem requests_order_independent_fixture :
    after (requestStep testLimits) testStore
        [.status (.lifecycle (.startProcessing 1 7)), .addTransactionTag 2 [0x78]] =
      after (requestStep testLimits) testStore
        [.addTransactionTag 2 [0x78], .status (.lifecycle (.startProcessing 1 7))] := by
  apply (requests_order_independent testLimits testStore testStore_wellKeyed _ _).2
  intro id
  by_cases hid : id = 1
  · subst hid
    rfl
  · have hone : RequestCall.txId (.status (.lifecycle (.startProcessing 1 7)) :
        RequestCall Nat Nat) ≠ id := Ne.symm hid
    by_cases htwo : id = 2
    · subst htwo
      rfl
    · have hother : RequestCall.txId (.addTransactionTag 2 [0x78] : RequestCall Nat Nat) ≠ id :=
        Ne.symm htwo
      rw [addressed_cons_of_ne RequestCall.txId hone, addressed_cons_of_ne RequestCall.txId hother,
        addressed_cons_of_ne RequestCall.txId hother, addressed_cons_of_ne RequestCall.txId hone]

end Runs

end Synapse
