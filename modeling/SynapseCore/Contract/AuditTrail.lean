import SynapseCore.Contract.LifecycleRefinement

/-! What the lifecycle helpers leave alone. A helper reads under the id it is given
and writes under the id inside the record, so the frame rests on records sitting
under their own ids. -/

namespace Synapse
open Machine
variable {TxId Address : Type}

def getRegisteringRelay (σ : Storage TxId Address) (txId : TxId) : Option Address :=
  (getTransaction σ txId).bind Transaction.relaySigner

/-- The two records differ in status, caller and reason at most. -/
def Transaction.SameAudit (tx tx' : Transaction TxId Address) : Prop :=
  tx' = { tx with status := tx'.status, caller := tx'.caller, reason := tx'.reason }

/-- One record, or none, before and after: the same audit data, or still none. -/
def AuditKept : Option (Transaction TxId Address) → Option (Transaction TxId Address) → Prop :=
  Option.Rel Transaction.SameAudit

theorem Transaction.SameAudit.refl (tx : Transaction TxId Address) : tx.SameAudit tx := rfl

theorem Transaction.SameAudit.trans {tx tx' tx'' : Transaction TxId Address}
    (h : tx.SameAudit tx') (h' : tx'.SameAudit tx'') : tx.SameAudit tx'' := by
  unfold Transaction.SameAudit at h h' ⊢
  rw [h] at h'
  exact h'

namespace AuditKept
variable {cell cell' cell'' : Option (Transaction TxId Address)}

theorem refl (cell : Option (Transaction TxId Address)) : AuditKept cell cell := by
  cases cell with
  | none => exact .none
  | some tx => exact .some (Transaction.SameAudit.refl tx)

theorem trans (h : AuditKept cell cell') (h' : AuditKept cell' cell'') :
    AuditKept cell cell'' := by
  cases h with
  | none => exact h'
  | some hfirst =>
    cases h' with
    | some hsecond => exact .some (hfirst.trans hsecond)

theorem isSome_eq (h : AuditKept cell cell') : cell'.isSome = cell.isSome := by
  cases h <;> rfl

theorem relaySigner_eq (h : AuditKept cell cell') :
    cell'.bind Transaction.relaySigner = cell.bind Transaction.relaySigner := by
  cases h with
  | none => rfl
  | some hsame =>
    unfold Transaction.SameAudit at hsame
    rw [hsame]
    rfl

theorem sameAudit (h : AuditKept cell cell') {tx : Transaction TxId Address}
    (hcell : cell = some tx) : ∃ tx', cell' = some tx' ∧ tx.SameAudit tx' := by
  subst hcell
  cases h with
  | some hsame => exact ⟨_, rfl, hsame⟩

end AuditKept

theorem auditKept_lifecycleCell (L : Limits) (cell : Option (Transaction TxId Address))
    (call : LifecycleCall TxId Address) : AuditKept cell (lifecycleCell L cell call).1 := by
  by_cases hok : (lifecycleCell L cell call).2.isOk = true
  · obtain ⟨tx, rfl, hstep, _⟩ := lifecycleCell_ok hok
    rw [hstep]
    exact .some rfl
  · rw [lifecycleCell_not_ok hok]
    exact AuditKept.refl cell

section Store
variable [DecidableEq TxId] {L : Limits} {σ : Storage TxId Address}

theorem auditKept_after (hσ : WellKeyed σ) (calls : List (LifecycleCall TxId Address)) (id : TxId) :
    AuditKept (getTransaction σ id) (getTransaction (after (lifecycleStep L) σ calls) id) := by
  rw [getTransaction_after hσ]
  apply after_monotone (lifecycleCell L) AuditKept
  · exact AuditKept.refl
  · intro cell cell' cell'' h h'
    exact h.trans h'
  · intro cell call
    exact auditKept_lifecycleCell L cell call

/-- In a well-keyed store a call writes under the id it was given, if it writes. -/
theorem persistent_lifecycleStep (hσ : WellKeyed σ) (call : LifecycleCall TxId Address)
    {key : DataKey TxId} (hkey : key ≠ .transaction call.txId) :
    (lifecycleStep L σ call).1.persistent.get key = σ.persistent.get key := by
  rcases lifecycleStep_cases L σ call with ⟨tx, haccepts, hstep⟩ | ⟨_, e, hstep⟩
  · have hid : tx.txId = call.txId := hσ _ _ haccepts.1
    have hother : key ≠ .transaction (call.moved tx).txId := by
      rw [call.moved_txId, hid]
      exact hkey
    rw [hstep]
    exact Tier.get_set_of_ne _ hother _
  · rw [hstep]

/-- What a call may change: the record of the id it was given, and nothing else. -/
structure TouchesOnly (σ σ' : Storage TxId Address) (id : TxId) : Prop where
  persistent : ∀ key, key ≠ .transaction id → σ'.persistent.get key = σ.persistent.get key
  inst : σ'.inst = σ.inst
  temporary : σ'.temporary = σ.temporary
  events : σ'.events = σ.events

theorem touchesOnly_lifecycleStep (hσ : WellKeyed σ) (call : LifecycleCall TxId Address) :
    TouchesOnly σ (lifecycleStep L σ call).1 call.txId := by
  obtain ⟨hinst, htemporary, hevents⟩ := lifecycleStep_frame L σ call
  exact ⟨fun _ hkey => persistent_lifecycleStep hσ call hkey, hinst, htemporary, hevents⟩

end Store

/-- **Audit records are immutable apart from the transition fields**, over every run
from a well-keyed store. -/
theorem audit_records_immutable [DecidableEq TxId] (L : Limits) (σ : Storage TxId Address)
    (hσ : WellKeyed σ) (calls : List (LifecycleCall TxId Address)) :
    WellKeyed (after (lifecycleStep L) σ calls) ∧
    (∀ id, (getTransaction (after (lifecycleStep L) σ calls) id).isSome =
      (getTransaction σ id).isSome) ∧
    (∀ id tx, getTransaction σ id = some tx →
      ∃ tx', getTransaction (after (lifecycleStep L) σ calls) id = some tx' ∧ tx.SameAudit tx') ∧
    (∀ id, getRegisteringRelay (after (lifecycleStep L) σ calls) id = getRegisteringRelay σ id) ∧
    (∀ pre call post, calls = pre ++ call :: post →
      TouchesOnly (after (lifecycleStep L) σ pre)
        (lifecycleStep L (after (lifecycleStep L) σ pre) call).1 call.txId) := by
  have hkeyed : ∀ pre, WellKeyed (after (lifecycleStep L) σ pre) :=
    after_invariant (lifecycleStep L) WellKeyed (fun _ call h => wellKeyed_lifecycleStep h call) hσ
  have hkept := auditKept_after (L := L) hσ calls
  refine ⟨hkeyed calls, ?_, ?_, ?_, ?_⟩
  · intro id
    exact (hkept id).isSome_eq
  · intro id tx hget
    exact (hkept id).sameAudit hget
  · intro id
    exact (hkept id).relaySigner_eq
  · intro pre call post _
    exact touchesOnly_lifecycleStep (hkeyed pre) call

theorem audit_records_immutable_fixture :
    getRegisteringRelay (after (lifecycleStep testLimits) testStore
      [.startProcessing 1 9, .cancelTransaction 1 [0x78] 8, .failTransaction 2 [] 9]) 1 = some 7 :=
  (audit_records_immutable testLimits testStore testStore_wellKeyed _).2.2.2.1 1

end Synapse
