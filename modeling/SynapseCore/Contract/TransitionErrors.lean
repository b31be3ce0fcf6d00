import SynapseCore.Contract.LifecycleRefinement

/-! What the errors of the lifecycle helpers say about their cause. The length check
of a reason runs in front of the shared guard and borrows `InvalidSource`. -/

namespace Synapse
variable {TxId Address : Type}

/-- The call is refused for the status of the record it addresses. -/
def RefusedByStatus (σ : Storage TxId Address) (call : LifecycleCall TxId Address) : Prop :=
  ∃ tx, getTransaction σ call.txId = some tx ∧ tx.status ∉ call.sources

/-- `NotFound` exactly for a missing record, `InvalidSource` only for a status that is
not a source of the operation. -/
def NamesTrueCause [DecidableEq TxId] (L : Limits) (σ : Storage TxId Address)
    (call : LifecycleCall TxId Address) : Prop :=
  ((lifecycleStep L σ call).2 = .error .notFound ↔ getTransaction σ call.txId = none) ∧
  ((lifecycleStep L σ call).2 = .error .invalidSource → RefusedByStatus σ call)

variable [DecidableEq TxId] {L : Limits} {σ : Storage TxId Address}
  {call : LifecycleCall TxId Address}

theorem lifecycleStep_overlong (h : ¬ call.ReasonFits L) :
    (lifecycleStep L σ call).2 = .error .invalidSource := by
  rw [lifecycleStep_answer, lifecycleCell_overlong h]

theorem namesTrueCause_of_fits (h : call.ReasonFits L) : NamesTrueCause L σ call := by
  unfold NamesTrueCause RefusedByStatus
  rw [lifecycleStep_answer]
  cases hget : getTransaction σ call.txId with
  | none =>
    rw [lifecycleCell_none h]
    refine ⟨⟨fun _ => rfl, fun _ => rfl⟩, fun hother => ?_⟩
    cases hother
  | some tx =>
    have hfound : some tx ≠ none := Option.some_ne_none tx
    by_cases hsource : tx.status ∈ call.sources
    · rw [lifecycleCell_moves h hsource]
      constructor
      · refine iff_of_false (fun himpossible => ?_) hfound
        cases himpossible
      · intro himpossible
        cases himpossible
    · rw [lifecycleCell_stays h hsource]
      constructor
      · refine iff_of_false (fun himpossible => ?_) hfound
        cases himpossible
      · intro _
        exact ⟨tx, rfl, hsource⟩

theorem namesTrueCause_of_overlong (h : ¬ call.ReasonFits L) :
    NamesTrueCause L σ call ↔ RefusedByStatus σ call := by
  have hanswer := lifecycleStep_overlong (σ := σ) h
  constructor
  · intro hcause
    exact hcause.2 hanswer
  · rintro ⟨tx, hget, hsource⟩
    refine ⟨?_, fun _ => ⟨tx, hget, hsource⟩⟩
    rw [hanswer, hget]
    refine iff_of_false (fun himpossible => ?_) (Option.some_ne_none tx)
    cases himpossible

/-- **Transition errors name the true cause exactly where no over-long reason hides
it**: the reason fits, or the status alone would have refused the call. -/
theorem transition_errors_iff (L : Limits) (σ : Storage TxId Address)
    (call : LifecycleCall TxId Address) :
    NamesTrueCause L σ call ↔ call.ReasonFits L ∨ RefusedByStatus σ call := by
  by_cases hfits : call.ReasonFits L
  · have hcause := namesTrueCause_of_fits (σ := σ) hfits
    exact iff_of_true hcause (Or.inl hfits)
  · rw [namesTrueCause_of_overlong hfits]
    exact (or_iff_right hfits).symm

theorem transition_errors_counterexample :
    ¬ ∀ (σ : Storage Nat Nat) (call : LifecycleCall Nat Nat),
      NamesTrueCause testLimits σ call := by
  intro h
  -- an over-long reason for a transaction that does not exist
  have hcause := h testStore (.cancelTransaction 2 (List.replicate 65 0x78) 7)
  have hmissing := hcause.1.mpr rfl
  cases hmissing

end Synapse
