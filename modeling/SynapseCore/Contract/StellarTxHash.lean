import SynapseCore.Contract.TerminalStatuses

/-! The settlement hash of a record. `set_stellar_tx_hash` is documented as the hook of
`complete_transaction` but looks at no status, so what fixes the hash is the order in
which it is called. `put_transaction` is read as the keyed write. -/

namespace Synapse
open Machine
variable {TxId Address : Type}

/-- No record has a hash unless it is `Completed`. -/
def NoEarlyHash (σ : Storage TxId Address) : Prop :=
  ∀ id tx, getTransaction σ id = some tx → tx.status ≠ .completed → tx.stellarTxHash = none

def stellarHash (σ : Storage TxId Address) (id : TxId) : Option Hash :=
  (getTransaction σ id).bind Transaction.stellarTxHash

/-- The record under `id` is `Completed` and has the hash `h`. -/
def Settled (σ : Storage TxId Address) (id : TxId) (h : Hash) : Prop :=
  ∃ tx, getTransaction σ id = some tx ∧ tx.status = .completed ∧ tx.stellarTxHash = some h

inductive HashCall (TxId Address : Type)
  | lifecycle (call : LifecycleCall TxId Address)
  | setStellarTxHash (txId : TxId) (stellarTxHash : Hash)

variable [DecidableEq TxId]

def setStellarTxHash (σ : Storage TxId Address) (txId : TxId) (stellarTxHash : Hash) :
    Storage TxId Address × Option Unit :=
  match getTransaction σ txId with
  | none => (σ, none) -- `panic!("transaction not found")`
  | some tx => (setTransaction σ { tx with stellarTxHash := some stellarTxHash }, some ())

def hashStep (L : Limits) (σ : Storage TxId Address) :
    HashCall TxId Address →
      Storage TxId Address × (Except TransitionError (Transaction TxId Address) ⊕ Option Unit)
  | .lifecycle call => ((lifecycleStep L σ call).1, .inl (lifecycleStep L σ call).2)
  | .setStellarTxHash txId h => ((setStellarTxHash σ txId h).1, .inr (setStellarTxHash σ txId h).2)

/-- Over the whole run no hash appears before completion, and a settled hash stays. -/
def HashFixed (L : Limits) (σ : Storage TxId Address) (calls : List (HashCall TxId Address)) :
    Prop :=
  (∀ pre, pre <+: calls → NoEarlyHash (after (hashStep L) σ pre)) ∧
  (∀ pre later, pre ++ later <+: calls → ∀ id h, Settled (after (hashStep L) σ pre) id h →
    stellarHash (after (hashStep L) σ (pre ++ later)) id = some h)

/-- The call writes no hash over a record that is not `Completed`, and no record
over a settled hash other than its own. -/
def WritesHashInTime (L : Limits) (σ : Storage TxId Address) : HashCall TxId Address → Prop
  | .lifecycle call => ∀ tx, Accepts L σ call tx → ∀ h, ¬ Settled σ tx.txId h
  | .setStellarTxHash txId hash => ∀ tx, getTransaction σ txId = some tx →
      tx.status = .completed ∧ ∀ h, Settled σ tx.txId h → h = hash

/-- A hash is only set on a `Completed` record that has none, or has the same. -/
def SetsHashOnCompleted (σ : Storage TxId Address) : HashCall TxId Address → Prop
  | .lifecycle _ => True
  | .setStellarTxHash txId hash => ∀ tx, getTransaction σ txId = some tx →
      tx.status = .completed ∧ ∀ h ∈ tx.stellarTxHash, h = hash

section Steps
variable {L : Limits} {σ : Storage TxId Address}

omit [DecidableEq TxId] in
theorem Settled.stellarHash_eq {id : TxId} {h : Hash} (hs : Settled σ id h) :
    stellarHash σ id = some h := by
  obtain ⟨tx, hget, _, hhash⟩ := hs
  rw [stellarHash, hget]
  exact hhash

omit [DecidableEq TxId] in
theorem settled_of_stellarHash (hσ : NoEarlyHash σ) {id : TxId} {h : Hash}
    (hhash : stellarHash σ id = some h) : Settled σ id h := by
  obtain ⟨tx, hget, htx⟩ := Option.bind_eq_some_iff.mp hhash
  refine ⟨tx, hget, ?_, htx⟩
  by_contra hstatus
  rw [hσ id tx hget hstatus] at htx
  cases htx

omit [DecidableEq TxId] in
theorem settled_iff {id : TxId} {tx : Transaction TxId Address}
    (hget : getTransaction σ id = some tx) (h : Hash) :
    Settled σ id h ↔ tx.status = .completed ∧ tx.stellarTxHash = some h := by
  constructor
  · rintro ⟨tx', hget', hstatus, hhash⟩
    obtain rfl : tx = tx' := Option.some.inj (hget.symm.trans hget')
    exact ⟨hstatus, hhash⟩
  · rintro ⟨hstatus, hhash⟩
    exact ⟨tx, hget, hstatus, hhash⟩

/-- One step keeps both halves of the property. -/
def KeepsHash (σ σ' : Storage TxId Address) : Prop :=
  NoEarlyHash σ' ∧ ∀ id h, Settled σ id h → Settled σ' id h

theorem keepsHash_setTransaction_iff (hσ : NoEarlyHash σ) (tx : Transaction TxId Address) :
    KeepsHash σ (setTransaction σ tx) ↔
      (tx.status ≠ .completed → tx.stellarTxHash = none) ∧
      ∀ h, Settled σ tx.txId h → tx.status = .completed ∧ tx.stellarTxHash = some h := by
  have hwritten : getTransaction (setTransaction σ tx) tx.txId = some tx := by
    rw [getTransaction_setTransaction, if_pos rfl]
  constructor
  · rintro ⟨hearly, hkept⟩
    refine ⟨hearly tx.txId tx hwritten, fun h hsettled => ?_⟩
    exact (settled_iff hwritten h).mp (hkept tx.txId h hsettled)
  · rintro ⟨hearly, hkept⟩
    constructor
    · intro id tx' hget
      rw [getTransaction_setTransaction] at hget
      split_ifs at hget with hid
      · rw [← Option.some.inj hget]
        exact hearly
      · exact hσ id tx' hget
    · intro id h hsettled
      by_cases hid : id = tx.txId
      · subst hid
        exact (settled_iff hwritten h).mpr (hkept h hsettled)
      · obtain ⟨tx', hget, hrest⟩ := hsettled
        refine ⟨tx', ?_, hrest⟩
        rw [getTransaction_setTransaction, if_neg hid, hget]

omit [DecidableEq TxId] in
theorem keepsHash_refl (hσ : NoEarlyHash σ) : KeepsHash σ σ := ⟨hσ, fun _ _ h => h⟩

theorem keepsHash_hashStep_iff (hσ : NoEarlyHash σ) (call : HashCall TxId Address) :
    KeepsHash σ (hashStep L σ call).1 ↔ WritesHashInTime L σ call := by
  cases call with
  | lifecycle call =>
    dsimp only [hashStep, WritesHashInTime]
    rcases lifecycleStep_cases L σ call with ⟨tx, haccepts, hstep⟩ | ⟨hnot, e, hstep⟩
    · -- `Completed` is no source, so the record that moves has no hash yet
      have hopen : tx.status ≠ .completed := by
        intro hstatus
        exact call.terminal_not_source (Or.inl hstatus) haccepts.2.1
      have hnone : tx.stellarTxHash = none := hσ _ _ haccepts.1 hopen
      have hmoved : (call.moved tx).stellarTxHash = none := hnone
      have honly : ∀ tx', Accepts L σ call tx' → tx' = tx := fun tx' h' =>
        Option.some.inj (h'.1.symm.trans haccepts.1)
      rw [hstep, keepsHash_setTransaction_iff hσ, hmoved, call.moved_txId]
      constructor
      · rintro ⟨_, hover⟩ tx' h' h hsettled
        rw [honly tx' h'] at hsettled
        cases (hover h hsettled).2
      · intro hfree
        exact ⟨fun _ => rfl, fun h hsettled => absurd hsettled (hfree tx haccepts h)⟩
    · rw [hstep]
      exact iff_of_true (keepsHash_refl hσ) fun tx haccepts => absurd haccepts (hnot tx)
  | setStellarTxHash txId hash =>
    dsimp only [hashStep, WritesHashInTime, setStellarTxHash]
    cases hget : getTransaction σ txId with
    | none =>
      refine iff_of_true (keepsHash_refl hσ) fun tx hsome => ?_
      cases hsome
    | some tx =>
      dsimp only
      rw [keepsHash_setTransaction_iff hσ]
      constructor
      · rintro ⟨hearly, hover⟩ tx' hsome
        obtain rfl := Option.some.inj hsome
        refine ⟨?_, fun h hsettled => ?_⟩
        · by_contra hstatus
          cases hearly hstatus
        · exact (Option.some.inj (hover h hsettled).2).symm
      · intro hall
        obtain ⟨hstatus, hsame⟩ := hall tx rfl
        refine ⟨fun hopen => absurd hstatus hopen, fun h hsettled => ⟨hstatus, ?_⟩⟩
        exact congrArg some (hsame h hsettled).symm

omit [DecidableEq TxId] in
theorem writesHashInTime_iff_of_wellKeyed (hσ : WellKeyed σ) (call : HashCall TxId Address) :
    WritesHashInTime L σ call ↔ SetsHashOnCompleted σ call := by
  cases call with
  | lifecycle call =>
    refine iff_of_true (fun tx haccepts h hsettled => ?_) trivial
    rw [hσ _ _ haccepts.1, settled_iff haccepts.1] at hsettled
    exact call.terminal_not_source (Or.inl hsettled.1) haccepts.2.1
  | setStellarTxHash txId hash =>
    refine forall₂_congr fun tx hget => and_congr_right fun hstatus => forall_congr' fun h => ?_
    rw [hσ _ _ hget, settled_iff hget, and_iff_right hstatus]
    rfl

theorem wellKeyed_hashStep (hσ : WellKeyed σ) (call : HashCall TxId Address) :
    WellKeyed (hashStep L σ call).1 := by
  cases call with
  | lifecycle call => exact wellKeyed_lifecycleStep hσ call
  | setStellarTxHash txId hash =>
    dsimp only [hashStep, setStellarTxHash]
    cases getTransaction σ txId with
    | none => exact hσ
    | some tx => exact wellKeyed_setTransaction hσ _

end Steps

section Runs
variable {L : Limits} {σ : Storage TxId Address} {calls : List (HashCall TxId Address)}

theorem hashFixed_iff_along (hσ : NoEarlyHash σ) :
    HashFixed L σ calls ↔ Along (hashStep L) (fun τ call => KeepsHash τ (hashStep L τ call).1)
      σ calls := by
  constructor
  · rintro ⟨hearly, hkept⟩
    rw [along_iff_split]
    rintro pre call post rfl
    have hcut : pre ++ [call] <+: pre ++ call :: post := ⟨post, by simp⟩
    have hnext := hearly (pre ++ [call]) hcut
    rw [after_concat] at hnext
    refine ⟨hnext, fun id h hsettled => ?_⟩
    have hhash := hkept pre [call] hcut id h hsettled
    rw [after_concat] at hhash
    exact settled_of_stellarHash hnext hhash
  · intro halong
    constructor
    · rintro pre ⟨post, rfl⟩
      exact after_invariant_along (hashStep L) _ NoEarlyHash (fun τ call hkeeps _ => hkeeps.1)
        ((along_append (hashStep L) σ pre post).mp halong).1 hσ
    · rintro pre later ⟨post, rfl⟩ id h hsettled
      have hlater := ((along_append (hashStep L) σ _ post).mp halong).1
      rw [along_append] at hlater
      have hstays := after_invariant_along (hashStep L) _ (fun τ => Settled τ id h)
        (fun τ call hkeeps hτ => hkeeps.2 id h hτ) hlater.2 hsettled
      rw [after_append]
      exact hstays.stellarHash_eq

/-- **The settlement hash appears on completion and is then fixed exactly in the runs
that write it in time.** In a well-keyed store these are the runs that set a hash only
on a `Completed` record with no other hash. -/
theorem stellar_hash_fixed_iff (L : Limits) (σ : Storage TxId Address)
    (hσ : ∀ id tx, getTransaction σ id = some tx →
      tx.status = .pending ∧ tx.stellarTxHash = none)
    (calls : List (HashCall TxId Address)) :
    (HashFixed L σ calls ↔ Along (hashStep L) (WritesHashInTime L) σ calls) ∧
    (WellKeyed σ →
      (HashFixed L σ calls ↔ Along (hashStep L) SetsHashOnCompleted σ calls)) := by
  have hearly : NoEarlyHash σ := fun id tx hget _ => (hσ id tx hget).2
  have hexact : HashFixed L σ calls ↔ Along (hashStep L) (WritesHashInTime L) σ calls := by
    rw [hashFixed_iff_along hearly]
    apply along_congr_of_kept (hashStep L) _ _ NoEarlyHash
    · intro τ call hkeeps _
      exact hkeeps.1
    · intro τ call hτ
      exact keepsHash_hashStep_iff hτ call
    · exact hearly
  refine ⟨hexact, fun hkeyed => ?_⟩
  rw [hexact]
  apply along_congr_of_invariant (hashStep L) _ _ WellKeyed
  · intro τ call hτ
    exact wellKeyed_hashStep hτ call
  · intro τ call hτ
    exact writesHashInTime_iff_of_wellKeyed hτ call
  · exact hkeyed

end Runs

def testHash : Hash := Vector.replicate 32 7

theorem stellar_hash_fixed_iff_fixture :
    HashFixed testLimits testStore [.lifecycle (.startProcessing 1 7),
      .lifecycle (.completeTransaction 1 7), .setStellarTxHash 1 testHash] := by
  have hstart : ∀ id tx, getTransaction testStore id = some tx →
      tx.status = .pending ∧ tx.stellarTxHash = none := by
    intro id tx hget
    rw [eq_testTransaction hget]
    exact ⟨rfl, rfl⟩
  apply ((stellar_hash_fixed_iff testLimits testStore hstart _).2 testStore_wellKeyed).mpr
  refine ⟨trivial, trivial, fun tx hget => ?_, trivial⟩
  rw [← Option.some.inj hget]
  refine ⟨rfl, fun h hsome => ?_⟩
  cases hsome

theorem stellar_hash_fixed_counterexample :
    ¬ ∀ calls : List (HashCall Nat Nat), HashFixed testLimits testStore calls := by
  intro h
  -- the hash is set on a record that is still pending
  have hearly := (h [.setStellarTxHash 1 testHash]).1 _ (List.prefix_refl _)
  have hnone := hearly 1 { testTransaction with stellarTxHash := some testHash } rfl
    TransactionStatus.noConfusion
  cases hnone

end Synapse
