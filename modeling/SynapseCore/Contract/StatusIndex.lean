import SynapseCore.Contract.LifecycleRefinement

/-! The paged query over the status index, and what the index knows of the
records. Nothing in `storage.rs` writes `DataKey::StatusIndex`. -/

namespace Synapse
open Machine
variable {TxId Address : Type} [DecidableEq TxId]

def saturatingAdd (a b : Nat) : Nat := min (a + b) u32Max

def getStatusIndex (σ : Storage TxId Address) (status : TransactionStatus) : List TxId :=
  (σ.persistent.get (.statusIndex status)).getD []

/-- The `while` loop of the query, `n` iterations before `end`. -/
def pageLoop (σ : Storage TxId Address) (status : TransactionStatus) (index : List TxId) :
    Nat → Nat → List (Transaction TxId Address) → Option (List (Transaction TxId Address))
  | 0, _, page => some page
  | n + 1, i, page =>
    match index[i]? with
    | none => none -- `get_unchecked` past the end traps
    | some txId =>
      match getTransaction σ txId with
      | some tx =>
        pageLoop σ status index n (i + 1) (if tx.status = status then page ++ [tx] else page)
      | none => pageLoop σ status index n (i + 1) page

def getTransactionsByStatus (L : Limits) (σ : Storage TxId Address) (status : TransactionStatus)
    (offset limit : Nat) : Outcome Error (List (Transaction TxId Address)) :=
  if limit = 0 ∨ limit > L.maxStatusPageLimit then some (.error .invalidLimit)
  else
    let index := getStatusIndex σ status
    let total := index.length
    if offset ≥ total then some (.ok [])
    else
      let stop := min (saturatingAdd offset limit) total
      (pageLoop σ status index (stop - offset) offset []).map .ok

/-- The records returned by the pages at offsets `0, limit, …`, `n` of them; `none`
if one of the page reads does not return a page. -/
def walk (L : Limits) (σ : Storage TxId Address) (status : TransactionStatus) (limit : Nat) :
    Nat → Option (List (Transaction TxId Address))
  | 0 => some []
  | n + 1 =>
    match walk L σ status limit n, getTransactionsByStatus L σ status (n * limit) limit with
    | some front, some (.ok page) => some (front ++ page)
    | _, _ => none

/-- Walking the pages of any admissible size past the end of the index returns
the records in each status, each once. -/
def IndexAgrees (L : Limits) (σ : Storage TxId Address) : Prop :=
  ∀ status limit, 1 ≤ limit → limit ≤ L.maxStatusPageLimit →
    ∀ n, (getStatusIndex σ status).length ≤ n * limit → (∀ k < n, k * limit ≤ u32Max) →
      ∃ records, walk L σ status limit n = some records ∧ records.Nodup ∧
        ∀ tx, tx ∈ records ↔ getTransaction σ tx.txId = some tx ∧ tx.status = status

inductive IndexCall (TxId Address : Type)
  | setTransaction (tx : Transaction TxId Address)
  | lifecycle (call : LifecycleCall TxId Address)

def indexStep (L : Limits) (σ : Storage TxId Address) :
    IndexCall TxId Address →
      Storage TxId Address × Option (Except TransitionError (Transaction TxId Address))
  | .setTransaction tx => (setTransaction σ tx, none)
  | .lifecycle call => ((lifecycleStep L σ call).1, some (lifecycleStep L σ call).2)

section Steps
variable {L : Limits} {σ : Storage TxId Address}

@[simp] theorem getStatusIndex_setTransaction (σ : Storage TxId Address)
    (tx : Transaction TxId Address) (status : TransactionStatus) :
    getStatusIndex (setTransaction σ tx) status = getStatusIndex σ status := by
  simp [getStatusIndex, setTransaction]

theorem getStatusIndex_indexStep (L : Limits) (σ : Storage TxId Address)
    (call : IndexCall TxId Address) (status : TransactionStatus) :
    getStatusIndex (indexStep L σ call).1 status = getStatusIndex σ status := by
  cases call with
  | setTransaction tx => exact getStatusIndex_setTransaction σ tx status
  | lifecycle call =>
    dsimp only [indexStep]
    obtain ⟨tx, _, hstep⟩ | ⟨_, e, hstep⟩ := lifecycleStep_cases L σ call
    · rw [hstep, getStatusIndex_setTransaction]
    · rw [hstep]

theorem stored_indexStep (L : Limits) (σ : Storage TxId Address) (call : IndexCall TxId Address)
    {id : TxId} (h : (getTransaction σ id).isSome) :
    (getTransaction (indexStep L σ call).1 id).isSome := by
  cases call with
  | setTransaction tx => exact stored_setTransaction h tx
  | lifecycle call => exact stored_lifecycleStep h call

theorem wellKeyed_indexStep (h : WellKeyed σ) (call : IndexCall TxId Address) :
    WellKeyed (indexStep L σ call).1 := by
  cases call with
  | setTransaction tx => exact wellKeyed_setTransaction h tx
  | lifecycle call => exact wellKeyed_lifecycleStep h call

theorem getTransaction_lifecycleStep_none (hnone : ∀ id, getTransaction σ id = none)
    (call : LifecycleCall TxId Address) :
    ∀ id, getTransaction (lifecycleStep L σ call).1 id = none := by
  obtain ⟨tx, haccepts, _⟩ | ⟨_, e, hstep⟩ := lifecycleStep_cases L σ call
  · rw [Accepts, hnone] at haccepts
    cases haccepts.1
  · rw [hstep]
    exact hnone

end Steps

omit [DecidableEq TxId] in
theorem walk_of_index_nil {L : Limits} {σ : Storage TxId Address} {status : TransactionStatus}
    (h : getStatusIndex σ status = []) {limit : Nat} (hpos : 1 ≤ limit)
    (hmax : limit ≤ L.maxStatusPageLimit) (n : Nat) : walk L σ status limit n = some [] := by
  have hpage : ∀ offset, getTransactionsByStatus L σ status offset limit = some (.ok []) := by
    intro offset
    have hlimit : ¬ (limit = 0 ∨ limit > L.maxStatusPageLimit) := by omega
    simp [getTransactionsByStatus, if_neg hlimit, h]
  induction n with
  | zero => rfl
  | succ n ih =>
    rw [walk, ih, hpage]
    rfl

section Runs
variable {L : Limits} (calls : List (IndexCall TxId Address))

theorem getStatusIndex_after (σ : Storage TxId Address) (status : TransactionStatus) :
    getStatusIndex (after (indexStep L) σ calls) status = getStatusIndex σ status := by
  have hkept := after_invariant (indexStep L)
    (fun τ => getStatusIndex τ status = getStatusIndex σ status)
    (fun τ call hτ => (getStatusIndex_indexStep L τ call status).trans hτ) rfl
  exact hkept calls

theorem getTransaction_after_eq_none
    (h : ∀ tx, IndexCall.setTransaction tx ∉ calls) (id : TxId) :
    getTransaction (after (indexStep L) (Ledger.empty : Storage TxId Address) calls) id = none := by
  have hnone : ∀ id, getTransaction
      (after (indexStep L) (Ledger.empty : Storage TxId Address) calls) id = none := by
    apply after_invariant_of_forall (indexStep L) (fun call => ∀ tx, call ≠ .setTransaction tx)
      (fun τ => ∀ id, getTransaction τ id = none)
    · intro τ call hcall hnone
      cases call with
      | setTransaction tx => exact absurd rfl (hcall tx)
      | lifecycle call => exact getTransaction_lifecycleStep_none hnone call
    · intro call hmem tx hstore
      exact h tx (hstore ▸ hmem)
    · intro id
      rfl
  exact hnone id

theorem stored_after (σ : Storage TxId Address) {tx : Transaction TxId Address}
    (h : .setTransaction tx ∈ calls) :
    (getTransaction (after (indexStep L) σ calls) tx.txId).isSome := by
  obtain ⟨pre, post, rfl⟩ := List.append_of_mem h
  rw [after_append, after_cons]
  refine after_invariant (indexStep L) (fun τ => (getTransaction τ tx.txId).isSome)
    (fun τ call hτ => stored_indexStep L τ call hτ) ?_ post
  dsimp only [indexStep]
  rw [getTransaction_setTransaction, if_pos rfl]
  rfl

end Runs

/-- **The status index agrees with the records exactly while there are none.**
The index stays empty in every run, so the query hides every stored transaction. -/
theorem indexAgrees_iff_no_store (L : Limits) (calls : List (IndexCall TxId Address)) :
    IndexAgrees L (after (indexStep L) Ledger.empty calls) ↔
      ∀ tx, IndexCall.setTransaction tx ∉ calls := by
  have hindex : ∀ status, getStatusIndex (after (indexStep L)
      (Ledger.empty : Storage TxId Address) calls) status = [] :=
    fun status => getStatusIndex_after calls Ledger.empty status
  constructor
  · intro hagrees tx hmem
    obtain ⟨stored, hstored⟩ := Option.isSome_iff_exists.mp
      (stored_after (L := L) calls Ledger.empty hmem)
    have hkeyed : WellKeyed (after (indexStep L) (Ledger.empty : Storage TxId Address) calls) :=
      after_invariant (indexStep L) WellKeyed (fun _ call hτ => wellKeyed_indexStep hτ call)
        wellKeyed_empty calls
    -- one page of one record already misses the transaction stored by the call
    have hlimit : 1 ≤ L.maxStatusPageLimit := L.pageLimit_pos
    have hpast : (getStatusIndex (after (indexStep L) (Ledger.empty : Storage TxId Address) calls)
        stored.status).length ≤ 1 * 1 := by
      rw [hindex]
      exact Nat.zero_le _
    have hoffsets : ∀ k < 1, k * 1 ≤ u32Max := by
      intro k hk
      rw [Nat.lt_one_iff.mp hk]
      decide
    obtain ⟨records, hwalk, _, hmem⟩ := hagrees stored.status 1 le_rfl hlimit 1 hpast hoffsets
    rw [walk_of_index_nil (hindex _) le_rfl hlimit] at hwalk
    have hlisted : stored ∈ records := (hmem stored).mpr ⟨by rw [hkeyed _ _ hstored, hstored], rfl⟩
    rw [← Option.some.inj hwalk] at hlisted
    cases hlisted
  · intro hnone status limit hpos hmax n _ _
    refine ⟨[], walk_of_index_nil (hindex status) hpos hmax n, List.nodup_nil, fun tx => ?_⟩
    constructor
    · intro hmem
      cases hmem
    · rintro ⟨hget, _⟩
      rw [getTransaction_after_eq_none calls hnone] at hget
      cases hget

theorem index_agrees_counterexample :
    ¬ IndexAgrees testLimits (after (indexStep testLimits) (Ledger.empty : Storage Nat Nat)
      [.setTransaction testTransaction]) := by
  intro h
  obtain ⟨records, hwalk, _, hmem⟩ :=
    h .pending 10 (by decide) (by decide) 1 (by decide) (by decide)
  have hlisted : testTransaction ∈ records := (hmem testTransaction).mpr ⟨rfl, rfl⟩
  have hempty : walk testLimits (after (indexStep testLimits) (Ledger.empty : Storage Nat Nat)
      [.setTransaction testTransaction]) .pending 10 1 = some [] := rfl
  rw [hempty] at hwalk
  rw [← Option.some.inj hwalk] at hlisted
  cases hlisted

end Synapse
