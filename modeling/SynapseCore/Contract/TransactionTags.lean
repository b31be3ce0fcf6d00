import SynapseCore.Contract.TransactionRecords

/-! The tags of a transaction. The bound on their number is documented as enforced by
`add_transaction_tag`, whose own comment leaves it to its callers. -/

namespace Synapse
open Machine
variable {TxId Address : Type} [DecidableEq TxId]

def maxTagsPerTransaction : Nat := 10

def getTransactionTags (σ : Storage TxId Address) (txId : TxId) : List Str :=
  (σ.persistent.get (.transactionTags txId)).getD []

def addTransactionTag (σ : Storage TxId Address) (txId : TxId) (tag : Str) :
    Storage TxId Address :=
  σ.setPersistent (.transactionTags txId) (getTransactionTags σ txId ++ [tag])

def transactionTagCount (σ : Storage TxId Address) (txId : TxId) : Nat :=
  (getTransactionTags σ txId).length

structure TagCall (TxId : Type) where
  txId : TxId
  tag : Str

/-- The helper returns nothing and refuses nothing. -/
def tagStep (σ : Storage TxId Address) (call : TagCall TxId) : Storage TxId Address × Unit :=
  (addTransactionTag σ call.txId call.tag, ())

theorem getTransactionTags_addTransactionTag (σ : Storage TxId Address) (txId : TxId) (tag : Str)
    (id : TxId) :
    getTransactionTags (addTransactionTag σ txId tag) id =
      if id = txId then getTransactionTags σ id ++ [tag] else getTransactionTags σ id := by
  unfold getTransactionTags addTransactionTag
  split_ifs with hid
  · subst hid
    rw [Ledger.setPersistent_persistent, Tier.get_set_self, Option.getD_some, getTransactionTags]
  · have hother : (DataKey.transactionTags id) ≠ .transactionTags txId := by
      simpa using hid
    rw [Ledger.setPersistent_persistent, Tier.get_set_of_ne _ hother]

/-- A run appends to the tags of each transaction those it is given, in order. -/
theorem getTransactionTags_after (σ : Storage TxId Address) (calls : List (TagCall TxId))
    (id : TxId) :
    getTransactionTags (after tagStep σ calls) id =
      getTransactionTags σ id ++ (addressed TagCall.txId id calls).map TagCall.tag := by
  induction calls generalizing σ with
  | nil => simp
  | cons call calls ih =>
    rw [after_cons, ih, tagStep, getTransactionTags_addTransactionTag]
    by_cases hid : call.txId = id
    · subst hid
      rw [if_pos rfl, addressed_cons_self, List.map_cons, List.append_assoc, List.singleton_append]
    · rw [if_neg (Ne.symm hid), addressed_cons_of_ne TagCall.txId hid]

/-- In every state of the run from empty storage each transaction has at most
`MAX_TAGS_PER_TRANSACTION` tags, and its tags are the ones added to it, in order. -/
def TagMetadataBounded (TxId Address : Type) [DecidableEq TxId] (calls : List (TagCall TxId)) :
    Prop :=
  ∀ pre, pre <+: calls → ∀ id,
    let τ : Storage TxId Address := after tagStep Ledger.empty pre
    transactionTagCount τ id ≤ maxTagsPerTransaction ∧
      getTransactionTags τ id = (addressed TagCall.txId id pre).map TagCall.tag

/-- **Tag metadata stays bounded exactly while the callers keep to the bound**: the run
adds no more than `MAX_TAGS_PER_TRANSACTION` tags to any transaction. -/
theorem tag_metadata_bounded_iff (calls : List (TagCall TxId)) :
    TagMetadataBounded TxId Address calls ↔
      ∀ id, (addressed TagCall.txId id calls).length ≤ maxTagsPerTransaction := by
  have htags : ∀ pre id, getTransactionTags
      (after tagStep (Ledger.empty : Storage TxId Address) pre) id =
        (addressed TagCall.txId id pre).map TagCall.tag := by
    intro pre id
    rw [getTransactionTags_after]
    rfl
  have hcount : ∀ pre id, transactionTagCount
      (after tagStep (Ledger.empty : Storage TxId Address) pre) id =
        (addressed TagCall.txId id pre).length := by
    intro pre id
    rw [transactionTagCount, htags, List.length_map]
  constructor
  · intro hbounded id
    rw [← hcount]
    exact (hbounded calls (List.prefix_refl _) id).1
  · intro hfew pre hpre id
    refine ⟨?_, htags pre id⟩
    rw [hcount]
    -- a shorter run adds no more tags to the transaction
    have hshorter : addressed TagCall.txId id pre <+: addressed TagCall.txId id calls :=
      hpre.filter _
    exact hshorter.length_le.trans (hfew id)

theorem tag_metadata_counterexample :
    ¬ ∀ calls : List (TagCall Nat), TagMetadataBounded Nat Nat calls := by
  intro h
  have hcount := (h (List.replicate 11 ⟨1, [0x78]⟩) _ (List.prefix_refl _) 1).1
  exact absurd hcount (by decide)

end Synapse
