import Mathlib.Data.List.Basic
import SynapseCore.Foundation.Ledger

/-! Data model of the contract. `types.rs` is empty in this tree, so the enums
and records here carry the variants and fields that `storage.rs`, `lib.rs` and
the tests name; transaction ids and addresses stay abstract. -/

namespace Synapse

/-- A host string: its bytes. `len()` is the number of bytes. -/
abbrev Str := List UInt8

abbrev Hash := Vector UInt8 32

def u32Max : Nat := UInt32.size - 1

/-- `storage.rs` writes `TxStatus` and `TransactionStatus` for one enum. -/
inductive TransactionStatus
  | pending | processing | completed | failed | cancelled | retrying | disputed
  deriving DecidableEq, Repr

structure Transaction (TxId Address : Type) where
  txId : TxId
  status : TransactionStatus
  amount : Int
  stellarAccount : Address
  assetCode : Str
  assetIssuer : Address
  relaySigner : Option Address
  caller : Address
  reason : Option Str
  stellarTxHash : Option Hash
  deriving DecidableEq

structure PendingWithdrawal (Address : Type) where
  amount : Int
  destination : Address
  proposer : Address
  deriving DecidableEq

structure TreasuryConfig (Address : Type) where
  partyA : Address
  partyB : Address
  epochCap : Int
  deriving DecidableEq

inductive TreasuryKey
  | withdrawalCounter
  | pendingWithdrawal (id : UInt64)
  | treasuryConfig
  | treasuryBalance
  | epochWithdrawn
  deriving DecidableEq

abbrev TreasuryKey.Val (Address : Type) : TreasuryKey → Type
  | .withdrawalCounter => UInt64
  | .pendingWithdrawal _ => PendingWithdrawal Address
  | .treasuryConfig => TreasuryConfig Address
  | .treasuryBalance => Int
  | .epochWithdrawn => Int

/-- The keys of the one `env.storage()`: those of `DataKey`, and those of `TreasuryKey`. -/
inductive DataKey (TxId : Type)
  | transaction (txId : TxId)
  | transactionTags (txId : TxId)
  | statusIndex (status : TransactionStatus)
  | admin
  | relaySigner
  | relaySigners
  | relayThreshold
  | relayApprovals (callId : UInt64)
  | idempotencyKey (key : Str)
  | paused
  | treasuryAccrued
  | treasury (key : TreasuryKey)
  deriving DecidableEq

/-- The type stored under each key. Of an idempotency entry only its presence is ever read. -/
abbrev DataKey.Val (TxId Address : Type) : DataKey TxId → Type
  | .transaction _ => Transaction TxId Address
  | .transactionTags _ => List Str
  | .statusIndex _ => List TxId
  | .admin => Address
  | .relaySigner => Address
  | .relaySigners => List Address
  | .relayThreshold => UInt32
  | .relayApprovals _ => List Address
  | .idempotencyKey _ => Unit
  | .paused => Bool
  | .treasuryAccrued => Int
  | .treasury key => key.Val Address

inductive Event (TxId Address : Type)
  | reg (txId : TxId)
  | relaySignerAdded (signer : Address)
  deriving DecidableEq

abbrev Storage (TxId Address : Type) :=
  Ledger (DataKey TxId) (DataKey.Val TxId Address) (Event TxId Address)

/-- `Error` of the relay and query functions of `storage.rs`. -/
inductive Error
  | notInitialized | unauthorized | signerAlreadyExists | invalidLimit
  deriving DecidableEq, Repr

inductive TransitionError
  | notFound | invalidSource
  deriving DecidableEq, Repr

/-- `ContractError` of the entry points: the variants the tree names, the others by their code. -/
inductive ContractError
  | contractPaused | duplicateRequest | notAuthorized | unauthorised | invalidStatusTransition
  | helper (code : UInt32)
  deriving DecidableEq, Repr

/-- What an invocation hands back: `none` when the host traps it. -/
abbrev Outcome (ε α : Type) := Option (Except ε α)

/-- The two size limits of `storage.rs` whose values the tree does not contain. -/
structure Limits where
  maxReasonLen : Nat
  maxStatusPageLimit : Nat
  pageLimit_pos : 0 < maxStatusPageLimit

/-- The bounds the tests exercise: reasons of at most 64 bytes, pages of at most 50 records. -/
def testLimits : Limits := ⟨64, 50, by decide⟩

end Synapse
