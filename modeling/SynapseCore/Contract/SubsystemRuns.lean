import SynapseCore.Contract.RegistrationRuns
import SynapseCore.Contract.RelayQuorum
import SynapseCore.Contract.StatusPages
import SynapseCore.Contract.StellarTxHash
import SynapseCore.Contract.TransactionTags
import SynapseCore.Contract.Withdrawals
import SynapseCore.Foundation.Interference

/-! All modelled calls on one contract. They belong to three subsystems, which share one
storage; none of them writes an entry that another reads. -/

namespace Synapse
open Machine
variable {TxId Address : Type}

inductive Subsystem
  | records | relay | treasury
  deriving DecidableEq

inductive ContractCall (TxId Address : Type)
  | registry (call : RegistryCall TxId Address)
  | addTransactionTag (txId : TxId) (tag : Str)
  | setStellarTxHash (txId : TxId) (stellarTxHash : Hash)
  | getTransactionsByStatus (status : TransactionStatus) (offset limit : UInt32)
  | relay (call : RelayCall Address)
  | treasury (call : TreasuryCall Address)
  | treasuryBalance
  | treasuryConfig
  | epochWithdrawn
  | pendingWithdrawal (id : UInt64)
  | getTreasuryAccrued
  | setTreasuryAccrued (amount : Int)

def ContractCall.subsystem : ContractCall TxId Address → Subsystem
  | .registry _ | .addTransactionTag _ _ | .setStellarTxHash _ _
  | .getTransactionsByStatus _ _ _ => .records
  | .relay _ => .relay
  | .treasury _ | .treasuryBalance | .treasuryConfig | .epochWithdrawn | .pendingWithdrawal _
  | .getTreasuryAccrued | .setTreasuryAccrued _ => .treasury

inductive ContractAnswer (TxId Address : Type)
  | registry (answer : RegistryAnswer TxId Address)
  | done
  | hashed (outcome : Option Unit)
  | page (outcome : Outcome Error (List (Transaction TxId Address)))
  | relay (answer : RelayAnswer)
  | issued (id : Option UInt64)
  | amount (amount : Int)
  | config (config : Option (TreasuryConfig Address))
  | withdrawal (withdrawal : Option (PendingWithdrawal Address))

section Step
variable [DecidableEq TxId] [DecidableEq Address]

def contractStep (H : RegisterHelpers TxId Address) (L : Limits) (σ : Storage TxId Address) :
    ContractCall TxId Address → Storage TxId Address × ContractAnswer TxId Address
  | .registry call => ((registryStep H L σ call).1, .registry (registryStep H L σ call).2)
  | .addTransactionTag txId tag => (addTransactionTag σ txId tag, .done)
  | .setStellarTxHash txId hash =>
    ((setStellarTxHash σ txId hash).1, .hashed (setStellarTxHash σ txId hash).2)
  | .getTransactionsByStatus status offset limit =>
    (σ, .page (U32.getTransactionsByStatus L σ status offset limit))
  | .relay call => ((relayStep σ call).1, .relay (relayStep σ call).2)
  | .treasury call => ((treasuryStep σ call).1, .issued (treasuryStep σ call).2)
  | .treasuryBalance => (σ, .amount (treasuryBalance σ))
  | .treasuryConfig => (σ, .config (treasuryConfig σ))
  | .epochWithdrawn => (σ, .amount (epochWithdrawn σ))
  | .pendingWithdrawal id => (σ, .withdrawal (pendingWithdrawal σ id))
  | .getTreasuryAccrued => (σ, .amount (getTreasuryAccrued σ))
  | .setTreasuryAccrued amount => (setTreasuryAccrued σ amount, .done)

end Step

/-! ## What a subsystem sees -/

/-- The subsystems that read an entry. Neither of its two readers writes `RelaySigner`. -/
def DataKey.readers : DataKey TxId → List Subsystem
  | .transaction _ | .transactionTags _ | .statusIndex _ | .idempotencyKey _ | .paused => [.records]
  | .relaySigner => [.records, .relay]
  | .admin | .relaySigners | .relayThreshold | .relayApprovals _ => [.relay]
  | .treasuryAccrued | .treasury _ => [.treasury]

def Event.source : Event TxId Address → Subsystem
  | .reg _ => .records
  | .relaySignerAdded _ => .relay

def region (d : Subsystem) : Region (DataKey TxId) (Event TxId Address) where
  key k := d ∈ k.readers
  event e := e.source = d

/-- The two storages look alike to the subsystem. -/
abbrev LooksAlike (d : Subsystem) (σ τ : Storage TxId Address) : Prop := σ.Agrees (region d) τ

/-- What `write_pending` and the two readers beside it see and write is the records'. -/
structure RegisterHelpers.Local [DecidableEq TxId] (H : RegisterHelpers TxId Address) : Prop where
  getRelaySigner : ∀ σ τ, LooksAlike .records σ τ → H.getRelaySigner σ = H.getRelaySigner τ
  validatePayload : ∀ σ τ payload, LooksAlike .records σ τ →
    H.validatePayload σ payload = H.validatePayload τ payload
  writePending : ∀ σ τ payload, LooksAlike .records σ τ →
    LooksAlike .records (H.writePending σ payload).1 (H.writePending τ payload).1
  writePending_other : ∀ d σ τ payload, d ≠ .records → LooksAlike d σ τ →
    LooksAlike d (H.writePending σ payload).1 τ

def Alike {ω : Type} (d : Subsystem) (x y : Storage TxId Address × ω) : Prop :=
  x.2 = y.2 ∧ LooksAlike d x.1 y.1

/-! ## The calls on the records -/

section Records
variable [DecidableEq TxId] {H : RegisterHelpers TxId Address} {L : Limits}
  {σ τ : Storage TxId Address}

omit [DecidableEq TxId] in
theorem getTransaction_congr (h : LooksAlike .records σ τ) (txId : TxId) :
    getTransaction σ txId = getTransaction τ txId :=
  h.persistent (.transaction txId) (by simp [region, DataKey.readers])

theorem lifecycleStep_alike (h : LooksAlike .records σ τ) (call : LifecycleCall TxId Address) :
    Alike .records (lifecycleStep L σ call) (lifecycleStep L τ call) := by
  have hget := getTransaction_congr h call.txId
  constructor
  · rw [lifecycleStep_answer, lifecycleStep_answer, hget]
  · rcases lifecycleStep_cases L σ call with ⟨tx, haccepts, hstep⟩ | ⟨hnot, e, hstep⟩
    · have haccepts' : Accepts L τ call tx := ⟨hget ▸ haccepts.1, haccepts.2⟩
      rw [hstep, lifecycleStep_of_accepts haccepts']
      exact h.setPersistent _ _
    · have hnot' : ∀ tx, ¬ Accepts L τ call tx := fun tx htx => hnot tx ⟨hget ▸ htx.1, htx.2⟩
      obtain ⟨e', hstep'⟩ := lifecycleStep_of_not_accepts hnot'
      rw [hstep, hstep']
      exact h

theorem statusStep_alike (h : LooksAlike .records σ τ) (call : StatusCall TxId Address) :
    Alike .records (statusStep L σ call) (statusStep L τ call) := by
  cases call with
  | lifecycle call =>
    obtain ⟨hanswer, hstate⟩ := lifecycleStep_alike (L := L) h call
    exact ⟨congrArg some hanswer, hstate⟩
  | setTransactionStatus txId status =>
    refine ⟨rfl, ?_⟩
    simp only [statusStep, setTransactionStatus, getTransaction_congr h txId]
    cases getTransaction τ txId with
    | none => exact h
    | some tx => exact h.setPersistent _ _

theorem registerCallback_alike (hH : H.Local) (h : LooksAlike .records σ τ)
    (auth : Address → Bool) (payload : CallbackPayload TxId) :
    Alike .records (registerCallback H auth σ payload) (registerCallback H auth τ payload) := by
  have hpaused : isPaused σ = isPaused τ :=
    congrArg (·.getD false) (h.inst .paused (by simp [region, DataKey.readers]))
  have hkey : getIdempotencyKey σ payload.idempotencyKey =
      getIdempotencyKey τ payload.idempotencyKey :=
    h.temporary (.idempotencyKey payload.idempotencyKey) (by simp [region, DataKey.readers])
  have hexists : transactionExists σ payload.transactionId =
      transactionExists τ payload.transactionId :=
    congrArg Option.isSome (getTransaction_congr h payload.transactionId)
  have hwrite := hH.writePending σ τ payload h
  unfold registerCallback
  rw [hpaused, hH.getRelaySigner σ τ h, hH.validatePayload σ τ payload h, hkey, hexists]
  cases isPaused τ with
  | true => exact ⟨rfl, h⟩
  | false =>
    cases H.getRelaySigner τ with
    | error e => exact ⟨rfl, h⟩
    | ok relay =>
      cases hauth : auth relay with
      | false => simpa [hauth] using ⟨rfl, h⟩
      | true =>
        cases H.validatePayload τ payload with
        | error e => simpa [hauth] using ⟨rfl, h⟩
        | ok u =>
          simp only [hauth, H.writePending_returns, Bool.not_true, Bool.false_eq_true, if_false]
          split_ifs
          · exact ⟨rfl, h⟩
          · exact ⟨rfl, h⟩
          · exact ⟨rfl, hwrite⟩

theorem registryStep_alike (hH : H.Local) (h : LooksAlike .records σ τ)
    (call : RegistryCall TxId Address) :
    Alike .records (registryStep H L σ call) (registryStep H L τ call) := by
  cases call with
  | registerCallback auth payload =>
    obtain ⟨hanswer, hstate⟩ := registerCallback_alike hH h auth payload
    exact ⟨congrArg RegistryAnswer.registered hanswer, hstate⟩
  | setPaused paused => exact ⟨rfl, h.setInst _ _⟩
  | evictIdempotencyKey key => exact ⟨rfl, h.removeTemporary _⟩
  | status call =>
    obtain ⟨hanswer, hstate⟩ := statusStep_alike (L := L) h call
    exact ⟨congrArg RegistryAnswer.moved hanswer, hstate⟩

theorem setStellarTxHash_alike (h : LooksAlike .records σ τ) (txId : TxId) (hash : Hash) :
    Alike .records (setStellarTxHash σ txId hash) (setStellarTxHash τ txId hash) := by
  simp only [setStellarTxHash, getTransaction_congr h txId]
  cases getTransaction τ txId with
  | none => exact ⟨rfl, h⟩
  | some tx => exact ⟨rfl, h.setPersistent _ _⟩

theorem addTransactionTag_alike (h : LooksAlike .records σ τ) (txId : TxId) (tag : Str) :
    LooksAlike .records (addTransactionTag σ txId tag) (addTransactionTag τ txId tag) := by
  have htags : getTransactionTags σ txId = getTransactionTags τ txId :=
    congrArg (·.getD []) (h.persistent (.transactionTags txId) (by simp [region, DataKey.readers]))
  rw [addTransactionTag, addTransactionTag, htags]
  exact h.setPersistent _ _

omit [DecidableEq TxId] in
theorem pageWhile_congr (h : LooksAlike .records σ τ) (status : TransactionStatus)
    (index : List TxId) (stop i : UInt32) (page : List (Transaction TxId Address)) :
    U32.pageWhile σ status index stop i page = U32.pageWhile τ status index stop i page := by
  rw [U32.pageWhile_eq_pageLoop σ status index stop _ rfl,
    U32.pageWhile_eq_pageLoop τ status index stop _ rfl]
  generalize i.toNat = j
  induction stop.toNat - j generalizing j page with
  | zero => rfl
  | succ n ih =>
    simp only [pageLoop, getTransaction_congr h, ih]

omit [DecidableEq TxId] in
theorem getTransactionsByStatus_congr (h : LooksAlike .records σ τ) (status : TransactionStatus)
    (offset limit : UInt32) :
    U32.getTransactionsByStatus L σ status offset limit =
      U32.getTransactionsByStatus L τ status offset limit := by
  have hindex : getStatusIndex σ status = getStatusIndex τ status :=
    congrArg (·.getD []) (h.persistent (.statusIndex status) (by simp [region, DataKey.readers]))
  simp only [U32.getTransactionsByStatus, hindex, pageWhile_congr h]

/-! No other subsystem sees any of it. -/

section Other
variable {d : Subsystem}

theorem setTransactionKey_other (hd : d ≠ .records) (h : LooksAlike d σ τ) (id : TxId)
    (tx : Transaction TxId Address) : LooksAlike d (σ.setPersistent (.transaction id) tx) τ := by
  have hkey : ¬ (region d : Region (DataKey TxId) (Event TxId Address)).key (.transaction id) := by
    simp [region, DataKey.readers, hd]
  exact h.setPersistent_left hkey tx

theorem statusStep_other (hd : d ≠ .records) (h : LooksAlike d σ τ)
    (call : StatusCall TxId Address) : LooksAlike d (statusStep L σ call).1 τ := by
  cases call with
  | lifecycle call =>
    dsimp only [statusStep]
    rcases lifecycleStep_cases L σ call with ⟨tx, _, hstep⟩ | ⟨_, e, hstep⟩
    · rw [hstep]
      exact setTransactionKey_other hd h _ _
    · rw [hstep]
      exact h
  | setTransactionStatus txId status =>
    dsimp only [statusStep, setTransactionStatus]
    cases getTransaction σ txId with
    | none => exact h
    | some tx => exact setTransactionKey_other hd h _ _

theorem registryStep_other (hH : H.Local) (hd : d ≠ .records) (h : LooksAlike d σ τ)
    (call : RegistryCall TxId Address) : LooksAlike d (registryStep H L σ call).1 τ := by
  cases call with
  | registerCallback auth payload =>
    dsimp only [registryStep]
    rcases registerCallback_cases H auth σ payload with
      ⟨hsame, _⟩ | ⟨_, _, hstep⟩ | ⟨_, hstep⟩
    · rw [hsame]
      exact h
    · rw [hstep]
      exact h
    · rw [hstep]
      exact hH.writePending_other d σ τ payload hd h
  | setPaused paused => exact h.setInst_left (by simp [region, DataKey.readers, hd]) _
  | evictIdempotencyKey key => exact h.removeTemporary_left (by simp [region, DataKey.readers, hd])
  | status call => exact statusStep_other hd h call

theorem setStellarTxHash_other (hd : d ≠ .records) (h : LooksAlike d σ τ) (txId : TxId)
    (hash : Hash) : LooksAlike d (setStellarTxHash σ txId hash).1 τ := by
  unfold setStellarTxHash
  cases getTransaction σ txId with
  | none => exact h
  | some tx => exact setTransactionKey_other hd h _ _

end Other

end Records

/-! ## The calls on the relay -/

section Relay
variable [DecidableEq TxId] [DecidableEq Address] {σ τ : Storage TxId Address}

omit [DecidableEq TxId] [DecidableEq Address] in
theorem getRelaySigners_alike (h : LooksAlike .relay σ τ) :
    getRelaySigners σ = getRelaySigners τ := by
  have hset : σ.inst.get .relaySigners = τ.inst.get .relaySigners :=
    h.inst .relaySigners (by simp [region, DataKey.readers])
  have hsigner : σ.inst.get .relaySigner = τ.inst.get .relaySigner :=
    h.inst .relaySigner (by simp [region, DataKey.readers])
  rw [getRelaySigners, getRelaySigners, hset, hsigner]

theorem addRelaySigner_alike (h : LooksAlike .relay σ τ) (auth : Address → Bool)
    (caller newSigner : Address) :
    Alike .relay (addRelaySigner auth σ caller newSigner)
      (addRelaySigner auth τ caller newSigner) := by
  have hadmin : σ.inst.get .admin = τ.inst.get .admin :=
    h.inst .admin (by simp [region, DataKey.readers])
  rw [addRelaySigner, addRelaySigner, hadmin, getRelaySigners_alike h]
  cases auth caller with
  | false => exact ⟨rfl, h⟩
  | true =>
    cases τ.inst.get .admin with
    | none => exact ⟨rfl, h⟩
    | some admin =>
      simp only [Bool.not_true, Bool.false_eq_true, if_false]
      split_ifs
      · exact ⟨rfl, h⟩
      · exact ⟨rfl, h⟩
      · exact ⟨rfl, (h.setInst _ _).publish _⟩

theorem approveRelayCall_alike (h : LooksAlike .relay σ τ) (auth : Address → Bool)
    (callId : UInt64) (caller : Address) :
    Alike .relay (approveRelayCall auth σ callId caller)
      (approveRelayCall auth τ callId caller) := by
  have happrovals : getRelayApprovals σ callId = getRelayApprovals τ callId :=
    congrArg (·.getD []) (h.temporary (.relayApprovals callId) (by simp [region, DataKey.readers]))
  have hthreshold : getRelayThreshold σ = getRelayThreshold τ :=
    congrArg (·.getD 1) (h.inst .relayThreshold (by simp [region, DataKey.readers]))
  have hvotes : Votes auth σ caller ↔ Votes auth τ caller := by
    rw [Votes, Votes, getRelaySigners_alike h]
  have htallied : tallied σ callId caller = tallied τ callId caller := by
    rw [tallied, tallied, happrovals, hthreshold]
  by_cases hvote : Votes auth σ caller
  · rw [approveRelayCall_of_votes hvote, approveRelayCall_of_votes (hvotes.mp hvote), htallied]
    split_ifs
    · exact ⟨rfl, h.removeTemporary _⟩
    · exact ⟨rfl, h.setTemporary _ _⟩
  · rw [approveRelayCall_of_not_votes hvote, approveRelayCall_of_not_votes (hvote ∘ hvotes.mpr)]
    exact ⟨rfl, h⟩

theorem relayStep_alike (h : LooksAlike .relay σ τ) (call : RelayCall Address) :
    Alike .relay (relayStep σ call) (relayStep τ call) := by
  cases call with
  | addRelaySigner auth caller newSigner =>
    obtain ⟨hanswer, hstate⟩ := addRelaySigner_alike h auth caller newSigner
    exact ⟨congrArg RelayAnswer.added hanswer, hstate⟩
  | approveRelayCall auth callId caller =>
    obtain ⟨hanswer, hstate⟩ := approveRelayCall_alike h auth callId caller
    exact ⟨congrArg RelayAnswer.approved hanswer, hstate⟩
  | setRelayThreshold threshold => exact ⟨rfl, h.setInst _ _⟩
  | evictApprovals callId => exact ⟨rfl, h.removeTemporary _⟩
  | setAdmin admin => exact ⟨rfl, h.setPersistent _ _⟩

theorem relayStep_other {d : Subsystem} (hd : d ≠ .relay) (h : LooksAlike d σ τ)
    (call : RelayCall Address) : LooksAlike d (relayStep σ call).1 τ := by
  cases call with
  | addRelaySigner auth caller newSigner =>
    dsimp only [relayStep]
    rcases addRelaySigner_cases auth σ caller newSigner with ⟨_, hstep⟩ | ⟨hsame, _⟩
    · rw [hstep]
      exact (h.setInst_left (by simp [region, DataKey.readers, hd]) _).publish_left
        (by simp [region, Event.source, hd.symm])
    · rw [hsame]
      exact h
  | approveRelayCall auth callId caller =>
    dsimp only [relayStep]
    by_cases hvotes : Votes auth σ caller
    · rw [approveRelayCall_of_votes hvotes]
      split_ifs
      · exact h.removeTemporary_left (by simp [region, DataKey.readers, hd])
      · exact h.setTemporary_left (by simp [region, DataKey.readers, hd]) _
    · rw [approveRelayCall_of_not_votes hvotes]
      exact h
  | setRelayThreshold threshold => exact h.setInst_left (by simp [region, DataKey.readers, hd]) _
  | evictApprovals callId => exact h.removeTemporary_left (by simp [region, DataKey.readers, hd])
  | setAdmin admin => exact h.setPersistent_left (by simp [region, DataKey.readers, hd]) _

end Relay

/-! ## The calls on the treasury -/

section Treasury
variable [DecidableEq TxId] {σ τ : Storage TxId Address}

omit [DecidableEq TxId] in
theorem treasuryInst_congr (h : LooksAlike .treasury σ τ) (key : TreasuryKey) :
    σ.inst.get (.treasury key) = τ.inst.get (.treasury key) :=
  h.inst (.treasury key) (by simp [region, DataKey.readers])

theorem treasuryStep_alike (h : LooksAlike .treasury σ τ) (call : TreasuryCall Address) :
    Alike .treasury (treasuryStep σ call) (treasuryStep τ call) := by
  cases call with
  | nextWithdrawalId =>
    simp only [treasuryStep, nextWithdrawalId, treasuryInst_congr h]
    split_ifs
    · exact ⟨rfl, h.setInst _ _⟩
    · exact ⟨rfl, h⟩
  | setPendingWithdrawal id withdrawal => exact ⟨rfl, h.setPersistent _ _⟩
  | removePendingWithdrawal id => exact ⟨rfl, h.removePersistent _⟩
  | setTreasuryBalance balance => exact ⟨rfl, h.setInst _ _⟩
  | setTreasuryConfig config => exact ⟨rfl, h.setInst _ _⟩
  | setEpochWithdrawn amount => exact ⟨rfl, h.setInst _ _⟩

theorem treasuryStep_other {d : Subsystem} (hd : d ≠ .treasury) (h : LooksAlike d σ τ)
    (call : TreasuryCall Address) : LooksAlike d (treasuryStep σ call).1 τ := by
  have hkey : ∀ key, ¬ (region d : Region (DataKey TxId) (Event TxId Address)).key
      (.treasury key) := by simp [region, DataKey.readers, hd]
  cases call with
  | nextWithdrawalId =>
    dsimp only [treasuryStep, nextWithdrawalId]
    split_ifs
    · exact h.setInst_left (hkey _) _
    · exact h
  | setPendingWithdrawal id withdrawal => exact h.setPersistent_left (hkey _) _
  | removePendingWithdrawal id => exact h.removePersistent_left (hkey _)
  | setTreasuryBalance balance => exact h.setInst_left (hkey _) _
  | setTreasuryConfig config => exact h.setInst_left (hkey _) _
  | setEpochWithdrawn amount => exact h.setInst_left (hkey _) _

end Treasury

/-! ## The contract -/

section Contract
variable [DecidableEq TxId] [DecidableEq Address] {H : RegisterHelpers TxId Address} {L : Limits}
  {σ τ : Storage TxId Address}

theorem contractStep_own (hH : H.Local) (call : ContractCall TxId Address)
    (h : LooksAlike call.subsystem σ τ) :
    Alike call.subsystem (contractStep H L σ call) (contractStep H L τ call) := by
  cases call with
  | registry call =>
    obtain ⟨hanswer, hstate⟩ := registryStep_alike (L := L) hH h call
    exact ⟨congrArg ContractAnswer.registry hanswer, hstate⟩
  | addTransactionTag txId tag => exact ⟨rfl, addTransactionTag_alike h txId tag⟩
  | setStellarTxHash txId hash =>
    obtain ⟨hanswer, hstate⟩ := setStellarTxHash_alike h txId hash
    exact ⟨congrArg ContractAnswer.hashed hanswer, hstate⟩
  | getTransactionsByStatus status offset limit =>
    exact ⟨congrArg ContractAnswer.page (getTransactionsByStatus_congr h status offset limit), h⟩
  | relay call =>
    obtain ⟨hanswer, hstate⟩ := relayStep_alike h call
    exact ⟨congrArg ContractAnswer.relay hanswer, hstate⟩
  | treasury call =>
    obtain ⟨hanswer, hstate⟩ := treasuryStep_alike h call
    exact ⟨congrArg ContractAnswer.issued hanswer, hstate⟩
  | treasuryBalance =>
    have hsame := treasuryInst_congr h .treasuryBalance
    exact ⟨congrArg (fun entry : Option Int => ContractAnswer.amount (entry.getD 0)) hsame, h⟩
  | treasuryConfig =>
    have hsame := treasuryInst_congr h .treasuryConfig
    exact ⟨congrArg ContractAnswer.config hsame, h⟩
  | epochWithdrawn =>
    have hsame := treasuryInst_congr h .epochWithdrawn
    exact ⟨congrArg (fun entry : Option Int => ContractAnswer.amount (entry.getD 0)) hsame, h⟩
  | pendingWithdrawal id =>
    have hsame := h.persistent (.treasury (.pendingWithdrawal id))
      (by simp [region, DataKey.readers, ContractCall.subsystem])
    exact ⟨congrArg ContractAnswer.withdrawal hsame, h⟩
  | getTreasuryAccrued =>
    have hsame := h.persistent .treasuryAccrued
      (by simp [region, DataKey.readers, ContractCall.subsystem])
    exact ⟨congrArg (fun entry : Option Int => ContractAnswer.amount (entry.getD 0)) hsame, h⟩
  | setTreasuryAccrued amount => exact ⟨rfl, h.setPersistent _ _⟩

theorem contractStep_other (hH : H.Local) (call : ContractCall TxId Address) {d : Subsystem}
    (hd : d ≠ call.subsystem) (h : LooksAlike d σ τ) :
    LooksAlike d (contractStep H L σ call).1 τ := by
  cases call with
  | registry call => exact registryStep_other hH hd h call
  | addTransactionTag txId tag =>
    have hrecords : d ≠ .records := hd
    exact h.setPersistent_left (by simp [region, DataKey.readers, hrecords]) _
  | setStellarTxHash txId hash => exact setStellarTxHash_other hd h txId hash
  | relay call => exact relayStep_other hd h call
  | treasury call => exact treasuryStep_other hd h call
  | setTreasuryAccrued amount =>
    have htreasury : d ≠ .treasury := hd
    exact h.setPersistent_left (by simp [region, DataKey.readers, htreasury]) _
  | _ => exact h -- the other calls only read

theorem contractStep_separated (hH : H.Local) (L : Limits) :
    Separated (contractStep H L) ContractCall.subsystem LooksAlike where
  answer _ _ call h := (contractStep_own hH call h).1
  own _ _ call h := (contractStep_own hH call h).2
  other _ _ _ call hd h := contractStep_other hH call hd.symm h

end Contract

/-- The storages hold the same entries, and each subsystem has published the same events in
the same order. -/
structure SameEntries (σ τ : Storage TxId Address) : Prop where
  inst : σ.inst = τ.inst
  persistent : σ.persistent = τ.persistent
  temporary : σ.temporary = τ.temporary
  events : ∀ d : Subsystem, σ.events.filter (fun e => e.source = d) =
    τ.events.filter fun e => e.source = d

theorem DataKey.exists_reader (k : DataKey TxId) : ∃ d, d ∈ k.readers := by
  cases k <;> exact ⟨_, List.mem_cons_self ..⟩

/-- Every entry has a reader, so what looks alike to all subsystems is the same. -/
theorem sameEntries_of_looksAlike {σ τ : Storage TxId Address} (h : ∀ d, LooksAlike d σ τ) :
    SameEntries σ τ where
  inst := Tier.eq_of_agrees DataKey.exists_reader fun d => (h d).inst
  persistent := Tier.eq_of_agrees DataKey.exists_reader fun d => (h d).persistent
  temporary := Tier.eq_of_agrees DataKey.exists_reader fun d => (h d).temporary
  events d := (h d).events

/-- **The subsystems do not interfere.** However the calls of a run interleave, each subsystem
is answered, and finds its entries at the end, as if its own calls had been alone; so two
interleavings of the same calls leave the same entries. -/
theorem subsystems_do_not_interfere [DecidableEq TxId] [DecidableEq Address]
    {H : RegisterHelpers TxId Address} (hH : H.Local) (L : Limits)
    (σ : Storage TxId Address) (calls : List (ContractCall TxId Address)) :
    (∀ d, (transcript (contractStep H L) σ calls).filter (fun entry => entry.1.subsystem = d) =
        transcript (contractStep H L) σ (addressed ContractCall.subsystem d calls) ∧
      LooksAlike d (after (contractStep H L) σ calls)
        (after (contractStep H L) σ (addressed ContractCall.subsystem d calls))) ∧
    ∀ calls', (∀ d, addressed ContractCall.subsystem d calls' =
        addressed ContractCall.subsystem d calls) →
      SameEntries (after (contractStep H L) σ calls') (after (contractStep H L) σ calls) := by
  have hseparated := contractStep_separated hH L
  have halone : ∀ d calls, LooksAlike d (after (contractStep H L) σ calls)
      (after (contractStep H L) σ (addressed ContractCall.subsystem d calls)) :=
    fun d calls => hseparated.same_after (Ledger.Agrees.refl _ σ) calls
  refine ⟨fun d => ⟨hseparated.transcript_filter (Ledger.Agrees.refl _ σ) calls,
    halone d calls⟩, ?_⟩
  intro calls' hsame
  refine sameEntries_of_looksAlike fun d => ?_
  have hfirst := halone d calls'
  rw [hsame d] at hfirst
  exact hfirst.trans (halone d calls).symm

theorem testHelpers_local : testHelpers.Local where
  getRelaySigner _ _ _ := rfl
  validatePayload _ _ _ _ := rfl
  writePending _ _ _ h := ((h.setPersistent _ _).setTemporary _ _).publish _
  writePending_other _ _ _ _ hd h :=
    ((h.setPersistent_left (by simp [region, DataKey.readers, hd]) _).setTemporary_left
      (by simp [region, DataKey.readers, hd]) _).publish_left
        (by simp [region, Event.source, hd.symm])

theorem subsystems_do_not_interfere_fixture :
    SameEntries
      (after (contractStep testHelpers testLimits) quorumStore
        [.registry (.registerCallback (fun _ => true) (testPayload 1 5)),
          .relay (approval 7), .treasury .nextWithdrawalId, .setTreasuryAccrued 3])
      (after (contractStep testHelpers testLimits) quorumStore
        [.registry (.registerCallback (fun _ => true) (testPayload 1 5)),
          .treasury .nextWithdrawalId, .setTreasuryAccrued 3, .relay (approval 7)]) := by
  apply (subsystems_do_not_interfere testHelpers_local testLimits _ _).2
  intro d
  cases d <;> rfl

end Synapse
