import SynapseCore.Contract.TransactionRecords

/-! `register_callback`, as quoted in `lib.rs`. The helpers it calls are not in
the tree; those that only look a key up are read as that lookup, the others are
parameters with the laws the entry point relies on. -/

namespace Synapse
variable {TxId Address : Type} [DecidableEq TxId]

inductive CallbackType
  | deposit | none | onComplete | onFailure
  deriving DecidableEq, Repr

structure CallbackPayload (TxId : Type) where
  transactionId : TxId
  stellarAccount : Str
  amount : Int
  assetCode : Str
  assetIssuer : Str
  idempotencyKey : Str
  anchorTransactionId : Str
  callbackType : CallbackType
  callbackStatus : Str

def isPaused (σ : Storage TxId Address) : Bool := (σ.inst.get .paused).getD false

def setPaused (σ : Storage TxId Address) (paused : Bool) : Storage TxId Address :=
  σ.setInst .paused paused

def getIdempotencyKey (σ : Storage TxId Address) (key : Str) : Option Unit :=
  σ.temporary.get (.idempotencyKey key)

def transactionExists (σ : Storage TxId Address) (txId : TxId) : Bool :=
  σ.persistent.has (.transaction txId)

/-- The missing helpers. `write_pending` stores a pending record under the
payload's transaction id, records its idempotency key and returns the id;
`get_relay_signer` and `validate_payload` read only. -/
structure RegisterHelpers (TxId Address : Type) [DecidableEq TxId] where
  getRelaySigner : Storage TxId Address → Except ContractError Address
  validatePayload : Storage TxId Address → CallbackPayload TxId → Except ContractError Unit
  writePending : Storage TxId Address → CallbackPayload TxId → Storage TxId Address × TxId
  writePending_returns : ∀ σ payload, (writePending σ payload).2 = payload.transactionId
  writePending_stores : ∀ σ payload, ∃ tx, tx.status = .pending ∧
    ∀ id, getTransaction (writePending σ payload).1 id =
      if id = payload.transactionId then some tx else getTransaction σ id
  writePending_records : ∀ σ payload key,
    (getIdempotencyKey (writePending σ payload).1 key).isSome =
      (decide (key = payload.idempotencyKey) || (getIdempotencyKey σ key).isSome)

def registerCallback (H : RegisterHelpers TxId Address) (auth : Address → Bool)
    (σ : Storage TxId Address) (payload : CallbackPayload TxId) :
    Storage TxId Address × Outcome ContractError TxId :=
  if isPaused σ then (σ, some (.error .contractPaused))
  else
    match H.getRelaySigner σ with
    | .error e => (σ, some (.error e))
    | .ok relay =>
      if !auth relay then (σ, none) -- `require_auth` traps
      else
        match H.validatePayload σ payload with
        | .error e => (σ, some (.error e))
        | .ok () =>
          if (getIdempotencyKey σ payload.idempotencyKey).isSome then
            (σ, some (.ok payload.transactionId))
          else if transactionExists σ payload.transactionId then
            (σ, some (.error .duplicateRequest))
          else
            let written := H.writePending σ payload
            (written.1, some (.ok written.2))

/-! ## What one call can do -/

section Cases
variable (H : RegisterHelpers TxId Address) (auth : Address → Bool) (σ : Storage TxId Address)
  (payload : CallbackPayload TxId)

/-- The call passes the pause, relay and validation checks. -/
def Admitted : Prop :=
  isPaused σ = false ∧ (∃ relay, H.getRelaySigner σ = .ok relay ∧ auth relay = true) ∧
    H.validatePayload σ payload = .ok ()

theorem registerCallback_of_admitted (h : Admitted H auth σ payload) :
    registerCallback H auth σ payload =
      if (getIdempotencyKey σ payload.idempotencyKey).isSome then
        (σ, some (.ok payload.transactionId))
      else if transactionExists σ payload.transactionId then (σ, some (.error .duplicateRequest))
      else ((H.writePending σ payload).1, some (.ok payload.transactionId)) := by
  obtain ⟨hpaused, ⟨relay, hrelay, hauth⟩, hvalid⟩ := h
  simp only [registerCallback, hpaused, hrelay, hauth, hvalid, H.writePending_returns,
    Bool.false_eq_true, if_false, Bool.not_true]

theorem registerCallback_of_not_admitted (h : ¬ Admitted H auth σ payload) :
    (registerCallback H auth σ payload).1 = σ ∧
      ∀ id, (registerCallback H auth σ payload).2 ≠ some (.ok id) := by
  unfold registerCallback
  cases hpaused : isPaused σ with
  | true => exact ⟨rfl, fun id hok => by cases hok⟩
  | false =>
    cases hrelay : H.getRelaySigner σ with
    | error e => exact ⟨rfl, fun id hok => by cases hok⟩
    | ok relay =>
      cases hauth : auth relay with
      | false => simp [hauth]
      | true =>
        cases hvalid : H.validatePayload σ payload with
        | error e => simp [hauth]
        | ok u => exact absurd ⟨hpaused, ⟨relay, hrelay, hauth⟩, hvalid⟩ h

instance : Decidable (Admitted H auth σ payload) :=
  match hrelay : H.getRelaySigner σ, hvalid : H.validatePayload σ payload with
  | .ok relay, .ok () => decidable_of_iff (isPaused σ = false ∧ auth relay = true)
      (by simp [Admitted, hrelay, hvalid])
  | .error _, _ => .isFalse (by simp [Admitted, hrelay])
  | .ok _, .error _ => .isFalse (by simp [Admitted, hvalid])

/-- The call writes exactly when it is admitted, its key is not live and its id is new. -/
def Writes : Prop :=
  Admitted H auth σ payload ∧ getIdempotencyKey σ payload.idempotencyKey = none ∧
    getTransaction σ payload.transactionId = none

instance : Decidable (Writes H auth σ payload) :=
  inferInstanceAs (Decidable (_ ∧ _ = none ∧ _ = none))

theorem registerCallback_of_writes (h : Writes H auth σ payload) :
    registerCallback H auth σ payload =
      ((H.writePending σ payload).1, some (.ok payload.transactionId)) := by
  obtain ⟨hadmitted, hkey, hnew⟩ := h
  have hexists : transactionExists σ payload.transactionId = false :=
    Bool.eq_false_iff.mpr (Option.not_isSome_iff_eq_none.mpr hnew)
  rw [registerCallback_of_admitted H auth σ payload hadmitted, hkey, hexists]
  rfl

theorem registerCallback_cases :
    ((registerCallback H auth σ payload).1 = σ ∧
      ∀ id, (registerCallback H auth σ payload).2 ≠ some (.ok id)) ∨
    (Admitted H auth σ payload ∧ (getIdempotencyKey σ payload.idempotencyKey).isSome = true ∧
      registerCallback H auth σ payload = (σ, some (.ok payload.transactionId))) ∨
    (Writes H auth σ payload ∧ registerCallback H auth σ payload =
      ((H.writePending σ payload).1, some (.ok payload.transactionId))) := by
  by_cases hadmitted : Admitted H auth σ payload
  · by_cases hlive : (getIdempotencyKey σ payload.idempotencyKey).isSome = true
    · refine .inr (.inl ⟨hadmitted, hlive, ?_⟩)
      rw [registerCallback_of_admitted H auth σ payload hadmitted, if_pos hlive]
    · by_cases hexists : transactionExists σ payload.transactionId = true
      · refine .inl ?_
        rw [registerCallback_of_admitted H auth σ payload hadmitted, if_neg hlive, if_pos hexists]
        exact ⟨rfl, fun id hok => by cases hok⟩
      · have hkey := Option.not_isSome_iff_eq_none.mp hlive
        have hnew : getTransaction σ payload.transactionId = none :=
          Option.not_isSome_iff_eq_none.mp hexists
        have hwrites : Writes H auth σ payload := ⟨hadmitted, hkey, hnew⟩
        exact .inr (.inr ⟨hwrites, registerCallback_of_writes H auth σ payload hwrites⟩)
  · exact .inl (registerCallback_of_not_admitted H auth σ payload hadmitted)

end Cases
end Synapse
