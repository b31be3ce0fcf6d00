import SynapseCore.Contract.Types
import SynapseCore.Rendering.LastEvents

/-! The emission helpers of `events.rs`, and what an observer of the event lines learns of the
calls. A struct goes out as a map of its fields in the order of their names. -/

namespace Synapse
open Text

def i128Val {Address Other : Type} (n : BitVec 128) : ScVal Address Other :=
  .i128 (Int64.ofBitVec (n.extractLsb' 64 64)) (UInt64.ofBitVec (n.setWidth 64))

def hashVal {Address Other : Type} (hash : Hash) : ScVal Address Other := .bytes hash.toList

theorem i128Val_injective {Address Other : Type} :
    Function.Injective (i128Val : BitVec 128 → ScVal Address Other) := by
  intro n m h
  injection h with hhi hlo
  have hhi' := congrArg (fun hi : Int64 => hi.toBitVec.toNat) hhi
  have hlo' := congrArg UInt64.toNat hlo
  simp at hhi' hlo'
  apply BitVec.eq_of_toNat_eq
  omega

theorem hashVal_injective {Address Other : Type} :
    Function.Injective (hashVal : Hash → ScVal Address Other) := by
  intro hash hash' h
  injection h with h
  exact Vector.toList_inj.mp h

namespace Events

/-! ## The topics -/

def topicInit : ScSymbol := ⟨"init".toList, by decide, by decide⟩
def upgradeTopic : ScSymbol := ⟨['u', 'p', 'g', 'r', 'a', 'd', 'e'], by decide, by decide⟩
def guardianRevokeTopic : ScSymbol :=
  ⟨['g', 'u', 'a', 'r', 'd', 'i', 'a', 'n', '_', 'r', 'e', 'v', 'o', 'k', 'e'], by decide,
    by decide⟩
def relayTopic : ScSymbol := ⟨['r', 'e', 'l', 'a', 'y'], by decide, by decide⟩
def forwardingIntent : ScSymbol :=
  ⟨['f', 'w', 'd', '_', 'i', 'n', 't', 'e', 'n', 't'], by decide, by decide⟩
def collateralBonded : ScSymbol := ⟨['b', 'o', 'n', 'd', 'e', 'd'], by decide, by decide⟩
def collateralUnbonded : ScSymbol :=
  ⟨['u', 'n', 'b', 'o', 'n', 'd', 'e', 'd'], by decide, by decide⟩
def unbondClaimed : ScSymbol := ⟨['c', 'l', 'a', 'i', 'm', 'e', 'd'], by decide, by decide⟩
def failTopic : ScSymbol := ⟨['f', 'a', 'i', 'l'], by decide, by decide⟩
def cancelTopic : ScSymbol := ⟨['c', 'a', 'n', 'c', 'e', 'l'], by decide, by decide⟩
def regTopic : ScSymbol := ⟨['r', 'e', 'g'], by decide, by decide⟩
def topicStatus : ScSymbol := ⟨['s', 't', 'a', 't', 'u', 's'], by decide, by decide⟩
def topicDone : ScSymbol := ⟨['d', 'o', 'n', 'e'], by decide, by decide⟩

/-! ## The payloads -/

section Emitters
variable {Address Other : Type}

/-- A `contracttype` struct: its fields, sorted by name. -/
def structVal (fields : List (ScSymbol × ScVal Address Other)) : ScVal Address Other :=
  .map (fields.map fun field => (.symbol field.1, field.2))

def adminField : ScSymbol := ⟨['a', 'd', 'm', 'i', 'n'], by decide, by decide⟩
def relaySignerField : ScSymbol :=
  ⟨['r', 'e', 'l', 'a', 'y', '_', 's', 'i', 'g', 'n', 'e', 'r'], by decide, by decide⟩
def newWasmHashField : ScSymbol :=
  ⟨['n', 'e', 'w', '_', 'w', 'a', 's', 'm', '_', 'h', 'a', 's', 'h'], by decide, by decide⟩
def schemaVersionField : ScSymbol :=
  ⟨['s', 'c', 'h', 'e', 'm', 'a', '_', 'v', 'e', 'r', 's', 'i', 'o', 'n'], by decide, by decide⟩
def guardianField : ScSymbol := ⟨['g', 'u', 'a', 'r', 'd', 'i', 'a', 'n'], by decide, by decide⟩
def revokedAdminField : ScSymbol :=
  ⟨['r', 'e', 'v', 'o', 'k', 'e', 'd', '_', 'a', 'd', 'm', 'i', 'n'], by decide, by decide⟩
def newAdminField : ScSymbol :=
  ⟨['n', 'e', 'w', '_', 'a', 'd', 'm', 'i', 'n'], by decide, by decide⟩
def oldSignerField : ScSymbol :=
  ⟨['o', 'l', 'd', '_', 's', 'i', 'g', 'n', 'e', 'r'], by decide, by decide⟩
def newSignerField : ScSymbol :=
  ⟨['n', 'e', 'w', '_', 's', 'i', 'g', 'n', 'e', 'r'], by decide, by decide⟩
def txIdField : ScSymbol := ⟨['t', 'x', '_', 'i', 'd'], by decide, by decide⟩
def reasonField : ScSymbol := ⟨['r', 'e', 'a', 's', 'o', 'n'], by decide, by decide⟩
def callerField : ScSymbol := ⟨['c', 'a', 'l', 'l', 'e', 'r'], by decide, by decide⟩

def eventContractInitialized (admin relaySigner : Address) : ScVal Address Other :=
  structVal [(adminField, .address admin), (relaySignerField, .address relaySigner)]

def eventContractUpgraded (newWasmHash : Hash) (schemaVersion : UInt32) : ScVal Address Other :=
  structVal [(newWasmHashField, hashVal newWasmHash), (schemaVersionField, .u32 schemaVersion)]

def eventGuardianAdminRevoked (guardian revokedAdmin newAdmin : Address) : ScVal Address Other :=
  structVal [(guardianField, .address guardian), (newAdminField, .address newAdmin),
    (revokedAdminField, .address revokedAdmin)]

def eventRelaySignerRotated (oldSigner newSigner : Address) : ScVal Address Other :=
  structVal [(newSignerField, .address newSigner), (oldSignerField, .address oldSigner)]

def eventTransactionCancelled (txId : UInt64) (reason : Str) : ScVal Address Other :=
  structVal [(reasonField, .string reason), (txIdField, .u64 txId)]

def forwardingIntentVal (txId : Hash) (caller : Address) : ScVal Address Other :=
  structVal [(callerField, .address caller), (txIdField, hashVal txId)]

/-! ## The helpers -/

/-- Topics and data of what has been published. -/
abbrev Log (Address Other : Type) := List (List (ScVal Address Other) × ScVal Address Other)

def publish (env : Log Address Other) (topics : List (ScVal Address Other))
    (data : ScVal Address Other) : Log Address Other := env ++ [(topics, data)]

variable (env : Log Address Other)

def emitContractInitialized (admin relaySigner : Address) : Log Address Other :=
  publish env [.symbol topicInit] (eventContractInitialized admin relaySigner)

def emitContractUpgraded (newWasmHash : Hash) (schemaVersion : UInt32) : Log Address Other :=
  publish env [.symbol upgradeTopic] (eventContractUpgraded newWasmHash schemaVersion)

def emitGuardianAdminRevoked (guardian revokedAdmin newAdmin : Address) : Log Address Other :=
  publish env [.symbol guardianRevokeTopic]
    (eventGuardianAdminRevoked guardian revokedAdmin newAdmin)

def emitRelaySignerRotated (oldSigner newSigner : Address) : Log Address Other :=
  publish env [.symbol relayTopic] (eventRelaySignerRotated oldSigner newSigner)

def emitForwardingIntent (txId : Hash) (caller : Address) : Log Address Other :=
  publish env [.symbol forwardingIntent] (forwardingIntentVal txId caller)

def emitCollateralBonded (signer : Address) (amount total : BitVec 128) : Log Address Other :=
  publish env [.symbol collateralBonded, .address signer] (.vec [i128Val amount, i128Val total])

def emitCollateralUnbonded (signer : Address) (amount : BitVec 128) (unlockLedger : UInt32) :
    Log Address Other :=
  publish env [.symbol collateralUnbonded, .address signer]
    (.vec [i128Val amount, .u32 unlockLedger])

def emitUnbondClaimed (signer : Address) (amount : BitVec 128) : Log Address Other :=
  publish env [.symbol unbondClaimed, .address signer] (i128Val amount)

def emitFail (txId : UInt64) (reason : Str) : Log Address Other :=
  publish env [.symbol failTopic, .u64 txId] (.string reason)

def emitReg (txId : UInt64) : Log Address Other := publish env [.symbol regTopic] (.u64 txId)

def emitCancel (txId : UInt64) (reason : Str) : Log Address Other :=
  publish env [.symbol cancelTopic, .u64 txId] (eventTransactionCancelled txId reason)

def emitStatus (txId : UInt64) (status : UInt32) : Log Address Other :=
  publish env [.symbol topicStatus, .u64 txId] (.u32 status)

def emitDone (txId : UInt64) (stellarTxHash : Hash) : Log Address Other :=
  publish env [.symbol topicDone, .u64 txId] (hashVal stellarTxHash)

def emitStatusThenDone (txId : UInt64) (status : UInt32) (stellarTxHash : Hash) :
    Log Address Other :=
  emitDone (emitStatus env txId status) txId stellarTxHash

def emitSingle (topic : ScSymbol) (txId : UInt64) (payload : ScVal Address Other) :
    Log Address Other :=
  publish env [.symbol topic, .u64 txId] payload

def emitAddress (topic : ScSymbol) (txId : UInt64) (payload : Address) : Log Address Other :=
  publish env [.symbol topic, .u64 txId] (.address payload)

inductive EmitterCall (Address Other : Type)
  | contractInitialized (admin relaySigner : Address)
  | contractUpgraded (newWasmHash : Hash) (schemaVersion : UInt32)
  | guardianAdminRevoked (guardian revokedAdmin newAdmin : Address)
  | relaySignerRotated (oldSigner newSigner : Address)
  | forwardingIntent (txId : Hash) (caller : Address)
  | collateralBonded (signer : Address) (amount total : BitVec 128)
  | collateralUnbonded (signer : Address) (amount : BitVec 128) (unlockLedger : UInt32)
  | unbondClaimed (signer : Address) (amount : BitVec 128)
  | fail (txId : UInt64) (reason : Str)
  | reg (txId : UInt64)
  | cancel (txId : UInt64) (reason : Str)
  | status (txId : UInt64) (status : UInt32)
  | done (txId : UInt64) (stellarTxHash : Hash)
  | statusThenDone (txId : UInt64) (status : UInt32) (stellarTxHash : Hash)
  | single (topic : ScSymbol) (txId : UInt64) (payload : ScVal Address Other)
  | address (topic : ScSymbol) (txId : UInt64) (payload : Address)

def emitterStep : EmitterCall Address Other → Log Address Other
  | .contractInitialized admin relaySigner => emitContractInitialized env admin relaySigner
  | .contractUpgraded newWasmHash schemaVersion =>
    emitContractUpgraded env newWasmHash schemaVersion
  | .guardianAdminRevoked guardian revokedAdmin newAdmin =>
    emitGuardianAdminRevoked env guardian revokedAdmin newAdmin
  | .relaySignerRotated oldSigner newSigner => emitRelaySignerRotated env oldSigner newSigner
  | .forwardingIntent txId caller => emitForwardingIntent env txId caller
  | .collateralBonded signer amount total => emitCollateralBonded env signer amount total
  | .collateralUnbonded signer amount unlockLedger =>
    emitCollateralUnbonded env signer amount unlockLedger
  | .unbondClaimed signer amount => emitUnbondClaimed env signer amount
  | .fail txId reason => emitFail env txId reason
  | .reg txId => emitReg env txId
  | .cancel txId reason => emitCancel env txId reason
  | .status txId status => emitStatus env txId status
  | .done txId stellarTxHash => emitDone env txId stellarTxHash
  | .statusThenDone txId status stellarTxHash => emitStatusThenDone env txId status stellarTxHash
  | .single topic txId payload => emitSingle env topic txId payload
  | .address topic txId payload => emitAddress env topic txId payload

end Emitters

/-! ## Events as what they tell -/

inductive EventKind
  | init | upgrade | guardianRevoke | relay | fwdIntent | bonded | unbonded | claimed | fail | reg
  | cancel | status | done
  deriving DecidableEq

/-- What an event of the kind tells. -/
abbrev EventKind.Args (Address : Type) : EventKind → Type
  | .init => Address × Address
  | .upgrade => Hash × UInt32
  | .guardianRevoke => Address × Address × Address
  | .relay => Address × Address
  | .fwdIntent => Hash × Address
  | .bonded => Address × BitVec 128 × BitVec 128
  | .unbonded => Address × BitVec 128 × UInt32
  | .claimed => Address × BitVec 128
  | .fail => UInt64 × Str
  | .reg => UInt64
  | .cancel => UInt64 × Str
  | .status => UInt64 × UInt32
  | .done => UInt64 × Hash

/-- An event of one of the kinds, or of the general helpers. -/
inductive Notice (Address Other : Type)
  | known (kind : EventKind) (args : kind.Args Address)
  | general (topic : ScSymbol) (txId : UInt64) (payload : ScVal Address Other)

/-- The notices of a call, in their order. -/
def EmitterCall.notices {Address Other : Type} :
    EmitterCall Address Other → List (Notice Address Other)
  | .contractInitialized admin relaySigner => [.known .init (admin, relaySigner)]
  | .contractUpgraded newWasmHash schemaVersion => [.known .upgrade (newWasmHash, schemaVersion)]
  | .guardianAdminRevoked guardian revokedAdmin newAdmin =>
    [.known .guardianRevoke (guardian, revokedAdmin, newAdmin)]
  | .relaySignerRotated oldSigner newSigner => [.known .relay (oldSigner, newSigner)]
  | .forwardingIntent txId caller => [.known .fwdIntent (txId, caller)]
  | .collateralBonded signer amount total => [.known .bonded (signer, amount, total)]
  | .collateralUnbonded signer amount unlockLedger =>
    [.known .unbonded (signer, amount, unlockLedger)]
  | .unbondClaimed signer amount => [.known .claimed (signer, amount)]
  | .fail txId reason => [.known .fail (txId, reason)]
  | .reg txId => [.known .reg txId]
  | .cancel txId reason => [.known .cancel (txId, reason)]
  | .status txId code => [.known .status (txId, code)]
  | .done txId stellarTxHash => [.known .done (txId, stellarTxHash)]
  | .statusThenDone txId code stellarTxHash =>
    [.known .status (txId, code), .known .done (txId, stellarTxHash)]
  | .single topic txId payload => [.general topic txId payload]
  | .address topic txId payload => [.general topic txId (.address payload)]

namespace EventKind

def topic : EventKind → ScSymbol
  | .init => topicInit
  | .upgrade => upgradeTopic
  | .guardianRevoke => guardianRevokeTopic
  | .relay => relayTopic
  | .fwdIntent => forwardingIntent
  | .bonded => collateralBonded
  | .unbonded => collateralUnbonded
  | .claimed => unbondClaimed
  | .fail => failTopic
  | .reg => regTopic
  | .cancel => cancelTopic
  | .status => topicStatus
  | .done => topicDone

/-- The topics behind the first, and the data. -/
def body {Address Other : Type} :
    (kind : EventKind) → kind.Args Address → List (ScVal Address Other) × ScVal Address Other
  | .init, (admin, relaySigner) => ([], eventContractInitialized admin relaySigner)
  | .upgrade, (newWasmHash, schemaVersion) => ([], eventContractUpgraded newWasmHash schemaVersion)
  | .guardianRevoke, (guardian, revokedAdmin, newAdmin) =>
    ([], eventGuardianAdminRevoked guardian revokedAdmin newAdmin)
  | .relay, (oldSigner, newSigner) => ([], eventRelaySignerRotated oldSigner newSigner)
  | .fwdIntent, (txId, caller) => ([], forwardingIntentVal txId caller)
  | .bonded, (signer, amount, total) =>
    ([.address signer], .vec [i128Val amount, i128Val total])
  | .unbonded, (signer, amount, unlockLedger) =>
    ([.address signer], .vec [i128Val amount, .u32 unlockLedger])
  | .claimed, (signer, amount) => ([.address signer], i128Val amount)
  | .fail, (txId, reason) => ([.u64 txId], .string reason)
  | .reg, txId => ([], .u64 txId)
  | .cancel, (txId, reason) => ([.u64 txId], eventTransactionCancelled txId reason)
  | .status, (txId, code) => ([.u64 txId], .u32 code)
  | .done, (txId, stellarTxHash) => ([.u64 txId], hashVal stellarTxHash)

end EventKind

/-- The event a notice goes out as. -/
def Notice.event {Address Other : Type} :
    Notice Address Other → List (ScVal Address Other) × ScVal Address Other
  | .known kind args => (.symbol kind.topic :: (kind.body args).1, (kind.body args).2)
  | .general topic txId payload => ([.symbol topic, .u64 txId], payload)

theorem emitterStep_eq {Address Other : Type} (env : Log Address Other)
    (call : EmitterCall Address Other) :
    emitterStep env call = env ++ call.notices.map Notice.event := by
  cases call with
  | statusThenDone txId status stellarTxHash => exact List.append_assoc ..
  | _ => rfl

/-! ## The notices can be read off the events -/

def EventKind.all : List EventKind :=
  [.init, .upgrade, .guardianRevoke, .relay, .fwdIntent, .bonded, .unbonded, .claimed, .fail, .reg,
    .cancel, .status, .done]

theorem EventKind.find_topic (kind : EventKind) :
    all.find? (fun kind' => kind'.topic.chars = kind.topic.chars) = some kind := by
  cases kind <;> rfl

theorem EventKind.topic_injective : Function.Injective topic := by
  intro kind kind' h
  have hkind := find_topic kind
  rw [h, find_topic kind'] at hkind
  exact (Option.some.inj hkind).symm

section Reading
variable {Address Other : Type}

theorem EventKind.body_injective (kind : EventKind) :
    Function.Injective (kind.body : kind.Args Address → List (ScVal Address Other) × _) := by
  have hi128 : ∀ n m, (i128Val n : ScVal Address Other) = i128Val m ↔ n = m :=
    fun _ _ => i128Val_injective.eq_iff
  have hhash : ∀ h h', (hashVal h : ScVal Address Other) = hashVal h' ↔ h = h' :=
    fun _ _ => hashVal_injective.eq_iff
  intro args args' h
  cases kind <;>
    simp [body, eventContractInitialized, eventContractUpgraded, eventGuardianAdminRevoked,
      eventRelaySignerRotated, eventTransactionCancelled, forwardingIntentVal, structVal, hi128,
      hhash] at h <;>
    grind

/-- The topics of events that the general helpers share with others. -/
def sharedKinds : List EventKind := [.fail, .cancel, .status, .done]

theorem EventKind.mem_sharedKinds {kind : EventKind} {args : kind.Args Address} {txId : UInt64}
    (h : (kind.body args).1 = [(.u64 txId : ScVal Address Other)]) : kind ∈ sharedKinds := by
  cases kind with
  | fail | cancel | status | done => simp [sharedKinds]
  | _ => cases h

/-- The notice is not one of a general helper under the topic of another helper. -/
def Notice.Proper : Notice Address Other → Prop
  | .known _ _ => True
  | .general topic _ _ => ∀ kind ∈ sharedKinds, topic ≠ kind.topic

theorem Notice.event_inj {notice notice' : Notice Address Other} (hproper : notice.Proper)
    (hproper' : notice'.Proper) (h : notice.event = notice'.event) : notice = notice' := by
  cases notice with
  | known kind args =>
    cases notice' with
    | known kind' args' =>
      simp only [event, Prod.mk.injEq, List.cons.injEq, ScVal.symbol.injEq] at h
      obtain ⟨⟨htopic, htopics⟩, hdata⟩ := h
      obtain rfl := EventKind.topic_injective htopic
      rw [kind.body_injective (Prod.ext htopics hdata)]
    | general topic txId payload =>
      simp only [event, Prod.mk.injEq, List.cons.injEq, ScVal.symbol.injEq] at h
      exact absurd h.1.1.symm (hproper' kind (EventKind.mem_sharedKinds h.1.2))
  | general topic txId payload =>
    cases notice' with
    | known kind' args' =>
      simp only [event, Prod.mk.injEq, List.cons.injEq, ScVal.symbol.injEq] at h
      exact absurd h.1.1 (hproper kind' (EventKind.mem_sharedKinds h.1.2.symm))
    | general topic' txId' payload' =>
      simpa [event, and_assoc] using h

end Reading

/-! ## The event lines of a run of the helpers -/

section Runs
variable {Contract Address Other : Type}

/-- The notices of a run, in their order. -/
def noticesOf (calls : List (EmitterCall Address Other)) : List (Notice Address Other) :=
  calls.flatMap EmitterCall.notices

theorem foldl_emitterStep (calls : List (EmitterCall Address Other)) (env : Log Address Other) :
    calls.foldl emitterStep env = env ++ (noticesOf calls).map Notice.event := by
  induction calls generalizing env with
  | nil => simp [noticesOf]
  | cons call calls ih =>
    rw [List.foldl_cons, ih, emitterStep_eq]
    simp [noticesOf]

/-- The events of a run, as emitted by the contract. -/
def published (contract : Contract) (calls : List (EmitterCall Address Other)) :
    List (PublishedEvent Contract Address Other) :=
  (calls.foldl emitterStep []).map fun event => (contract, event)

theorem noticesOf_append (calls calls' : List (EmitterCall Address Other)) :
    noticesOf (calls ++ calls') = noticesOf calls ++ noticesOf calls' := List.flatMap_append

theorem published_snd (contract : Contract) (calls : List (EmitterCall Address Other)) :
    (published contract calls).map Prod.snd = (noticesOf calls).map Notice.event := by
  rw [published, foldl_emitterStep, List.map_map, List.nil_append]
  exact List.map_id _

theorem map_event_inj {notices notices' : List (Notice Address Other)}
    (h : ∀ n ∈ notices, n.Proper) (h' : ∀ n ∈ notices', n.Proper)
    (heq : notices.map Notice.event = notices'.map Notice.event) : notices = notices' := by
  induction notices generalizing notices' with
  | nil => exact (List.map_eq_nil_iff.mp heq.symm).symm
  | cons n notices ih =>
    cases notices' with
    | nil => cases heq
    | cons n' notices' =>
      obtain ⟨hn, hrest⟩ := List.cons.inj heq
      rw [Notice.event_inj (h n (by simp)) (h' n' (by simp)) hn,
        ih (fun m hm => h m (List.mem_cons_of_mem n hm))
          (fun m hm => h' m (List.mem_cons_of_mem n' hm)) hrest]

end Runs

/-- **The event lines tell the calls.** Two runs of the helpers leave the same lines exactly if
they make the same notices in the same order: the kind, the ids, the amounts and the reasons
can all be read back, and a failure is never taken for a cancellation. -/
theorem emitted_events_faithful {Contract Address Other : Type} (shown : Displays Address Other)
    {toXdr : ScVal Address Other → List UInt8} {wire : Set (ScVal Address Other)}
    (hxdr : Set.InjOn toXdr wire) (contract contract' : Contract)
    {calls calls' : List (EmitterCall Address Other)}
    (hwire : ∀ n ∈ noticesOf (calls ++ calls'), OnWire wire n.event)
    (hproper : ∀ n ∈ noticesOf (calls ++ calls'), n.Proper) :
    renderLastEvents shown toXdr (published contract calls) =
        renderLastEvents shown toXdr (published contract' calls') ↔
      noticesOf calls = noticesOf calls' := by
  simp only [noticesOf_append, List.mem_append, or_imp, forall_and] at hwire hproper
  have hevents : ∀ (c : Contract) {cs : List (EmitterCall Address Other)},
      (∀ n ∈ noticesOf cs, OnWire wire n.event) → ∀ e ∈ published c cs, OnWire wire e.2 := by
    intro c cs hcs e he
    have hmem := List.mem_map_of_mem he (f := Prod.snd)
    rw [published_snd] at hmem
    obtain ⟨n, hn, heq⟩ := List.mem_map.mp hmem
    rw [← heq]
    exact hcs n hn
  constructor
  · intro h
    have hsame := renderLastEvents_inj hxdr (hevents contract hwire.1) (hevents contract' hwire.2) h
    rw [published_snd, published_snd] at hsame
    exact map_event_inj hproper.1 hproper.2 hsame
  · intro h
    rw [renderLastEvents_eq, renderLastEvents_eq, published_snd, published_snd, h]

/-! The fixture has registrations only, under the XDR encoding of their events. -/

def xdrRegistration : ScVal Unit Empty → List UInt8
  | .u64 n => xdrWord 5 ++ (xdrWord (n >>> 32).toUInt32 ++ xdrWord n.toUInt32)
  | .vec [.symbol s] => xdrWord 16 ++ xdrWord 1 ++ xdrWord 1 ++ xdrSymbol s
  | _ => []

theorem xdrRegistration_injOn : Set.InjOn xdrRegistration
    {v | v = .vec [.symbol regTopic] ∨ v = .u64 1 ∨ v = .u64 2} := by
  rintro v (rfl | rfl | rfl) w (rfl | rfl | rfl) h <;> first | rfl | exact absurd h (by decide)

theorem emitted_events_faithful_fixture :
    renderLastEvents testDisplays xdrRegistration (published 7 [.reg 1, .reg 2]) ≠
      renderLastEvents testDisplays xdrRegistration (published 7 [.reg 2, .reg 1]) := by
  intro hsame
  have hnotices := (emitted_events_faithful testDisplays xdrRegistration_injOn 7 7
    (by simp [noticesOf, EmitterCall.notices, OnWire, Notice.event, EventKind.topic,
      EventKind.body])
    (by simp [noticesOf, EmitterCall.notices, Notice.Proper])).mp hsame
  simp [noticesOf, EmitterCall.notices] at hnotices

end Events

end Synapse
