import SynapseCore.Contract.Types
import SynapseCore.Foundation.Tally

/-! The relay-signer set, its approval threshold and the approvals of relay
calls. The undefined `get_relay_signer_set`, and the optional threshold that
`relay_threshold` matches on, are read as the values stored under their keys. -/

namespace Synapse
variable {TxId Address : Type}

def getAdmin (σ : Storage TxId Address) : Option Address := σ.persistent.get .admin

def getRelaySigner (σ : Storage TxId Address) : Option Address := σ.inst.get .relaySigner

def getRelaySignerSet (σ : Storage TxId Address) : Option (List Address) :=
  σ.inst.get .relaySigners

def relaySignerSet (σ : Storage TxId Address) : List Address :=
  match getRelaySignerSet σ with
  | some set => set
  | none =>
    match getRelaySigner σ with
    | some signer => [signer]
    | none => []

def getRelaySigners (σ : Storage TxId Address) : List Address :=
  match σ.inst.get .relaySigners with
  | some signers => signers
  | none =>
    match σ.inst.get .relaySigner with
    | some signer => [signer]
    | none => []

def storedRelayThreshold (σ : Storage TxId Address) : Option UInt32 := σ.inst.get .relayThreshold

def relayThreshold (σ : Storage TxId Address) : UInt32 :=
  match storedRelayThreshold σ with
  | some threshold => threshold
  | none => if (getRelaySigner σ).isSome then 1 else 0

def getRelayThreshold (σ : Storage TxId Address) : UInt32 := (σ.inst.get .relayThreshold).getD 1

def getRelayApprovals (σ : Storage TxId Address) (callId : UInt64) : List Address :=
  (σ.temporary.get (.relayApprovals callId)).getD []

variable [DecidableEq TxId] [DecidableEq Address]

def setAdmin (σ : Storage TxId Address) (admin : Address) : Storage TxId Address :=
  σ.setPersistent .admin admin

def addRelaySigner (auth : Address → Bool) (σ : Storage TxId Address)
    (caller newSigner : Address) : Storage TxId Address × Outcome Error Unit :=
  if !auth caller then (σ, none) -- `require_auth` traps
  else
    match σ.inst.get .admin with
    | none => (σ, some (.error .notInitialized))
    | some admin =>
      if caller ≠ admin then (σ, some (.error .unauthorized))
      else
        let signers := getRelaySigners σ
        if newSigner ∈ signers then (σ, some (.error .signerAlreadyExists))
        else
          ((σ.setInst .relaySigners (signers ++ [newSigner])).publish (.relaySignerAdded newSigner),
            some (.ok ()))

def approveRelayCall (auth : Address → Bool) (σ : Storage TxId Address) (callId : UInt64)
    (caller : Address) : Storage TxId Address × Outcome Error Bool :=
  if !auth caller then (σ, none)
  else if caller ∉ getRelaySigners σ then (σ, some (.error .unauthorized))
  else
    let approvals := getRelayApprovals σ callId
    let approvals := if caller ∈ approvals then approvals else approvals ++ [caller]
    let threshold := getRelayThreshold σ
    let quorumMet := decide (approvals.length ≥ threshold.toNat)
    if quorumMet then (σ.removeTemporary (.relayApprovals callId), some (.ok quorumMet))
    else (σ.setTemporary (.relayApprovals callId) approvals, some (.ok quorumMet))

/-! The calls a run is made of. `set_relay_threshold` is a helper whose body is not
in the tree, so it appears as a rewrite of the stored value; the network may evict
temporary approvals at any time. -/

inductive RelayCall (Address : Type)
  | addRelaySigner (auth : Address → Bool) (caller newSigner : Address)
  | approveRelayCall (auth : Address → Bool) (callId : UInt64) (caller : Address)
  | setRelayThreshold (threshold : UInt32)
  | evictApprovals (callId : UInt64)
  | setAdmin (admin : Address)

inductive RelayAnswer
  | added (outcome : Outcome Error Unit)
  | approved (outcome : Outcome Error Bool)
  | done
  deriving DecidableEq

def relayStep (σ : Storage TxId Address) :
    RelayCall Address → Storage TxId Address × RelayAnswer
  | .addRelaySigner auth caller newSigner =>
    ((addRelaySigner auth σ caller newSigner).1, .added (addRelaySigner auth σ caller newSigner).2)
  | .approveRelayCall auth callId caller =>
    ((approveRelayCall auth σ callId caller).1, .approved (approveRelayCall auth σ callId caller).2)
  | .setRelayThreshold threshold => (σ.setInst .relayThreshold threshold, .done)
  | .evictApprovals callId => (σ.removeTemporary (.relayApprovals callId), .done)
  | .setAdmin admin => (setAdmin σ admin, .done)

/-! ## What one call can do -/

section Cases
variable {σ : Storage TxId Address} {auth : Address → Bool}

theorem addRelaySigner_of_fresh {caller newSigner : Address} (hauth : auth caller = true)
    (hfresh : newSigner ∉ getRelaySigners σ) :
    (addRelaySigner auth σ caller newSigner).2 =
      match σ.inst.get .admin with
      | none => some (.error .notInitialized)
      | some admin => if caller = admin then some (.ok ()) else some (.error .unauthorized) := by
  unfold addRelaySigner
  rw [hauth]
  cases hadmin : σ.inst.get .admin with
  | none => rfl
  | some admin =>
    by_cases hcaller : caller = admin
    · simp [hcaller, hfresh]
    · simp [hcaller]

theorem addRelaySigner_cases (auth : Address → Bool) (σ : Storage TxId Address)
    (caller newSigner : Address) :
    (newSigner ∉ getRelaySigners σ ∧ addRelaySigner auth σ caller newSigner =
      ((σ.setInst .relaySigners (getRelaySigners σ ++ [newSigner])).publish
        (.relaySignerAdded newSigner), some (.ok ()))) ∨
    ((addRelaySigner auth σ caller newSigner).1 = σ ∧
      (addRelaySigner auth σ caller newSigner).2 ≠ some (.ok ())) := by
  unfold addRelaySigner
  cases hauth : auth caller with
  | false => exact .inr ⟨rfl, by simp⟩
  | true =>
    cases hadmin : σ.inst.get .admin with
    | none => exact .inr ⟨rfl, by simp⟩
    | some admin =>
      by_cases hcaller : caller = admin
      · by_cases hmem : newSigner ∈ getRelaySigners σ
        · right
          simp [hcaller, hmem]
        · left
          exact ⟨hmem, by simp [hcaller, hmem]⟩
      · right
        simp [hcaller]

theorem addRelaySigner_of_refused {caller newSigner : Address}
    (h : (addRelaySigner auth σ caller newSigner).2 ≠ some (.ok ())) :
    (addRelaySigner auth σ caller newSigner).1 = σ := by
  rcases addRelaySigner_cases auth σ caller newSigner with ⟨_, hstep⟩ | ⟨hsame, _⟩
  · rw [hstep] at h
    exact absurd rfl h
  · exact hsame

theorem getRelaySigners_of_added {caller newSigner : Address}
    (h : (addRelaySigner auth σ caller newSigner).2 = some (.ok ())) :
    newSigner ∉ getRelaySigners σ ∧
      getRelaySigners (addRelaySigner auth σ caller newSigner).1 =
        getRelaySigners σ ++ [newSigner] := by
  rcases addRelaySigner_cases auth σ caller newSigner with ⟨hfresh, hstep⟩ | ⟨_, hnot⟩
  · refine ⟨hfresh, ?_⟩
    rw [hstep]
    simp [getRelaySigners]
  · exact absurd h hnot

theorem addRelaySigner_frame (auth : Address → Bool) (σ : Storage TxId Address)
    (caller newSigner : Address) :
    (addRelaySigner auth σ caller newSigner).1.persistent = σ.persistent ∧
    (addRelaySigner auth σ caller newSigner).1.temporary = σ.temporary := by
  rcases addRelaySigner_cases auth σ caller newSigner with ⟨_, hstep⟩ | ⟨hsame, _⟩
  · rw [hstep]
    exact ⟨rfl, rfl⟩
  · rw [hsame]
    exact ⟨rfl, rfl⟩

/-- The call counts as a vote: its caller authorised it and is a signer. -/
def Votes (auth : Address → Bool) (σ : Storage TxId Address) (caller : Address) : Prop :=
  auth caller = true ∧ caller ∈ getRelaySigners σ

instance (auth : Address → Bool) (σ : Storage TxId Address) (caller : Address) :
    Decidable (Votes auth σ caller) :=
  inferInstanceAs (Decidable (auth caller = true ∧ caller ∈ getRelaySigners σ))

theorem approveRelayCall_of_not_votes {caller : Address} (h : ¬ Votes auth σ caller)
    (callId : UInt64) :
    approveRelayCall auth σ callId caller =
      (σ, if auth caller then some (.error .unauthorized) else none) := by
  unfold approveRelayCall
  cases hauth : auth caller with
  | false => rfl
  | true =>
    have hmem : caller ∉ getRelaySigners σ := fun hmem => h ⟨hauth, hmem⟩
    simp [hmem]

/-- The ballot of `callId` once `caller` has voted on it, and whether that was quorum. -/
def tallied (σ : Storage TxId Address) (callId : UInt64) (caller : Address) :
    List Address × Bool :=
  Tally.cast (getRelayThreshold σ).toNat (getRelayApprovals σ callId) caller

theorem approveRelayCall_of_votes {caller : Address} (h : Votes auth σ caller)
    (callId : UInt64) :
    approveRelayCall auth σ callId caller =
      if (tallied σ callId caller).2 then
        (σ.removeTemporary (.relayApprovals callId), some (.ok true))
      else (σ.setTemporary (.relayApprovals callId) (tallied σ callId caller).1,
        some (.ok false)) := by
  obtain ⟨hauth, hmem⟩ := h
  have hrecord : (if caller ∈ getRelayApprovals σ callId then getRelayApprovals σ callId
      else getRelayApprovals σ callId ++ [caller]) =
        Tally.record (getRelayApprovals σ callId) caller := rfl
  simp only [approveRelayCall, hauth, hmem, hrecord, tallied, Tally.cast]
  by_cases hquorum : (getRelayThreshold σ).toNat ≤
      (Tally.record (getRelayApprovals σ callId) caller).length
  · simp [hquorum]
  · simp [hquorum]

theorem approveRelayCall_answer {caller : Address} (h : Votes auth σ caller)
    (callId : UInt64) :
    (approveRelayCall auth σ callId caller).2 = some (.ok (tallied σ callId caller).2) := by
  rw [approveRelayCall_of_votes h]
  split_ifs with hquorum
  · rw [hquorum]
  · rw [Bool.not_eq_true] at hquorum
    rw [hquorum]

theorem getRelayApprovals_approveRelayCall {caller : Address} (h : Votes auth σ caller)
    (callId callId' : UInt64) :
    getRelayApprovals (approveRelayCall auth σ callId caller).1 callId' =
      if callId' = callId then (tallied σ callId caller).1 else getRelayApprovals σ callId' := by
  rw [approveRelayCall_of_votes h]
  by_cases hid : callId' = callId
  · subst hid
    rw [if_pos rfl]
    split_ifs with hquorum
    · have hempty : (tallied σ callId' caller).1 = [] := Tally.cast_emptied hquorum
      simp [getRelayApprovals, hempty]
    · simp [getRelayApprovals]
  · rw [if_neg hid]
    split_ifs <;> simp [getRelayApprovals, hid]

theorem approveRelayCall_frame (auth : Address → Bool) (σ : Storage TxId Address)
    (callId : UInt64) (caller : Address) :
    (approveRelayCall auth σ callId caller).1.inst = σ.inst ∧
    (approveRelayCall auth σ callId caller).1.persistent = σ.persistent ∧
    (approveRelayCall auth σ callId caller).1.events = σ.events := by
  by_cases h : Votes auth σ caller
  · rw [approveRelayCall_of_votes h]
    split_ifs <;> exact ⟨rfl, rfl, rfl⟩
  · rw [approveRelayCall_of_not_votes h]
    exact ⟨rfl, rfl, rfl⟩

end Cases

/-! ## The signer set and the approvals under one call -/

section Steps
variable (σ : Storage TxId Address)

omit [DecidableEq TxId] [DecidableEq Address] in
theorem getRelaySigners_congr {σ σ' : Storage TxId Address} (h : σ'.inst = σ.inst) :
    getRelaySigners σ' = getRelaySigners σ := by
  unfold getRelaySigners
  rw [h]

omit [DecidableEq Address] in
theorem getRelaySigners_setThreshold (threshold : UInt32) :
    getRelaySigners (σ.setInst .relayThreshold threshold) = getRelaySigners σ := by
  simp [getRelaySigners]

/-- Of the instance tier a call writes the signer set and the threshold only, and the
threshold only where it is rewritten. -/
theorem inst_relayStep (call : RelayCall Address) {key : DataKey TxId} (hkey : key ≠ .relaySigners)
    (hcall : ∀ threshold, call = .setRelayThreshold threshold → key ≠ .relayThreshold) :
    (relayStep σ call).1.inst.get key = σ.inst.get key := by
  cases call with
  | addRelaySigner auth caller newSigner =>
    dsimp only [relayStep]
    rcases addRelaySigner_cases auth σ caller newSigner with ⟨_, hstep⟩ | ⟨hsame, _⟩
    · rw [hstep]
      exact Tier.get_set_of_ne _ hkey _
    · rw [hsame]
  | approveRelayCall auth callId caller =>
    dsimp only [relayStep]
    rw [(approveRelayCall_frame auth σ callId caller).1]
  | setRelayThreshold threshold => exact Tier.get_set_of_ne _ (hcall threshold rfl) _
  | evictApprovals callId => rfl
  | setAdmin admin => rfl

theorem getRelaySigners_relayStep (call : RelayCall Address) :
    (∃ auth caller newSigner, call = .addRelaySigner auth caller newSigner ∧
      (relayStep σ call).2 = .added (some (.ok ())) ∧ newSigner ∉ getRelaySigners σ ∧
      getRelaySigners (relayStep σ call).1 = getRelaySigners σ ++ [newSigner]) ∨
    ((relayStep σ call).2 ≠ .added (some (.ok ())) ∧
      getRelaySigners (relayStep σ call).1 = getRelaySigners σ) := by
  cases call with
  | addRelaySigner auth caller newSigner =>
    by_cases hok : (addRelaySigner auth σ caller newSigner).2 = some (.ok ())
    · left
      obtain ⟨hfresh, hgrown⟩ := getRelaySigners_of_added hok
      exact ⟨auth, caller, newSigner, rfl, congrArg RelayAnswer.added hok, hfresh, hgrown⟩
    · right
      have hsame := addRelaySigner_of_refused hok
      refine ⟨fun hadded => hok (RelayAnswer.added.inj hadded), ?_⟩
      exact congrArg getRelaySigners hsame
  | approveRelayCall auth callId caller =>
    have hinst := (approveRelayCall_frame auth σ callId caller).1
    exact .inr ⟨by simp [relayStep], getRelaySigners_congr hinst⟩
  | setRelayThreshold threshold =>
    exact .inr ⟨by simp [relayStep], getRelaySigners_setThreshold σ threshold⟩
  | evictApprovals callId => exact .inr ⟨by simp [relayStep], rfl⟩
  | setAdmin admin => exact .inr ⟨by simp [relayStep], rfl⟩

theorem getRelaySigners_prefix_relayStep (call : RelayCall Address) :
    getRelaySigners σ <+: getRelaySigners (relayStep σ call).1 := by
  rcases getRelaySigners_relayStep σ call with ⟨_, _, newSigner, _, _, _, hgrown⟩ | ⟨_, hsame⟩
  · rw [hgrown]
    exact List.prefix_append ..
  · rw [hsame]

theorem getRelayApprovals_addRelaySigner (auth : Address → Bool) (caller newSigner : Address)
    (callId : UInt64) :
    getRelayApprovals (addRelaySigner auth σ caller newSigner).1 callId =
      getRelayApprovals σ callId := by
  have hframe := (addRelaySigner_frame auth σ caller newSigner).2
  rw [getRelayApprovals, hframe, getRelayApprovals]

omit [DecidableEq Address] in
theorem getRelayApprovals_evict (callId callId' : UInt64) :
    getRelayApprovals (σ.removeTemporary (.relayApprovals callId)) callId' =
      if callId' = callId then [] else getRelayApprovals σ callId' := by
  by_cases hid : callId' = callId
  · subst hid
    simp [getRelayApprovals]
  · simp [getRelayApprovals, hid]

end Steps

end Synapse
