import SynapseCore.Contract.RelaySigners

/-! How often a relay call can reach quorum. Its approvals are dropped when it
does, and nothing remembers that it did. -/

namespace Synapse
open Machine
variable {TxId Address : Type} [DecidableEq TxId] [DecidableEq Address]

/-- The calls that are entry points of the contract, and not rewrites of its storage. -/
def RelayCall.IsEntryPoint : RelayCall Address → Prop
  | addRelaySigner _ _ _ => True
  | approveRelayCall _ _ _ => True
  | _ => False

/-- The answer `Ok(true)` on `callId`. -/
def answersQuorum (callId : UInt64) : RelayCall Address × RelayAnswer → Bool
  | (.approveRelayCall _ callId' _, .approved (some (.ok true))) => decide (callId' = callId)
  | _ => false

/-- The signer whose vote on `callId` the call carries, if it does. -/
def voteOn (callId : UInt64) (σ : Storage TxId Address) : RelayCall Address → Option Address
  | .approveRelayCall auth callId' caller =>
    if callId' = callId ∧ Votes auth σ caller then some caller else none
  | _ => none

/-- The signers voting on `callId` along a run, in order. -/
def memberVotes (callId : UInt64) (σ : Storage TxId Address) (calls : List (RelayCall Address)) :
    List Address :=
  heard relayStep (voteOn callId) σ calls

/-- The call is a vote on `callId` that brings the approvals to the threshold. -/
def ReachesQuorum (callId : UInt64) (σ : Storage TxId Address) (call : RelayCall Address) : Prop :=
  ∃ signer, voteOn callId σ call = some signer ∧
    (getRelayThreshold σ).toNat ≤ (Tally.record (getRelayApprovals σ callId) signer).length

section Votes
variable {σ : Storage TxId Address} {callId : UInt64}

omit [DecidableEq TxId] in
theorem voteOn_eq_some {call : RelayCall Address} {signer : Address} :
    voteOn callId σ call = some signer ↔
      ∃ auth, call = .approveRelayCall auth callId signer ∧ Votes auth σ signer := by
  cases call with
  | approveRelayCall auth callId' caller =>
    constructor
    · intro h
      dsimp only [voteOn] at h
      split_ifs at h with hvote
      obtain rfl := Option.some.inj h
      obtain ⟨rfl, hvotes⟩ := hvote
      exact ⟨auth, rfl, hvotes⟩
    · rintro ⟨_, ⟨⟩, hvotes⟩
      exact if_pos ⟨rfl, hvotes⟩
  | _ => simp [voteOn]

theorem getRelayThreshold_relayStep {call : RelayCall Address} (hcall : call.IsEntryPoint) :
    getRelayThreshold (relayStep σ call).1 = getRelayThreshold σ := by
  have hstored := @inst_relayStep _ _ _ _ σ call .relayThreshold (by simp) (by
    rintro threshold rfl
    exact hcall.elim)
  rw [getRelayThreshold, hstored, getRelayThreshold]

theorem getRelayThreshold_after {calls : List (RelayCall Address)}
    (hcalls : ∀ call ∈ calls, call.IsEntryPoint) :
    getRelayThreshold (after relayStep σ calls) = getRelayThreshold σ := by
  apply after_invariant_of_forall relayStep RelayCall.IsEntryPoint
    (fun τ => getRelayThreshold τ = getRelayThreshold σ)
  · intro τ call hcall hτ
    rw [getRelayThreshold_relayStep hcall, hτ]
  · exact hcalls
  · rfl

theorem relayStep_of_vote {call : RelayCall Address} {signer : Address}
    (h : voteOn callId σ call = some signer) :
    getRelayApprovals (relayStep σ call).1 callId = (tallied σ callId signer).1 ∧
    answersQuorum callId (call, (relayStep σ call).2) = (tallied σ callId signer).2 := by
  obtain ⟨auth, rfl, hvotes⟩ := voteOn_eq_some.mp h
  constructor
  · have happrovals := getRelayApprovals_approveRelayCall hvotes callId callId
    rw [if_pos rfl] at happrovals
    exact happrovals
  · have hanswer := approveRelayCall_answer hvotes callId
    dsimp only [relayStep]
    rw [hanswer]
    cases (tallied σ callId signer).2 with
    | true => exact decide_eq_true rfl
    | false => rfl

theorem relayStep_of_no_vote {call : RelayCall Address} (hcall : call.IsEntryPoint)
    (h : voteOn callId σ call = none) :
    getRelayApprovals (relayStep σ call).1 callId = getRelayApprovals σ callId ∧
    answersQuorum callId (call, (relayStep σ call).2) = false := by
  cases call with
  | addRelaySigner auth caller newSigner =>
    exact ⟨getRelayApprovals_addRelaySigner σ auth caller newSigner callId, rfl⟩
  | approveRelayCall auth callId' caller =>
    dsimp only [relayStep]
    by_cases hvotes : Votes auth σ caller
    · have hid : callId' ≠ callId := by
        rintro rfl
        rw [voteOn, if_pos ⟨rfl, hvotes⟩] at h
        cases h
      rw [getRelayApprovals_approveRelayCall hvotes, if_neg (Ne.symm hid),
        approveRelayCall_answer hvotes]
      refine ⟨rfl, ?_⟩
      cases (tallied σ callId' caller).2 with
      | true => exact decide_eq_false hid
      | false => rfl
    · rw [approveRelayCall_of_not_votes hvotes]
      refine ⟨rfl, ?_⟩
      cases auth caller <;> rfl
  | _ => exact hcall.elim

theorem answersQuorum_iff {call : RelayCall Address} (hcall : call.IsEntryPoint) :
    answersQuorum callId (call, (relayStep σ call).2) = true ↔ ReachesQuorum callId σ call := by
  cases hvote : voteOn callId σ call with
  | none =>
    rw [(relayStep_of_no_vote hcall hvote).2]
    simp [ReachesQuorum, hvote]
  | some signer =>
    rw [(relayStep_of_vote hvote).2, tallied, Tally.cast_quorum_iff]
    simp [ReachesQuorum, hvote]

theorem getRelayApprovals_of_reachesQuorum {call : RelayCall Address}
    (h : ReachesQuorum callId σ call) : getRelayApprovals (relayStep σ call).1 callId = [] := by
  obtain ⟨signer, hvote, hquorum⟩ := h
  rw [(relayStep_of_vote hvote).1, tallied, Tally.cast_quorum hquorum]

/-- Along entry-point calls the ballot of `callId` runs as a tally of its signers' votes. -/
theorem countP_answersQuorum {calls : List (RelayCall Address)}
    (hcalls : ∀ call ∈ calls, call.IsEntryPoint) :
    (transcript relayStep σ calls).countP (answersQuorum callId) =
      (transcript (Tally.cast (getRelayThreshold σ).toNat) (getRelayApprovals σ callId)
        (memberVotes callId σ calls)).countP fun entry => entry.2 := by
  apply countP_transcript_heard
    (R := fun τ ballot => getRelayThreshold τ = getRelayThreshold σ ∧
      getRelayApprovals τ callId = ballot)
    RelayCall.IsEntryPoint (voteOn callId)
  · rintro τ _ call hcall ⟨hthreshold, rfl⟩ hquiet
    obtain ⟨hballot, hanswer⟩ := relayStep_of_no_vote hcall hquiet
    exact ⟨⟨(getRelayThreshold_relayStep hcall).trans hthreshold, hballot⟩, hanswer⟩
  · rintro τ _ call signer hcall ⟨hthreshold, rfl⟩ hvote
    obtain ⟨hballot, hanswer⟩ := relayStep_of_vote hvote
    rw [tallied, hthreshold] at hballot hanswer
    exact ⟨⟨(getRelayThreshold_relayStep hcall).trans hthreshold, hballot⟩, hanswer⟩
  · exact ⟨rfl, rfl⟩
  · exact hcalls

end Votes

/-- **A relay call reaches quorum at most once exactly when it is not voted through
again.** After a vote that reaches quorum, that takes as many distinct signers as the
threshold asks for, and at least one. -/
theorem quorum_at_most_once_iff (σ : Storage TxId Address) (callId : UInt64)
    (calls : List (RelayCall Address)) (hcalls : ∀ call ∈ calls, call.IsEntryPoint) :
    (transcript relayStep σ calls).countP (answersQuorum callId) ≤ 1 ↔
      ∀ pre call post, calls = pre ++ call :: post →
        ReachesQuorum callId (after relayStep σ pre) call →
          (memberVotes callId (after relayStep σ (pre ++ [call])) post).toFinset.card <
            max 1 (getRelayThreshold σ).toNat := by
  have hcut : ∀ pre call post, calls = pre ++ call :: post →
      ((answersQuorum callId (call, (relayStep (after relayStep σ pre) call).2) = true →
        (transcript relayStep (after relayStep σ (pre ++ [call])) post).countP
          (answersQuorum callId) = 0) ↔
      (ReachesQuorum callId (after relayStep σ pre) call →
        (memberVotes callId (after relayStep σ (pre ++ [call])) post).toFinset.card <
          max 1 (getRelayThreshold σ).toNat)) := by
    rintro pre call post rfl
    have hcall : call.IsEntryPoint := hcalls call (by simp)
    have hpre : ∀ i ∈ pre ++ [call], i.IsEntryPoint := fun i hi => hcalls i (by
      rw [List.append_cons]
      exact List.mem_append_left _ hi)
    have hpost : ∀ i ∈ post, i.IsEntryPoint := fun i hi => hcalls i (by simp [hi])
    rw [answersQuorum_iff hcall]
    apply imp_congr_right
    intro hreaches
    -- quorum empties the ballot, so the votes behind it are tallied from nothing
    have hempty := getRelayApprovals_of_reachesQuorum hreaches
    rw [← after_concat] at hempty
    rw [countP_answersQuorum hpost, getRelayThreshold_after hpre, hempty,
      Tally.no_quorum_from_empty_iff]
  rw [countP_transcript_le_one_iff]
  constructor
  · intro h pre call post hsplit
    exact (hcut pre call post hsplit).mp (h pre call post hsplit)
  · intro h pre call post hsplit
    exact (hcut pre call post hsplit).mpr (h pre call post hsplit)

def quorumStore : Storage Nat Nat :=
  ((Ledger.empty : Storage Nat Nat).setInst .relaySigners [7, 8]).setInst .relayThreshold 2

def approval (caller : Nat) : RelayCall Nat := .approveRelayCall (fun _ => true) 1 caller

theorem quorum_at_most_once_iff_fixture :
    (memberVotes 1 (after relayStep quorumStore [approval 7, approval 8])
      [approval 7, approval 7, approval 9]).toFinset.card < max 1 2 :=
  (quorum_at_most_once_iff quorumStore 1
    [approval 7, approval 8, approval 7, approval 7, approval 9]
    (by simp [approval, RelayCall.IsEntryPoint])).mp (by decide) [approval 7] (approval 8) _ rfl
    ⟨8, rfl, by decide⟩

theorem quorum_at_most_once_counterexample :
    ¬ ∀ (σ : Storage Nat Nat) (callId : UInt64) (calls : List (RelayCall Nat)),
      (∀ call ∈ calls, call.IsEntryPoint) →
        (transcript relayStep σ calls).countP (answersQuorum callId) ≤ 1 := by
  intro h
  have htwice := h quorumStore 1 [approval 7, approval 8, approval 8, approval 7]
    (by simp [approval, RelayCall.IsEntryPoint])
  have hcount : (transcript relayStep quorumStore
      [approval 7, approval 8, approval 8, approval 7]).countP (answersQuorum 1) = 2 := rfl
  omega

end Synapse
