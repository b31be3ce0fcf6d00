import SynapseCore.Contract.RelayQuorum

/-! What the stored approvals list. The set of signers who have approved a call is
read off the answers alone; the storage turns out to hold exactly that set. -/

namespace Synapse
open Machine
variable {TxId Address : Type} [DecidableEq TxId] [DecidableEq Address]

/-- Keep account of one answer: who has approved which call since it last reached
quorum or lost its approvals to an eviction. -/
def noteAnswer (approved : UInt64 → Finset Address) :
    RelayCall Address × RelayAnswer → UInt64 → Finset Address
  | (.approveRelayCall _ callId _, .approved (some (.ok true))) =>
    Function.update approved callId ∅
  | (.approveRelayCall _ callId caller, .approved (some (.ok false))) =>
    Function.update approved callId (insert caller (approved callId))
  | (.evictApprovals callId, _) => Function.update approved callId ∅
  | _ => approved

def approvedSince (entries : List (RelayCall Address × RelayAnswer)) : UInt64 → Finset Address :=
  entries.foldl noteAnswer fun _ => ∅

/-- The stored approvals list the approved sets, each signer once, and name only members. -/
structure Tallied (σ : Storage TxId Address) (approved : UInt64 → Finset Address) : Prop where
  nodup : ∀ callId, (getRelayApprovals σ callId).Nodup
  lists : ∀ callId, (getRelayApprovals σ callId).toFinset = approved callId
  members : ∀ callId, ∀ signer ∈ approved callId, signer ∈ getRelaySigners σ

section Steps
variable {σ : Storage TxId Address} {approved : UInt64 → Finset Address}

omit [DecidableEq TxId] in
theorem Tallied.of_no_approvals (h : ∀ callId, getRelayApprovals σ callId = []) :
    Tallied σ fun _ => ∅ where
  nodup callId := by
    rw [h]
    exact List.nodup_nil
  lists callId := by
    rw [h]
    rfl
  members callId signer hmem := absurd hmem (Finset.notMem_empty signer)

omit [DecidableEq TxId] in
theorem Tallied.mono {σ' : Storage TxId Address} (h : Tallied σ approved)
    (happrovals : ∀ callId, getRelayApprovals σ' callId = getRelayApprovals σ callId)
    (hsigners : getRelaySigners σ ⊆ getRelaySigners σ') : Tallied σ' approved where
  nodup callId := by
    rw [happrovals]
    exact h.nodup callId
  lists callId := by
    rw [happrovals]
    exact h.lists callId
  members callId signer hmem := hsigners (h.members callId signer hmem)

omit [DecidableEq TxId] in
theorem Tallied.rewrite {σ' : Storage TxId Address} (h : Tallied σ approved) {callId : UInt64}
    {ballot : List Address} {voters : Finset Address}
    (happrovals : ∀ callId', getRelayApprovals σ' callId' =
      if callId' = callId then ballot else getRelayApprovals σ callId')
    (hsigners : getRelaySigners σ' = getRelaySigners σ) (hnodup : ballot.Nodup)
    (hlists : ballot.toFinset = voters) (hmembers : ∀ signer ∈ voters, signer ∈ getRelaySigners σ) :
    Tallied σ' (Function.update approved callId voters) := by
  refine ⟨fun callId' => ?_, fun callId' => ?_, fun callId' signer hmem => ?_⟩
  · rw [happrovals]
    split_ifs
    · exact hnodup
    · exact h.nodup callId'
  · rw [happrovals]
    split_ifs with hid
    · rw [hid, Function.update_self, hlists]
    · rw [Function.update_of_ne hid, h.lists]
  · rw [hsigners]
    by_cases hid : callId' = callId
    · rw [hid, Function.update_self] at hmem
      exact hmembers signer hmem
    · rw [Function.update_of_ne hid] at hmem
      exact h.members callId' signer hmem

omit [DecidableEq TxId] in
theorem Tallied.record_toFinset (h : Tallied σ approved) (callId : UInt64) (caller : Address) :
    (Tally.record (getRelayApprovals σ callId) caller).toFinset =
      insert caller (approved callId) := by
  rw [Tally.record_toFinset, h.lists]

omit [DecidableEq TxId] in
theorem Tallied.quorum_iff (h : Tallied σ approved) (callId : UInt64) (caller : Address) :
    (tallied σ callId caller).2 = true ↔
      (getRelayThreshold σ).toNat ≤ (insert caller (approved callId)).card := by
  rw [tallied, Tally.cast_quorum_iff, Tally.record_length (h.nodup callId), h.lists]

theorem tallied_approveRelayCall (h : Tallied σ approved) (auth : Address → Bool)
    (callId : UInt64) (caller : Address) :
    Tallied (relayStep σ (.approveRelayCall auth callId caller)).1
      (noteAnswer approved (.approveRelayCall auth callId caller,
        (relayStep σ (.approveRelayCall auth callId caller)).2)) := by
  dsimp only [relayStep]
  by_cases hvotes : Votes auth σ caller
  · have hinst := (approveRelayCall_frame auth σ callId caller).1
    have hsigners := getRelaySigners_congr hinst
    have happrovals := getRelayApprovals_approveRelayCall hvotes callId
    rw [approveRelayCall_answer hvotes]
    cases hquorum : (tallied σ callId caller).2 with
    | true =>
      -- quorum empties the stored ballot and the account alike
      have hempty : (tallied σ callId caller).1 = [] := Tally.cast_emptied hquorum
      rw [hempty] at happrovals
      exact h.rewrite happrovals hsigners List.nodup_nil rfl (by simp)
    | false =>
      have hballot : (tallied σ callId caller).1 =
          Tally.record (getRelayApprovals σ callId) caller := by
        have hshort : ¬ (getRelayThreshold σ).toNat ≤
            (Tally.record (getRelayApprovals σ callId) caller).length := by
          rw [← Tally.cast_quorum_iff]
          exact Bool.not_eq_true _ ▸ hquorum
        rw [tallied, Tally.cast_short hshort]
      rw [hballot] at happrovals
      apply h.rewrite happrovals hsigners (Tally.record_nodup (h.nodup callId) caller)
        (h.record_toFinset callId caller)
      intro signer hmem
      rcases Finset.mem_insert.mp hmem with rfl | hmem
      · exact hvotes.2
      · exact h.members callId signer hmem
  · rw [approveRelayCall_of_not_votes hvotes]
    cases auth caller <;> exact h

theorem tallied_relayStep (h : Tallied σ approved) (call : RelayCall Address) :
    Tallied (relayStep σ call).1 (noteAnswer approved (call, (relayStep σ call).2)) := by
  cases call with
  | addRelaySigner auth caller newSigner =>
    exact h.mono (getRelayApprovals_addRelaySigner σ auth caller newSigner)
      (getRelaySigners_prefix_relayStep σ (.addRelaySigner auth caller newSigner)).subset
  | approveRelayCall auth callId caller => exact tallied_approveRelayCall h auth callId caller
  | setRelayThreshold threshold =>
    exact h.mono (fun _ => rfl)
      (getRelaySigners_prefix_relayStep σ (.setRelayThreshold threshold)).subset
  | evictApprovals callId =>
    exact h.rewrite (getRelayApprovals_evict σ callId) rfl List.nodup_nil rfl (by simp)
  | setAdmin admin => exact h.mono (fun _ => rfl) (List.Subset.refl _)

end Steps

theorem tallied_after {σ : Storage TxId Address} (hσ : ∀ callId, getRelayApprovals σ callId = [])
    (calls : List (RelayCall Address)) :
    Tallied (after relayStep σ calls) (approvedSince (transcript relayStep σ calls)) :=
  after_noted relayStep noteAnswer Tallied (fun _ _ call h => tallied_relayStep h call)
    (Tallied.of_no_approvals hσ) calls

/-- What `approve_relay_call` does in a state whose approved sets are `approved`. -/
structure CountsExactly (σ : Storage TxId Address) (approved : UInt64 → Finset Address) : Prop where
  nodup : ∀ callId, (getRelayApprovals σ callId).Nodup
  lists : ∀ callId, (getRelayApprovals σ callId).toFinset = approved callId
  trapped : ∀ auth callId caller, auth caller = false →
    approveRelayCall auth σ callId caller = (σ, none)
  unauthorized : ∀ auth callId caller, auth caller = true →
    (approveRelayCall auth σ callId caller = (σ, some (.error .unauthorized)) ↔
      caller ∉ getRelaySigners σ)
  counted : ∀ auth callId caller, auth caller = true → caller ∈ getRelaySigners σ →
    (approveRelayCall auth σ callId caller).2 = some (.ok (decide
      ((getRelayThreshold σ).toNat ≤ (insert caller (approved callId)).card)))
  others : ∀ auth callId caller callId', callId' ≠ callId →
    getRelayApprovals (approveRelayCall auth σ callId caller).1 callId' =
      getRelayApprovals σ callId'
  quorum : ∀ auth callId caller,
    (approveRelayCall auth σ callId caller).2 = some (.ok true) →
      (∀ signer ∈ insert caller (approved callId), signer ∈ getRelaySigners σ) ∧
        (getRelayThreshold σ).toNat ≤ (insert caller (approved callId)).card

/-- **Quorum counting is exact** after every run from a state without approvals. -/
theorem quorum_counting_exact (σ : Storage TxId Address)
    (hσ : ∀ callId, getRelayApprovals σ callId = []) (calls : List (RelayCall Address)) :
    CountsExactly (after relayStep σ calls) (approvedSince (transcript relayStep σ calls)) := by
  have h := tallied_after hσ calls
  have hcounted : ∀ auth callId caller, Votes auth (after relayStep σ calls) caller →
      (approveRelayCall auth (after relayStep σ calls) callId caller).2 = some (.ok (decide
        ((getRelayThreshold (after relayStep σ calls)).toNat ≤
          (insert caller (approvedSince (transcript relayStep σ calls) callId)).card))) := by
    intro auth callId caller hvotes
    rw [approveRelayCall_answer hvotes, Bool.eq_iff_iff.mpr
      ((h.quorum_iff callId caller).trans decide_eq_true_iff.symm)]
  refine ⟨h.nodup, h.lists, ?_, ?_, ?_, ?_, ?_⟩
  · intro auth callId caller hauth
    have hvotes : ¬ Votes auth (after relayStep σ calls) caller := by
      rintro ⟨htrue, _⟩
      rw [hauth] at htrue
      cases htrue
    rw [approveRelayCall_of_not_votes hvotes, hauth]
    rfl
  · intro auth callId caller hauth
    constructor
    · intro hrefused hmem
      have hanswer := hcounted auth callId caller ⟨hauth, hmem⟩
      rw [hrefused] at hanswer
      cases hanswer
    · intro hmem
      rw [approveRelayCall_of_not_votes fun hvotes => hmem hvotes.2, hauth]
      rfl
  · intro auth callId caller hauth hmem
    exact hcounted auth callId caller ⟨hauth, hmem⟩
  · intro auth callId caller callId' hid
    by_cases hvotes : Votes auth (after relayStep σ calls) caller
    · rw [getRelayApprovals_approveRelayCall hvotes, if_neg hid]
    · rw [approveRelayCall_of_not_votes hvotes]
  · intro auth callId caller hquorum
    by_cases hvotes : Votes auth (after relayStep σ calls) caller
    · rw [hcounted auth callId caller hvotes] at hquorum
      have hcard := of_decide_eq_true (Except.ok.inj (Option.some.inj hquorum))
      refine ⟨fun signer hmem => ?_, hcard⟩
      rcases Finset.mem_insert.mp hmem with rfl | hmem
      · exact hvotes.2
      · exact h.members callId signer hmem
    · rw [approveRelayCall_of_not_votes hvotes] at hquorum
      cases hauth : auth caller <;> simp [hauth] at hquorum

theorem quorum_counting_exact_fixture :
    (getRelayApprovals (after relayStep quorumStore [approval 7, approval 9, approval 7])
      1).toFinset = {7} :=
  (quorum_counting_exact quorumStore (fun _ => rfl) [approval 7, approval 9, approval 7]).lists 1

end Synapse
