import SynapseCore.Contract.RelayApprovals

/-! The signer set from its lazily read one-of-one form to the stored list: it only
grows, at its end, and the baseline signer stays first. -/

namespace Synapse
open Machine
variable {TxId Address : Type} [DecidableEq TxId] [DecidableEq Address]

omit [DecidableEq TxId] [DecidableEq Address] in
theorem getRelaySigners_of_implicit {σ : Storage TxId Address} (h : getRelaySignerSet σ = none) :
    getRelaySigners σ = (getRelaySigner σ).toList := by
  unfold getRelaySignerSet at h
  unfold getRelaySigners
  rw [h]
  cases hbaseline : getRelaySigner σ with
  | none =>
    rw [getRelaySigner] at hbaseline
    rw [hbaseline]
    rfl
  | some baseline =>
    rw [getRelaySigner] at hbaseline
    rw [hbaseline]
    rfl

theorem getRelaySigners_nodup_relayStep {σ : Storage TxId Address} (h : (getRelaySigners σ).Nodup)
    (call : RelayCall Address) : (getRelaySigners (relayStep σ call).1).Nodup := by
  rcases getRelaySigners_relayStep σ call with ⟨_, _, newSigner, _, _, hfresh, hgrown⟩ | ⟨_, hsame⟩
  · rw [hgrown]
    exact h.append (List.nodup_singleton newSigner) (List.disjoint_singleton.mpr hfresh)
  · rwa [hsame]

theorem getRelaySigners_prefix_after (σ : Storage TxId Address)
    (calls : List (RelayCall Address)) :
    getRelaySigners σ <+: getRelaySigners (after relayStep σ calls) := by
  apply after_monotone relayStep (fun τ τ' => getRelaySigners τ <+: getRelaySigners τ')
  · intro τ
    exact List.prefix_refl _
  · intro τ τ' τ'' h h'
    exact h.trans h'
  · intro τ call
    exact getRelaySigners_prefix_relayStep τ call

/-- What every call does to the signer set at `σ`. -/
structure GrowsByAddition (σ : Storage TxId Address) : Prop where
  added : ∀ auth caller newSigner, (addRelaySigner auth σ caller newSigner).2 = some (.ok ()) →
    newSigner ∉ getRelaySigners σ ∧
      getRelaySigners (addRelaySigner auth σ caller newSigner).1 = getRelaySigners σ ++ [newSigner]
  refused : ∀ auth caller newSigner, (addRelaySigner auth σ caller newSigner).2 ≠ some (.ok ()) →
    (addRelaySigner auth σ caller newSigner).1 = σ
  approved : ∀ auth callId caller,
    getRelaySigners (approveRelayCall auth σ callId caller).1 = getRelaySigners σ

theorem growsByAddition (σ : Storage TxId Address) : GrowsByAddition σ where
  added _ _ _ hok := getRelaySigners_of_added hok
  refused _ _ _ hnot := addRelaySigner_of_refused hnot
  approved auth callId caller :=
    getRelaySigners_congr (approveRelayCall_frame auth σ callId caller).1

/-- **The signer set is a duplicate-free, append-only list** that holds every
approver, in every run from the one-of-one baseline or from no signer at all. -/
theorem relay_signers_append_only (σ : Storage TxId Address) (hset : getRelaySignerSet σ = none)
    (hσ : ∀ callId, getRelayApprovals σ callId = []) (calls : List (RelayCall Address)) :
    (getRelaySigners (after relayStep σ calls)).Nodup ∧
    (∀ pre, pre <+: calls →
      getRelaySigners (after relayStep σ pre) <+: getRelaySigners (after relayStep σ calls)) ∧
    (∀ baseline, getRelaySigner σ = some baseline →
      (getRelaySigners (after relayStep σ calls)).head? = some baseline) ∧
    GrowsByAddition (after relayStep σ calls) ∧
    (∀ callId, ∀ signer ∈ getRelayApprovals (after relayStep σ calls) callId,
      signer ∈ getRelaySigners (after relayStep σ calls)) := by
  have hstart := getRelaySigners_of_implicit hset
  refine ⟨?_, ?_, ?_, growsByAddition _, ?_⟩
  · apply after_invariant relayStep (fun τ => (getRelaySigners τ).Nodup)
    · intro τ call hτ
      exact getRelaySigners_nodup_relayStep hτ call
    · rw [hstart]
      cases getRelaySigner σ <;> simp
  · rintro pre ⟨post, rfl⟩
    rw [after_append]
    exact getRelaySigners_prefix_after _ post
  · intro baseline hbaseline
    obtain ⟨later, hlater⟩ := getRelaySigners_prefix_after σ calls
    rw [← hlater, hstart, hbaseline]
    rfl
  · intro callId signer hmem
    have htallied := tallied_after hσ calls
    apply htallied.members callId signer
    rw [← htallied.lists, List.mem_toFinset]
    exact hmem

/-- One baseline signer, who is also the admin of the instance tier. -/
def baselineStore : Storage Nat Nat :=
  ((Ledger.empty : Storage Nat Nat).setInst .relaySigner 7).setInst .admin 7

theorem relay_signers_append_only_fixture :
    getRelaySignerSet baselineStore = none ∧
      (addRelaySigner (fun _ => true) baselineStore 7 8).2 = some (.ok ()) ∧
      getRelaySignerSet (addRelaySigner (fun _ => true) baselineStore 7 8).1 = some [7, 8] ∧
      getRelaySigners (addRelaySigner (fun _ => true) baselineStore 7 8).1 = [7] ++ [8] ∧
      (getRelaySigners (after relayStep baselineStore [.addRelaySigner (fun _ => true) 7 8,
        approval 8, .addRelaySigner (fun _ => true) 7 7])).head? = some 7 := by
  have hbaseline : getRelaySigner baselineStore = some 7 := rfl
  -- the first signer added writes the list, with the baseline signer in front
  have hadded := (relay_signers_append_only baselineStore rfl (fun _ => rfl) []).2.2.2.1.added
    (fun _ => true) 7 8 rfl
  exact ⟨rfl, rfl, rfl, hadded.2,
    (relay_signers_append_only baselineStore rfl (fun _ => rfl) _).2.2.1 7 hbaseline⟩

end Synapse
