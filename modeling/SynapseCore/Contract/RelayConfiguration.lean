import SynapseCore.Contract.RelaySignerSet

/-! Where two readings of one configuration value part: the admin, written to the
persistent tier and checked in the instance tier, and the threshold, defaulted in
two ways. -/

namespace Synapse
open Machine
variable {TxId Address : Type} [DecidableEq TxId] [DecidableEq Address]

/-! ## The admin -/

def NoAdmin (σ : Storage TxId Address) : Prop :=
  σ.inst.get .admin = none ∧ σ.persistent.get .admin = none ∧ σ.temporary.get .admin = none

/-- For this caller and this new signer, `add_relay_signer` goes by what `get_admin` says. -/
def AdminGateAgrees (σ : Storage TxId Address) (auth : Address → Bool)
    (caller newSigner : Address) : Prop :=
  ((addRelaySigner auth σ caller newSigner).2 = some (.ok ()) ↔ getAdmin σ = some caller) ∧
  ((addRelaySigner auth σ caller newSigner).2 = some (.error .notInitialized) → getAdmin σ = none)

section Admin
variable {σ : Storage TxId Address}

theorem adminGateAgrees_of_unset {auth : Address → Bool} {caller newSigner : Address}
    (hinst : σ.inst.get .admin = none) (hauth : auth caller = true)
    (hfresh : newSigner ∉ getRelaySigners σ) :
    AdminGateAgrees σ auth caller newSigner ↔ getAdmin σ = none := by
  have houtcome := addRelaySigner_of_fresh hauth hfresh
  rw [hinst] at houtcome
  unfold AdminGateAgrees
  rw [houtcome]
  constructor
  · intro h
    exact h.2 rfl
  · intro hnone
    rw [hnone]
    have hneither : (some (.error .notInitialized) : Outcome Error Unit) = some (.ok ()) ↔
        (none : Option Address) = some caller := by
      constructor <;> intro himpossible <;> cases himpossible
    exact ⟨hneither, fun _ => rfl⟩

theorem getAdmin_relayStep (σ : Storage TxId Address) (call : RelayCall Address) :
    getAdmin (relayStep σ call).1 = none ↔
      getAdmin σ = none ∧ ∀ admin, call ≠ .setAdmin admin := by
  cases call with
  | addRelaySigner auth caller newSigner =>
    have hframe := (addRelaySigner_frame auth σ caller newSigner).1
    have hsame : getAdmin (addRelaySigner auth σ caller newSigner).1 = getAdmin σ := by
      rw [getAdmin, hframe, getAdmin]
    simp [relayStep, hsame]
  | approveRelayCall auth callId caller =>
    have hframe := (approveRelayCall_frame auth σ callId caller).2.1
    have hsame : getAdmin (approveRelayCall auth σ callId caller).1 = getAdmin σ := by
      rw [getAdmin, hframe, getAdmin]
    simp [relayStep, hsame]
  | setRelayThreshold threshold => simp [relayStep, getAdmin]
  | evictApprovals callId => simp [relayStep, getAdmin]
  | setAdmin admin => simp [relayStep, getAdmin, setAdmin]

theorem getAdmin_after (σ : Storage TxId Address) (calls : List (RelayCall Address)) :
    getAdmin (after relayStep σ calls) = none ↔
      getAdmin σ = none ∧ ∀ admin, .setAdmin admin ∉ calls := by
  induction calls generalizing σ with
  | nil => simp
  | cons call calls ih =>
    rw [after_cons, ih, getAdmin_relayStep, and_assoc]
    apply and_congr_right
    intro _
    constructor
    · rintro ⟨hcall, hcalls⟩ admin hmem
      rcases List.mem_cons.mp hmem with hhead | htail
      · exact hcall admin hhead.symm
      · exact hcalls admin htail
    · intro h
      exact ⟨fun admin hcall => h admin (hcall ▸ List.mem_cons_self ..),
        fun admin hmem => h admin (List.mem_cons_of_mem call hmem)⟩

end Admin

/-- **The admin gate of the signer set follows the stored admin exactly until one is
stored.** `set_admin` never reaches the tier that `add_relay_signer` reads. -/
theorem admin_gate_agrees_iff (σ : Storage TxId Address) (hσ : NoAdmin σ)
    (calls : List (RelayCall Address)) (auth : Address → Bool) (caller newSigner : Address)
    (hauth : auth caller = true)
    (hfresh : newSigner ∉ getRelaySigners (after relayStep σ calls)) :
    AdminGateAgrees (after relayStep σ calls) auth caller newSigner ↔
      ∀ admin, RelayCall.setAdmin admin ∉ calls := by
  -- whatever the run writes, the instance tier never gets an admin
  have hinst : (after relayStep σ calls).inst.get .admin = none := by
    apply after_invariant relayStep (fun τ => τ.inst.get .admin = none)
    · intro τ call hτ
      rw [inst_relayStep τ call (by simp) (by simp), hτ]
    · exact hσ.1
  rw [adminGateAgrees_of_unset hinst hauth hfresh, getAdmin_after]
  exact and_iff_right hσ.2.1

theorem admin_gate_agrees_iff_fixture :
    ¬ AdminGateAgrees (after relayStep (Ledger.empty : Storage Nat Nat) [.setAdmin 7])
      (fun _ => true) 7 8 := fun hagrees =>
  (admin_gate_agrees_iff (Ledger.empty : Storage Nat Nat) ⟨rfl, rfl, rfl⟩ [.setAdmin 7]
    (fun _ => true) 7 8 rfl (by decide)).mp hagrees 7 (by simp)

theorem admin_gate_counterexample :
    ¬ ∀ (σ : Storage Nat Nat) (calls : List (RelayCall Nat)) (auth : Nat → Bool)
        (caller newSigner : Nat), NoAdmin σ → auth caller = true →
      newSigner ∉ getRelaySigners (after relayStep σ calls) →
        AdminGateAgrees (after relayStep σ calls) auth caller newSigner := by
  intro h
  have hagrees := h Ledger.empty [.setAdmin 7] (fun _ => true) 7 8 ⟨rfl, rfl, rfl⟩ rfl (by decide)
  have hrefused := hagrees.1.mpr rfl
  cases hrefused

/-! ## The signer set and the threshold -/

/-- The two readings of the signer set and of the threshold agree, and the threshold
is within the set. -/
structure ViewsAgree (σ : Storage TxId Address) : Prop where
  signers : relaySignerSet σ = getRelaySigners σ
  threshold : relayThreshold σ = getRelayThreshold σ
  bounds : getRelaySigners σ ≠ [] →
    1 ≤ (relayThreshold σ).toNat ∧ (relayThreshold σ).toNat ≤ (getRelaySigners σ).length

omit [DecidableEq TxId] [DecidableEq Address] in
theorem relaySignerSet_eq_getRelaySigners (σ : Storage TxId Address) :
    relaySignerSet σ = getRelaySigners σ := by
  unfold relaySignerSet getRelaySigners getRelaySignerSet getRelaySigner
  cases σ.inst.get .relaySigners with
  | some signers => rfl
  | none => cases σ.inst.get .relaySigner <;> rfl

omit [DecidableEq TxId] [DecidableEq Address] in
theorem relayThreshold_of_implicit {σ : Storage TxId Address}
    (h : storedRelayThreshold σ = none) :
    relayThreshold σ = if (getRelaySigner σ).isSome then 1 else 0 := by
  unfold relayThreshold
  rw [h]

omit [DecidableEq TxId] [DecidableEq Address] in
theorem getRelayThreshold_of_implicit {σ : Storage TxId Address}
    (h : storedRelayThreshold σ = none) : getRelayThreshold σ = 1 := by
  unfold storedRelayThreshold at h
  unfold getRelayThreshold
  rw [h]
  rfl

omit [DecidableEq TxId] [DecidableEq Address] in
theorem viewsAgree_iff {σ : Storage TxId Address} (h : storedRelayThreshold σ = none) :
    ViewsAgree σ ↔ (getRelaySigner σ).isSome = true := by
  constructor
  · intro hagree
    have hthreshold := hagree.threshold
    rw [relayThreshold_of_implicit h, getRelayThreshold_of_implicit h] at hthreshold
    by_contra hnone
    rw [if_neg hnone] at hthreshold
    cases hthreshold
  · intro hsome
    have hone : relayThreshold σ = 1 := by
      rw [relayThreshold_of_implicit h, if_pos hsome]
    refine ⟨relaySignerSet_eq_getRelaySigners σ, ?_, fun hne => ?_⟩
    · rw [hone, getRelayThreshold_of_implicit h]
    · have hlength := List.length_pos_of_ne_nil hne
      rw [hone]
      exact ⟨le_rfl, hlength⟩

theorem getRelaySigner_after (σ : Storage TxId Address) (calls : List (RelayCall Address)) :
    getRelaySigner (after relayStep σ calls) = getRelaySigner σ := by
  apply after_invariant relayStep (fun τ => getRelaySigner τ = getRelaySigner σ)
  · intro τ call hτ
    rw [← hτ]
    exact inst_relayStep τ call (by simp) (by simp)
  · rfl

theorem storedRelayThreshold_after {σ : Storage TxId Address}
    (hσ : storedRelayThreshold σ = none) {calls : List (RelayCall Address)}
    (hcalls : ∀ threshold, RelayCall.setRelayThreshold threshold ∉ calls) :
    storedRelayThreshold (after relayStep σ calls) = none := by
  apply after_invariant_of_forall relayStep
    (fun call => ∀ threshold, call ≠ .setRelayThreshold threshold)
    (fun τ => storedRelayThreshold τ = none)
  · intro τ call hcall hτ
    rw [storedRelayThreshold, inst_relayStep τ call (by simp)
      (fun threshold hrewrite => absurd hrewrite (hcall threshold))]
    exact hτ
  · intro call hmem threshold hrewrite
    exact hcalls threshold (hrewrite ▸ hmem)
  · exact hσ

/-- **The two readings of the relay configuration agree exactly when there is a
baseline signer.** Without one `relay_threshold` reads 0 where approvals are held
against 1, whatever set was stored at the start. -/
theorem relay_views_agree_iff (σ : Storage TxId Address) (hσ : storedRelayThreshold σ = none)
    (calls : List (RelayCall Address))
    (hcalls : ∀ threshold, RelayCall.setRelayThreshold threshold ∉ calls) :
    ViewsAgree (after relayStep σ calls) ↔ (getRelaySigner σ).isSome = true := by
  have hstored := storedRelayThreshold_after hσ hcalls
  rw [viewsAgree_iff hstored, getRelaySigner_after]

/-- An admin in the instance tier, and no relay signer yet. -/
def adminStore : Storage Nat Nat := (Ledger.empty : Storage Nat Nat).setInst .admin 7

theorem relay_views_agree_iff_fixture :
    ViewsAgree (after relayStep baselineStore [.addRelaySigner (fun _ => true) 7 8]) :=
  (relay_views_agree_iff baselineStore rfl [.addRelaySigner (fun _ => true) 7 8]
    (by simp)).mpr rfl

theorem relay_views_counterexample :
    ¬ ∀ (σ : Storage Nat Nat) (calls : List (RelayCall Nat)), getRelaySignerSet σ = none →
      storedRelayThreshold σ = none →
        (∀ call ∈ calls, ∃ auth caller newSigner,
          call = .addRelaySigner auth caller newSigner) →
            ViewsAgree (after relayStep σ calls) := by
  intro h
  have hagree := h adminStore [.addRelaySigner (fun _ => true) 7 8] rfl rfl (by simp)
  have hzero : relayThreshold (after relayStep adminStore
      [.addRelaySigner (fun _ => true) 7 8]) = 0 := rfl
  have hlow := (hagree.bounds (by decide)).1
  rw [hzero] at hlow
  cases hlow

end Synapse
