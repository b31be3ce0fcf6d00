import SynapseCore.Contract.Types
import SynapseCore.Foundation.Runs

/-! Treasury withdrawals. Ids come from a counter in the instance tier and the pending
records they name lie in the persistent tier. Nothing in the helpers ties the two: what
does is that their callers store only under ids they were given. -/

namespace Synapse
open Machine

variable {TxId Address : Type} [DecidableEq TxId]

def treasuryBalance (σ : Storage TxId Address) : Int :=
  (σ.inst.get (.treasury .treasuryBalance)).getD 0

def setTreasuryBalance (σ : Storage TxId Address) (balance : Int) : Storage TxId Address :=
  σ.setInst (.treasury .treasuryBalance) balance

def treasuryConfig (σ : Storage TxId Address) : Option (TreasuryConfig Address) :=
  σ.inst.get (.treasury .treasuryConfig)

def setTreasuryConfig (σ : Storage TxId Address) (config : TreasuryConfig Address) :
    Storage TxId Address :=
  σ.setInst (.treasury .treasuryConfig) config

def epochWithdrawn (σ : Storage TxId Address) : Int :=
  (σ.inst.get (.treasury .epochWithdrawn)).getD 0

def setEpochWithdrawn (σ : Storage TxId Address) (amount : Int) : Storage TxId Address :=
  σ.setInst (.treasury .epochWithdrawn) amount

def nextWithdrawalId (σ : Storage TxId Address) : Storage TxId Address × Option UInt64 :=
  let id := (σ.inst.get (.treasury .withdrawalCounter)).getD 0
  if id.toNat + 1 < UInt64.size then (σ.setInst (.treasury .withdrawalCounter) (id + 1), some id)
  else (σ, none) -- `id + 1` overflows, which aborts the call

def setPendingWithdrawal (σ : Storage TxId Address) (id : UInt64)
    (withdrawal : PendingWithdrawal Address) : Storage TxId Address :=
  σ.setPersistent (.treasury (.pendingWithdrawal id)) withdrawal

def pendingWithdrawal (σ : Storage TxId Address) (id : UInt64) :
    Option (PendingWithdrawal Address) :=
  σ.persistent.get (.treasury (.pendingWithdrawal id))

def removePendingWithdrawal (σ : Storage TxId Address) (id : UInt64) : Storage TxId Address :=
  σ.removePersistent (.treasury (.pendingWithdrawal id))

def getTreasuryAccrued (σ : Storage TxId Address) : Int :=
  (σ.persistent.get .treasuryAccrued).getD 0

def setTreasuryAccrued (σ : Storage TxId Address) (amount : Int) : Storage TxId Address :=
  σ.setPersistent .treasuryAccrued amount

/-! ## Runs -/

inductive TreasuryCall (Address : Type)
  | nextWithdrawalId
  | setPendingWithdrawal (id : UInt64) (withdrawal : PendingWithdrawal Address)
  | removePendingWithdrawal (id : UInt64)
  | setTreasuryBalance (balance : Int)
  | setTreasuryConfig (config : TreasuryConfig Address)
  | setEpochWithdrawn (amount : Int)

/-- The answer is the id a call returns: only an allocation does, if it is not aborted. -/
def treasuryStep (σ : Storage TxId Address) :
    TreasuryCall Address → Storage TxId Address × Option UInt64
  | .nextWithdrawalId => nextWithdrawalId σ
  | .setPendingWithdrawal id withdrawal => (setPendingWithdrawal σ id withdrawal, none)
  | .removePendingWithdrawal id => (removePendingWithdrawal σ id, none)
  | .setTreasuryBalance balance => (setTreasuryBalance σ balance, none)
  | .setTreasuryConfig config => (setTreasuryConfig σ config, none)
  | .setEpochWithdrawn amount => (setEpochWithdrawn σ amount, none)

/-- The ids a run returns, in the order it returns them. -/
def issuedIds (σ : Storage TxId Address) (calls : List (TreasuryCall Address)) : List UInt64 :=
  (transcript treasuryStep σ calls).filterMap Prod.snd

/-- Withdrawals are stored only under ids the run has returned before. -/
def StoresIssued (σ : Storage TxId Address) (calls : List (TreasuryCall Address)) : Prop :=
  ∀ pre id withdrawal post, calls = pre ++ .setPendingWithdrawal id withdrawal :: post →
    id ∈ issuedIds σ pre

def TreasuryCall.WritesAt (id : UInt64) : TreasuryCall Address → Prop
  | .setPendingWithdrawal id' _ => id' = id
  | .removePendingWithdrawal id' => id' = id
  | _ => False

/-! ## What one call does to the counter and to the records -/

def withdrawalCounter (σ : Storage TxId Address) : UInt64 :=
  (σ.inst.get (.treasury .withdrawalCounter)).getD 0

section Steps
variable {σ : Storage TxId Address}

theorem withdrawalCounter_setInst_of_ne {key : TreasuryKey} (h : key ≠ .withdrawalCounter)
    (value : key.Val Address) :
    withdrawalCounter (σ.setInst (.treasury key) value) = withdrawalCounter σ := by
  have hother : (DataKey.treasury .withdrawalCounter : DataKey TxId) ≠ .treasury key :=
    fun heq => h (DataKey.treasury.inj heq).symm
  unfold withdrawalCounter
  rw [Ledger.setInst_inst, Tier.get_set_of_ne _ hother]

theorem nextWithdrawalId_cases (σ : Storage TxId Address) :
    ((nextWithdrawalId σ).2 = some (withdrawalCounter σ) ∧
      (withdrawalCounter (nextWithdrawalId σ).1).toNat = (withdrawalCounter σ).toNat + 1) ∨
    nextWithdrawalId σ = (σ, none) := by
  by_cases hfits : (withdrawalCounter σ).toNat + 1 < UInt64.size
  · left
    have hstep : nextWithdrawalId σ =
        (σ.setInst (.treasury .withdrawalCounter) (withdrawalCounter σ + 1),
          some (withdrawalCounter σ)) :=
      if_pos hfits
    have hmoved : withdrawalCounter (nextWithdrawalId σ).1 = withdrawalCounter σ + 1 := by
      rw [hstep, withdrawalCounter, Ledger.setInst_inst, Tier.get_set_self, Option.getD_some]
    refine ⟨by rw [hstep], ?_⟩
    rw [hmoved, UInt64.toNat_add]
    exact Nat.mod_eq_of_lt hfits
  · right
    exact if_neg hfits

theorem withdrawalCounter_treasuryStep (call : TreasuryCall Address) :
    (∃ id, (treasuryStep σ call).2 = some id ∧ id = withdrawalCounter σ ∧
      (withdrawalCounter (treasuryStep σ call).1).toNat = id.toNat + 1) ∨
    ((treasuryStep σ call).2 = none ∧
      withdrawalCounter (treasuryStep σ call).1 = withdrawalCounter σ) := by
  cases call with
  | nextWithdrawalId =>
    rcases nextWithdrawalId_cases σ with ⟨hid, hmoved⟩ | haborted
    · exact Or.inl ⟨withdrawalCounter σ, hid, rfl, hmoved⟩
    · right
      have hstep : treasuryStep σ .nextWithdrawalId = (σ, none) := haborted
      rw [hstep]
      exact ⟨rfl, rfl⟩
  | setPendingWithdrawal id withdrawal => exact Or.inr ⟨rfl, rfl⟩
  | removePendingWithdrawal id => exact Or.inr ⟨rfl, rfl⟩
  | setTreasuryBalance balance =>
    exact Or.inr ⟨rfl, withdrawalCounter_setInst_of_ne TreasuryKey.noConfusion _⟩
  | setTreasuryConfig config =>
    exact Or.inr ⟨rfl, withdrawalCounter_setInst_of_ne TreasuryKey.noConfusion _⟩
  | setEpochWithdrawn amount =>
    exact Or.inr ⟨rfl, withdrawalCounter_setInst_of_ne TreasuryKey.noConfusion _⟩

omit [DecidableEq TxId] in
theorem pendingWithdrawal_key_ne {id id' : UInt64} (h : id ≠ id') :
    (DataKey.treasury (.pendingWithdrawal id') : DataKey TxId) ≠
      .treasury (.pendingWithdrawal id) := by
  intro heq
  exact h (TreasuryKey.pendingWithdrawal.inj (DataKey.treasury.inj heq)).symm

theorem pendingWithdrawal_set (id id' : UInt64) (withdrawal : PendingWithdrawal Address) :
    pendingWithdrawal (setPendingWithdrawal σ id withdrawal) id' =
      if id = id' then some withdrawal else pendingWithdrawal σ id' := by
  unfold pendingWithdrawal setPendingWithdrawal
  split_ifs with hid
  · subst hid
    exact Tier.get_set_self ..
  · exact Tier.get_set_of_ne _ (pendingWithdrawal_key_ne hid) _

theorem pendingWithdrawal_remove (id id' : UInt64) :
    pendingWithdrawal (removePendingWithdrawal σ id) id' =
      if id = id' then none else pendingWithdrawal σ id' := by
  unfold pendingWithdrawal removePendingWithdrawal
  split_ifs with hid
  · subst hid
    exact Tier.get_remove_self ..
  · exact Tier.get_remove_of_ne _ (pendingWithdrawal_key_ne hid)

theorem pendingWithdrawal_nextWithdrawalId (id : UInt64) :
    pendingWithdrawal (nextWithdrawalId σ).1 id = pendingWithdrawal σ id := by
  unfold nextWithdrawalId
  dsimp only
  split_ifs <;> rfl

theorem pendingWithdrawal_treasuryStep {call : TreasuryCall Address} {id : UInt64}
    (h : ¬ call.WritesAt id) :
    pendingWithdrawal (treasuryStep σ call).1 id = pendingWithdrawal σ id := by
  cases call with
  | nextWithdrawalId => exact pendingWithdrawal_nextWithdrawalId id
  | setPendingWithdrawal id' withdrawal =>
    exact (pendingWithdrawal_set id' id withdrawal).trans (if_neg h)
  | removePendingWithdrawal id' => exact (pendingWithdrawal_remove id' id).trans (if_neg h)
  | setTreasuryBalance balance => rfl
  | setTreasuryConfig config => rfl
  | setEpochWithdrawn amount => rfl

theorem pending_of_treasuryStep {call : TreasuryCall Address} {id : UInt64}
    (h : (pendingWithdrawal (treasuryStep σ call).1 id).isSome = true) :
    (pendingWithdrawal σ id).isSome = true ∨
      ∃ withdrawal, call = .setPendingWithdrawal id withdrawal := by
  by_cases hwrites : call.WritesAt id
  · cases call with
    | setPendingWithdrawal id' withdrawal =>
      obtain rfl : id' = id := hwrites
      exact Or.inr ⟨withdrawal, rfl⟩
    | removePendingWithdrawal id' =>
      have hremoved := (pendingWithdrawal_remove (σ := σ) id' id).trans (if_pos hwrites)
      dsimp only [treasuryStep] at h
      rw [hremoved] at h
      cases h
    | _ => exact hwrites.elim
  · rw [pendingWithdrawal_treasuryStep hwrites] at h
    exact Or.inl h

end Steps

/-! ## Runs keep the records below the counter -/

section Runs
variable {σ : Storage TxId Address}

/-- The ids issued so far ascend below the counter, and records lie under issued ids only. -/
structure IdsBelow (σ : Storage TxId Address) (ids : List UInt64) : Prop where
  ascending : ids.Pairwise (· < ·)
  below : ∀ id ∈ ids, id.toNat < (withdrawalCounter σ).toNat
  issued : ∀ id, (pendingWithdrawal σ id).isSome = true → id ∈ ids

theorem IdsBelow.step {ids : List UInt64} (h : IdsBelow σ ids) {call : TreasuryCall Address}
    (hcall : ∀ id withdrawal, call = .setPendingWithdrawal id withdrawal → id ∈ ids) :
    IdsBelow (treasuryStep σ call).1 (ids ++ (treasuryStep σ call).2.toList) := by
  have hissued : ∀ id, (pendingWithdrawal (treasuryStep σ call).1 id).isSome = true → id ∈ ids := by
    intro id hid
    rcases pending_of_treasuryStep hid with hold | ⟨withdrawal, hstored⟩
    · exact h.issued id hold
    · exact hcall id withdrawal hstored
  rcases withdrawalCounter_treasuryStep (σ := σ) call with ⟨new, hnew, hcounter, hmoved⟩ |
    ⟨hnone, hsame⟩
  · have hlater : ∀ id ∈ ids, id.toNat < new.toNat := by
      intro id hid
      rw [hcounter]
      exact h.below id hid
    rw [hnew, Option.toList_some]
    constructor
    · rw [List.pairwise_append]
      refine ⟨h.ascending, List.pairwise_singleton .., ?_⟩
      intro id hid new' hmem
      rw [List.mem_singleton.mp hmem]
      exact UInt64.lt_iff_toNat_lt.mpr (hlater id hid)
    · intro id hid
      rw [hmoved]
      rcases List.mem_append.mp hid with hold | hlast
      · exact (hlater id hold).trans (Nat.lt_succ_self _)
      · rw [List.mem_singleton.mp hlast]
        exact Nat.lt_succ_self _
    · intro id hid
      exact List.mem_append_left _ (hissued id hid)
  · rw [hnone, Option.toList_none, List.append_nil]
    refine ⟨h.ascending, ?_, hissued⟩
    rw [hsame]
    exact h.below

theorem issuedIds_concat (calls : List (TreasuryCall Address)) (call : TreasuryCall Address) :
    issuedIds σ (calls ++ [call]) =
      issuedIds σ calls ++ (treasuryStep (after treasuryStep σ calls) call).2.toList := by
  unfold issuedIds
  rw [transcript_concat, List.filterMap_append]
  congr 1

theorem StoresIssued.of_prefix {calls pre : List (TreasuryCall Address)}
    (h : StoresIssued σ calls) (hpre : pre <+: calls) : StoresIssued σ pre := by
  obtain ⟨later, rfl⟩ := hpre
  rintro front id withdrawal post rfl
  apply h front id withdrawal (post ++ later)
  rw [List.append_assoc, List.cons_append]

theorem idsBelow_after (hσ : ∀ id, pendingWithdrawal σ id = none)
    {calls : List (TreasuryCall Address)} (h : StoresIssued σ calls) :
    IdsBelow (after treasuryStep σ calls) (issuedIds σ calls) := by
  induction calls using List.reverseRecOn with
  | nil =>
    refine ⟨List.Pairwise.nil, fun id hid => ?_, fun id hid => ?_⟩
    · cases hid
    · rw [after_nil, hσ id] at hid
      cases hid
  | append_singleton calls call ih =>
    have hfront : StoresIssued σ calls := h.of_prefix (List.prefix_append ..)
    rw [after_concat, issuedIds_concat]
    apply (ih hfront).step
    rintro id withdrawal rfl
    exact h calls id withdrawal [] rfl

theorem pendingWithdrawal_after {calls : List (TreasuryCall Address)} {id : UInt64}
    (h : ∀ call ∈ calls, ¬ call.WritesAt id) :
    pendingWithdrawal (after treasuryStep σ calls) id = pendingWithdrawal σ id := by
  apply after_invariant_of_forall treasuryStep (fun call => ¬ call.WritesAt id)
    (fun τ => pendingWithdrawal τ id = pendingWithdrawal σ id) _ h rfl
  intro τ call hcall hτ
  exact (pendingWithdrawal_treasuryStep hcall).trans hτ

/-- **Withdrawal ids are never reused.** Over any run from a treasury without pending
withdrawals that stores only under returned ids: the returned ids ascend, a newly
returned one has no record, and a record stays until its own id is written. -/
theorem withdrawal_ids_never_reused (σ : Storage TxId Address)
    (hσ : ∀ id, pendingWithdrawal σ id = none) (calls : List (TreasuryCall Address))
    (hcalls : StoresIssued σ calls) :
    (issuedIds σ calls).Pairwise (· < ·) ∧
    (∀ pre post id, calls = pre ++ .nextWithdrawalId :: post →
      (nextWithdrawalId (after treasuryStep σ pre)).2 = some id →
        id ∉ issuedIds σ pre ∧ pendingWithdrawal (after treasuryStep σ pre) id = none ∧
          pendingWithdrawal (nextWithdrawalId (after treasuryStep σ pre)).1 id = none) ∧
    (∀ pre id withdrawal mid post,
      calls = pre ++ .setPendingWithdrawal id withdrawal :: (mid ++ post) →
        (∀ call ∈ mid, ¬ call.WritesAt id) →
          pendingWithdrawal (after treasuryStep σ
            (pre ++ .setPendingWithdrawal id withdrawal :: mid)) id = some withdrawal) := by
  refine ⟨(idsBelow_after hσ hcalls).ascending, ?_, ?_⟩
  · rintro pre post id rfl hid
    have hinv := idsBelow_after hσ (hcalls.of_prefix (List.prefix_append ..))
    have hcounter : id = withdrawalCounter (after treasuryStep σ pre) := by
      rcases nextWithdrawalId_cases (after treasuryStep σ pre) with ⟨hsome, _⟩ | haborted
      · exact Option.some.inj (hid.symm.trans hsome)
      · rw [haborted] at hid
        cases hid
    have hfresh : id ∉ issuedIds σ pre := by
      intro hmem
      have hbelow := hinv.below id hmem
      rw [← hcounter] at hbelow
      exact lt_irrefl _ hbelow
    have hfree : pendingWithdrawal (after treasuryStep σ pre) id = none := by
      by_contra hsome
      exact hfresh (hinv.issued id (Option.isSome_iff_ne_none.mpr hsome))
    exact ⟨hfresh, hfree, (pendingWithdrawal_nextWithdrawalId id).trans hfree⟩
  · rintro pre id withdrawal mid post rfl hmid
    rw [after_append, after_cons, pendingWithdrawal_after hmid]
    exact (pendingWithdrawal_set id id withdrawal).trans (if_pos rfl)

end Runs

/-- A withdrawal of the fixtures, proposed by address 7. -/
def testWithdrawal : PendingWithdrawal Nat := ⟨100, 9, 7⟩

theorem withdrawal_ids_never_reused_fixture :
    pendingWithdrawal (after treasuryStep (Ledger.empty : Storage Nat Nat)
      [.nextWithdrawalId, .setPendingWithdrawal 0 testWithdrawal, .nextWithdrawalId,
        .removePendingWithdrawal 1]) 0 = some testWithdrawal := by
  have hcalls : StoresIssued (Ledger.empty : Storage Nat Nat)
      [.nextWithdrawalId, .setPendingWithdrawal 0 testWithdrawal, .nextWithdrawalId,
        .removePendingWithdrawal 1] := by
    intro pre id withdrawal post hcut
    rcases pre with _ | ⟨first, _ | ⟨second, pre⟩⟩
    · cases hcut
    · cases hcut
      decide
    · have hlate : .setPendingWithdrawal id withdrawal ∈
          [TreasuryCall.nextWithdrawalId, .removePendingWithdrawal 1] := by
        rw [(List.cons.inj (List.cons.inj hcut).2).2]
        exact List.mem_append_right _ (List.mem_cons_self ..)
      simp at hlate
  apply (withdrawal_ids_never_reused Ledger.empty (fun _ => rfl) _ hcalls).2.2
    [.nextWithdrawalId] 0 testWithdrawal [.nextWithdrawalId, .removePendingWithdrawal 1] [] rfl
  intro call hcall
  simp only [List.mem_cons, List.not_mem_nil, or_false] at hcall
  rcases hcall with rfl | rfl
  · exact id
  · show ¬ (1 : UInt64) = 0
    decide

end Synapse
