import Mathlib.Data.List.Nodup
import SynapseCore.Harness.StorageClient

/-! Interleavings of key rotation with the transaction lifecycle, each action checked against the
reference model of the chaos run, and the drain behind them. -/

namespace Synapse
namespace Rotation
open Text Trial

/-! ## One action of the chaos run -/

def rotationKinds : List RotationKind := [.fresh, .sameSigner, .toAdmin, .backToOriginal]

inductive Action (Address : Type)
  | rotate (kind : RotationKind)
  | transferAdmin
  | togglePause
  | register
  | drive (i : Nat) (op : Op) (caller : Address)

/-- The variables of `run_chaos`; `txs` is the model. -/
structure Chaos (σ Address : Type) where
  world : World σ Address
  staleAdmins : List Address
  paused : Bool
  txs : List (Str × TransactionStatus)

section Run
variable {σ Address : Type} [DecidableEq Address] (C : Client σ Address)
  (generate : Nat → Address)

namespace Chaos

def expected (st : Chaos σ Address) (i : Nat) (tx : Str × TransactionStatus) (op : Op)
    (caller : Address) : Except ContractError Unit × List (Str × TransactionStatus) :=
  if ¬ (caller = st.world.relay ∨ caller = st.world.admin) then
    (.error .unauthorised, st.txs)
  else
    match modelTransition tx.2 op with
    | some next => (.ok (), st.txs.set i (tx.1, next))
    | none => (.error .invalidStatusTransition, st.txs)

def act (st : Chaos σ Address) : Action Address → Option (Chaos σ Address)
  | .rotate kind => do
    let w ← st.world.rotate C generate kind
    return { st with world := w }
  | .transferAdmin => do
    let (next, w) := st.world.fresh generate
    let s ← C.proposeAdmin w.client next
    let s ← C.acceptAdmin s next
    return { st with
      world := { w with client := s, admin := next }
      staleAdmins := if w.admin ≠ w.relay then st.staleAdmins ++ [w.admin] else st.staleAdmins }
  | .togglePause => do
    let s ← C.setPaused st.world.client !st.paused
    return { st with world := { st.world with client := s }, paused := !st.paused }
  | .register => do
    let (p, w) ← st.world.payload
    let called := C.tryRegisterCallback (fun _ => true) w.client p
    check (if st.paused then called.2 = some (.error .contractPaused) else isOk called.2 = true)
    return { st with
      world := { w with client := called.1 }
      txs := if st.paused then st.txs else st.txs ++ [(p.transactionId, .pending)] }
  | .drive i op caller =>
    match st.txs[i]? with
    | none => some st -- there is nothing to drive
    | some tx => do
      let w ← st.world.expect C op tx.1 caller (st.expected i tx op caller).1
      return { st with world := w, txs := (st.expected i tx op caller).2 }

def matchesModel (st : Chaos σ Address) : Option (Chaos σ Address) := do
  check (∀ tx ∈ st.txs, st.world.status C tx.1 = some tx.2)
  return st

def drain (st : Chaos σ Address) : Option (Chaos σ Address) := do
  let w ← st.txs.foldlM (fun w tx => do
    let w ← w.staleSignersCannot C .fail tx.1
    w.assertCanFinish C tx.1) st.world
  return { st with world := w }

end Chaos

def Chaos.interleave (st : Chaos σ Address) (actions : List (Action Address)) :
    Option (Chaos σ Address) :=
  actions.foldlM (fun st action => do
    let st ← st.act C generate action
    st.matchesModel C) st

end Run

/-! ## The model and the contract agree -/

structure ModelOf {Address : Type} (v : View Address) (txs : List (Str × TransactionStatus)) :
    Prop where
  distinct : (txs.map Prod.fst).Nodup
  status : ∀ tx ∈ txs, v.status tx.1 = some tx.2 ∧ tx.2 ∈ lifecycleStatuses

structure Chaos.Agrees {σ Address : Type} (R : σ → View Address → Prop)
    (generate : Nat → Address) (st : Chaos σ Address) (v : View Address) : Prop where
  tracks : st.world.Tracks R generate v
  paused : v.paused = st.paused
  model : ModelOf v st.txs

section Model
variable {Address : Type} {v : View Address} {txs : List (Str × TransactionStatus)} {id : Str}

theorem ModelOf.register (h : ModelOf v txs) (hnew : v.status id = none) :
    ModelOf (v.move id .pending) (txs ++ [(id, .pending)]) := by
  have hne : ∀ tx ∈ txs, tx.1 ≠ id := by
    rintro tx htx rfl
    rw [(h.status tx htx).1] at hnew
    cases hnew
  constructor
  · rw [List.map_append, List.nodup_append]
    refine ⟨h.distinct, List.nodup_singleton _, ?_⟩
    simpa using hne
  · intro tx htx
    rcases List.mem_append.mp htx with hmem | hmem
    · rw [View.status_move_of_ne (hne tx hmem)]
      exact h.status tx hmem
    · rw [List.mem_singleton.mp hmem]
      exact ⟨View.status_move .., List.mem_cons_self ..⟩

theorem ModelOf.move (h : ModelOf v txs) {i : Nat} {status next : TransactionStatus}
    (hi : txs[i]? = some (id, status)) (hnext : next ∈ lifecycleStatuses) :
    ModelOf (v.move id next) (txs.set i (id, next)) := by
  have hids : (txs.map Prod.fst)[i]? = some id := by rw [List.getElem?_map, hi]; rfl
  have hlt : i < txs.length := (List.getElem?_eq_some_iff.mp hi).1
  have hsame : (txs.set i (id, next)).map Prod.fst = txs.map Prod.fst := by
    obtain ⟨hmap, hget⟩ := List.getElem?_eq_some_iff.mp hids
    rw [List.map_set]
    conv_rhs => rw [← List.set_getElem_self hmap, hget]
  constructor
  · rw [hsame]
    exact h.distinct
  · intro tx htx
    obtain ⟨j, hj⟩ := List.mem_iff_getElem?.mp htx
    rw [List.getElem?_set] at hj
    split_ifs at hj with hij
    · rw [← Option.some.inj hj]
      exact ⟨View.status_move .., hnext⟩
    · have hmem : tx ∈ txs := List.mem_of_getElem? hj
      have hne : tx.1 ≠ id := by
        intro heq
        have hjds : (txs.map Prod.fst)[j]? = some id := by rw [List.getElem?_map, hj, ← heq]; rfl
        have hlt' : i < (txs.map Prod.fst).length := by rwa [List.length_map]
        exact hij ((List.getElem?_inj hlt' h.distinct).mp (hids.trans hjds.symm))
      rw [View.status_move_of_ne hne]
      exact h.status tx hmem

end Model

theorem modelTransition_lifecycle {status next : TransactionStatus} {op : Op}
    (h : modelTransition status op = some next) : next ∈ lifecycleStatuses := by
  cases status <;> cases op <;> cases h <;> decide

section Rounds
variable {σ Address : Type} [DecidableEq Address] {C : Client σ Address} {codes : Codes}
  {R : σ → View Address → Prop} {generate : Nat → Address} {st : Chaos σ Address}
  {v : View Address}

omit [DecidableEq Address] in
theorem Chaos.Agrees.fresh (h : st.Agrees R generate v) :
    Chaos.Agrees R generate { st with world := (st.world.fresh generate).2 } v :=
  ⟨h.tracks.fresh, h.paused, h.model⟩

theorem Chaos.Agrees.expected (h : st.Agrees R generate v)
    (hcodes : codes.refused = .unauthorised ∧ codes.invalidSource = .invalidStatusTransition)
    {i : Nat} {tx : Str × TransactionStatus} (hi : st.txs[i]? = some tx) (op : Op)
    (caller : Address) :
    ∃ v', v.answer codes op tx.1 caller = some (v', (st.expected i tx op caller).1) ∧
      ModelOf v' (st.expected i tx op caller).2 ∧ v'.paused = v.paused := by
  obtain ⟨id, status⟩ := tx
  have hstatus := (h.model.status _ (List.mem_of_getElem? hi)).1
  unfold Chaos.expected
  rw [← h.tracks.relay, ← h.tracks.admin]
  by_cases hrole : caller = v.relay ∨ caller = v.admin
  · rw [if_neg (not_not.mpr hrole), View.answer_authorised hrole hstatus, hcodes.2]
    rcases hmodel : modelTransition status op with _ | next
    · exact ⟨v, rfl, h.model, rfl⟩
    · exact ⟨v.move id next, rfl, h.model.move hi (modelTransition_lifecycle hmodel), rfl⟩
  · obtain ⟨hrelay, hadmin⟩ := not_or.mp hrole
    rw [if_pos hrole, View.answer_refused hstatus hrelay hadmin, hcodes.1]
    exact ⟨v, rfl, h.model, rfl⟩

def Chaos.Next (st : Chaos σ Address) (R : σ → View Address → Prop) (generate : Nat → Address)
    (st' : Chaos σ Address) : Prop :=
  (∃ v, st'.Agrees R generate v) ∧ st'.world.nextTx ≤ st.world.nextTx + 1

theorem Chaos.succeeds_transferAdmin (hgenerate : Function.Injective generate)
    (hC : C.Follows generate codes R) (h : st.Agrees R generate v) :
    Succeeds (st.act C generate .transferAdmin) (st.Next R generate) := by
  obtain ⟨s, hpropose, hs⟩ := hC.proposeAdmin h.tracks.client st.world.generated
  obtain ⟨s', haccept, hs'⟩ := hC.acceptAdmin hs rfl
  have htracks : World.Tracks R generate { (st.world.fresh generate).2 with
      client := s', admin := generate st.world.generated }
      { v with admin := generate st.world.generated, pendingAdmin := none } := by
    refine ⟨hs', rfl, h.tracks.relay, fun a ha => ⟨(h.tracks.stale a ha).1, ?_⟩, ?_,
      h.tracks.origin, h.tracks.named⟩
    · exact (h.tracks.known a (.inr (.inr (.inl ha)))).ne_next hgenerate
    · rintro a (hadmin | hothers)
      · rw [hadmin]
        exact issued_next
      · exact (h.tracks.known a (.inr hothers)).succ
  unfold Chaos.act
  dsimp only
  rw [show (st.world.fresh generate).2.client = st.world.client from rfl,
    show (st.world.fresh generate).1 = generate st.world.generated from rfl, hpropose]
  dsimp only [Option.bind_eq_bind, Option.bind_some]
  rw [haccept]
  exact succeeds_some ⟨⟨_, htracks, h.paused, ⟨h.model.distinct, h.model.status⟩⟩, Nat.le_succ _⟩

theorem Chaos.succeeds_togglePause (hC : C.Follows generate codes R) (h : st.Agrees R generate v) :
    Succeeds (st.act C generate .togglePause) (st.Next R generate) := by
  obtain ⟨s, hs, hview⟩ : ∃ s, C.setPaused st.world.client (!st.paused) = some s ∧
      R s { v with paused := !st.paused } := by
    unfold Client.setPaused
    cases hpaused : st.paused with
    | false => exact hC.pause h.tracks.client (h.paused.trans hpaused)
    | true => exact hC.unpause h.tracks.client (h.paused.trans hpaused)
  have htracks : World.Tracks R generate { st.world with client := s }
      { v with paused := !st.paused } :=
    ⟨hview, h.tracks.admin, h.tracks.relay, h.tracks.stale, h.tracks.known, h.tracks.origin,
      h.tracks.named⟩
  unfold Chaos.act
  dsimp only
  rw [hs]
  exact succeeds_some ⟨⟨_, htracks, rfl, ⟨h.model.distinct, h.model.status⟩⟩, Nat.le_succ _⟩

theorem Chaos.succeeds_register_open (hC : C.Follows generate codes R)
    (h : st.Agrees R generate v) (hopen : st.paused = false)
    (hnext : st.world.nextTx + 1 < UInt32.size) :
    Succeeds (st.act C generate .register) fun st' =>
      ∃ (w : World σ Address) (s : σ), st' = { st with
        world := { w with client := s }
        txs := st.txs ++ [(txName w.nextTx, .pending)] } ∧
      w.nextTx = st.world.nextTx + 1 ∧
      st'.Agrees R generate (v.move (txName w.nextTx) .pending) := by
  obtain ⟨w, hpayload, htx, _, hnew, htracks⟩ := World.payload_eq h.tracks hnext
  have hpaused : v.paused = false := h.paused.trans hopen
  obtain ⟨s, hcall, htracks'⟩ := World.register_relay hC htracks hpaused (fun _ => true) rfl
    (htx.trans_lt hnext) (Nat.le_refl _) hnew
  unfold Chaos.act
  dsimp only
  rw [hpayload]
  dsimp only [Option.bind_eq_bind, Option.bind_some]
  rw [hcall, hopen]
  refine succeeds_check rfl (succeeds_some ⟨w, s, rfl, htx, ?_⟩)
  exact ⟨htracks', hpaused, h.model.register hnew⟩

theorem Chaos.succeeds_register (hC : C.Follows generate codes R) (h : st.Agrees R generate v)
    (hnext : st.world.nextTx + 1 < UInt32.size) :
    Succeeds (st.act C generate .register) (st.Next R generate) := by
  cases hpaused : st.paused with
  | false =>
    refine (Chaos.succeeds_register_open hC h hpaused hnext).mono fun st' hst' => ?_
    obtain ⟨w, s, rfl, htx, hagrees⟩ := hst'
    exact ⟨⟨_, hagrees⟩, htx.le⟩
  | true =>
    obtain ⟨w, hpayload, htx, _, _, htracks⟩ := World.payload_eq h.tracks hnext
    obtain ⟨s, hcall, hs⟩ := hC.registerPaused htracks.client (h.paused.trans hpaused)
      (fun _ => true) (payloadOf (txName w.nextTx))
    unfold Chaos.act
    dsimp only
    rw [hpayload]
    dsimp only [Option.bind_eq_bind, Option.bind_some]
    rw [hcall, hpaused]
    refine succeeds_check rfl (succeeds_some ?_)
    exact ⟨⟨_, htracks.set_client (.refl v) hs, h.paused.trans hpaused, h.model⟩, htx.le⟩

theorem Chaos.succeeds_act (hgenerate : Function.Injective generate)
    (hC : C.Follows generate codes R)
    (hcodes : codes.refused = .unauthorised ∧ codes.invalidSource = .invalidStatusTransition)
    (h : st.Agrees R generate v) (hnext : st.world.nextTx + 1 < UInt32.size)
    (action : Action Address) : Succeeds (st.act C generate action) (st.Next R generate) := by
  cases action with
  | rotate kind =>
    refine (World.succeeds_rotate hC h.tracks kind).bind fun w hw => succeeds_some ?_
    obtain ⟨htracks, htx⟩ := hw
    refine ⟨⟨_, htracks, h.paused, ⟨h.model.distinct, h.model.status⟩⟩, ?_⟩
    exact htx.le.trans (Nat.le_succ _)
  | transferAdmin => exact succeeds_transferAdmin hgenerate hC h
  | togglePause => exact succeeds_togglePause hC h
  | register => exact succeeds_register hC h hnext
  | drive i op caller =>
    rcases hi : st.txs[i]? with _ | tx
    · simp only [Chaos.act, hi]
      exact succeeds_some ⟨⟨v, h⟩, Nat.le_succ _⟩
    · simp only [Chaos.act, hi]
      obtain ⟨v', hanswer, hmodel, hpaused⟩ := h.expected hcodes hi op caller
      refine (World.succeeds_expect hC h.tracks hanswer).bind fun w hw => succeeds_some ?_
      obtain ⟨⟨s, rfl⟩, htracks⟩ := hw
      exact ⟨⟨v', htracks, hpaused.trans h.paused, hmodel⟩, Nat.le_succ _⟩

theorem Chaos.succeeds_matchesModel (hC : C.Follows generate codes R) (h : st.Agrees R generate v) :
    st.matchesModel C = some st := by
  have hall : ∀ tx ∈ st.txs, st.world.status C tx.1 = some tx.2 := by
    intro tx htx
    rw [World.status_eq hC h.tracks]
    exact (h.model.status tx htx).1
  simp only [Chaos.matchesModel, check, if_pos hall, Option.bind_eq_bind, Option.bind_some]
  rfl

theorem Chaos.succeeds_act_matches (hgenerate : Function.Injective generate)
    (hC : C.Follows generate codes R)
    (hcodes : codes.refused = .unauthorised ∧ codes.invalidSource = .invalidStatusTransition)
    (h : st.Agrees R generate v) (hnext : st.world.nextTx + 1 < UInt32.size)
    (action : Action Address) :
    Succeeds (do
      let st' ← st.act C generate action
      st'.matchesModel C) (st.Next R generate) := by
  refine (succeeds_act hgenerate hC hcodes h hnext action).bind fun st' hst' => ?_
  obtain ⟨⟨v', hagrees⟩, htx⟩ := hst'
  exact succeeds_of_eq (succeeds_matchesModel hC hagrees) ⟨⟨v', hagrees⟩, htx⟩

def Chaos.Drained (C : Client σ Address) (st : Chaos σ Address) : Prop :=
  ∀ tx ∈ st.txs, st.world.status C tx.1 = some .completed ∨ st.world.status C tx.1 = some .failed

theorem Chaos.succeeds_drain (hC : C.Follows generate codes R)
    (hrefused : codes.refused = .unauthorised) (h : st.Agrees R generate v) :
    Succeeds (st.drain C) fun st' => st'.txs = st.txs ∧ st'.Drained C := by
  -- the transactions behind the loop have ended, the others are as they were
  refine (succeeds_foldlM st.txs (fun done w => ∃ v', w.Tracks R generate v' ∧
    (∀ tx ∈ done, v'.status tx.1 = some .completed ∨ v'.status tx.1 = some .failed) ∧
    ∀ id, id ∉ done.map Prod.fst → v'.status id = v.status id) ?_
    ⟨v, h.tracks, by simp, fun _ _ => rfl⟩).bind fun w hw => succeeds_some ⟨rfl, fun tx htx => ?_⟩
  rotate_left
  · obtain ⟨v', htracks, hended, _⟩ := hw
    have hstatus : World.status C w tx.1 = v'.status tx.1 := World.status_eq hC htracks tx.1
    simpa only [hstatus] using hended tx htx
  · rintro done tx rest w hcut ⟨v', htracks, hended, hothers⟩
    have hnew : tx.1 ∉ done.map Prod.fst := by
      have hdistinct := h.model.distinct
      rw [hcut, List.map_append, List.nodup_append] at hdistinct
      exact fun hmem => hdistinct.2.2 tx.1 hmem tx.1 (by simp) rfl
    obtain ⟨hstatus, hlifecycle⟩ := h.model.status tx (by rw [hcut]; simp)
    rw [← hothers tx.1 hnew] at hstatus
    have hcannot := World.succeeds_staleSignersCannot hC hrefused htracks .fail hstatus
    refine hcannot.bind fun w' hw' => ?_
    refine (World.succeeds_assertCanFinish hC hw'.2 hstatus hlifecycle).mono fun w'' hw'' => ?_
    obtain ⟨v'', hcalled, ⟨last, hlast, hends⟩, hframe⟩ := hw''
    refine ⟨v'', hcalled.2, ?_, ?_⟩
    · intro tx' htx'
      rcases List.mem_append.mp htx' with hmem | hmem
      · have hne : tx'.1 ≠ tx.1 := fun heq => hnew (heq ▸ List.mem_map_of_mem hmem)
        rw [hframe _ hne]
        exact hended tx' hmem
      · rw [List.mem_singleton.mp hmem, hlast]
        exact hends.imp (congrArg some) (congrArg some)
    · intro id hid
      rw [List.map_append, List.mem_append, not_or] at hid
      have hne : id ≠ tx.1 := by simpa using hid.2
      rw [hframe id hne, hothers id hid.1]

omit [DecidableEq Address] in
theorem Chaos.agrees_start {w : World σ Address}
    (htracks : w.Tracks R generate ⟨w.admin, w.relay, none, false, fun _ => none⟩) :
    Chaos.Agrees R generate ⟨w, [], false, []⟩ ⟨w.admin, w.relay, none, false, fun _ => none⟩ :=
  ⟨htracks, rfl, List.nodup_nil, by simp⟩

/-! ## Runs of actions -/

def Chaos.Reached (R : σ → View Address → Prop) (generate : Nat → Address) (n : Nat)
    (st : Chaos σ Address) : Prop :=
  (∃ v, st.Agrees R generate v) ∧ st.world.nextTx ≤ n

omit [DecidableEq Address] in
theorem Chaos.Next.reached {n : Nat} (h : st.world.nextTx ≤ n) {st' : Chaos σ Address}
    (hnext : st.Next R generate st') : st'.Reached R generate (n + 1) :=
  ⟨hnext.1, hnext.2.trans (Nat.succ_le_succ h)⟩

theorem Chaos.succeeds_interleave (hgenerate : Function.Injective generate)
    (hC : C.Follows generate codes R)
    (hcodes : codes.refused = .unauthorised ∧ codes.invalidSource = .invalidStatusTransition)
    {w : World σ Address}
    (hw : w.Tracks R generate ⟨w.admin, w.relay, none, false, fun _ => none⟩ ∧ w.nextTx = 0)
    {actions : List (Action Address)} (hlength : actions.length < UInt32.size) :
    Succeeds (Chaos.interleave C generate ⟨w, [], false, []⟩ actions)
      (Chaos.Reached R generate actions.length) := by
  refine succeeds_foldlM actions (fun done => Chaos.Reached R generate done.length) ?_
    ⟨⟨_, agrees_start hw.1⟩, hw.2.le⟩
  rintro done action rest st hcut ⟨⟨v, hagrees⟩, htx⟩
  have hnext : st.world.nextTx + 1 < UInt32.size := by
    have hdone : actions.length = done.length + (rest.length + 1) := by
      rw [hcut, List.length_append, List.length_cons]
    omega
  refine (succeeds_act_matches hgenerate hC hcodes hagrees hnext action).mono fun st' hst' => ?_
  rw [List.length_append]
  exact hst'.reached htx

/-! ## What the assertions say of the codes -/

theorem Chaos.answer_of_drive (hC : C.Follows generate codes R) (h : st.Agrees R generate v)
    {i : Nat} {tx : Str × TransactionStatus} (hi : st.txs[i]? = some tx) {op : Op}
    {caller : Address} {v' : View Address} {r : Except ContractError Unit}
    (hanswer : v.answer codes op tx.1 caller = some (v', r)) {st' : Chaos σ Address}
    (hdrive : st.act C generate (.drive i op caller) = some st') :
    r = (st.expected i tx op caller).1 := by
  simp only [Chaos.act, hi] at hdrive
  obtain ⟨w, hexpect, _⟩ := Option.bind_eq_some_iff.mp hdrive
  exact World.answer_of_expect hC h.tracks hanswer hexpect

theorem Chaos.refused_of_drive (hC : C.Follows generate codes R) (h : st.Agrees R generate v)
    {i : Nat} {tx : Str × TransactionStatus} (hi : st.txs[i]? = some tx) {op : Op}
    {caller : Address} (hcaller : ¬ (caller = st.world.relay ∨ caller = st.world.admin))
    {st' : Chaos σ Address} (hdrive : st.act C generate (.drive i op caller) = some st') :
    codes.refused = .unauthorised := by
  have hstatus := (h.model.status _ (List.mem_of_getElem? hi)).1
  obtain ⟨hrelay, hadmin⟩ := not_or.mp hcaller
  rw [← h.tracks.relay] at hrelay
  rw [← h.tracks.admin] at hadmin
  have hsame := Chaos.answer_of_drive hC h hi
    (View.answer_refused hstatus hrelay hadmin codes op) hdrive
  exact Except.error.inj (hsame.trans (congrArg Prod.fst (if_pos hcaller)))

theorem Chaos.invalidSource_of_drive (hC : C.Follows generate codes R)
    (h : st.Agrees R generate v) {i : Nat} {tx : Str × TransactionStatus}
    (hi : st.txs[i]? = some tx) {op : Op} (hmodel : modelTransition tx.2 op = none)
    {st' : Chaos σ Address}
    (hdrive : st.act C generate (.drive i op st.world.relay) = some st') :
    codes.invalidSource = .invalidStatusTransition := by
  have hstatus := (h.model.status _ (List.mem_of_getElem? hi)).1
  have hanswer := View.answer_authorised (.inl h.tracks.relay.symm) hstatus codes op
  rw [hmodel] at hanswer
  have hsame := Chaos.answer_of_drive hC h hi hanswer hdrive
  have hknown : ¬ ¬ (st.world.relay = st.world.relay ∨ st.world.relay = st.world.admin) :=
    not_not.mpr (.inl rfl)
  unfold Chaos.expected at hsame
  rw [if_neg hknown, hmodel] at hsame
  exact Except.error.inj hsame

theorem Chaos.succeeds_first_register (hC : C.Follows generate codes R) {w : World σ Address}
    (hw : w.Tracks R generate ⟨w.admin, w.relay, none, false, fun _ => none⟩ ∧ w.nextTx = 0) :
    Succeeds (Chaos.act C generate ⟨w, [], false, []⟩ .register) fun st =>
      ∃ id v, st.txs = [(id, .pending)] ∧ st.Agrees R generate v := by
  have hnext : w.nextTx + 1 < UInt32.size := by
    rw [hw.2]
    decide
  refine (Chaos.succeeds_register_open hC (Chaos.agrees_start hw.1) rfl hnext).mono fun st hst => ?_
  obtain ⟨w', s, rfl, _, hagrees⟩ := hst
  exact ⟨_, _, rfl, hagrees⟩

theorem Chaos.codes_of_interleave (hgenerate : Function.Injective generate)
    (hC : C.Follows generate codes R) {w : World σ Address}
    (hw : w.Tracks R generate ⟨w.admin, w.relay, none, false, fun _ => none⟩ ∧ w.nextTx = 0)
    (hpass : ∀ actions : List (Action Address), actions.length < UInt32.size →
      ∃ st, Chaos.interleave C generate ⟨w, [], false, []⟩ actions = some st) :
    codes.refused = .unauthorised ∧ codes.invalidSource = .invalidStatusTransition := by
  obtain ⟨st, hregister, id, v, htxs, hagrees⟩ := Chaos.succeeds_first_register hC hw
  have htx : st.txs[0]? = some (id, .pending) := by
    rw [htxs]
    rfl
  have hdriven : ∀ op caller, ∃ st', st.act C generate (.drive 0 op caller) = some st' := by
    intro op caller
    obtain ⟨last, hlast⟩ := hpass [.register, .drive 0 op caller] (by
      change 2 < UInt32.size
      decide)
    rw [Chaos.interleave, List.foldlM_cons, hregister, Option.bind_eq_bind, Option.bind_some,
      Chaos.succeeds_matchesModel hC hagrees, Option.bind_some, List.foldlM_cons] at hlast
    obtain ⟨_, hstep, _⟩ := Option.bind_eq_some_iff.mp hlast
    obtain ⟨st', hdrive, _⟩ := Option.bind_eq_some_iff.mp hstep
    exact ⟨st', hdrive⟩
  constructor
  · obtain ⟨_, hdrive⟩ := hdriven .start (generate st.world.generated)
    exact Chaos.refused_of_drive hC hagrees htx (hagrees.tracks.next_stranger hgenerate) hdrive
  · obtain ⟨_, hdrive⟩ := hdriven .complete st.world.relay
    exact Chaos.invalidSource_of_drive hC hagrees htx rfl hdrive

end Rounds

section Verdicts
variable {σ Address : Type} [DecidableEq Address] {C : Client σ Address}
  {generate : Nat → Address} {codes : Codes} {H : RegisterHelpers Str Address} {L : Limits}
  {stored : σ → Stored Address}

/-- **No rotation leaves a transaction stuck.** Whatever the order of rotations, admin
transfers, pauses, registrations and lifecycle calls by whomever, the contract answers as the
model does, a stale signer never, and in the end every transaction can be ended: just where
refusals come out as the codes the harness asserts. -/
theorem rotation_safe_and_live (hgenerate : Function.Injective generate)
    (hC : C.Composes generate codes H L stored) (hH : Serves H) (hL : 3 ≤ L.maxReasonLen) :
    (∀ actions : List (Action Address), actions.length < UInt32.size →
      ∃ w st final, World.new C generate = some w ∧
        Chaos.interleave C generate ⟨w, [], false, []⟩ actions = some st ∧
        st.drain C = some final ∧ final.txs = st.txs ∧ final.Drained C) ↔
      codes.refused = .unauthorised ∧ codes.invalidSource = .invalidStatusTransition := by
  have hfollows := hC.follows hH hL
  obtain ⟨w, hnew, hw⟩ := World.succeeds_new hfollows
  constructor
  · intro hpass
    refine Chaos.codes_of_interleave hgenerate hfollows hw fun actions hlength => ?_
    obtain ⟨w', st, _, hnew', hrun, _⟩ := hpass actions hlength
    rw [hnew] at hnew'
    rw [← Option.some.inj hnew'] at hrun
    exact ⟨st, hrun⟩
  · intro hcodes actions hlength
    obtain ⟨st, hrun, ⟨v, hagrees⟩, _⟩ :=
      Chaos.succeeds_interleave hgenerate hfollows hcodes hw hlength
    obtain ⟨final, hdrain, htxs, hended⟩ := Chaos.succeeds_drain hfollows hcodes.1 hagrees
    exact ⟨w, st, final, hnew, hrun, hdrain, htxs, hended⟩

/-- The codes of the harness, and those that hand `NotAuthorized` of `admin.rs` on. -/
def assertedCodes : Codes := ⟨.unauthorised, .helper 1, .invalidStatusTransition⟩

def untranslatedCodes : Codes := ⟨.notAuthorized, .helper 1, .invalidStatusTransition⟩

def storageClient (codes : Codes) : Client (Stored Nat) Nat :=
  composedClient codes storageHelpers testLimits

theorem rotation_safe_and_live_fixture :
    (∃ w st final, World.new (storageClient assertedCodes) id = some w ∧
      Chaos.interleave (storageClient assertedCodes) id ⟨w, [], false, []⟩ [.register,
        .rotate .fresh, .drive 0 .start 1, .transferAdmin, .togglePause, .rotate .toAdmin,
        .register, .drive 0 .start 0, .drive 0 .fail 3] = some st ∧
      st.drain (storageClient assertedCodes) = some final ∧ final.txs = st.txs ∧
      final.Drained (storageClient assertedCodes)) ∧
    ¬ ∀ actions : List (Action Nat), actions.length < UInt32.size →
      ∃ w st final, World.new (storageClient untranslatedCodes) id = some w ∧
        Chaos.interleave (storageClient untranslatedCodes) id ⟨w, [], false, []⟩ actions =
          some st ∧
        st.drain (storageClient untranslatedCodes) = some final ∧ final.txs = st.txs ∧
        final.Drained (storageClient untranslatedCodes) := by
  have hverdict : ∀ codes, _ := fun codes => rotation_safe_and_live Function.injective_id
    (composedClient_composes id codes storageHelpers testLimits) storageHelpers_serves (by decide)
  constructor
  · exact (hverdict assertedCodes).mpr ⟨rfl, rfl⟩ _ (by decide)
  · exact fun hpass => absurd ((hverdict untranslatedCodes).mp hpass).1 (by decide)

end Verdicts
end Rotation
end Synapse
