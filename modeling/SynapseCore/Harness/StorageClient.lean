import SynapseCore.Contract.AccessControl
import SynapseCore.Contract.RelaySigners
import SynapseCore.Harness.RotationWorld

/-! What the rotation harness runs against. The bodies of the entry points are not in the tree.
A client is assumed to put them together, as their documentation has it, from what is: the
checks of `admin.rs`, `register_callback` and the helpers of `storage.rs`. What it then answers
is proved, whatever error codes it translates their refusals to. -/

namespace Synapse
namespace Rotation
open Trial

/-- The storage, and the nominated admin, for whom `storage.rs` has no key. -/
structure Stored (Address : Type) where
  storage : Storage Str Address
  pendingAdmin : Option Address

section Entries
variable {σ Address : Type} [DecidableEq Address]

def Codes.ofTransition (codes : Codes) : TransitionError → ContractError
  | .notFound => codes.notFound
  | .invalidSource => codes.invalidSource

namespace Stored

def initialised (admin relay : Address) : Stored Address :=
  ⟨(Synapse.setAdmin Ledger.empty admin).setInst .relaySigner relay, none⟩

def asAdmin (s next : Stored Address) : Option (Stored Address) :=
  match getAdmin s.storage with
  | none => none
  | some admin =>
    match requireAdmin (fun _ => true) admin admin with
    | some (.ok ()) => some next
    | _ => none

def setRelaySigner (s : Stored Address) (next : Address) : Option (Stored Address) :=
  s.asAdmin { s with storage := s.storage.setInst .relaySigner next }

def proposeAdmin (s : Stored Address) (next : Address) : Option (Stored Address) :=
  s.asAdmin { s with pendingAdmin := some next }

def acceptAdmin (s : Stored Address) (caller : Address) : Option (Stored Address) :=
  match s.pendingAdmin with
  | none => none
  | some pendingAdmin =>
    match requirePendingAdmin (fun _ => true) caller pendingAdmin with
    | some (.ok ()) => some ⟨Synapse.setAdmin s.storage caller, none⟩
    | _ => none

def setPaused (s : Stored Address) (paused : Bool) : Option (Stored Address) :=
  s.asAdmin { s with storage := Synapse.setPaused s.storage paused }

def registerCallback (H : RegisterHelpers Str Address) (auth : Address → Bool)
    (s : Stored Address) (p : CallbackPayload Str) : Stored Address × Outcome ContractError Str :=
  let called := Synapse.registerCallback H auth s.storage p
  ({ s with storage := called.1 }, called.2)

/-- A lifecycle entry point: the relay-or-admin check against the stored roles, then the helper
of `storage.rs`. -/
def lifecycle (codes : Codes) (L : Limits) (s : Stored Address) (call : LifecycleCall Str Address) :
    Stored Address × Outcome ContractError Unit :=
  match getAdmin s.storage, getRelaySigner s.storage with
  | some admin, some relay =>
    match requireRelayOrAdmin (fun _ => true) call.caller admin relay with
    | none => (s, none)
    | some (.error _) => (s, some (.error codes.refused))
    | some (.ok ()) =>
      let called := lifecycleStep L s.storage call
      ({ s with storage := called.1 },
        some (match called.2 with
          | .ok _ => .ok ()
          | .error e => .error (codes.ofTransition e)))
  | _, _ => (s, none)

def status (s : Stored Address) (id : Str) : Option TransactionStatus :=
  (getTransaction s.storage id).map Transaction.status

/-- The entries that the calls of the harness read are the same. -/
structure Alike (s s' : Stored Address) : Prop where
  admin : getAdmin s'.storage = getAdmin s.storage
  relay : getRelaySigner s'.storage = getRelaySigner s.storage
  pendingAdmin : s'.pendingAdmin = s.pendingAdmin
  paused : isPaused s'.storage = isPaused s.storage
  record : ∀ id, getTransaction s'.storage id = getTransaction s.storage id
  key : ∀ key, (getIdempotencyKey s'.storage key).isSome =
    (getIdempotencyKey s.storage key).isSome

omit [DecidableEq Address] in
theorem Alike.refl (s : Stored Address) : s.Alike s :=
  ⟨rfl, rfl, rfl, rfl, fun _ => rfl, fun _ => rfl⟩

end Stored

def opCall (op : Op) (id : Str) (caller : Address) : LifecycleCall Str Address :=
  match op with
  | .start => .startProcessing id caller
  | .complete => .completeTransaction id caller
  | .fail => .failTransaction id (ascii "err".toList) caller

/-- What the missing helpers of `register_callback` do: they look the relay signer up, admit the
harness's payloads, and write the record and its key alone. -/
structure Serves (H : RegisterHelpers Str Address) : Prop where
  getRelaySigner : ∀ {σ relay}, getRelaySigner σ = some relay → H.getRelaySigner σ = .ok relay
  validatePayload : ∀ σ {n}, n < UInt32.size →
    H.validatePayload σ (payloadOf (txName n)) = .ok ()
  admin : ∀ σ p, getAdmin (H.writePending σ p).1 = getAdmin σ
  relay : ∀ σ p, Synapse.getRelaySigner (H.writePending σ p).1 = Synapse.getRelaySigner σ
  paused : ∀ σ p, isPaused (H.writePending σ p).1 = isPaused σ
  keyed : ∀ σ p tx, getTransaction (H.writePending σ p).1 p.transactionId = some tx →
    tx.txId = p.transactionId

/-- The entry points of the client are these compositions, up to entries the harness does not
see, on the addresses it generates and the transactions that are stored. -/
structure Client.Composes (C : Client σ Address) (generate : Nat → Address) (codes : Codes)
    (H : RegisterHelpers Str Address) (L : Limits) (stored : σ → Stored Address) : Prop where
  initialise : ∃ s, C.initialise (generate 0) (generate 1) = some s ∧
    (Stored.initialised (generate 0) (generate 1)).Alike (stored s)
  relaySigner : ∀ s, C.relaySigner s = Synapse.getRelaySigner (stored s).storage
  getStatus : ∀ s id, C.getStatus s id = (stored s).status id
  setRelaySigner : ∀ {s n next}, (stored s).setRelaySigner (generate n) = some next →
    ∃ s', C.setRelaySigner s (generate n) = some s' ∧ next.Alike (stored s')
  proposeAdmin : ∀ {s n next}, (stored s).proposeAdmin (generate n) = some next →
    ∃ s', C.proposeAdmin s (generate n) = some s' ∧ next.Alike (stored s')
  acceptAdmin : ∀ {s caller next}, (stored s).acceptAdmin caller = some next →
    ∃ s', C.acceptAdmin s caller = some s' ∧ next.Alike (stored s')
  setPaused : ∀ {s paused next}, isPaused (stored s).storage = !paused →
    (stored s).setPaused paused = some next →
      ∃ s', C.setPaused s paused = some s' ∧ next.Alike (stored s')
  registerCallback : ∀ auth s p, ∃ s', C.tryRegisterCallback auth s p =
      (s', ((stored s).registerCallback H auth p).2) ∧
    ((stored s).registerCallback H auth p).1.Alike (stored s')
  lifecycle : ∀ {s id} op caller, (stored s).status id ≠ none →
    ∃ s', C.call op s id caller =
        (s', ((stored s).lifecycle codes L (opCall op id caller)).2) ∧
      ((stored s).lifecycle codes L (opCall op id caller)).1.Alike (stored s')

/-- The compositions themselves, as a client. -/
def composedClient (codes : Codes) (H : RegisterHelpers Str Address) (L : Limits) :
    Client (Stored Address) Address where
  initialise admin relay := some (Stored.initialised admin relay)
  relaySigner s := getRelaySigner s.storage
  setRelaySigner := Stored.setRelaySigner
  proposeAdmin := Stored.proposeAdmin
  acceptAdmin := Stored.acceptAdmin
  pause s := s.setPaused true
  unpause s := s.setPaused false
  tryRegisterCallback auth s p := s.registerCallback H auth p
  tryStartProcessing s id caller := s.lifecycle codes L (.startProcessing id caller)
  tryCompleteTransaction s id _ caller := s.lifecycle codes L (.completeTransaction id caller)
  tryFailTransaction s id reason caller := s.lifecycle codes L (.failTransaction id reason caller)
  getStatus := Stored.status

theorem composedClient_composes (generate : Nat → Address) (codes : Codes)
    (H : RegisterHelpers Str Address) (L : Limits) :
    (composedClient codes H L).Composes generate codes H L id where
  initialise := ⟨_, rfl, .refl _⟩
  relaySigner _ := rfl
  getStatus _ _ := rfl
  setRelaySigner h := ⟨_, h, .refl _⟩
  proposeAdmin h := ⟨_, h, .refl _⟩
  acceptAdmin h := ⟨_, h, .refl _⟩
  setPaused {_ paused _} _ h := by
    cases paused with
    | false => exact ⟨_, h, .refl _⟩
    | true => exact ⟨_, h, .refl _⟩
  registerCallback _ _ _ := ⟨_, rfl, .refl _⟩
  lifecycle op _ _ := by
    cases op with
    | start => exact ⟨_, rfl, .refl _⟩
    | complete => exact ⟨_, rfl, .refl _⟩
    | fail => exact ⟨_, rfl, .refl _⟩

end Entries

/-! ## What the storage shows -/

/-- What the view shows is stored, each record under its id and no key without a record. -/
structure Stored.Shows {Address : Type} (s : Stored Address) (v : View Address) : Prop where
  admin : getAdmin s.storage = some v.admin
  relay : getRelaySigner s.storage = some v.relay
  pendingAdmin : s.pendingAdmin = v.pendingAdmin
  paused : isPaused s.storage = v.paused
  status : ∀ id, s.status id = v.status id
  keys : ∀ id, (getIdempotencyKey s.storage id).isSome → v.status id ≠ none
  wellKeyed : WellKeyed s.storage

section Shows
variable {Address : Type} [DecidableEq Address] {s : Stored Address} {v : View Address}
  {codes : Codes} {H : RegisterHelpers Str Address} {L : Limits}

omit [DecidableEq Address] in
theorem Stored.Shows.alike (h : s.Shows v) {s' : Stored Address} (halike : s.Alike s') :
    s'.Shows v where
  admin := halike.admin.trans h.admin
  relay := halike.relay.trans h.relay
  pendingAdmin := halike.pendingAdmin.trans h.pendingAdmin
  paused := halike.paused.trans h.paused
  status id := by
    rw [Stored.status, halike.record]
    exact h.status id
  keys id := by
    rw [halike.key]
    exact h.keys id
  wellKeyed id tx hget := h.wellKeyed id tx (by rwa [← halike.record])

omit [DecidableEq Address] in
theorem Stored.shows_initialised (admin relay : Address) :
    (Stored.initialised admin relay).Shows ⟨admin, relay, none, false, fun _ => none⟩ := by
  refine ⟨?_, ?_, rfl, ?_, ?_, ?_, ?_⟩
  · simp [initialised, getAdmin, Synapse.setAdmin]
  · simp [initialised, getRelaySigner]
  · simp [initialised, isPaused, Synapse.setAdmin]
  · simp [initialised, Stored.status, getTransaction, Synapse.setAdmin]
  · simp [initialised, getIdempotencyKey, Synapse.setAdmin]
  · intro id tx hget
    simp [initialised, getTransaction, Synapse.setAdmin] at hget

theorem Stored.Shows.asAdmin (h : s.Shows v) (next : Stored Address) :
    s.asAdmin next = some next := by
  unfold Stored.asAdmin
  rw [h.admin]
  dsimp only
  rw [requireAdmin, requireOneOf_of_mem rfl (List.mem_singleton_self _)]

omit [DecidableEq Address] in
theorem Stored.Shows.set_inst (h : s.Shows v) {v' : View Address} {storage : Storage Str Address}
    (hpersistent : storage.persistent = s.storage.persistent)
    (htemporary : storage.temporary = s.storage.temporary) (hadmin : v'.admin = v.admin)
    (hpending : v'.pendingAdmin = v.pendingAdmin) (hstatus : v'.status = v.status)
    (hrelay : getRelaySigner storage = some v'.relay) (hpaused : isPaused storage = v'.paused) :
    Stored.Shows { s with storage := storage } v' := by
  refine ⟨?_, hrelay, h.pendingAdmin.trans hpending.symm, hpaused, fun id => ?_, fun id => ?_, ?_⟩
  · rw [hadmin, ← h.admin, getAdmin, getAdmin, hpersistent]
  · rw [hstatus, ← h.status, Stored.status, Stored.status, getTransaction, getTransaction,
      hpersistent]
  · rw [hstatus, getIdempotencyKey, htemporary]
    exact h.keys id
  · intro id tx
    rw [getTransaction, hpersistent]
    exact h.wellKeyed id tx

theorem Stored.Shows.setRelaySigner (h : s.Shows v) (next : Address) :
    ∃ s', s.setRelaySigner next = some s' ∧ s'.Shows { v with relay := next } := by
  refine ⟨_, h.asAdmin _, h.set_inst rfl rfl rfl rfl rfl ?_ ?_⟩
  · simp [getRelaySigner]
  · simpa [isPaused] using h.paused

theorem Stored.Shows.setPaused (h : s.Shows v) (paused : Bool) :
    ∃ s', s.setPaused paused = some s' ∧ s'.Shows { v with paused := paused } := by
  refine ⟨_, h.asAdmin _, h.set_inst rfl rfl rfl rfl rfl ?_ ?_⟩
  · simpa [getRelaySigner, Synapse.setPaused] using h.relay
  · simp [isPaused, Synapse.setPaused]

theorem Stored.Shows.proposeAdmin (h : s.Shows v) (next : Address) :
    ∃ s', s.proposeAdmin next = some s' ∧ s'.Shows { v with pendingAdmin := some next } :=
  ⟨_, h.asAdmin _, h.admin, h.relay, rfl, h.paused, h.status, h.keys, h.wellKeyed⟩

theorem Stored.Shows.acceptAdmin (h : s.Shows v) {next : Address}
    (hpending : v.pendingAdmin = some next) :
    ∃ s', s.acceptAdmin next = some s' ∧
      s'.Shows { v with admin := next, pendingAdmin := none } := by
  refine ⟨⟨Synapse.setAdmin s.storage next, none⟩, ?_, ?_⟩
  · unfold Stored.acceptAdmin
    rw [h.pendingAdmin, hpending]
    dsimp only
    rw [requirePendingAdmin, requireOneOf_of_mem rfl (List.mem_singleton_self _)]
  refine ⟨?_, h.relay, rfl, h.paused, fun id => ?_, h.keys, ?_⟩
  · simp [getAdmin, Synapse.setAdmin]
  · simpa [Stored.status, getTransaction, Synapse.setAdmin] using h.status id
  · intro id tx hget
    have hget' : getTransaction s.storage id = some tx := by
      simpa [getTransaction, Synapse.setAdmin] using hget
    exact h.wellKeyed id tx hget'

omit [DecidableEq Address] in
theorem Stored.Shows.setRecord (h : s.Shows v) {storage : Storage Str Address}
    {tx : Transaction Str Address}
    (hrecord : ∀ id, getTransaction storage id =
      if id = tx.txId then some tx else getTransaction s.storage id)
    (hadmin : getAdmin storage = getAdmin s.storage)
    (hrelay : getRelaySigner storage = getRelaySigner s.storage)
    (hpaused : isPaused storage = isPaused s.storage)
    (hkeys : ∀ id, (getIdempotencyKey storage id).isSome →
      (getIdempotencyKey s.storage id).isSome ∨ id = tx.txId) :
    Stored.Shows { s with storage := storage } (v.move tx.txId tx.status) := by
  refine ⟨hadmin.trans h.admin, hrelay.trans h.relay, h.pendingAdmin, hpaused.trans h.paused,
    fun id => ?_, fun id hlive => ?_, fun id tx' hstored => ?_⟩
  · rw [Stored.status, hrecord]
    by_cases hid : id = tx.txId
    · rw [if_pos hid, hid, View.status_move]
      rfl
    · rw [if_neg hid, View.status_move_of_ne hid]
      exact h.status id
  · by_cases hid : id = tx.txId
    · rw [hid, View.status_move]
      exact Option.some_ne_none _
    · rw [View.status_move_of_ne hid]
      exact h.keys id ((hkeys id hlive).resolve_right hid)
  · rw [hrecord] at hstored
    split_ifs at hstored with hid
    · rw [hid, Option.some.inj hstored]
    · exact h.wellKeyed id tx' hstored

omit [DecidableEq Address] in
theorem Stored.Shows.setTransaction (h : s.Shows v) (tx : Transaction Str Address) :
    Stored.Shows { s with storage := setTransaction s.storage tx }
      (v.move tx.txId tx.status) := by
  have hadmin : getAdmin (Synapse.setTransaction s.storage tx) = getAdmin s.storage := by
    simp [Synapse.setTransaction, getAdmin]
  exact h.setRecord (getTransaction_setTransaction s.storage tx) hadmin rfl rfl
    fun _ hlive => .inl hlive

/-! ## What the entry points answer -/

omit [DecidableEq Address] in
theorem Stored.Shows.unregistered (h : s.Shows v) {id : Str} (hnew : v.status id = none) :
    getTransaction s.storage id = none := by
  rw [← h.status id] at hnew
  exact Option.map_eq_none_iff.mp hnew

omit [DecidableEq Address] in
theorem Stored.Shows.registers (h : s.Shows v) (hH : Serves H) (hpaused : v.paused = false)
    {auth : Address → Bool} {n : Nat} (hsize : n < UInt32.size) (hauth : auth v.relay = true)
    (hnew : v.status (txName n) = none) :
    (s.registerCallback H auth (payloadOf (txName n))).2 = some (.ok (txName n)) ∧
      (s.registerCallback H auth (payloadOf (txName n))).1.Shows
        (v.move (txName n) .pending) := by
  have hadmitted : Admitted H auth s.storage (payloadOf (txName n)) :=
    ⟨h.paused.trans hpaused, ⟨v.relay, hH.getRelaySigner h.relay, hauth⟩,
      hH.validatePayload _ hsize⟩
  have hkey : (getIdempotencyKey s.storage (payloadOf (txName n)).idempotencyKey).isSome =
      false := by
    by_contra hlive
    exact h.keys _ (Bool.eq_true_of_not_eq_false hlive) hnew
  have hfree : transactionExists s.storage (payloadOf (txName n)).transactionId = false := by
    have hnone := h.unregistered hnew
    rw [getTransaction] at hnone
    simp [transactionExists, Tier.has, payloadOf, hnone]
  have hcall := registerCallback_of_admitted H auth s.storage (payloadOf (txName n)) hadmitted
  simp only [hkey, hfree, Bool.false_eq_true, if_false] at hcall
  obtain ⟨tx, hpending, hstores⟩ := H.writePending_stores s.storage (payloadOf (txName n))
  have hid : tx.txId = txName n :=
    hH.keyed s.storage (payloadOf (txName n)) tx (by rw [hstores, if_pos rfl])
  unfold Stored.registerCallback
  rw [hcall, ← hid, ← hpending]
  refine ⟨by rw [hid]; rfl, h.setRecord (fun id => ?_) (hH.admin ..) (hH.relay ..)
    (hH.paused ..) fun key hlive => ?_⟩
  · rw [hid]
    exact hstores id
  · rw [hid]
    rw [hid, H.writePending_records, Bool.or_eq_true, decide_eq_true_iff] at hlive
    exact hlive.symm

omit [DecidableEq Address] in
theorem Stored.Shows.refuses_unsigned (h : s.Shows v) (hH : Serves H) (hpaused : v.paused = false)
    {auth : Address → Bool} (hauth : auth v.relay = false) (p : CallbackPayload Str) :
    s.registerCallback H auth p = (s, none) := by
  have hopen : isPaused s.storage = false := h.paused.trans hpaused
  simp [Stored.registerCallback, Synapse.registerCallback, hopen, hH.getRelaySigner h.relay, hauth]

omit [DecidableEq Address] in
theorem Stored.Shows.refuses_paused (h : s.Shows v) (hpaused : v.paused = true)
    (auth : Address → Bool) (p : CallbackPayload Str) :
    s.registerCallback H auth p = (s, some (.error .contractPaused)) := by
  have hclosed : isPaused s.storage = true := h.paused.trans hpaused
  simp [Stored.registerCallback, Synapse.registerCallback, hclosed]

omit [DecidableEq Address] in
theorem modelTransition_opCall (status : TransactionStatus) (op : Op) (id : Str)
    (caller : Address) :
    modelTransition status op =
      if status ∈ (opCall op id caller).sources then some (opCall op id caller).target
      else none := by
  cases op <;> cases status <;> rfl

omit [DecidableEq Address] in
@[simp] theorem opCall_txId (op : Op) (id : Str) (caller : Address) :
    (opCall op id caller).txId = id := by
  cases op <;> rfl

omit [DecidableEq Address] in
@[simp] theorem opCall_caller (op : Op) (id : Str) (caller : Address) :
    (opCall op id caller).caller = caller := by
  cases op <;> rfl

omit [DecidableEq Address] in
theorem opCall_fits (hL : 3 ≤ L.maxReasonLen) (op : Op) (id : Str) (caller : Address) :
    (opCall op id caller).ReasonFits L := by
  cases op with
  | start => exact fun reason hreason => by cases hreason
  | complete => exact fun reason hreason => by cases hreason
  | fail =>
    intro reason hreason
    rw [← Option.some.inj hreason]
    exact hL

theorem Stored.Shows.refuses_caller (h : s.Shows v) {caller : Address}
    (hrole : ¬ (caller = v.relay ∨ caller = v.admin)) (op : Op) (id : Str) :
    s.lifecycle codes L (opCall op id caller) = (s, some (.error codes.refused)) := by
  have hmem : caller ∉ [v.admin, v.relay] := by simpa [or_comm] using hrole
  unfold Stored.lifecycle
  rw [h.admin, h.relay, opCall_caller]
  dsimp only
  rw [requireRelayOrAdmin, requireOneOf_of_not_mem rfl hmem]

theorem Stored.Shows.admits_caller (h : s.Shows v) {caller : Address}
    (hrole : caller = v.relay ∨ caller = v.admin) (op : Op) (id : Str) :
    s.lifecycle codes L (opCall op id caller) =
      ({ s with storage := (lifecycleStep L s.storage (opCall op id caller)).1 },
        some (match (lifecycleStep L s.storage (opCall op id caller)).2 with
          | .ok _ => .ok ()
          | .error e => .error (codes.ofTransition e))) := by
  have hmem : caller ∈ [v.admin, v.relay] := by simpa [or_comm] using hrole
  unfold Stored.lifecycle
  rw [h.admin, h.relay, opCall_caller]
  dsimp only
  rw [requireRelayOrAdmin, requireOneOf_of_mem rfl hmem]

/-- The role check and the helper behind it answer as the view has it. -/
theorem Stored.Shows.answers (h : s.Shows v) (hL : 3 ≤ L.maxReasonLen) {op : Op} {id : Str}
    {caller : Address} {v' : View Address} {r : Except ContractError Unit}
    (hanswer : v.answer codes op id caller = some (v', r)) :
    (s.lifecycle codes L (opCall op id caller)).2 = some r ∧
      (s.lifecycle codes L (opCall op id caller)).1.Shows v' := by
  rcases hstatus : v.status id with _ | status
  · simp only [View.answer, hstatus] at hanswer
    cases hanswer
  by_cases hrole : caller = v.relay ∨ caller = v.admin
  swap
  · obtain ⟨hrelay, hadmin⟩ := not_or.mp hrole
    rw [View.answer_refused hstatus hrelay hadmin] at hanswer
    obtain ⟨rfl, rfl⟩ := Prod.ext_iff.mp (Option.some.inj hanswer)
    rw [h.refuses_caller hrole]
    exact ⟨rfl, h⟩
  rw [View.answer_authorised hrole hstatus, modelTransition_opCall status op id caller] at hanswer
  rw [← h.status, Stored.status, Option.map_eq_some_iff] at hstatus
  obtain ⟨tx, htx, rfl⟩ := hstatus
  rw [h.admits_caller hrole]
  split_ifs at hanswer with hsource
  · obtain ⟨rfl, rfl⟩ := Prod.ext_iff.mp (Option.some.inj hanswer)
    have haccepts : Accepts L s.storage (opCall op id caller) tx :=
      ⟨by rwa [opCall_txId], hsource, opCall_fits hL op id caller⟩
    rw [lifecycleStep_of_accepts haccepts]
    have hid : ((opCall op id caller).moved tx).txId = id := h.wellKeyed id tx htx
    have hshows := h.setTransaction ((opCall op id caller).moved tx)
    rw [hid] at hshows
    exact ⟨rfl, hshows⟩
  · obtain ⟨rfl, rfl⟩ := Prod.ext_iff.mp (Option.some.inj hanswer)
    have hget : getTransaction s.storage (opCall op id caller).txId = some tx := by
      rwa [opCall_txId]
    have hstep : lifecycleStep L s.storage (opCall op id caller) =
        (s.storage, .error .invalidSource) := by
      rw [lifecycleStep_eq, if_pos (opCall_fits hL op id caller), transitionStatus_of_some hget,
        if_neg hsource]
    rw [hstep]
    exact ⟨rfl, h⟩

/-- A client composed of the tree's parts follows the view of its storage. -/
theorem Client.Composes.follows {σ : Type} {C : Client σ Address} {generate : Nat → Address}
    {stored : σ → Stored Address} (hC : C.Composes generate codes H L stored) (hH : Serves H)
    (hL : 3 ≤ L.maxReasonLen) :
    C.Follows generate codes fun s v => (stored s).Shows v where
  initialise := by
    obtain ⟨s, hs, halike⟩ := hC.initialise
    exact ⟨s, hs, (Stored.shows_initialised _ _).alike halike⟩
  relaySigner h := (hC.relaySigner _).trans h.relay
  getStatus h id := (hC.getStatus _ id).trans (h.status id)
  setRelaySigner h n := by
    obtain ⟨next, hnext, hshows⟩ := h.setRelaySigner (generate n)
    obtain ⟨s', hs', halike⟩ := hC.setRelaySigner hnext
    exact ⟨s', hs', hshows.alike halike⟩
  proposeAdmin h n := by
    obtain ⟨next, hnext, hshows⟩ := h.proposeAdmin (generate n)
    obtain ⟨s', hs', halike⟩ := hC.proposeAdmin hnext
    exact ⟨s', hs', hshows.alike halike⟩
  acceptAdmin h hpending := by
    obtain ⟨next, hnext, hshows⟩ := h.acceptAdmin hpending
    obtain ⟨s', hs', halike⟩ := hC.acceptAdmin hnext
    exact ⟨s', hs', hshows.alike halike⟩
  pause h hpaused := by
    obtain ⟨next, hnext, hshows⟩ := h.setPaused true
    obtain ⟨s', hs', halike⟩ := hC.setPaused (by exact h.paused.trans hpaused) hnext
    exact ⟨s', hs', hshows.alike halike⟩
  unpause h hpaused := by
    obtain ⟨next, hnext, hshows⟩ := h.setPaused false
    obtain ⟨s', hs', halike⟩ := hC.setPaused (by exact h.paused.trans hpaused) hnext
    exact ⟨s', hs', hshows.alike halike⟩
  registerPaused {s v} h hpaused auth p := by
    obtain ⟨s', hs', halike⟩ := hC.registerCallback auth s p
    rw [h.refuses_paused hpaused] at hs' halike
    exact ⟨s', hs', h.alike halike⟩
  registerUnsigned {s v} h hpaused auth p hauth := by
    obtain ⟨s', hs', halike⟩ := hC.registerCallback auth s p
    rw [h.refuses_unsigned hH hpaused hauth] at hs' halike
    exact ⟨s', hs', h.alike halike⟩
  register {s v} h hpaused auth n hsize hauth hnew := by
    obtain ⟨hcall, hshows⟩ := h.registers hH hpaused hsize hauth hnew
    obtain ⟨s', hs', halike⟩ := hC.registerCallback auth s (payloadOf (txName n))
    rw [hcall] at hs'
    exact ⟨s', hs', hshows.alike halike⟩
  call {s v op id caller v' r} h hanswer := by
    have hstored : (stored s).status id ≠ none := by
      rw [h.status]
      intro hnone
      simp only [View.answer, hnone] at hanswer
      cases hanswer
    obtain ⟨hcall, hshows⟩ := h.answers hL hanswer
    obtain ⟨s', hs', halike⟩ := hC.lifecycle op caller hstored
    rw [hcall] at hs'
    exact ⟨s', hs', hshows.alike halike⟩

end Shows

/-! Helpers over `storage.rs`, for concrete runs. -/

def pendingRecord (payload : CallbackPayload Str) : Transaction Str Nat where
  txId := payload.transactionId
  status := .pending
  amount := payload.amount
  stellarAccount := 0
  assetCode := payload.assetCode
  assetIssuer := 0
  relaySigner := none
  caller := 0
  reason := none
  stellarTxHash := none

def storageHelpers : RegisterHelpers Str Nat where
  getRelaySigner σ := (getRelaySigner σ).elim (.error (.helper 0)) .ok
  validatePayload _ payload := if payload.amount ≤ 0 then .error (.helper 3) else .ok ()
  writePending σ payload :=
    ((setTransaction σ (pendingRecord payload)).setTemporary
      (.idempotencyKey payload.idempotencyKey) (), payload.transactionId)
  writePending_returns _ _ := rfl
  writePending_stores σ payload :=
    ⟨pendingRecord payload, rfl, getTransaction_setTransaction σ (pendingRecord payload)⟩
  writePending_records σ payload key := by
    simp only [getIdempotencyKey, Ledger.setTemporary_temporary, Tier.get_set_isSome,
      DataKey.idempotencyKey.injEq]
    rfl

theorem storageHelpers_serves : Serves storageHelpers where
  getRelaySigner h := by simp [storageHelpers, h]
  validatePayload _ _ _ := rfl
  admin σ p := by simp [storageHelpers, setTransaction, getAdmin]
  relay _ _ := rfl
  paused _ _ := rfl
  keyed σ p tx hget := by
    have hwritten : getTransaction (setTransaction σ (pendingRecord p)) p.transactionId =
        some (pendingRecord p) :=
      (getTransaction_setTransaction ..).trans (if_pos rfl)
    rw [← Option.some.inj (hwritten.symm.trans hget)]
    rfl

end Rotation
end Synapse
