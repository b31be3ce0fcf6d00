import Mathlib.Data.Set.Card
import SynapseCore.Contract.RegisterCallback
import SynapseCore.Contract.TerminalStatuses

/-! Runs of `register_callback`, interleaved with pause toggles, evictions of
idempotency keys and status writes. -/

namespace Synapse
open Machine
variable {TxId Address : Type} [DecidableEq TxId]

inductive RegistryCall (TxId Address : Type)
  | registerCallback (auth : Address → Bool) (payload : CallbackPayload TxId)
  | setPaused (paused : Bool)
  | evictIdempotencyKey (key : Str)
  | status (call : StatusCall TxId Address)

inductive RegistryAnswer (TxId Address : Type)
  | registered (outcome : Outcome ContractError TxId)
  | moved (result : Option (Except TransitionError (Transaction TxId Address)))
  | done

def RegistryAnswer.IsErr : RegistryAnswer TxId Address → Prop
  | registered outcome => ∃ e, outcome = some (.error e)
  | moved result => ∃ e, result = some (.error e)
  | done => False

def registryStep (H : RegisterHelpers TxId Address) (L : Limits) (σ : Storage TxId Address) :
    RegistryCall TxId Address → Storage TxId Address × RegistryAnswer TxId Address
  | .registerCallback auth payload =>
    ((registerCallback H auth σ payload).1, .registered (registerCallback H auth σ payload).2)
  | .setPaused paused => (setPaused σ paused, .done)
  | .evictIdempotencyKey key => (σ.removeTemporary (.idempotencyKey key), .done)
  | .status call => ((statusStep L σ call).1, .moved (statusStep L σ call).2)

/-! ## Records and keys along a run -/

section Steps
variable (H : RegisterHelpers TxId Address) (L : Limits) {σ : Storage TxId Address}

theorem registerCallback_keeps_records {id : TxId} {tx : Transaction TxId Address}
    (h : getTransaction σ id = some tx) (auth : Address → Bool)
    (payload : CallbackPayload TxId) :
    getTransaction (registerCallback H auth σ payload).1 id = some tx := by
  rcases registerCallback_cases H auth σ payload with
    ⟨hsame, _⟩ | ⟨_, _, hstep⟩ | ⟨⟨_, _, hnew⟩, hstep⟩
  · rw [hsame, h]
  · rw [hstep, h]
  · obtain ⟨tx', _, hget⟩ := H.writePending_stores σ payload
    have hid : id ≠ payload.transactionId := by
      rintro rfl
      rw [hnew] at h
      cases h
    rw [hstep, hget, if_neg hid, h]

end Steps

/-! ## What an idempotency key was registered with -/

/-- Storage, and for each idempotency key the transaction last registered under it. -/
abbrev Tracked (TxId Address : Type) := Storage TxId Address × (Str → Option TxId)

/-- Where `write_pending` writes, the payload's id is registered under its key. -/
def noteRegistration (H : RegisterHelpers TxId Address) (auth : Address → Bool)
    (s : Tracked TxId Address) (payload : CallbackPayload TxId) : Str → Option TxId :=
  if Writes H auth s.1 payload then
    Function.update s.2 payload.idempotencyKey (some payload.transactionId)
  else s.2

def trackedStep (H : RegisterHelpers TxId Address) (L : Limits) (s : Tracked TxId Address)
    (call : RegistryCall TxId Address) : Tracked TxId Address × RegistryAnswer TxId Address :=
  (((registryStep H L s.1 call).1,
    match call with
    | .registerCallback auth payload => noteRegistration H auth s payload
    | _ => s.2),
    (registryStep H L s.1 call).2)

/-- The call, if it answers `Ok(id)`, leaves a transaction stored under that id, and
it is the one registered under the payload's idempotency key. -/
def Acknowledged (H : RegisterHelpers TxId Address) (s : Tracked TxId Address) :
    RegistryCall TxId Address → Prop
  | .registerCallback auth payload => ∀ id,
    (registerCallback H auth s.1 payload).2 = some (.ok id) →
      (getTransaction (registerCallback H auth s.1 payload).1 id).isSome = true ∧
        noteRegistration H auth s payload payload.idempotencyKey = some id
  | _ => True

/-- An admitted call on a live idempotency key brings the id that key was registered with. -/
def KeyMatches (H : RegisterHelpers TxId Address) (s : Tracked TxId Address) :
    RegistryCall TxId Address → Prop
  | .registerCallback auth payload => Admitted H auth s.1 payload →
    (getIdempotencyKey s.1 payload.idempotencyKey).isSome = true →
      s.2 payload.idempotencyKey = some payload.transactionId
  | _ => True

/-- Every live key was registered, with a transaction that is still stored. -/
def KeysBacked (s : Tracked TxId Address) : Prop :=
  ∀ key, (getIdempotencyKey s.1 key).isSome = true →
    ∃ id, s.2 key = some id ∧ (getTransaction s.1 id).isSome = true

section Tracking
variable (H : RegisterHelpers TxId Address) (L : Limits) {auth : Address → Bool}
  {s : Tracked TxId Address} {payload : CallbackPayload TxId}

theorem noteRegistration_of_live
    (h : (getIdempotencyKey s.1 payload.idempotencyKey).isSome = true) :
    noteRegistration H auth s payload = s.2 := by
  apply if_neg
  intro hwrites
  rw [hwrites.2.1] at h
  cases h

theorem noteRegistration_of_refused
    (h : ∀ id, (registerCallback H auth s.1 payload).2 ≠ some (.ok id)) :
    noteRegistration H auth s payload = s.2 := by
  apply if_neg
  intro hwrites
  rw [registerCallback_of_writes H auth s.1 payload hwrites] at h
  exact h payload.transactionId rfl

theorem noteRegistration_of_writes (h : Writes H auth s.1 payload) :
    noteRegistration H auth s payload =
      Function.update s.2 payload.idempotencyKey (some payload.transactionId) :=
  if_pos h

omit [DecidableEq TxId] in
theorem KeysBacked.mono {s s' : Tracked TxId Address} (h : KeysBacked s) (hnotes : s'.2 = s.2)
    (hlive : ∀ key, (getIdempotencyKey s'.1 key).isSome = true →
      (getIdempotencyKey s.1 key).isSome = true)
    (hstored : ∀ id, (getTransaction s.1 id).isSome = true →
      (getTransaction s'.1 id).isSome = true) : KeysBacked s' := by
  intro key hkey
  obtain ⟨id, hid, hget⟩ := h key (hlive key hkey)
  have hnote : s'.2 key = some id := by
    rw [hnotes, hid]
  exact ⟨id, hnote, hstored id hget⟩

theorem keysBacked_writePending (h : KeysBacked s) :
    KeysBacked ((H.writePending s.1 payload).1,
      Function.update s.2 payload.idempotencyKey (some payload.transactionId)) := by
  obtain ⟨tx, _, hget⟩ := H.writePending_stores s.1 payload
  intro key hkey
  by_cases hsame : key = payload.idempotencyKey
  · have hnote : Function.update s.2 payload.idempotencyKey (some payload.transactionId) key =
        some payload.transactionId := by
      rw [hsame]
      exact Function.update_self ..
    refine ⟨payload.transactionId, hnote, ?_⟩
    rw [hget, if_pos rfl]
    rfl
  · rw [H.writePending_records, decide_eq_false hsame, Bool.false_or] at hkey
    obtain ⟨id, hid, hstored⟩ := h key hkey
    have hnote : Function.update s.2 payload.idempotencyKey (some payload.transactionId) key =
        some id := by
      rw [← hid]
      exact Function.update_of_ne hsame ..
    refine ⟨id, hnote, ?_⟩
    rw [hget]
    split_ifs
    · rfl
    · exact hstored

theorem keysBacked_trackedStep (h : KeysBacked s) (call : RegistryCall TxId Address) :
    KeysBacked (trackedStep H L s call).1 := by
  cases call with
  | registerCallback auth payload =>
    dsimp only [trackedStep, registryStep]
    rcases registerCallback_cases H auth s.1 payload with
      ⟨hsame, hrefused⟩ | ⟨_, hlive, hstep⟩ | ⟨hwrites, hstep⟩
    · rw [noteRegistration_of_refused H hrefused, hsame]
      exact h
    · rw [noteRegistration_of_live H hlive, hstep]
      exact h
    · rw [noteRegistration_of_writes H hwrites, hstep]
      exact keysBacked_writePending H h
  | setPaused paused => exact h.mono rfl (fun _ hkey => hkey) (fun _ hget => hget)
  | evictIdempotencyKey key =>
    refine h.mono rfl (fun key' hkey => ?_) (fun _ hget => hget)
    by_cases hsame : key' = key
    · rw [hsame] at hkey
      simp [trackedStep, registryStep, getIdempotencyKey] at hkey
    · simpa [trackedStep, registryStep, getIdempotencyKey, hsame] using hkey
  | status call =>
    refine h.mono rfl (fun key hkey => ?_) (fun _ hget => stored_statusStep hget call)
    dsimp only [trackedStep, registryStep] at hkey
    rw [getIdempotencyKey, (statusStep_frame L s.1 call).2.1] at hkey
    exact hkey

theorem acknowledged_iff (h : KeysBacked s) (call : RegistryCall TxId Address) :
    Acknowledged H s call ↔ KeyMatches H s call := by
  cases call with
  | registerCallback auth payload =>
    dsimp only [Acknowledged, KeyMatches]
    rcases registerCallback_cases H auth s.1 payload with
      ⟨hsame, hrefused⟩ | ⟨hadmitted, hlive, hstep⟩ | ⟨hwrites, hstep⟩
    · refine ⟨fun _ hadmitted hlive => ?_, fun _ id hok => absurd hok (hrefused id)⟩
      rw [registerCallback_of_admitted H auth s.1 payload hadmitted, if_pos hlive] at hrefused
      exact absurd rfl (hrefused payload.transactionId)
    · -- deduplicated: nothing is written, so only the note on the key decides
      rw [hstep, noteRegistration_of_live H hlive]
      constructor
      · intro hack _ _
        exact (hack _ rfl).2
      · rintro hmatch id hid
        have hsame : payload.transactionId = id := Except.ok.inj (Option.some.inj hid)
        have hnote := hmatch hadmitted hlive
        obtain ⟨id', hbacked, hstored⟩ := h _ hlive
        rw [hnote] at hbacked
        rw [← Option.some.inj hbacked] at hstored
        rw [← hsame]
        exact ⟨hstored, hnote⟩
    · rw [noteRegistration_of_writes H hwrites, hstep, hwrites.2.1]
      constructor
      · intro _ _ hlive
        cases hlive
      intro _ id hid
      have hsame : payload.transactionId = id := Except.ok.inj (Option.some.inj hid)
      obtain ⟨tx, _, hget⟩ := H.writePending_stores s.1 payload
      have hstored :
          getTransaction (H.writePending s.1 payload).1 payload.transactionId = some tx := by
        rw [hget, if_pos rfl]
      rw [← hsame, hstored]
      exact ⟨rfl, Function.update_self ..⟩
  | setPaused paused => exact Iff.rfl
  | evictIdempotencyKey key => exact Iff.rfl
  | status call => exact Iff.rfl

end Tracking

/-- **Acknowledged registrations exist exactly when live keys are not reused for
another id.** A deduplicated call answers with the id in its own payload, not with
the one the key was registered with. -/
theorem acknowledged_iff_keyMatches (H : RegisterHelpers TxId Address) (L : Limits)
    (σ : Storage TxId Address) (hσ : ∀ key, getIdempotencyKey σ key = none)
    (calls : List (RegistryCall TxId Address)) :
    Along (trackedStep H L) (Acknowledged H) (σ, fun _ => none) calls ↔
      Along (trackedStep H L) (KeyMatches H) (σ, fun _ => none) calls := by
  refine along_congr_of_invariant (trackedStep H L) _ _ KeysBacked
    (fun s call hs => keysBacked_trackedStep H L hs call)
    (fun s call hs => acknowledged_iff H hs call)
    (fun key hkey => ?_) calls
  rw [hσ key] at hkey
  cases hkey

def testPending (payload : CallbackPayload Nat) : Transaction Nat Nat :=
  { testTransaction with
    txId := payload.transactionId, amount := payload.amount, assetCode := payload.assetCode }

/-- A contract with relay 7 and helpers that behave as documented. -/
def testHelpers : RegisterHelpers Nat Nat where
  getRelaySigner _ := .ok 7
  validatePayload _ payload := if payload.amount ≤ 0 then .error (.helper 3) else .ok ()
  writePending σ payload :=
    (((setTransaction σ (testPending payload)).setTemporary
      (.idempotencyKey payload.idempotencyKey) ()).publish (.reg payload.transactionId),
      payload.transactionId)
  writePending_returns _ _ := rfl
  writePending_stores σ payload :=
    ⟨testPending payload, rfl, getTransaction_setTransaction σ (testPending payload)⟩
  writePending_records σ payload key := by
    simp only [getIdempotencyKey, Ledger.publish_temporary, Ledger.setTemporary_temporary,
      Tier.get_set_isSome, DataKey.idempotencyKey.injEq]
    rfl

/-- A valid payload for transaction `txId` under the one-byte key `key`. -/
def testPayload (txId : Nat) (key : UInt8) : CallbackPayload Nat where
  transactionId := txId
  stellarAccount := [0x47]
  amount := 1000
  assetCode := [0x55, 0x53, 0x44, 0x43]
  assetIssuer := [0x47]
  idempotencyKey := [key]
  anchorTransactionId := [0x61]
  callbackType := .deposit
  callbackStatus := [0x70]

theorem acknowledged_counterexample :
    ¬ ∀ calls : List (RegistryCall Nat Nat), Along (trackedStep testHelpers testLimits)
      (Acknowledged testHelpers) (Ledger.empty, fun _ => none) calls := by
  intro h
  have hsecond := (h [.registerCallback (fun _ => true) (testPayload 1 5),
    .registerCallback (fun _ => true) (testPayload 2 5)]).2.1 2 rfl
  cases hsecond.1

theorem acknowledged_iff_keyMatches_fixture :
    Along (trackedStep testHelpers testLimits) (Acknowledged testHelpers)
      ((Ledger.empty : Storage Nat Nat), fun _ => none)
      [.registerCallback (fun _ => true) (testPayload 1 5), .setPaused true, .setPaused false,
        .registerCallback (fun _ => true) (testPayload 1 5)] :=
  (acknowledged_iff_keyMatches testHelpers testLimits Ledger.empty (fun _ => rfl) _).mpr
    ⟨fun _ hlive => (by cases hlive), trivial, trivial, fun _ _ => rfl, trivial⟩

/-! ## Records and `reg` events -/

def regIds (σ : Storage TxId Address) : List TxId :=
  σ.events.filterMap fun
    | .reg txId => some txId
    | _ => none

/-- Helpers whose record carries the payload's id and whose write emits one `reg` event. -/
structure LoggingHelpers (TxId Address : Type) [DecidableEq TxId] extends
    RegisterHelpers TxId Address where
  writePending_keyed : ∀ σ payload tx,
    getTransaction (writePending σ payload).1 payload.transactionId = some tx →
      tx.txId = payload.transactionId
  writePending_emits : ∀ σ payload,
    regIds (writePending σ payload).1 = regIds σ ++ [payload.transactionId]

/-- The `reg` events list the stored records, each once. -/
structure Registered (σ : Storage TxId Address) : Prop where
  wellKeyed : WellKeyed σ
  nodup : (regIds σ).Nodup
  mem_iff : ∀ id, id ∈ regIds σ ↔ (getTransaction σ id).isSome = true

omit [DecidableEq TxId] in
theorem Registered.of_no_records {σ : Storage TxId Address}
    (hrecords : ∀ id, getTransaction σ id = none) (hevents : regIds σ = []) : Registered σ where
  wellKeyed id tx hget := by
    rw [hrecords] at hget
    cases hget
  nodup := by
    rw [hevents]
    exact List.nodup_nil
  mem_iff id := by
    rw [hevents, hrecords]
    exact ⟨fun hmem => (by cases hmem), fun hsome => (by cases hsome)⟩

theorem Registered.ncard {σ : Storage TxId Address} (h : Registered σ) :
    {id | (getTransaction σ id).isSome = true}.ncard = (regIds σ).length := by
  have hset : {id | (getTransaction σ id).isSome = true} = ((regIds σ).toFinset : Set TxId) := by
    ext id
    rw [Finset.mem_coe, List.mem_toFinset, h.mem_iff]
    rfl
  rw [hset, Set.ncard_coe_finset, List.toFinset_card_of_nodup h.nodup]

section Registering
variable (H : LoggingHelpers TxId Address) (L : Limits) {σ : Storage TxId Address}

theorem registered_writePending (h : Registered σ) {payload : CallbackPayload TxId}
    (hnew : getTransaction σ payload.transactionId = none) :
    Registered (H.writePending σ payload).1 := by
  obtain ⟨tx, _, hget⟩ := H.writePending_stores σ payload
  have hfresh : payload.transactionId ∉ regIds σ := by
    rw [h.mem_iff, hnew]
    exact Bool.false_ne_true
  refine ⟨fun id tx' hid => ?_, ?_, fun id => ?_⟩
  · by_cases hsame : id = payload.transactionId
    · subst hsame
      exact H.writePending_keyed σ payload tx' hid
    · rw [hget, if_neg hsame] at hid
      exact h.wellKeyed id tx' hid
  · rw [H.writePending_emits]
    exact List.Nodup.append h.nodup (List.nodup_singleton _)
      (by simpa [List.disjoint_singleton] using hfresh)
  · rw [H.writePending_emits, List.mem_append, List.mem_singleton, h.mem_iff, hget]
    split_ifs with hsame
    · simp [hsame]
    · simp [hsame]

theorem registered_registryStep (h : Registered σ) (call : RegistryCall TxId Address) :
    Registered (registryStep H.toRegisterHelpers L σ call).1 := by
  cases call with
  | registerCallback auth payload =>
    dsimp only [registryStep]
    rcases registerCallback_cases H.toRegisterHelpers auth σ payload with
      ⟨hsame, _⟩ | ⟨_, _, hstep⟩ | ⟨⟨_, _, hnew⟩, hstep⟩
    · rwa [hsame]
    · rwa [hstep]
    · rw [hstep]
      exact registered_writePending H h hnew
  | setPaused paused => exact ⟨h.wellKeyed, h.nodup, h.mem_iff⟩
  | evictIdempotencyKey key => exact ⟨h.wellKeyed, h.nodup, h.mem_iff⟩
  | status call =>
    have hevents : regIds (statusStep L σ call).1 = regIds σ := by
      rw [regIds, (statusStep_frame L σ call).2.2, regIds]
    refine ⟨wellKeyed_statusStep h.wellKeyed call, ?_, fun id => ?_⟩
    · change (regIds (statusStep L σ call).1).Nodup
      rw [hevents]
      exact h.nodup
    · change id ∈ regIds (statusStep L σ call).1 ↔ _
      rw [hevents, h.mem_iff]
      exact (stored_statusStep_iff h.wellKeyed call id).symm

end Registering

theorem registryStep_err_unchanged (H : RegisterHelpers TxId Address) (L : Limits)
    {σ : Storage TxId Address} {call : RegistryCall TxId Address}
    (h : (registryStep H L σ call).2.IsErr) : (registryStep H L σ call).1 = σ := by
  cases call with
  | registerCallback auth payload =>
    dsimp only [registryStep, RegistryAnswer.IsErr] at h ⊢
    obtain ⟨e, he⟩ := h
    rcases registerCallback_cases H auth σ payload with ⟨hsame, _⟩ | ⟨_, _, hstep⟩ | ⟨_, hstep⟩
    · exact hsame
    · rw [hstep]
    · rw [hstep] at he
      cases he
  | setPaused paused => exact h.elim
  | evictIdempotencyKey key => exact h.elim
  | status call =>
    dsimp only [registryStep, RegistryAnswer.IsErr] at h ⊢
    obtain ⟨e, he⟩ := h
    cases call with
    | lifecycle call =>
      have herr : (lifecycleStep L σ call).2 = .error e := Option.some.inj he
      apply lifecycleStep_err_unchanged
      rw [herr]
      rfl
    | setTransactionStatus txId status => cases he

/-- **Registration never overwrites and never duplicates.** In every state a run
reaches from a contract without records: a later `register_callback` keeps every
record as it is, no id has two `reg` events, there are as many `reg` events as
records, and a call that errs changes nothing. -/
theorem registration_never_overwrites (H : LoggingHelpers TxId Address) (L : Limits)
    (σ : Storage TxId Address) (hrecords : ∀ id, getTransaction σ id = none)
    (hevents : regIds σ = []) (calls : List (RegistryCall TxId Address)) :
    let τ := after (registryStep H.toRegisterHelpers L) σ calls
    (∀ auth payload id tx, getTransaction τ id = some tx →
      getTransaction (registerCallback H.toRegisterHelpers auth τ payload).1 id = some tx) ∧
    (∀ id, (regIds τ).count id ≤ 1) ∧
    {id | (getTransaction τ id).isSome = true}.ncard = (regIds τ).length ∧
    (∀ call, (registryStep H.toRegisterHelpers L τ call).2.IsErr →
      (registryStep H.toRegisterHelpers L τ call).1 = τ) := by
  intro τ
  have hreg : Registered τ := after_invariant (registryStep H.toRegisterHelpers L) Registered
    (fun _ call h => registered_registryStep H L h call)
    (Registered.of_no_records hrecords hevents) calls
  have hkept : ∀ auth payload id tx, getTransaction τ id = some tx →
      getTransaction (registerCallback H.toRegisterHelpers auth τ payload).1 id = some tx := by
    intro auth payload id tx hget
    exact registerCallback_keeps_records H.toRegisterHelpers hget auth payload
  have honce : ∀ id, (regIds τ).count id ≤ 1 := List.nodup_iff_count_le_one.mp hreg.nodup
  exact ⟨hkept, honce, hreg.ncard, fun _ => registryStep_err_unchanged _ L⟩

def testLoggingHelpers : LoggingHelpers Nat Nat where
  toRegisterHelpers := testHelpers
  writePending_keyed σ payload tx h := by
    obtain rfl : testPending payload = tx := by
      have hset := getTransaction_setTransaction σ (testPending payload) payload.transactionId
      rw [if_pos (show payload.transactionId = (testPending payload).txId from rfl)] at hset
      exact Option.some.inj (hset.symm.trans h)
    rfl
  writePending_emits σ payload := by
    simp [testHelpers, regIds, setTransaction]

theorem registration_never_overwrites_fixture :
    {id | (getTransaction (after (registryStep testHelpers testLimits)
      (Ledger.empty : Storage Nat Nat)
      [.registerCallback (fun _ => true) (testPayload 1 5),
        .status (.lifecycle (.startProcessing 1 7)),
        .evictIdempotencyKey [5], .registerCallback (fun _ => true) (testPayload 1 6)])
      id).isSome = true}.ncard = 1 :=
  (registration_never_overwrites testLoggingHelpers testLimits Ledger.empty (fun _ => rfl) rfl
    _).2.2.1

end Synapse
