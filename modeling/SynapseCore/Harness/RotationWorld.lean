import SynapseCore.Contract.RegisterCallback
import SynapseCore.Foundation.Text
import SynapseCore.Foundation.Trials
import SynapseCore.Foundation.Utf8

/-! The world of the key-rotation harness: the contract behind its client, the signers that
were rotated out, and the steps the harness takes. A failing assertion and a panic are `none`.
The entry points of the contract are not in the tree, so the client is a parameter, and so are
the error codes it answers with. -/

namespace Synapse
namespace Rotation
open Text Trial

inductive Op
  | start | complete | fail
  deriving DecidableEq

/-- The client of the contract. A method that panics has no result; a `try_` method hands
back an outcome, and registration is called under the authorisations it is told. -/
structure Client (σ Address : Type) where
  initialise : Address → Address → Option σ
  relaySigner : σ → Option Address
  setRelaySigner : σ → Address → Option σ
  proposeAdmin : σ → Address → Option σ
  acceptAdmin : σ → Address → Option σ
  pause : σ → Option σ
  unpause : σ → Option σ
  tryRegisterCallback : (Address → Bool) → σ → CallbackPayload Str →
    σ × Outcome ContractError Str
  tryStartProcessing : σ → Str → Address → σ × Outcome ContractError Unit
  tryCompleteTransaction : σ → Str → Str → Address → σ × Outcome ContractError Unit
  tryFailTransaction : σ → Str → Str → Address → σ × Outcome ContractError Unit
  getStatus : σ → Str → Option TransactionStatus

def ascii (s : Text) : Str := Utf8.encode s

def gAddr : Str := ascii "GA7QYNF7SOWQ3GLR2BGMZEHXAVIRZA4KVWLTJJFC7MGXUA74P7UJVSGZ".toList

def txName (n : Nat) : Str := ascii (['t', 'x', '-'] ++ display n)

def payloadOf (id : Str) : CallbackPayload Str where
  transactionId := id
  stellarAccount := gAddr
  amount := 1000
  assetCode := ascii "USDC".toList
  assetIssuer := gAddr
  idempotencyKey := id
  anchorTransactionId := ascii "anchor".toList
  callbackType := .deposit
  callbackStatus := ascii "pending_external".toList

structure World (σ Address : Type) where
  client : σ
  admin : Address
  relay : Address
  staleRelays : List Address
  relayHistory : List Address
  nextTx : Nat
  generated : Nat

inductive RotationKind
  | fresh | sameSigner | toAdmin | backToOriginal

section Steps
variable {σ Address : Type} [DecidableEq Address] (C : Client σ Address)
  (generate : Nat → Address)

def Client.call (op : Op) (s : σ) (id : Str) (caller : Address) :
    σ × Outcome ContractError Unit :=
  match op with
  | .start => C.tryStartProcessing s id caller
  | .complete => C.tryCompleteTransaction s id (ascii "hash".toList) caller
  | .fail => C.tryFailTransaction s id (ascii "err".toList) caller

def Client.setPaused (s : σ) (paused : Bool) : Option σ := if paused then C.pause s else C.unpause s

def isOk {ε α : Type} : Outcome ε α → Bool
  | some (.ok _) => true
  | _ => false

namespace World

def new : Option (World σ Address) := do
  let s ← C.initialise (generate 0) (generate 1)
  return ⟨s, generate 0, generate 1, [], [generate 1], 0, 2⟩

def payload (w : World σ Address) : Option (CallbackPayload Str × World σ Address) :=
  if w.nextTx + 1 < UInt32.size then
    some (payloadOf (txName (w.nextTx + 1)), { w with nextTx := w.nextTx + 1 })
  else none

def rotateTo (w : World σ Address) (next : Address) : Option (World σ Address) := do
  let s ← C.setRelaySigner w.client next
  let stale :=
    if w.relay ≠ next ∧ w.relay ∉ w.staleRelays then w.staleRelays ++ [w.relay]
    else w.staleRelays
  check (C.relaySigner s = some next)
  return { w with
    client := s
    relay := next
    staleRelays := stale.filter fun a => a ≠ next ∧ a ≠ w.admin
    relayHistory := w.relayHistory ++ [next] }

def fresh (w : World σ Address) : Address × World σ Address :=
  (generate w.generated, { w with generated := w.generated + 1 })

def rotate (w : World σ Address) : RotationKind → Option (World σ Address)
  | .fresh => (w.fresh generate).2.rotateTo C (w.fresh generate).1
  | .sameSigner => w.rotateTo C w.relay
  | .toAdmin => w.rotateTo C w.admin
  | .backToOriginal => do
    let original ← w.relayHistory[0]?
    if w.relay = original then (w.fresh generate).2.rotateTo C (w.fresh generate).1
    else w.rotateTo C original

def registerAs (w : World σ Address) (signer : Address) (p : CallbackPayload Str) :
    World σ Address × Bool :=
  let called := C.tryRegisterCallback (fun a => a = signer) w.client p
  ({ w with client := called.1 }, isOk called.2)

def status (w : World σ Address) (id : Str) : Option TransactionStatus := C.getStatus w.client id

def step (w : World σ Address) (op : Op) (id : Str) (caller : Address) :
    Option (World σ Address × Except ContractError Unit) :=
  match C.call op w.client id caller with
  | (s, some r) => some ({ w with client := s }, r)
  | (_, none) => none

def expect (w : World σ Address) (op : Op) (id : Str) (caller : Address)
    (expected : Except ContractError Unit) : Option (World σ Address) := do
  let (w, got) ← w.step C op id caller
  check (got = expected)
  return w

def staleSignersCannot (w : World σ Address) (op : Op) (id : Str) : Option (World σ Address) := do
  let before ← w.status C id
  w.staleRelays.foldlM (fun w stale => do
    let w ← w.expect C op id stale (.error .unauthorised)
    let now ← w.status C id
    check (now = before)
    return w) w

def driveToEnd (w : World σ Address) (id : Str) : TransactionStatus → Option (World σ Address)
  | .pending => do
    let w ← w.expect C .start id w.relay (.ok ())
    w.expect C .complete id w.relay (.ok ())
  | .processing => w.expect C .complete id w.relay (.ok ())
  | _ => some w

def assertCanFinish (w : World σ Address) (id : Str) : Option (World σ Address) := do
  let now ← w.status C id
  let w ← w.driveToEnd C id now
  let last ← w.status C id
  check (last = .completed ∨ last = .failed)
  return w

end World
end Steps

/-! ## What the harness relies on -/

def modelTransition : TransactionStatus → Op → Option TransactionStatus
  | .pending, .start => some .processing
  | .processing, .complete => some .completed
  | .pending, .fail | .processing, .fail => some .failed
  | _, _ => none

/-- What the entry points answer with where `admin.rs` refuses the caller, and where
`storage.rs` refuses the transition. -/
structure Codes where
  refused : ContractError
  notFound : ContractError
  invalidSource : ContractError
  deriving DecidableEq

structure View (Address : Type) where
  admin : Address
  relay : Address
  pendingAdmin : Option Address
  paused : Bool
  status : Str → Option TransactionStatus

section Laws
variable {σ Address : Type} [DecidableEq Address]

def View.move (v : View Address) (id : Str) (status : TransactionStatus) : View Address :=
  { v with status := Function.update v.status id (some status) }

/-- A transition is authorised against the roles stored at call time, whoever registered the
transaction, and only then against its status. Of an unknown transaction nothing is said. -/
def View.answer (codes : Codes) (v : View Address) (op : Op) (id : Str) (caller : Address) :
    Option (View Address × Except ContractError Unit) :=
  match v.status id with
  | none => none
  | some status =>
    if caller ≠ v.relay ∧ caller ≠ v.admin then some (v, .error codes.refused)
    else
      match modelTransition status op with
      | some next => some (v.move id next, .ok ())
      | none => some (v, .error codes.invalidSource)

/-- The contract follows the view `R` gives of its states, on addresses the environment has
generated. -/
structure Client.Follows (C : Client σ Address) (generate : Nat → Address) (codes : Codes)
    (R : σ → View Address → Prop) : Prop where
  initialise : ∃ s, C.initialise (generate 0) (generate 1) = some s ∧
    R s ⟨generate 0, generate 1, none, false, fun _ => none⟩
  relaySigner : ∀ {s v}, R s v → C.relaySigner s = some v.relay
  getStatus : ∀ {s v}, R s v → ∀ id, C.getStatus s id = v.status id
  setRelaySigner : ∀ {s v}, R s v → ∀ n, ∃ s', C.setRelaySigner s (generate n) = some s' ∧
    R s' { v with relay := generate n }
  proposeAdmin : ∀ {s v}, R s v → ∀ n, ∃ s', C.proposeAdmin s (generate n) = some s' ∧
    R s' { v with pendingAdmin := some (generate n) }
  acceptAdmin : ∀ {s v next}, R s v → v.pendingAdmin = some next →
    ∃ s', C.acceptAdmin s next = some s' ∧ R s' { v with admin := next, pendingAdmin := none }
  pause : ∀ {s v}, R s v → v.paused = false → ∃ s', C.pause s = some s' ∧
    R s' { v with paused := true }
  unpause : ∀ {s v}, R s v → v.paused = true → ∃ s', C.unpause s = some s' ∧
    R s' { v with paused := false }
  registerPaused : ∀ {s v}, R s v → v.paused = true → ∀ auth p,
    ∃ s', C.tryRegisterCallback auth s p = (s', some (.error .contractPaused)) ∧ R s' v
  registerUnsigned : ∀ {s v}, R s v → v.paused = false → ∀ auth p, auth v.relay = false →
    ∃ s', C.tryRegisterCallback auth s p = (s', none) ∧ R s' v
  register : ∀ {s v}, R s v → v.paused = false → ∀ auth n, n < UInt32.size →
    auth v.relay = true → v.status (txName n) = none →
      ∃ s', C.tryRegisterCallback auth s (payloadOf (txName n)) =
        (s', some (.ok (txName n))) ∧ R s' (v.move (txName n) .pending)
  call : ∀ {s v op id caller v' r}, R s v → v.answer codes op id caller = some (v', r) →
    ∃ s', C.call op s id caller = (s', some r) ∧ R s' v'

section Answers
variable {codes : Codes} {v v' : View Address} {op : Op} {id : Str} {caller : Address}
  {status : TransactionStatus}

omit [DecidableEq Address] in
@[simp] theorem View.status_move (id : Str) (status : TransactionStatus) :
    (v.move id status).status id = some status := Function.update_self ..

omit [DecidableEq Address] in
@[simp] theorem View.status_move_of_ne {id id' : Str} (h : id' ≠ id) (status : TransactionStatus) :
    (v.move id status).status id' = v.status id' := Function.update_of_ne h ..

theorem View.answer_refused (hstatus : v.status id = some status) (hrelay : caller ≠ v.relay)
    (hadmin : caller ≠ v.admin) (codes : Codes) (op : Op) :
    v.answer codes op id caller = some (v, .error codes.refused) := by
  simp only [View.answer, hstatus]
  exact if_pos ⟨hrelay, hadmin⟩

theorem View.answer_authorised (h : caller = v.relay ∨ caller = v.admin)
    (hstatus : v.status id = some status) (codes : Codes) (op : Op) :
    v.answer codes op id caller =
      match modelTransition status op with
      | some next => some (v.move id next, .ok ())
      | none => some (v, .error codes.invalidSource) := by
  have hrole : ¬ (caller ≠ v.relay ∧ caller ≠ v.admin) := by
    rintro ⟨hrelay, hadmin⟩
    exact h.elim hrelay hadmin
  simp only [View.answer, hstatus, if_neg hrole]

structure View.Same (v v' : View Address) : Prop where
  admin : v'.admin = v.admin
  relay : v'.relay = v.relay
  paused : v'.paused = v.paused
  stored : ∀ id, v'.status id = none ↔ v.status id = none

omit [DecidableEq Address] in
theorem View.Same.refl (v : View Address) : v.Same v := ⟨rfl, rfl, rfl, fun _ => Iff.rfl⟩

omit [DecidableEq Address] in
theorem View.move_same (hstatus : v.status id = some status) (next : TransactionStatus) :
    v.Same (v.move id next) := by
  refine ⟨rfl, rfl, rfl, fun id' => ?_⟩
  by_cases hid : id' = id
  · rw [hid, hstatus]
    simp [View.move]
  · simp [View.move, hid]

theorem View.answer_cases {r : Except ContractError Unit}
    (h : v.answer codes op id caller = some (v', r)) :
    v' = v ∨ ∃ status next, v.status id = some status ∧ v' = v.move id next := by
  unfold View.answer at h
  rcases hstatus : v.status id with _ | status
  · rw [hstatus] at h
    cases h
  simp only [hstatus] at h
  split_ifs at h
  · exact .inl (Prod.ext_iff.mp (Option.some.inj h)).1.symm
  rcases hmodel : modelTransition status op with _ | next
  · simp only [hmodel] at h
    exact .inl (Prod.ext_iff.mp (Option.some.inj h)).1.symm
  · simp only [hmodel] at h
    exact .inr ⟨status, next, rfl, (Prod.ext_iff.mp (Option.some.inj h)).1.symm⟩

theorem View.answer_same {r : Except ContractError Unit}
    (h : v.answer codes op id caller = some (v', r)) : v.Same v' := by
  obtain rfl | ⟨status, next, hstatus, rfl⟩ := View.answer_cases h
  · exact .refl v'
  · exact View.move_same hstatus next

end Answers
end Laws

/-! ## The world keeps track of the contract -/

def Issued {Address : Type} (generate : Nat → Address) (n : Nat) (a : Address) : Prop :=
  ∃ k < n, a = generate k

section Issued
variable {Address : Type} {generate : Nat → Address} {n : Nat} {a : Address}

theorem Issued.succ (h : Issued generate n a) : Issued generate (n + 1) a := by
  obtain ⟨k, hk, rfl⟩ := h
  exact ⟨k, Nat.lt_succ_of_lt hk, rfl⟩

theorem issued_next : Issued generate (n + 1) (generate n) := ⟨n, Nat.lt_succ_self n, rfl⟩

theorem Issued.ne_next (hgenerate : Function.Injective generate) (h : Issued generate n a) :
    a ≠ generate n := by
  obtain ⟨k, hk, rfl⟩ := h
  exact fun heq => hk.ne (hgenerate heq)

end Issued

theorem txName_injective : Function.Injective txName := fun m n h => by
  have htext := Utf8.encode_injective h
  exact display_injective (List.append_cancel_left htext)

/-- The world agrees with the view of its contract. No stale signer holds a role, and every
signer was generated, so that a new address is none of them. -/
structure World.Tracks {σ Address : Type} (R : σ → View Address → Prop)
    (generate : Nat → Address) (w : World σ Address) (v : View Address) : Prop where
  client : R w.client v
  admin : v.admin = w.admin
  relay : v.relay = w.relay
  stale : ∀ a ∈ w.staleRelays, a ≠ w.relay ∧ a ≠ w.admin
  known : ∀ a, a = w.admin ∨ a = w.relay ∨ a ∈ w.staleRelays ∨ a ∈ w.relayHistory →
    Issued generate w.generated a
  origin : w.relayHistory ≠ []
  named : ∀ id, v.status id ≠ none → ∃ n ≤ w.nextTx, id = txName n

section Tracking
variable {σ Address : Type} [DecidableEq Address] {C : Client σ Address}
  {codes : Codes} {R : σ → View Address → Prop} {generate : Nat → Address} {w : World σ Address}
  {v v' : View Address}

omit [DecidableEq Address] in
theorem World.Tracks.set_client (h : w.Tracks R generate v) (hsame : v.Same v') {s : σ}
    (hs : R s v') : World.Tracks R generate { w with client := s } v' where
  client := hs
  admin := hsame.admin.trans h.admin
  relay := hsame.relay.trans h.relay
  stale := h.stale
  known := h.known
  origin := h.origin
  named := fun id hid => h.named id fun hnone => hid ((hsame.stored id).mpr hnone)

omit [DecidableEq Address] in
theorem World.Tracks.fresh (h : w.Tracks R generate v) :
    (w.fresh generate).2.Tracks R generate v where
  client := h.client
  admin := h.admin
  relay := h.relay
  stale := h.stale
  known := fun a ha => (h.known a ha).succ
  origin := h.origin
  named := h.named

omit [DecidableEq Address] in
theorem World.Tracks.next_stranger (hgenerate : Function.Injective generate)
    (h : w.Tracks R generate v) :
    ¬ (generate w.generated = w.relay ∨ generate w.generated = w.admin) := by
  rintro (heq | heq)
  · exact (h.known w.relay (.inr (.inl rfl))).ne_next hgenerate heq.symm
  · exact (h.known w.admin (.inl rfl)).ne_next hgenerate heq.symm

theorem World.succeeds_new (hC : C.Follows generate codes R) :
    Succeeds (World.new C generate) fun w =>
      w.Tracks R generate ⟨w.admin, w.relay, none, false, fun _ => none⟩ ∧ w.nextTx = 0 := by
  obtain ⟨s, hs, hview⟩ := hC.initialise
  unfold World.new
  rw [hs]
  refine succeeds_some ⟨?_, rfl⟩
  refine ⟨hview, rfl, rfl, ?_, ?_, List.cons_ne_nil _ _, fun id hid => absurd rfl hid⟩
  · intro a ha
    cases ha
  · intro a ha
    have ha' : a = generate 0 ∨ a = generate 1 := by simpa using ha
    rcases ha' with rfl | rfl
    · exact ⟨0, Nat.zero_lt_two, rfl⟩
    · exact ⟨1, Nat.one_lt_two, rfl⟩

omit [DecidableEq Address] in
theorem World.roles_of_new (hnew : World.new C generate = some w) :
    w.admin = generate 0 ∧ w.relay = generate 1 := by
  obtain ⟨s, _, hw⟩ := Option.bind_eq_some_iff.mp hnew
  rw [← Option.some.inj hw]
  exact ⟨rfl, rfl⟩

omit [DecidableEq Address] in
theorem World.payload_eq (h : w.Tracks R generate v) (hnext : w.nextTx + 1 < UInt32.size) :
    ∃ w', w.payload = some (payloadOf (txName w'.nextTx), w') ∧ w'.nextTx = w.nextTx + 1 ∧
      w'.staleRelays = w.staleRelays ∧ v.status (txName w'.nextTx) = none ∧
      w'.Tracks R generate v := by
  refine ⟨{ w with nextTx := w.nextTx + 1 }, if_pos hnext, rfl, rfl, ?_, h.client, h.admin,
    h.relay, h.stale, h.known, h.origin, fun id hid => ?_⟩
  · by_contra hstored
    obtain ⟨n, hn, hid⟩ := h.named _ hstored
    rw [← txName_injective hid] at hn
    exact Nat.not_succ_le_self _ hn
  · obtain ⟨n, hn, hid⟩ := h.named id hid
    exact ⟨n, Nat.le_succ_of_le hn, hid⟩

theorem World.succeeds_rotateTo (hC : C.Follows generate codes R) (h : w.Tracks R generate v)
    {next : Address} (hnext : Issued generate w.generated next) :
    Succeeds (w.rotateTo C next) fun w' =>
      w'.Tracks R generate { v with relay := next } ∧ w'.nextTx = w.nextTx ∧
        w'.admin = w.admin := by
  obtain ⟨s, hs, hview⟩ : ∃ s, C.setRelaySigner w.client next = some s ∧
      R s { v with relay := next } := by
    obtain ⟨k, _, rfl⟩ := hnext
    exact hC.setRelaySigner h.client k
  unfold World.rotateTo
  rw [hs]
  refine succeeds_check (hC.relaySigner hview) (succeeds_some ⟨?_, rfl, rfl⟩)
  have hstale : ∀ a ∈ (if w.relay ≠ next ∧ w.relay ∉ w.staleRelays then
      w.staleRelays ++ [w.relay] else w.staleRelays), a = w.relay ∨ a ∈ w.staleRelays := by
    intro a ha
    split_ifs at ha
    · simpa [or_comm] using ha
    · exact .inr ha
  refine ⟨hview, h.admin, rfl, ?_, ?_, by simp, h.named⟩
  · intro a ha
    simpa using (List.mem_filter.mp ha).2
  · intro a ha
    rcases ha with hadmin | hrelay | hmem | hmem
    · exact h.known a (.inl hadmin)
    · rwa [hrelay]
    · rcases hstale a (List.mem_filter.mp hmem).1 with hold | hold
      · exact h.known a (.inr (.inl hold))
      · exact h.known a (.inr (.inr (.inl hold)))
    · rcases List.mem_append.mp hmem with hold | hold
      · exact h.known a (.inr (.inr (.inr hold)))
      · rwa [List.mem_singleton.mp hold]

theorem World.mem_staleRelays_of_rotateTo {next : Address} {w' : World σ Address}
    (hrotate : w.rotateTo C next = some w') (hnext : w.relay ≠ next) (hadmin : w.relay ≠ w.admin) :
    w.relay ∈ w'.staleRelays := by
  obtain ⟨s, _, hrest⟩ := Option.bind_eq_some_iff.mp hrotate
  obtain ⟨_, _, hw'⟩ := Option.bind_eq_some_iff.mp hrest
  rw [← Option.some.inj hw']
  refine List.mem_filter.mpr ⟨?_, decide_eq_true ⟨hnext, hadmin⟩⟩
  split_ifs with hnew
  · exact List.mem_append_right _ (List.mem_singleton_self _)
  · exact not_not.mp fun hout => hnew ⟨hnext, hout⟩

theorem World.succeeds_rotate (hC : C.Follows generate codes R) (h : w.Tracks R generate v)
    (kind : RotationKind) :
    Succeeds (w.rotate C generate kind) fun w' =>
      w'.Tracks R generate { v with relay := w'.relay } ∧ w'.nextTx = w.nextTx := by
  have hto : ∀ {w' : World σ Address} {next}, w'.Tracks R generate v →
      w'.nextTx = w.nextTx → Issued generate w'.generated next →
        Succeeds (w'.rotateTo C next) fun w'' =>
          w''.Tracks R generate { v with relay := w''.relay } ∧ w''.nextTx = w.nextTx := by
    intro w' next htracks htx hissued
    refine (succeeds_rotateTo hC htracks hissued).mono fun w'' hw'' => ?_
    obtain ⟨htracks', htx', _⟩ := hw''
    have hrelay : next = w''.relay := htracks'.relay
    exact ⟨hrelay ▸ htracks', htx'.trans htx⟩
  have hfresh := hto h.fresh rfl issued_next
  cases kind with
  | fresh => exact hfresh
  | sameSigner => exact hto h rfl (h.known _ (.inr (.inl rfl)))
  | toAdmin => exact hto h rfl (h.known _ (.inl rfl))
  | backToOriginal =>
    rcases hhistory : w.relayHistory with _ | ⟨original, later⟩
    · exact absurd hhistory h.origin
    have hmem : original ∈ w.relayHistory := by
      rw [hhistory]
      exact List.mem_cons_self ..
    simp only [World.rotate, hhistory]
    refine Succeeds.ite (fun _ => hfresh) fun _ => ?_
    exact hto h rfl (h.known _ (.inr (.inr (.inr hmem))))

theorem World.register_relay (hC : C.Follows generate codes R) (h : w.Tracks R generate v)
    (hpaused : v.paused = false) (auth : Address → Bool) (hauth : auth w.relay = true) {n : Nat}
    (hsize : n < UInt32.size) (hn : n ≤ w.nextTx) (hnew : v.status (txName n) = none) :
    ∃ s, C.tryRegisterCallback auth w.client (payloadOf (txName n)) =
        (s, some (.ok (txName n))) ∧
      World.Tracks R generate { w with client := s } (v.move (txName n) .pending) := by
  rw [← h.relay] at hauth
  obtain ⟨s, hcall, hs⟩ := hC.register h.client hpaused auth n hsize hauth hnew
  refine ⟨s, hcall, hs, h.admin, h.relay, h.stale, h.known, h.origin, fun id hid => ?_⟩
  by_cases hname : id = txName n
  · exact ⟨n, hn, hname⟩
  · rw [View.status_move_of_ne hname] at hid
    exact h.named id hid

theorem World.registerAs_stale (hC : C.Follows generate codes R) (h : w.Tracks R generate v)
    (hpaused : v.paused = false) {stale : Address} (hstale : stale ∈ w.staleRelays)
    (p : CallbackPayload Str) :
    ∃ s, w.registerAs C stale p = ({ w with client := s }, false) ∧
      World.Tracks R generate { w with client := s } v := by
  have hne : v.relay ≠ stale := by
    rw [h.relay]
    exact ((h.stale stale hstale).1).symm
  obtain ⟨s, hcall, hs⟩ := hC.registerUnsigned h.client hpaused (fun a => a = stale) p
    (decide_eq_false hne)
  refine ⟨s, ?_, h.set_client (.refl v) hs⟩
  unfold World.registerAs
  rw [hcall]
  rfl

/-- Calls change the state of the contract only, and the view as it answers. -/
def World.Called (w : World σ Address) (R : σ → View Address → Prop) (generate : Nat → Address)
    (v : View Address) (w' : World σ Address) : Prop :=
  (∃ s, w' = { w with client := s }) ∧ w'.Tracks R generate v

theorem World.succeeds_step (hC : C.Follows generate codes R) (h : w.Tracks R generate v)
    {op : Op} {id : Str} {caller : Address} {r : Except ContractError Unit}
    (hanswer : v.answer codes op id caller = some (v', r)) :
    ∃ s, w.step C op id caller = some ({ w with client := s }, r) ∧
      World.Tracks R generate { w with client := s } v' := by
  obtain ⟨s, hcall, hs⟩ := hC.call h.client hanswer
  refine ⟨s, ?_, h.set_client (View.answer_same hanswer) hs⟩
  unfold World.step
  rw [hcall]

theorem World.succeeds_expect (hC : C.Follows generate codes R) (h : w.Tracks R generate v)
    {op : Op} {id : Str} {caller : Address} {r : Except ContractError Unit}
    (hanswer : v.answer codes op id caller = some (v', r)) :
    Succeeds (w.expect C op id caller r) (w.Called R generate v') := by
  obtain ⟨s, hstep, htracks⟩ := World.succeeds_step hC h hanswer
  unfold World.expect
  rw [hstep]
  exact succeeds_check rfl (succeeds_some ⟨⟨s, rfl⟩, htracks⟩)

theorem World.answer_of_expect (hC : C.Follows generate codes R) (h : w.Tracks R generate v)
    {op : Op} {id : Str} {caller : Address} {r expected : Except ContractError Unit}
    (hanswer : v.answer codes op id caller = some (v', r)) {w' : World σ Address}
    (hmet : w.expect C op id caller expected = some w') : r = expected := by
  obtain ⟨s, hstep, _⟩ := World.succeeds_step hC h hanswer
  unfold World.expect at hmet
  rw [hstep, Option.bind_eq_bind, Option.bind_some] at hmet
  obtain ⟨_, hcheck, _⟩ := Option.bind_eq_some_iff.mp hmet
  exact of_check hcheck

omit [DecidableEq Address] in
theorem World.Called.trans {w' : World σ Address} (h : w.Called R generate v w')
    {w'' : World σ Address} (h' : w'.Called R generate v' w'') : w.Called R generate v' w'' := by
  obtain ⟨⟨s, rfl⟩, _⟩ := h
  obtain ⟨⟨s', rfl⟩, htracks⟩ := h'
  exact ⟨⟨s', rfl⟩, htracks⟩

theorem World.status_eq (hC : C.Follows generate codes R) (h : w.Tracks R generate v) (id : Str) :
    w.status C id = v.status id := hC.getStatus h.client id

theorem World.Tracks.answer_stale (h : w.Tracks R generate v) {stale : Address}
    (hstale : stale ∈ w.staleRelays) {id : Str} {status : TransactionStatus}
    (hstatus : v.status id = some status) (codes : Codes) (op : Op) :
    v.answer codes op id stale = some (v, .error codes.refused) := by
  obtain ⟨hrelay, hadmin⟩ := h.stale stale hstale
  rw [← h.relay] at hrelay
  rw [← h.admin] at hadmin
  exact View.answer_refused hstatus hrelay hadmin codes op

theorem World.succeeds_staleSignersCannot (hC : C.Follows generate codes R)
    (hrefused : codes.refused = .unauthorised) (h : w.Tracks R generate v) (op : Op) {id : Str}
    {before : TransactionStatus} (hbefore : v.status id = some before) :
    Succeeds (w.staleSignersCannot C op id) (w.Called R generate v) := by
  unfold World.staleSignersCannot
  rw [World.status_eq hC h, hbefore]
  refine succeeds_foldlM_kept _ (w.Called R generate v) ?_ ⟨⟨w.client, rfl⟩, h⟩
  intro w' stale hstale hcalled
  have hanswer := h.answer_stale hstale hbefore codes op
  rw [hrefused] at hanswer
  refine (World.succeeds_expect hC hcalled.2 hanswer).bind fun w'' hcalled' => ?_
  rw [World.status_eq hC hcalled'.2, hbefore]
  exact succeeds_check rfl (succeeds_some (hcalled.trans hcalled'))

theorem World.refused_of_staleSignersCannot (hC : C.Follows generate codes R)
    (h : w.Tracks R generate v) (hstale : w.staleRelays ≠ []) {op : Op} {id : Str}
    {status : TransactionStatus} (hstatus : v.status id = some status) {w' : World σ Address}
    (hcannot : w.staleSignersCannot C op id = some w') : codes.refused = .unauthorised := by
  have hbefore : w.status C id = some status := (World.status_eq hC h id).trans hstatus
  obtain ⟨stale, others, hcons⟩ := List.exists_cons_of_ne_nil hstale
  have hprobes := rest_of_bind hbefore hcannot
  rw [hcons, List.foldlM_cons] at hprobes
  obtain ⟨_, hprobe, _⟩ := Option.bind_eq_some_iff.mp hprobes
  obtain ⟨_, hexpect, _⟩ := Option.bind_eq_some_iff.mp hprobe
  have hmem : stale ∈ w.staleRelays := by
    rw [hcons]
    exact List.mem_cons_self ..
  exact Except.error.inj
    (World.answer_of_expect hC h (h.answer_stale hmem hstatus codes op) hexpect)

theorem World.succeeds_drive (hC : C.Follows generate codes R) (h : w.Tracks R generate v)
    (op : Op) {id : Str} {caller : Address} (hcaller : caller = w.relay ∨ caller = w.admin)
    {status next : TransactionStatus} (hstatus : v.status id = some status)
    (hmodel : modelTransition status op = some next) :
    Succeeds (w.expect C op id caller (.ok ())) (w.Called R generate (v.move id next)) := by
  have hrole : caller = v.relay ∨ caller = v.admin := by
    rwa [h.relay, h.admin]
  apply World.succeeds_expect hC h
  rw [View.answer_authorised hrole hstatus, hmodel]

def lifecycleStatuses : List TransactionStatus := [.pending, .processing, .completed, .failed]

def View.Ended (v : View Address) (id : Str) (v' : View Address) : Prop :=
  (∃ last, v'.status id = some last ∧ (last = .completed ∨ last = .failed)) ∧
    ∀ id' ≠ id, v'.status id' = v.status id'

theorem World.succeeds_driveToEnd (hC : C.Follows generate codes R)
    (h : w.Tracks R generate v) {id : Str} {status : TransactionStatus}
    (hstatus : v.status id = some status) (hlifecycle : status ∈ lifecycleStatuses) :
    Succeeds (w.driveToEnd C id status) fun w' =>
      ∃ v', w.Called R generate v' w' ∧ v.Ended id v' := by
  have hcalled : w.Called R generate v w := ⟨⟨w.client, rfl⟩, h⟩
  have hcomplete : ∀ {w' v'}, w.Called R generate v' w' → v'.status id = some .processing →
      (∀ id' ≠ id, v'.status id' = v.status id') →
        Succeeds (w'.expect C .complete id w'.relay (.ok ())) fun w'' =>
          ∃ v'', w.Called R generate v'' w'' ∧ v.Ended id v'' := by
    intro w' v' hcalled' hprocessing hothers
    refine (World.succeeds_drive hC hcalled'.2 .complete (.inl rfl) hprocessing rfl).mono ?_
    intro w'' hw''
    refine ⟨_, hcalled'.trans hw'', ⟨.completed, View.status_move .., .inl rfl⟩, ?_⟩
    intro id' hid'
    rw [View.status_move_of_ne hid', hothers id' hid']
  simp only [lifecycleStatuses, List.mem_cons, List.not_mem_nil, or_false] at hlifecycle
  rcases hlifecycle with rfl | rfl | rfl | rfl
  · have hstart := World.succeeds_drive hC h .start (.inl rfl) hstatus rfl
    refine hstart.bind fun w' hw' => ?_
    exact hcomplete hw' (View.status_move ..) fun id' hid' => View.status_move_of_ne hid' _
  · exact hcomplete hcalled hstatus fun _ _ => rfl
  · exact succeeds_some ⟨v, hcalled, ⟨.completed, hstatus, .inl rfl⟩, fun _ _ => rfl⟩
  · exact succeeds_some ⟨v, hcalled, ⟨.failed, hstatus, .inr rfl⟩, fun _ _ => rfl⟩

theorem World.succeeds_assertCanFinish (hC : C.Follows generate codes R)
    (h : w.Tracks R generate v) {id : Str} {status : TransactionStatus}
    (hstatus : v.status id = some status) (hlifecycle : status ∈ lifecycleStatuses) :
    Succeeds (w.assertCanFinish C id) fun w' =>
      ∃ v', w.Called R generate v' w' ∧ v.Ended id v' := by
  unfold World.assertCanFinish
  rw [World.status_eq hC h, hstatus]
  refine (World.succeeds_driveToEnd hC h hstatus hlifecycle).bind fun w' hw' => ?_
  obtain ⟨v', hcalled, ⟨last, hlast, hends⟩, hothers⟩ := hw'
  rw [World.status_eq hC hcalled.2, hlast]
  exact succeeds_check hends (succeeds_some ⟨v', hcalled, ⟨last, hlast, hends⟩, hothers⟩)

end Tracking
end Rotation
end Synapse
