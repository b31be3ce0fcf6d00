import SynapseCore.Harness.RotationChaos

/-! The exhaustive enumeration of rotation points along the paths of the lifecycle. -/

namespace Synapse
namespace Rotation
open Text Trial

section Run
variable {σ Address : Type} [DecidableEq Address] (C : Client σ Address)
  (generate : Nat → Address)

def World.rotateAt (w : World σ Address) (here : Bool) (kind : RotationKind) :
    Option (World σ Address) := if here then w.rotate C generate kind else some w

def World.registerGuarded (w : World σ Address) (p : CallbackPayload Str) :
    Option (World σ Address) := do
  let w ← w.staleRelays.foldlM (fun w stale => do
    check ((w.registerAs C stale p).2 = false)
    return (w.registerAs C stale p).1) w
  check ((w.registerAs C w.relay p).2 = true)
  return (w.registerAs C w.relay p).1

def World.followStep (mask : Nat) (kind : RotationKind) (adminDrivesOddSteps : Bool) (id : Str)
    (w : World σ Address) (entry : Op × Nat) : Option (World σ Address) := do
  let w ← w.rotateAt C generate (mask.testBit (entry.2 + 1)) kind
  let w ← w.staleSignersCannot C entry.1 id
  w.expect C entry.1 id
    (if adminDrivesOddSteps ∧ entry.2 % 2 = 1 then w.admin else w.relay) (.ok ())

/-- Slot `0` of the mask is before the registration, slot `k` behind step `k`. -/
def runInterleaving (path : List Op) (mask : Nat) (kind : RotationKind)
    (adminDrivesOddSteps : Bool) : Option (World σ Address) := do
  let w ← World.new C generate
  let w ← w.rotateAt C generate (mask.testBit 0) kind
  let (p, w) ← w.payload
  let w ← w.registerGuarded C p
  let registered ← w.status C p.transactionId
  check (registered = .pending)
  let w ← path.zipIdx.foldlM
    (World.followStep C generate mask kind adminDrivesOddSteps p.transactionId) w
  let terminal ← w.status C p.transactionId
  let w ← w.rotateAt C generate (mask.testBit (path.length + 1)) kind
  let now ← w.status C p.transactionId
  check (now = terminal)
  let last ← path.getLast?
  check (terminal = if last = .complete then .completed else .failed)
  w.staleRelays.foldlM (fun w stale =>
    w.expect C .fail p.transactionId stale (.error .unauthorised)) w

def paths : List (List Op) := [[.start, .complete], [.start, .fail], [.fail]]

/-- Every mask with every kind of rotation, and once more with the admin driving odd steps:
how many scenarios these are. -/
def exhaustiveRotationInterleavings (path : List Op) : Option Nat :=
  (List.range (1 <<< (path.length + 2))).foldlM (fun scenarios mask => do
    let scenarios ← rotationKinds.foldlM (fun scenarios kind => do
      let _ ← runInterleaving C generate path mask kind false
      return scenarios + 1) scenarios
    let _ ← runInterleaving C generate path mask .fresh true
    return scenarios + 1) 0

end Run

/-! ## The interleavings of one path -/

section Rounds
variable {σ Address : Type} [DecidableEq Address] {C : Client σ Address} {codes : Codes}
  {R : σ → View Address → Prop} {generate : Nat → Address}

def World.Holds (R : σ → View Address → Prop) (generate : Nat → Address)
    (status : Str → Option TransactionStatus) (w : World σ Address) : Prop :=
  ∃ v, w.Tracks R generate v ∧ v.status = status ∧ v.paused = false

theorem World.succeeds_rotateAt (hC : C.Follows generate codes R)
    {status : Str → Option TransactionStatus} {w : World σ Address}
    (h : w.Holds R generate status) (here : Bool) (kind : RotationKind) :
    Succeeds (w.rotateAt C generate here kind) fun w' =>
      w'.Holds R generate status ∧ w'.nextTx = w.nextTx := by
  obtain ⟨v, htracks, hstatus, hpaused⟩ := h
  refine Succeeds.ite (fun _ => ?_) fun _ => succeeds_some ⟨⟨v, htracks, hstatus, hpaused⟩, rfl⟩
  refine (World.succeeds_rotate hC htracks kind).mono fun w' hw' => ?_
  exact ⟨⟨_, hw'.1, hstatus, hpaused⟩, hw'.2⟩

theorem World.succeeds_registerGuarded (hC : C.Follows generate codes R)
    {status : Str → Option TransactionStatus} {w : World σ Address}
    (h : w.Holds R generate status) (hsize : w.nextTx < UInt32.size)
    (hnew : status (txName w.nextTx) = none) :
    Succeeds (w.registerGuarded C (payloadOf (txName w.nextTx))) fun w' =>
      (∃ s, w' = { w with client := s }) ∧
        w'.Holds R generate (Function.update status (txName w.nextTx) (some .pending)) := by
  obtain ⟨v, htracks, rfl, hpaused⟩ := h
  have hstale := succeeds_foldlM_kept w.staleRelays (w.Called R generate v)
    (f := fun w' stale => do
      check ((w'.registerAs C stale (payloadOf (txName w.nextTx))).2 = false)
      return (w'.registerAs C stale (payloadOf (txName w.nextTx))).1) ?_
    ⟨⟨w.client, rfl⟩, htracks⟩
  · refine hstale.bind fun w' hw' => ?_
    obtain ⟨⟨s, rfl⟩, htracks'⟩ := hw'
    obtain ⟨s', hcall, htracks''⟩ := World.register_relay hC htracks' hpaused
      (fun a => a = w.relay) (decide_eq_true rfl) hsize (Nat.le_refl _) hnew
    unfold World.registerAs
    rw [hcall]
    exact succeeds_check rfl (succeeds_some ⟨⟨s', rfl⟩, _, htracks'', rfl, hpaused⟩)
  · rintro w' stale hmem ⟨⟨s, rfl⟩, htracks'⟩
    obtain ⟨s', hcall, htracks''⟩ := World.registerAs_stale hC htracks' hpaused hmem
      (payloadOf (txName w.nextTx))
    rw [hcall]
    exact succeeds_check rfl (succeeds_some ⟨⟨s', rfl⟩, htracks''⟩)

theorem World.succeeds_followStep (hC : C.Follows generate codes R)
    (hrefused : codes.refused = .unauthorised) {status : Str → Option TransactionStatus}
    {w : World σ Address} (h : w.Holds R generate status) {id : Str}
    {now next : TransactionStatus} (hnow : status id = some now) {entry : Op × Nat}
    (hmodel : modelTransition now entry.1 = some next) (mask : Nat) (kind : RotationKind)
    (adminDrivesOddSteps : Bool) :
    Succeeds (w.followStep C generate mask kind adminDrivesOddSteps id entry)
      (World.Holds R generate (Function.update status id (some next))) := by
  refine (World.succeeds_rotateAt hC h _ kind).bind fun w' hw' => ?_
  obtain ⟨⟨v, htracks, rfl, hpaused⟩, _⟩ := hw'
  have hcannot := World.succeeds_staleSignersCannot hC hrefused htracks entry.1 hnow
  refine hcannot.bind fun w'' hw'' => ?_
  have hdriver : (if adminDrivesOddSteps ∧ entry.2 % 2 = 1 then w''.admin else w''.relay) =
      w''.relay ∨ (if adminDrivesOddSteps ∧ entry.2 % 2 = 1 then w''.admin else w''.relay) =
        w''.admin := by
    split_ifs
    · exact .inr rfl
    · exact .inl rfl
  refine (World.succeeds_drive hC hw''.2 entry.1 hdriver hnow hmodel).mono fun last hlast => ?_
  exact ⟨_, hlast.2, rfl, hpaused⟩

/-- The path takes the model from `pending` to its end, as the harness expects of the last
step. -/
structure EndsAt (path : List Op) (last : Op) (terminal : TransactionStatus) : Prop where
  final : path.getLast? = some last
  model : path.foldlM modelTransition .pending = some terminal
  expected : terminal = if last = .complete then .completed else .failed

theorem World.succeeds_followPath (hC : C.Follows generate codes R)
    (hrefused : codes.refused = .unauthorised) {status : Str → Option TransactionStatus}
    {id : Str} {w : World σ Address}
    (h : w.Holds R generate (Function.update status id (some .pending))) {path : List Op}
    {terminal : TransactionStatus} (hpath : path.foldlM modelTransition .pending = some terminal)
    (mask : Nat) (kind : RotationKind) (adminDrivesOddSteps : Bool) :
    Succeeds (path.zipIdx.foldlM (World.followStep C generate mask kind adminDrivesOddSteps id) w)
      (World.Holds R generate (Function.update status id (some terminal))) := by
  have hmap : path.zipIdx.map Prod.fst = path := List.zipIdx_map_fst ..
  refine (succeeds_foldlM path.zipIdx (fun done w => ∃ now,
    (done.map Prod.fst).foldlM modelTransition .pending = some now ∧
      w.Holds R generate (Function.update status id (some now))) ?_ ⟨.pending, rfl, h⟩).mono ?_
  · rintro done entry rest w hcut ⟨now, hdone, hholds⟩
    have hcut' : path = done.map Prod.fst ++ entry.1 :: rest.map Prod.fst := by
      rw [← hmap, hcut, List.map_append, List.map_cons]
    rw [hcut', List.foldlM_append, hdone, Option.bind_eq_bind, Option.bind_some,
      List.foldlM_cons] at hpath
    obtain ⟨next, hmodel, _⟩ := Option.bind_eq_some_iff.mp hpath
    have hnow : Function.update status id (some now) id = some now := Function.update_self ..
    have hstep := World.succeeds_followStep hC hrefused hholds hnow hmodel mask kind
      adminDrivesOddSteps
    refine hstep.mono fun w' hw' => ?_
    refine ⟨next, ?_, ?_⟩
    · rw [List.map_append, List.foldlM_append, hdone]
      simp [hmodel]
    · rwa [Function.update_idem] at hw'
  · rintro w' ⟨now, hdone, hholds⟩
    rw [hmap, hpath] at hdone
    rwa [Option.some.inj hdone]

theorem World.Holds.status_eq (hC : C.Follows generate codes R)
    {status : Str → Option TransactionStatus} {w : World σ Address}
    (h : w.Holds R generate status) (id : Str) :
    w.status C id = status id := by
  obtain ⟨v, htracks, rfl, _⟩ := h
  exact World.status_eq hC htracks id

theorem succeeds_runInterleaving (hC : C.Follows generate codes R)
    (hrefused : codes.refused = .unauthorised) {path : List Op} {last : Op}
    {terminal : TransactionStatus} (hpath : EndsAt path last terminal) (mask : Nat)
    (kind : RotationKind) (adminDrivesOddSteps : Bool) :
    Succeeds (runInterleaving C generate path mask kind adminDrivesOddSteps) fun _ => True := by
  refine (World.succeeds_new hC).bind fun w hw => ?_
  have hholds : w.Holds R generate fun _ => none := ⟨_, hw.1, rfl, rfl⟩
  refine (World.succeeds_rotateAt hC hholds _ kind).bind fun w' hw' => ?_
  obtain ⟨⟨v, htracks, hstatus, hpaused⟩, htx⟩ := hw'
  have hnext : w'.nextTx + 1 < UInt32.size := by
    rw [htx, hw.2]
    decide
  obtain ⟨w₁, hpayload, htx₁, _, hnew, htracks'⟩ := World.payload_eq htracks hnext
  rw [hpayload]
  refine (World.succeeds_registerGuarded hC ⟨v, htracks', rfl, hpaused⟩ (htx₁.trans_lt hnext)
    hnew).bind fun w₂ hw₂ => ?_
  obtain ⟨_, hw₂⟩ := hw₂
  have hpending : w₂.status C (payloadOf (txName w₁.nextTx)).transactionId = some .pending :=
    (hw₂.status_eq hC _).trans (Function.update_self ..)
  rw [hpending, Option.bind_eq_bind, Option.bind_some]
  refine succeeds_check rfl ?_
  refine (World.succeeds_followPath hC hrefused hw₂ hpath.model mask kind _).bind fun w₃ hw₃ => ?_
  have hend : ∀ {w : World σ Address},
      w.Holds R generate (Function.update v.status (txName w₁.nextTx) (some terminal)) →
        w.status C (payloadOf (txName w₁.nextTx)).transactionId = some terminal :=
    fun hw => (hw.status_eq hC _).trans (Function.update_self ..)
  rw [hend hw₃]
  refine (World.succeeds_rotateAt hC hw₃ _ kind).bind fun w₄ hw₄ => ?_
  rw [hend hw₄.1, hpath.final]
  refine succeeds_check rfl (succeeds_check hpath.expected ?_)
  have hlast := hend hw₄.1
  obtain ⟨⟨v', htracks₄, _⟩, _⟩ := hw₄
  refine (succeeds_foldlM_kept w₄.staleRelays (w₄.Called R generate v') ?_
    ⟨⟨w₄.client, rfl⟩, htracks₄⟩).mono fun _ _ => trivial
  intro w₅ stale hstale hcalled
  rw [World.status_eq hC htracks₄] at hlast
  have hanswer := htracks₄.answer_stale hstale hlast codes .fail
  rw [hrefused] at hanswer
  exact (World.succeeds_expect hC hcalled.2 hanswer).mono fun w₆ hw₆ => hcalled.trans hw₆

/-- A signer rotated out before the registration asks for the code of a refusal. -/
theorem refused_of_runInterleaving (hgenerate : Function.Injective generate)
    (hC : C.Follows generate codes R) {path : List Op} (hpath : path ≠ []) {last : World σ Address}
    (hrun : runInterleaving C generate path 1 .fresh false = some last) :
    codes.refused = .unauthorised := by
  obtain ⟨w, hnew, hw⟩ := World.succeeds_new hC
  obtain ⟨hadmin, hrelay⟩ := World.roles_of_new hnew
  have hold : w.relay ≠ generate w.generated := (hw.1.known _ (.inr (.inl rfl))).ne_next hgenerate
  have hroles : w.relay ≠ w.admin := by
    rw [hrelay, hadmin]
    exact hgenerate.ne Nat.one_ne_zero
  obtain ⟨w', hrotate, htracks, htx⟩ := World.succeeds_rotate hC hw.1 .fresh
  have hstale : w.relay ∈ w'.staleRelays :=
    World.mem_staleRelays_of_rotateTo (w := (w.fresh generate).2) hrotate hold hroles
  have hnext : w'.nextTx + 1 < UInt32.size := by
    rw [htx, hw.2]
    decide
  obtain ⟨w₁, hpayload, htx₁, hstale₁, hfree, htracks₁⟩ := World.payload_eq htracks hnext
  obtain ⟨w₂, hregister, ⟨s, hw₂⟩, hholds⟩ := World.succeeds_registerGuarded hC
    ⟨_, htracks₁, rfl, rfl⟩ (htx₁.trans_lt hnext) hfree
  have hprobed : w₂.staleRelays ≠ [] := by
    rw [← hstale₁] at hstale
    rw [hw₂]
    exact List.ne_nil_of_mem hstale
  have hpending := (hholds.status_eq hC (txName w₁.nextTx)).trans (Function.update_self ..)
  -- the run up to the first step of the path
  have hhere : w.rotateAt C generate (Nat.testBit 1 0) .fresh = some w' := hrotate
  have hrest := rest_of_bind hpending
    (rest_of_bind hregister (rest_of_bind hpayload (rest_of_bind hhere (rest_of_bind hnew hrun))))
  obtain ⟨_, _, hloop⟩ := Option.bind_eq_some_iff.mp hrest
  obtain ⟨w₃, hsteps, _⟩ := Option.bind_eq_some_iff.mp hloop
  obtain ⟨op, rest, rfl⟩ := List.exists_cons_of_ne_nil hpath
  rw [List.zipIdx_cons, List.foldlM_cons] at hsteps
  obtain ⟨w₄, hstep, _⟩ := Option.bind_eq_some_iff.mp hsteps
  have hunmoved : w₂.rotateAt C generate (Nat.testBit 1 1) .fresh = some w₂ := rfl
  obtain ⟨w₅, hcannot, _⟩ := Option.bind_eq_some_iff.mp (rest_of_bind hunmoved hstep)
  obtain ⟨v, htracks₂, hstatus, _⟩ := hholds
  have hknown : v.status (txName w₁.nextTx) = some .pending := by
    rw [hstatus]
    exact Function.update_self ..
  exact World.refused_of_staleSignersCannot hC htracks₂ hprobed hknown hcannot

end Rounds

section Verdicts
variable {σ Address : Type} [DecidableEq Address] {C : Client σ Address}
  {generate : Nat → Address} {codes : Codes} {H : RegisterHelpers Str Address} {L : Limits}
  {stored : σ → Stored Address}

theorem endsAt_of_mem {path : List Op} (h : path ∈ paths) :
    ∃ last terminal, EndsAt path last terminal := by
  simp only [paths, List.mem_cons, List.not_mem_nil, or_false] at h
  rcases h with rfl | rfl | rfl
  · exact ⟨.complete, .completed, rfl, rfl, rfl⟩
  · exact ⟨.fail, .failed, rfl, rfl, rfl⟩
  · exact ⟨.fail, .failed, rfl, rfl, rfl⟩

theorem exhaustiveRotationInterleavings_of_passes {path : List Op}
    (hrun : ∀ mask kind adminDrivesOddSteps, ∃ w,
      runInterleaving C generate path mask kind adminDrivesOddSteps = some w) :
    exhaustiveRotationInterleavings C generate path = some ((1 <<< (path.length + 2)) * 5) := by
  have hkinds : ∀ mask n, rotationKinds.foldlM (fun scenarios kind => do
      let _ ← runInterleaving C generate path mask kind false
      return scenarios + 1) n = some (n + 4 * 1) := by
    intro mask n
    refine foldlM_count (fun kind _ n => ?_) n
    obtain ⟨w, hw⟩ := hrun mask kind false
    rw [hw]
    rfl
  have hmasks : ∀ mask ∈ List.range (1 <<< (path.length + 2)), ∀ n, (do
      let scenarios ← rotationKinds.foldlM (fun scenarios kind => do
        let _ ← runInterleaving C generate path mask kind false
        return scenarios + 1) n
      let _ ← runInterleaving C generate path mask .fresh true
      return scenarios + 1) = some (n + 5) := by
    intro mask _ n
    obtain ⟨w, hw⟩ := hrun mask .fresh true
    rw [hkinds, hw]
    rfl
  unfold exhaustiveRotationInterleavings
  rw [foldlM_count hmasks, List.length_range, Nat.zero_add]

/-- **The exhaustive enumeration passes**: every rotation point, kind of rotation and driver,
five scenarios for each set of points, just where a refused caller gets the code the harness
asserts. -/
theorem exhaustive_interleavings_pass (hgenerate : Function.Injective generate)
    (hC : C.Composes generate codes H L stored) (hH : Serves H) (hL : 3 ≤ L.maxReasonLen)
    {path : List Op} (hpath : path ∈ paths) :
    exhaustiveRotationInterleavings C generate path = some ((1 <<< (path.length + 2)) * 5) ↔
      codes.refused = .unauthorised := by
  have hfollows := hC.follows hH hL
  obtain ⟨last, terminal, hends⟩ := endsAt_of_mem hpath
  constructor
  · intro hcount
    have hone : 1 ∈ List.range (1 <<< (path.length + 2)) := by
      rw [List.mem_range, Nat.one_shiftLeft]
      exact Nat.one_lt_two_pow (Nat.succ_ne_zero _)
    obtain ⟨_, _, hmask⟩ := exists_round_of_foldlM hcount hone
    obtain ⟨_, hkinds, _⟩ := Option.bind_eq_some_iff.mp hmask
    obtain ⟨_, _, hkind⟩ := exists_round_of_foldlM hkinds (List.mem_cons_self ..)
    obtain ⟨_, hrun, _⟩ := Option.bind_eq_some_iff.mp hkind
    have hnonempty : path ≠ [] := by
      rintro rfl
      cases hends.final
    exact refused_of_runInterleaving hgenerate hfollows hnonempty hrun
  · intro hrefused
    apply exhaustiveRotationInterleavings_of_passes
    intro mask kind adminDrivesOddSteps
    exact (succeeds_runInterleaving hfollows hrefused hends mask kind adminDrivesOddSteps).imp
      fun _ hw => hw.1

theorem exhaustive_interleavings_pass_fixture :
    exhaustiveRotationInterleavings (storageClient assertedCodes) id [.start, .complete] =
      some (16 * 5) ∧
    exhaustiveRotationInterleavings (storageClient untranslatedCodes) id [.start, .complete] ≠
      some (16 * 5) := by
  have hverdict : ∀ codes, _ := fun codes =>
    exhaustive_interleavings_pass Function.injective_id
      (composedClient_composes id codes storageHelpers testLimits) storageHelpers_serves (by decide)
      (show [Op.start, Op.complete] ∈ paths by simp [paths])
  constructor
  · exact (hverdict assertedCodes).mpr rfl
  · exact fun hpass => absurd ((hverdict untranslatedCodes).mp hpass) (by decide)

end Verdicts
end Rotation
end Synapse
