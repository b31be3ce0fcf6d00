import SynapseCore.Harness.RotationChaos

/-! The seeded chaos run: a generator chooses the actions. -/

namespace Synapse
namespace Rotation
open Text Trial

structure Lcg where
  state : UInt64

namespace Lcg

def next (rng : Lcg) : UInt64 × Lcg :=
  let state := rng.state * 6364136223846793005 + 1442695040888963407
  (state >>> 33, ⟨state⟩)

def below (rng : Lcg) (n : Nat) : Nat × Lcg := (rng.next.1.toNat % n, rng.next.2)

def pick {α : Type} (rng : Lcg) (xs : List α) : Option (α × Lcg) := do
  let x ← xs[(rng.below xs.length).1]?
  return (x, (rng.below xs.length).2)

end Lcg

inductive Actor
  | currentRelay | admin | staleRelay | staleAdmin | stranger
  deriving DecidableEq

def ops : List Op := [.start, .complete, .fail]

def actors : List Actor := [.currentRelay, .admin, .staleRelay, .staleAdmin, .stranger]

section Run
variable {σ Address : Type} [DecidableEq Address] (C : Client σ Address)
  (generate : Nat → Address)

namespace Chaos

def callerOf (st : Chaos σ Address) (rng : Lcg) :
    Actor → Option (Address × Lcg × World σ Address)
  | .currentRelay => some (st.world.relay, rng, st.world)
  | .admin => some (st.world.admin, rng, st.world)
  | .staleRelay => stale st.world.staleRelays
  | .staleAdmin => stale st.staleAdmins
  | .stranger => some ((st.world.fresh generate).1, rng, (st.world.fresh generate).2)
where
  stale (addresses : List Address) : Option (Address × Lcg × World σ Address) :=
    if addresses.isEmpty then
      some ((st.world.fresh generate).1, rng, (st.world.fresh generate).2)
    else do
      let (caller, rng) ← rng.pick addresses
      return (caller, rng, st.world)

def choose (st : Chaos σ Address) (rng : Lcg) :
    Nat → Option (Action Address × Lcg × World σ Address)
  | 0 | 1 => do
    let (kind, rng) ← rng.pick rotationKinds
    return (.rotate kind, rng, st.world)
  | 2 => some (.transferAdmin, rng, st.world)
  | 3 => some (.togglePause, rng, st.world)
  | 4 => some (.register, rng, st.world)
  | _ => do
    let (i, rng) := rng.below st.txs.length
    let (op, rng) ← rng.pick ops
    let (actor, rng) ← rng.pick actors
    let (caller, rng, w) ← st.callerOf generate rng actor
    return (.drive i op caller, rng, w)

def round (rng : Lcg) (st : Chaos σ Address) : Option (Lcg × Chaos σ Address) :=
  let (roll, rng) := rng.below 10
  if 5 ≤ roll ∧ st.txs.isEmpty then some (rng, st) -- `continue`
  else do
    let (action, rng, w) ← st.choose generate rng roll
    let st ← { st with world := w }.act C generate action
    let st ← st.matchesModel C
    return (rng, st)

end Chaos

def runChaos (seed : UInt64) (steps : UInt32) : Option (Chaos σ Address) := do
  let w ← World.new C generate
  let run ← (List.range steps.toNat).foldlM
    (fun (run : Lcg × Chaos σ Address) _ => run.2.round C generate run.1)
    (⟨seed⟩, ⟨w, [], false, []⟩)
  run.2.drain C

end Run

section Rounds
variable {σ Address : Type} [DecidableEq Address] {C : Client σ Address} {codes : Codes}
  {R : σ → View Address → Prop} {generate : Nat → Address} {st : Chaos σ Address}
  {v : View Address}

/-! ## The random choices stay in range -/

theorem Lcg.succeeds_pick {α : Type} (rng : Lcg) {xs : List α} (h : xs ≠ []) :
    Succeeds (rng.pick xs) fun _ => True := by
  have hlt : (rng.below xs.length).1 < xs.length :=
    Nat.mod_lt _ (List.length_pos_iff.mpr h)
  unfold Lcg.pick
  rw [List.getElem?_eq_getElem hlt]
  exact succeeds_some trivial

omit [DecidableEq Address] in
theorem Chaos.succeeds_callerOf (h : st.Agrees R generate v) (rng : Lcg) (actor : Actor) :
    Succeeds (st.callerOf generate rng actor) fun chosen =>
      chosen.2.2.Tracks R generate v ∧ chosen.2.2.nextTx = st.world.nextTx := by
  have hstale : ∀ addresses, Succeeds (Chaos.callerOf.stale generate st rng addresses)
      fun chosen => chosen.2.2.Tracks R generate v ∧ chosen.2.2.nextTx = st.world.nextTx := by
    intro addresses
    refine Succeeds.ite (fun _ => succeeds_some ⟨h.tracks.fresh, rfl⟩) fun hsome => ?_
    refine (rng.succeeds_pick (by simpa using hsome)).bind fun _ _ => ?_
    exact succeeds_some ⟨h.tracks, rfl⟩
  cases actor with
  | currentRelay => exact succeeds_some ⟨h.tracks, rfl⟩
  | admin => exact succeeds_some ⟨h.tracks, rfl⟩
  | staleRelay => exact hstale _
  | staleAdmin => exact hstale _
  | stranger => exact succeeds_some ⟨h.tracks.fresh, rfl⟩

omit [DecidableEq Address] in
theorem Chaos.succeeds_choose (h : st.Agrees R generate v) (rng : Lcg) (roll : Nat) :
    Succeeds (st.choose generate rng roll) fun chosen =>
      chosen.2.2.Tracks R generate v ∧ chosen.2.2.nextTx = st.world.nextTx := by
  have hsame : st.world.Tracks R generate v ∧ st.world.nextTx = st.world.nextTx := ⟨h.tracks, rfl⟩
  unfold Chaos.choose
  split
  · exact (rng.succeeds_pick (by decide)).bind fun _ _ => succeeds_some hsame
  · exact (rng.succeeds_pick (by decide)).bind fun _ _ => succeeds_some hsame
  · exact succeeds_some hsame
  · exact succeeds_some hsame
  · exact succeeds_some hsame
  · refine (Lcg.succeeds_pick _ (by decide)).bind fun _ _ => ?_
    refine (Lcg.succeeds_pick _ (by decide)).bind fun _ _ => ?_
    exact (succeeds_callerOf h _ _).bind fun _ hchosen => succeeds_some hchosen

theorem Chaos.succeeds_round (hgenerate : Function.Injective generate)
    (hC : C.Follows generate codes R)
    (hcodes : codes.refused = .unauthorised ∧ codes.invalidSource = .invalidStatusTransition)
    (h : st.Agrees R generate v) (hnext : st.world.nextTx + 1 < UInt32.size) (rng : Lcg) :
    Succeeds (st.round C generate rng) fun run => st.Next R generate run.2 := by
  unfold Chaos.round
  refine Succeeds.ite (fun _ => succeeds_some ⟨⟨v, h⟩, Nat.le_succ _⟩) fun _ => ?_
  refine (succeeds_choose h _ _).bind fun chosen hchosen => ?_
  obtain ⟨action, rng', w⟩ := chosen
  obtain ⟨htracks, htx⟩ := hchosen
  have hagrees : Chaos.Agrees R generate { st with world := w } v := ⟨htracks, h.paused, h.model⟩
  have hnext' : w.nextTx + 1 < UInt32.size := by rwa [htx]
  refine (succeeds_act hgenerate hC hcodes hagrees hnext' action).bind fun st' hst' => ?_
  obtain ⟨⟨v', hagrees'⟩, htx'⟩ := hst'
  rw [succeeds_matchesModel hC hagrees']
  exact succeeds_some ⟨⟨v', hagrees'⟩, htx'.trans_eq (congrArg (· + 1) htx)⟩

theorem Chaos.succeeds_runChaos (hgenerate : Function.Injective generate)
    (hC : C.Follows generate codes R)
    (hcodes : codes.refused = .unauthorised ∧ codes.invalidSource = .invalidStatusTransition)
    (seed : UInt64) (steps : UInt32) :
    Succeeds (runChaos C generate seed steps) (Chaos.Drained C) := by
  refine (World.succeeds_new hC).bind fun w hw => ?_
  have hstart : Chaos.Reached R generate 0 ⟨w, [], false, []⟩ :=
    ⟨⟨_, agrees_start hw.1⟩, hw.2.le⟩
  refine (succeeds_foldlM (List.range steps.toNat)
    (fun done run => Chaos.Reached R generate done.length run.2) ?_ hstart).bind fun run hrun => ?_
  · rintro done i rest ⟨rng, st⟩ hcut ⟨⟨v, hagrees⟩, htx⟩
    have hnext : st.world.nextTx + 1 < UInt32.size := by
      have hdone : steps.toNat = done.length + (rest.length + 1) := by
        rw [← List.length_range (n := steps.toNat), hcut, List.length_append, List.length_cons]
      have hsteps : steps.toNat < UInt32.size := steps.toNat_lt_size
      dsimp only at htx
      omega
    refine (succeeds_round hgenerate hC hcodes hagrees hnext rng).mono fun run hrun => ?_
    rw [List.length_append]
    exact hrun.reached htx
  · obtain ⟨⟨v, hagrees⟩, _⟩ := hrun
    exact (succeeds_drain hC hcodes.1 hagrees).mono fun st hst => hst.2

/-! ## What the run says of the codes -/

theorem Lcg.below_snd (rng : Lcg) (n : Nat) : (rng.below n).2 = rng.next.2 := by
  unfold Lcg.below
  rfl

theorem Lcg.pick_eq {α : Type} {rng : Lcg} {xs : List α} {x : α}
    (h : xs[(rng.below xs.length).1]? = some x) : rng.pick xs = some (x, rng.next.2) := by
  unfold Lcg.pick
  rw [h, Lcg.below_snd]
  rfl

theorem Lcg.below_one (rng : Lcg) : (rng.below 1).1 = 0 := Nat.mod_one _

theorem Chaos.round_of_roll {rng : Lcg} (hroll : ¬ (5 ≤ (rng.below 10).1 ∧ st.txs.isEmpty = true)) :
    st.round C generate rng = (do
      let (action, rng, w) ← st.choose generate rng.next.2 (rng.below 10).1
      let st ← Chaos.act C generate { st with world := w } action
      let st ← st.matchesModel C
      return (rng, st)) := by
  unfold Chaos.round
  exact if_neg hroll

omit [DecidableEq Address] in
theorem Chaos.choose_drive {rng rng' : Lcg} {roll : Nat} (hroll : 5 ≤ roll) {op : Op}
    (hop : ops[(rng.next.2.below ops.length).1]? = some op) {actor : Actor}
    (hactor : actors[(rng.next.2.next.2.below actors.length).1]? = some actor)
    {caller : Address} {w : World σ Address}
    (hcaller : st.callerOf generate rng.next.2.next.2.next.2 actor = some (caller, rng', w)) :
    st.choose generate rng roll =
      some (.drive (rng.below st.txs.length).1 op caller, rng', w) := by
  obtain ⟨k, rfl⟩ := Nat.exists_eq_add_of_le' hroll
  change ((rng.below st.txs.length).2.pick ops >>= fun x => x.2.pick actors >>= fun y =>
    st.callerOf generate y.2 y.1 >>= fun z =>
      some (Action.drive (rng.below st.txs.length).1 x.1 z.1, z.2.1, z.2.2)) = _
  rw [Lcg.below_snd, Lcg.pick_eq hop, Option.bind_eq_bind, Option.bind_some, Lcg.pick_eq hactor,
    Option.bind_eq_bind, Option.bind_some, hcaller, Option.bind_eq_bind, Option.bind_some]

theorem Chaos.round_register {rng : Lcg} (hroll : (rng.below 10).1 = 4)
    {st' : Chaos σ Address} (hact : st.act C generate .register = some st')
    (hmatches : st'.matchesModel C = some st') :
    st.round C generate rng = some (rng.next.2, st') := by
  rw [Chaos.round_of_roll (by simp [hroll]), hroll]
  change (st.act C generate .register >>= fun st => st.matchesModel C >>= fun st =>
    some (rng.next.2, st)) = _
  rw [hact, Option.bind_eq_bind, Option.bind_some, hmatches, Option.bind_some]

theorem Chaos.act_of_round {rng rng' : Lcg} {last : Lcg × Chaos σ Address}
    (hround : st.round C generate rng = some last) {tx : Str × TransactionStatus}
    (htxs : st.txs = [tx]) (hroll : 5 ≤ (rng.below 10).1) {op : Op}
    (hop : ops[(rng.next.2.next.2.below ops.length).1]? = some op) {actor : Actor}
    (hactor : actors[(rng.next.2.next.2.next.2.below actors.length).1]? = some actor)
    {caller : Address} {w : World σ Address}
    (hcaller : st.callerOf generate rng.next.2.next.2.next.2.next.2 actor =
      some (caller, rng', w)) :
    ∃ st', Chaos.act C generate { st with world := w } (.drive 0 op caller) = some st' := by
  have hdrive := Chaos.choose_drive hroll hop hactor hcaller
  rw [htxs, List.length_singleton, Lcg.below_one] at hdrive
  rw [Chaos.round_of_roll (by simp [htxs])] at hround
  obtain ⟨st', hact, _⟩ := Option.bind_eq_some_iff.mp (rest_of_bind hdrive hround)
  exact ⟨st', hact⟩

/-- Two rounds tell the codes: seed 538 lets a stranger drive what it has registered, seed 467
the relay, out of order. -/
theorem Chaos.codes_of_runChaos (hgenerate : Function.Injective generate)
    (hC : C.Follows generate codes R)
    (hpass : ∀ seed steps, ∃ st, runChaos C generate seed steps = some st) :
    codes.refused = .unauthorised ∧ codes.invalidSource = .invalidStatusTransition := by
  obtain ⟨w, hnew, hw⟩ := World.succeeds_new hC
  obtain ⟨st, hregister, id, v, htxs, hagrees⟩ := Chaos.succeeds_first_register hC hw
  have htx : st.txs[0]? = some (id, .pending) := by
    rw [htxs]
    rfl
  have hsecond : ∀ seed : UInt64, (Lcg.below ⟨seed⟩ 10).1 = 4 → ∃ last,
      st.round C generate (Lcg.next ⟨seed⟩).2 = some last := by
    intro seed hroll
    obtain ⟨_, hrun⟩ := hpass seed 2
    obtain ⟨_, hloop, _⟩ := Option.bind_eq_some_iff.mp (rest_of_bind hnew hrun)
    have hrange : List.range (UInt32.toNat 2) = [0, 1] := by decide
    rw [hrange, List.foldlM_cons] at hloop
    have hfirst := Chaos.round_register hroll hregister (Chaos.succeeds_matchesModel hC hagrees)
    have hrest := rest_of_bind hfirst hloop
    rw [List.foldlM_cons] at hrest
    obtain ⟨last, hlast, _⟩ := Option.bind_eq_some_iff.mp hrest
    exact ⟨last, hlast⟩
  constructor
  · obtain ⟨last, hlast⟩ := hsecond 538 (by decide +kernel)
    have hop : ops[((Lcg.next ⟨538⟩).2.next.2.next.2.below ops.length).1]? = some .complete := by
      decide +kernel
    have hactor : actors[((Lcg.next ⟨538⟩).2.next.2.next.2.next.2.below actors.length).1]? =
        some .stranger := by decide +kernel
    obtain ⟨st', hdrive⟩ := Chaos.act_of_round hlast htxs (by decide +kernel) hop hactor rfl
    have hstranger : ¬ ((st.world.fresh generate).1 = st.world.relay ∨
        (st.world.fresh generate).1 = st.world.admin) := hagrees.tracks.next_stranger hgenerate
    exact Chaos.refused_of_drive hC hagrees.fresh htx hstranger hdrive
  · obtain ⟨last, hlast⟩ := hsecond 467 (by decide +kernel)
    have hop : ops[((Lcg.next ⟨467⟩).2.next.2.next.2.below ops.length).1]? = some .complete := by
      decide +kernel
    have hactor : actors[((Lcg.next ⟨467⟩).2.next.2.next.2.next.2.below actors.length).1]? =
        some .currentRelay := by decide +kernel
    obtain ⟨st', hdrive⟩ := Chaos.act_of_round hlast htxs (by decide +kernel) hop hactor rfl
    exact Chaos.invalidSource_of_drive hC hagrees htx rfl hdrive

end Rounds

section Verdicts
variable {σ Address : Type} [DecidableEq Address] {C : Client σ Address}
  {generate : Nat → Address} {codes : Codes} {H : RegisterHelpers Str Address} {L : Limits}
  {stored : σ → Stored Address}

/-- **The seeded chaos run passes**, for every seed and every number of steps, just where
refusals come out as the codes the harness asserts. -/
theorem chaos_run_passes (hgenerate : Function.Injective generate)
    (hC : C.Composes generate codes H L stored) (hH : Serves H) (hL : 3 ≤ L.maxReasonLen) :
    (∀ (seed : UInt64) (steps : UInt32),
      ∃ st, runChaos C generate seed steps = some st ∧ st.Drained C) ↔
      codes.refused = .unauthorised ∧ codes.invalidSource = .invalidStatusTransition := by
  have hfollows := hC.follows hH hL
  constructor
  · intro hpass
    refine Chaos.codes_of_runChaos hgenerate hfollows fun seed steps => ?_
    obtain ⟨st, hrun, _⟩ := hpass seed steps
    exact ⟨st, hrun⟩
  · intro hcodes seed steps
    exact Chaos.succeeds_runChaos hgenerate hfollows hcodes seed steps

theorem chaos_run_passes_fixture :
    (∃ st, runChaos (storageClient assertedCodes) id 1 150 = some st ∧
      st.Drained (storageClient assertedCodes)) ∧
    ¬ ∀ (seed : UInt64) (steps : UInt32), ∃ st,
      runChaos (storageClient untranslatedCodes) id seed steps = some st ∧
        st.Drained (storageClient untranslatedCodes) := by
  have hverdict : ∀ codes, _ := fun codes => chaos_run_passes Function.injective_id
    (composedClient_composes id codes storageHelpers testLimits) storageHelpers_serves (by decide)
  constructor
  · exact (hverdict assertedCodes).mpr ⟨rfl, rfl⟩ 1 150
  · exact fun hpass => absurd ((hverdict untranslatedCodes).mp hpass).1 (by decide)

end Verdicts
end Rotation
end Synapse
