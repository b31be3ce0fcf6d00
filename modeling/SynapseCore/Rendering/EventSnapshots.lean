import SynapseCore.Foundation.OrderedMaps
import SynapseCore.Foundation.Runs
import SynapseCore.Rendering.LastEvents
import SynapseCore.Rendering.LineDiff

/-! The event snapshots: fixtures that a run of the tests rewrites when it is told to and
compares otherwise. -/

namespace Synapse
open Text

/-- The files of the fixture directory, by path. -/
abbrev Fixtures := BTreeMap Text Text

/-- What a run of the tests finds around it: the directory of the crate and the text of the
error for a file that is not there. -/
structure TestHost where
  manifestDir : Text
  notFound : Text

def updateEnvVar : Text := "SYNAPSE_UPDATE_EVENT_SNAPSHOTS".toList

def fixtureDir (host : TestHost) : Text := host.manifestDir ++ "/fixtures/event_snapshots".toList

def fixturePath (host : TestHost) (name : Text) : Text :=
  fixtureDir host ++ '/' :: (name ++ ".snap".toList)

def snapshotHead (name entryPoint : Text) : List Text :=
  ['#' :: (" event snapshot: ".toList ++ name), '#' :: (" entry point:    ".toList ++ entryPoint),
    '#' :: (" regenerate:     ".toList ++ updateEnvVar ++ "=1 cargo test event_snapshot".toList)]

def noEvents : Text := ['(', 'n', 'o', ' ', 'e', 'v', 'e', 'n', 't', 's', ')']

def renderSnapshot (name entryPoint : Text) (events : List Text) : Text :=
  unlines (snapshotHead name entryPoint) ++ (if events.isEmpty then noEvents ++ ['\n'] else []) ++
    unlines events

def missingSnapshot (host : TestHost) (path actual : Text) : Text :=
  "missing event snapshot `".toList ++ path ++ "` (".toList ++ host.notFound ++
    ").\nGenerate it deliberately with `".toList ++ updateEnvVar ++
    "=1 cargo test event_snapshot` and commit it after review.\n--- actual ---\n".toList ++ actual

def payloadDrift (name path diff : Text) : Text :=
  "event payload drift in `".toList ++ name ++ "` (fixture ".toList ++ path ++
    (").\nIf this change is intentional, it is an EVENTS.md-governed API change: " ++
      "update EVENTS.md/CHANGELOG.md and regenerate with `").toList ++ updateEnvVar ++
    "=1 cargo test event_snapshot`.\n".toList ++ diff

/-- The files afterwards, and the verdict on the snapshot. -/
def checkSnapshot (host : TestHost) (updateVar : Bool) (fixtures : Fixtures) (name actual : Text)
    (allowUpdate : Bool) : Fixtures × Except Text Unit :=
  let path := fixturePath host name
  if allowUpdate && updateVar then (fixtures.insert path actual, .ok ())
  else
    match fixtures[path]? with
    | none => (fixtures, .error (missingSnapshot host path actual))
    | some expected =>
      match lineDiff expected actual with
      | none => (fixtures, .ok ())
      | some diff => (fixtures, .error (payloadDrift name path diff))

/-- A test of the suite: the name of its fixture and the entry point it calls last. -/
structure Scenario where
  name : Text
  entryPoint : Text

section Suite
variable {Contract Address Other : Type} (shown : Displays Address Other)
  (toXdr : ScVal Address Other → List UInt8) (host : TestHost) (updateVar : Bool)

/-- The contract enters by the events it emits in each scenario. -/
def assertSnapshot (emitted : Scenario → List (PublishedEvent Contract Address Other))
    (fixtures : Fixtures) (s : Scenario) : Fixtures × Except Text Unit :=
  checkSnapshot host updateVar fixtures s.name
    (renderSnapshot s.name s.entryPoint (renderLastEvents shown toXdr (emitted s))) true

/-- No test of a run of the suite fails. -/
def SuitePasses (emitted : Scenario → List (PublishedEvent Contract Address Other))
    (fixtures : Fixtures) (scenarios : List Scenario) : Prop :=
  ∀ answer ∈ Machine.transcript (assertSnapshot shown toXdr host updateVar emitted) fixtures
    scenarios, answer.2 = .ok ()

end Suite

/-! ## What one test does -/

theorem fixturePath_injective (host : TestHost) : Function.Injective (fixturePath host) := by
  intro name name' h
  simpa [fixturePath] using h

theorem checkSnapshot_update (host : TestHost) (fixtures : Fixtures) (name actual : Text) :
    checkSnapshot host true fixtures name actual true =
      (fixtures.insert (fixturePath host name) actual, .ok ()) := rfl

theorem checkSnapshot_frame (host : TestHost) (fixtures : Fixtures) (name actual : Text)
    (allowUpdate : Bool) :
    (checkSnapshot host false fixtures name actual allowUpdate).1 = fixtures := by
  simp only [checkSnapshot, Bool.and_false, Bool.false_eq_true, if_false]
  split
  · rfl
  · split <;> rfl

theorem checkSnapshot_passes_iff (host : TestHost) (fixtures : Fixtures) (name actual : Text)
    (allowUpdate : Bool) :
    (checkSnapshot host false fixtures name actual allowUpdate).2 = .ok () ↔
      fixtures[fixturePath host name]? = some actual := by
  simp only [checkSnapshot, Bool.and_false, Bool.false_eq_true, if_false]
  split
  · rename_i hmissing
    simp [hmissing]
  · rename_i expected hfound
    rw [hfound, Option.some.injEq, ← lineDiff_eq_none_iff]
    split <;> simp_all

/-! ## Runs of the suite -/

section Runs
variable {Contract Address Other : Type} {shown : Displays Address Other}
  {toXdr : ScVal Address Other → List UInt8} {host : TestHost}

theorem suitePasses_iff (emitted : Scenario → List (PublishedEvent Contract Address Other))
    (fixtures : Fixtures) (scenarios : List Scenario) :
    SuitePasses shown toXdr host false emitted fixtures scenarios ↔
      ∀ s ∈ scenarios, fixtures[fixturePath host s.name]? =
        some (renderSnapshot s.name s.entryPoint (renderLastEvents shown toXdr (emitted s))) := by
  induction scenarios with
  | nil => simp [SuitePasses]
  | cons s scenarios ih =>
    unfold SuitePasses at ih ⊢
    simp only [Machine.transcript_cons, List.forall_mem_cons, ← ih, assertSnapshot,
      checkSnapshot_frame, checkSnapshot_passes_iff]

theorem updated_of_not_named (emitted : Scenario → List (PublishedEvent Contract Address Other))
    {scenarios : List Scenario} {path : Text}
    (h : ∀ s ∈ scenarios, fixturePath host s.name ≠ path) (fixtures : Fixtures) :
    (Machine.after (assertSnapshot shown toXdr host true emitted) fixtures scenarios)[path]? =
      fixtures[path]? := by
  induction scenarios generalizing fixtures with
  | nil => rfl
  | cons s scenarios ih =>
    have hs := h s (List.mem_cons_self ..)
    rw [Machine.after_cons, ih fun t ht => h t (List.mem_cons_of_mem s ht), assertSnapshot,
      checkSnapshot_update, Std.ExtTreeMap.getElem?_insert]
    simp [hs]

theorem updated_of_mem (emitted : Scenario → List (PublishedEvent Contract Address Other))
    {scenarios : List Scenario} (hnames : (scenarios.map Scenario.name).Nodup) {s : Scenario}
    (h : s ∈ scenarios) (fixtures : Fixtures) :
    (Machine.after (assertSnapshot shown toXdr host true emitted) fixtures
        scenarios)[fixturePath host s.name]? =
      some (renderSnapshot s.name s.entryPoint (renderLastEvents shown toXdr (emitted s))) := by
  induction scenarios generalizing fixtures with
  | nil => cases h
  | cons t scenarios ih =>
    obtain ⟨hfresh, hnames⟩ := List.nodup_cons.mp hnames
    rw [Machine.after_cons]
    rcases List.mem_cons.mp h with rfl | h
    · have hother : ∀ t ∈ scenarios, fixturePath host t.name ≠ fixturePath host s.name := by
        intro t ht heq
        exact hfresh (List.mem_map.mpr ⟨t, ht, fixturePath_injective host heq⟩)
      rw [updated_of_not_named emitted hother, assertSnapshot, checkSnapshot_update,
        Std.ExtTreeMap.getElem?_insert_self]
    · exact ih hnames h _

end Runs

/-! ## The fixture shows the events -/

theorem renderLastEvents_ne_noEvents {Contract Address Other : Type}
    {shown : Displays Address Other} {toXdr : ScVal Address Other → List UInt8}
    (events : List (PublishedEvent Contract Address Other)) :
    renderLastEvents shown toXdr events ≠ [noEvents] := by
  intro h
  have hlength := congrArg List.length h
  simp [renderLastEvents, renderEvent] at hlength

def snapshotBody (events : List Text) : List Text :=
  if events.isEmpty then [noEvents] else events

theorem renderSnapshot_eq (name entryPoint : Text) (events : List Text) :
    renderSnapshot name entryPoint events =
      unlines (snapshotHead name entryPoint) ++ unlines (snapshotBody events) := by
  cases events <;> simp [renderSnapshot, snapshotBody, unlines]

theorem newline_not_mem_snapshotBody {events : List Text} (h : ∀ line ∈ events, '\n' ∉ line) :
    ∀ line ∈ snapshotBody events, '\n' ∉ line := by
  have hnone : '\n' ∉ noEvents := by decide
  intro line hline
  unfold snapshotBody at hline
  split_ifs at hline with hempty
  · rwa [List.mem_singleton.mp hline]
  · exact h line hline

theorem renderSnapshot_inj {name entryPoint : Text} {events events' : List Text}
    (h : ∀ line ∈ events, '\n' ∉ line) (h' : ∀ line ∈ events', '\n' ∉ line)
    (hne : events ≠ [noEvents]) (hne' : events' ≠ [noEvents])
    (heq : renderSnapshot name entryPoint events = renderSnapshot name entryPoint events') :
    events = events' := by
  rw [renderSnapshot_eq, renderSnapshot_eq] at heq
  have hbody := unlines_inj (newline_not_mem_snapshotBody h) (newline_not_mem_snapshotBody h')
    (List.append_cancel_left heq)
  unfold snapshotBody at hbody
  split_ifs at hbody with hempty hempty'
  · rw [List.isEmpty_iff.mp hempty, List.isEmpty_iff.mp hempty']
  · exact absurd hbody.symm hne'
  · exact absurd hbody hne
  · exact hbody

/-- **The snapshot gate accepts exactly an unchanged contract.** Once the fixtures are
rewritten for one version of the contract, in whatever order the tests run, a comparing run
against another version passes exactly if that version emits the same events in every
scenario. -/
theorem snapshot_gate {Contract Address Other : Type} {shown : Displays Address Other}
    (hshown : shown.OneLine) {toXdr : ScVal Address Other → List UInt8}
    {wire : Set (ScVal Address Other)} (hxdr : Set.InjOn toXdr wire) (host : TestHost)
    {emitted emitted' : Scenario → List (PublishedEvent Contract Address Other)}
    (hwire : ∀ s, ∀ event ∈ emitted s, OnWire wire event.2)
    (hwire' : ∀ s, ∀ event ∈ emitted' s, OnWire wire event.2) (fixtures : Fixtures)
    {scenarios scenarios' : List Scenario} (hnames : (scenarios.map Scenario.name).Nodup)
    (horder : scenarios'.Perm scenarios) :
    SuitePasses shown toXdr host false emitted'
        (Machine.after (assertSnapshot shown toXdr host true emitted) fixtures scenarios)
        scenarios' ↔
      ∀ s ∈ scenarios, (emitted s).map Prod.snd = (emitted' s).map Prod.snd := by
  rw [suitePasses_iff]
  constructor
  · intro hpass s hs
    have hfixture := hpass s (horder.mem_iff.mpr hs)
    rw [updated_of_mem emitted hnames hs, Option.some.injEq] at hfixture
    have hlines := renderSnapshot_inj (fun _ => newline_not_mem_renderLastEvents hshown)
      (fun _ => newline_not_mem_renderLastEvents hshown) (renderLastEvents_ne_noEvents _)
      (renderLastEvents_ne_noEvents _) hfixture
    exact renderLastEvents_inj hxdr (hwire s) (hwire' s) hlines
  · intro hsame s hs
    have hs := horder.mem_iff.mp hs
    rw [updated_of_mem emitted hnames hs, renderLastEvents_eq, hsame s hs, ← renderLastEvents_eq]

/-! The fixture is a scenario whose event has other data in the second version. -/

def testHost : TestHost where
  manifestDir := "/repo".toList
  notFound := "No such file or directory (os error 2)".toList

theorem snapshot_gate_fixture :
    ¬ SuitePasses testDisplays xdrOneTopic testHost false
      (fun _ => [(0, [topicInit], .u32 8)])
      (Machine.after (assertSnapshot testDisplays xdrOneTopic testHost true
        fun _ => [(0, [topicInit], .u32 7)]) ∅ [⟨['i'], ['i']⟩]) [⟨['i'], ['i']⟩] := by
  intro hpass
  have hwire : ∀ n : UInt32, ∀ _ : Scenario,
      ∀ event ∈ [(0, [topicInit], (.u32 n : ScVal Unit Empty))],
        OnWire {v | v = .vec [topicInit] ∨ ∃ n, v = .u32 n} event.2 := by
    simp [OnWire]
  have hsame := (snapshot_gate testDisplays_oneLine xdrOneTopic_injOn testHost (hwire 7) (hwire 8) ∅
    (by simp) (List.Perm.refl _)).mp hpass
  simp at hsame

end Synapse
