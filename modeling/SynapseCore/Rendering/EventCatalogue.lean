import SynapseCore.Rendering.EventSnapshots

/-! The cross-check of the event snapshots against the catalogue of events: which topics
the fixtures cover, which the catalogue has, and which gaps are tracked. -/

namespace Synapse
open Text Readable

/-! ## Topics of the fixtures -/

def stripText (t s : Text) : Option Text :=
  if t <+: s then some (s.drop t.length) else none

def topicsMark : Text := -- topics: [sym:synapse, sym:
  ['t', 'o', 'p', 'i', 'c', 's', ':', ' ', '[', 's', 'y', 'm', ':', 's', 'y', 'n', 'a', 'p', 's',
    'e', ',', ' ', 's', 'y', 'm', ':']

def topicsOfText (text : Text) : List Text :=
  (lines text).filterMap fun line =>
    (stripText topicsMark line).map (List.rdropWhile fun c => c == ']')

def snapshottedTopics (fixtures : Fixtures) : Finset Text :=
  (fixtures.toList.flatMap fun file => topicsOfText file.2).toFinset

theorem mem_topicsOfText {ls : List Text} (h : ∀ line ∈ ls, '\n' ∉ line) {t : Text} :
    t ∈ topicsOfText (unlines ls) ↔ ∃ line ∈ ls, ∃ rest,
      (stripSuffix '\r' line).getD line = topicsMark ++ rest ∧
        rest.rdropWhile (fun c => c == ']') = t := by
  rw [topicsOfText, lines_unlines_eq h, List.filterMap_map, List.mem_filterMap]
  refine exists_congr fun line => and_congr_right fun _ => ?_
  simp only [Function.comp_apply, stripText]
  split_ifs with hmark
  · obtain ⟨rest, hrest⟩ := hmark
    rw [← hrest, List.drop_left]
    simp [eq_comm]
  · constructor
    · intro hnone
      cases hnone
    · rintro ⟨rest, hrest, -⟩
      exact absurd ⟨rest, hrest.symm⟩ hmark

section Topics
variable {Contract Address Other : Type} {shown : Displays Address Other}
  {toXdr : ScVal Address Other → List UInt8}

def synapse : ScSymbol := ⟨['s', 'y', 'n', 'a', 'p', 's', 'e'], by decide, by decide⟩

theorem eq_symbol_of_label {v : ScVal Address Other} (hv : Plain v) {x rest : Text}
    (h : renderScval shown v ++ x = Kind.symbol.label ++ rest) : ∃ s, v = .symbol s := by
  rw [renderScval_eq, List.append_assoc] at h
  have hkind : kind v = .symbol := by
    have hpre : (kind v).label <+: Kind.symbol.label ++ rest := ⟨_, h⟩
    rcases List.prefix_or_prefix_of_prefix hpre (List.prefix_append ..) with hab | hba
    · exact Kind.label_free hv.kind_ne_other (by simp) hab
    · exact (Kind.label_free (by simp) hv.kind_ne_other hba).symm
  cases v <;> cases hkind
  exact ⟨_, rfl⟩

theorem topics_of_mark (hshown : shown.Strkeys) {topics : List (ScVal Address Other)}
    (hplain : ∀ t ∈ topics, Plain t) {rest : Text}
    (h : topicsLine shown topics = topicsMark ++ rest) :
    ∃ s further, topics = .symbol synapse :: .symbol s :: further := by
  cases topics with
  | nil => simp [topicsLine, topicsMark] at h
  | cons v topics =>
    rw [topicsLine, intercalate_append_bracket] at h
    have hfirst : renderScval shown v ++ further (renderScval shown) ',' [' '] ']' topics =
        renderScval shown (.symbol synapse) ++ (',' :: ' ' :: (Kind.symbol.label ++ rest)) := by
      simpa [topicsMark, renderScval, synapse, Kind.label] using h
    have hv := hplain v (List.mem_cons_self ..)
    have hstops : Stops IsStop (further (renderScval shown) ',' [' '] ']' topics) := by
      simpa using stops_further (.inl rfl) (.inr (.inl rfl)) topics []
    obtain ⟨rfl, hrest⟩ := hv.readBack hshown _ _ _ (.symbol synapse) hstops
      (by simp [IsStop]) hfirst
    cases topics with
    | nil => simp [further] at hrest
    | cons w topics =>
      simp only [further, List.cons_append, List.nil_append, List.cons.injEq, true_and] at hrest
      obtain ⟨s, rfl⟩ := eq_symbol_of_label
        (hplain w (List.mem_cons_of_mem _ (List.mem_cons_self ..))) hrest
      exact ⟨s, topics, rfl⟩

theorem topicsLine_two (s : ScSymbol) :
    topicsLine shown [.symbol synapse, .symbol s] = topicsMark ++ (s.chars ++ [']']) := by
  simp [topicsLine, topicsMark, renderScval, synapse]

theorem rdropWhile_bracket (s : ScSymbol) :
    (s.chars ++ [']']).rdropWhile (fun c => c == ']') = s.chars := by
  rw [List.rdropWhile_concat_pos _ _ _ (by decide), List.rdropWhile_eq_self_iff]
  intro hne hlast
  have hvalid := List.all_eq_true.mp s.valid _ (List.getLast_mem hne)
  rw [eq_of_beq hlast] at hvalid
  cases hvalid

theorem no_mark {c : Char} (hc : c ≠ 't') (s rest : Text) :
    (stripSuffix '\r' (c :: s)).getD (c :: s) ≠ topicsMark ++ rest := by
  intro h
  have hpre := stripSuffix_prefix_self '\r' (c :: s)
  rw [h, topicsMark, List.cons_append, List.cons_prefix_cons] at hpre
  exact hc hpre.1.symm

theorem topicsLine_kept (topics : List (ScVal Address Other)) :
    (stripSuffix '\r' (topicsLine shown topics)).getD (topicsLine shown topics) =
      topicsLine shown topics := by
  rw [stripSuffix_eq_none, Option.getD_none]
  rw [topicsLine, ← List.append_assoc, List.getLast?_concat]
  decide

theorem mark_mem_snapshotBody {events : List (PublishedEvent Contract Address Other)}
    {line rest : Text} (h : line ∈ snapshotBody (renderLastEvents shown toXdr events))
    (hmark : (stripSuffix '\r' line).getD line = topicsMark ++ rest) :
    ∃ e ∈ events, topicsLine shown e.2.1 = topicsMark ++ rest := by
  unfold snapshotBody at h
  split_ifs at h with hempty
  · rw [List.mem_singleton.mp h] at hmark
    exact absurd hmark (no_mark (by decide) _ _)
  · obtain ⟨e, he, hline⟩ := List.mem_flatMap.mp h
    simp only [renderEvent, List.mem_cons, List.not_mem_nil, or_false] at hline
    rcases hline with rfl | rfl | rfl
    · rw [topicsLine_kept] at hmark
      exact ⟨e, he, hmark⟩
    · exact absurd hmark (no_mark (by decide) _ _)
    · exact absurd hmark (no_mark (by decide) _ _)

theorem topicsLine_mem_snapshotBody {events : List (PublishedEvent Contract Address Other)}
    {e : PublishedEvent Contract Address Other} (he : e ∈ events) :
    topicsLine shown e.2.1 ∈ snapshotBody (renderLastEvents shown toXdr events) := by
  have hmem : topicsLine shown e.2.1 ∈ renderLastEvents shown toXdr events :=
    List.mem_flatMap.mpr ⟨e, he, by simp [renderEvent]⟩
  have hne : (renderLastEvents shown toXdr events).isEmpty = false := by
    rw [List.isEmpty_eq_false_iff]
    exact List.ne_nil_of_mem hmem
  simpa [snapshotBody, hne] using hmem

theorem snapshotHead_spec {name entryPoint : Text} (hname : '\n' ∉ name)
    (hentry : '\n' ∉ entryPoint) :
    ∀ line ∈ snapshotHead name entryPoint, '\n' ∉ line ∧ ∃ s, line = '#' :: s := by
  have hagain : '\n' ∉ " regenerate:     ".toList ++ updateEnvVar ++
      "=1 cargo test event_snapshot".toList := by decide
  intro line hline
  simp only [snapshotHead, List.mem_cons, List.not_mem_nil, or_false] at hline
  rcases hline with rfl | rfl | rfl
  · exact ⟨by simp [hname], _, rfl⟩
  · exact ⟨by simp [hentry], _, rfl⟩
  · exact ⟨List.not_mem_cons_of_ne_of_not_mem (by decide) hagain, _, rfl⟩

/-- Events whose topics are plain values and, behind the common topic, one symbol. -/
def TwoTopics (event : PublishedEvent Contract Address Other) : Prop :=
  (∀ t ∈ event.2.1, Plain t) ∧
    ∀ s further, event.2.1 = .symbol synapse :: .symbol s :: further → further = []

theorem mem_topicsOfText_renderSnapshot (hshown : shown.Strkeys) (hline : shown.OneLine)
    {name entryPoint : Text} (hname : '\n' ∉ name) (hentry : '\n' ∉ entryPoint)
    {events : List (PublishedEvent Contract Address Other)} (hevents : ∀ e ∈ events, TwoTopics e)
    {t : Text} :
    t ∈ topicsOfText (renderSnapshot name entryPoint (renderLastEvents shown toXdr events)) ↔
      ∃ e ∈ events, ∃ s, e.2.1 = [.symbol synapse, .symbol s] ∧ s.chars = t := by
  have hlines : ∀ line ∈ snapshotHead name entryPoint ++
      snapshotBody (renderLastEvents shown toXdr events), '\n' ∉ line := by
    intro line hmem
    rcases List.mem_append.mp hmem with hhead | hbody
    · exact (snapshotHead_spec hname hentry line hhead).1
    · exact newline_not_mem_snapshotBody (fun _ => newline_not_mem_renderLastEvents hline) line
        hbody
  rw [renderSnapshot_eq, ← unlines_append, mem_topicsOfText hlines]
  constructor
  · rintro ⟨line, hmem, rest, hrest, rfl⟩
    rcases List.mem_append.mp hmem with hhead | hbody
    · obtain ⟨s, rfl⟩ := (snapshotHead_spec hname hentry line hhead).2
      exact absurd hrest (no_mark (by decide) s rest)
    · obtain ⟨e, he, htopics⟩ := mark_mem_snapshotBody hbody hrest
      obtain ⟨s, further, heq⟩ := topics_of_mark hshown (hevents e he).1 htopics
      rw [(hevents e he).2 s further heq] at heq
      rw [heq, topicsLine_two, List.append_cancel_left_eq] at htopics
      refine ⟨e, he, s, heq, ?_⟩
      rw [← htopics, rdropWhile_bracket]
  · rintro ⟨e, he, s, htopics, rfl⟩
    refine ⟨topicsLine shown e.2.1, ?_, s.chars ++ [']'], ?_, rdropWhile_bracket s⟩
    · exact List.mem_append_right _ (topicsLine_mem_snapshotBody he)
    · rw [topicsLine_kept, htopics, topicsLine_two]

theorem mem_updated_iff {host : TestHost}
    (emitted : Scenario → List (PublishedEvent Contract Address Other))
    {scenarios : List Scenario} (hnames : (scenarios.map Scenario.name).Nodup) (path text : Text) :
    (path, text) ∈ (Machine.after (assertSnapshot shown toXdr host true emitted) ∅
        scenarios).toList ↔
      ∃ s ∈ scenarios, fixturePath host s.name = path ∧
        renderSnapshot s.name s.entryPoint (renderLastEvents shown toXdr (emitted s)) = text := by
  rw [Std.ExtTreeMap.mem_toList_iff_getElem?_eq_some]
  constructor
  · intro h
    by_contra hnone
    have hnamed : ∀ s ∈ scenarios, fixturePath host s.name ≠ path := by
      intro s hs hpath
      rw [← hpath, updated_of_mem emitted hnames hs, Option.some.injEq] at h
      exact hnone ⟨s, hs, hpath, h⟩
    rw [updated_of_not_named emitted hnamed] at h
    simp at h
  · rintro ⟨s, hs, rfl, rfl⟩
    exact updated_of_mem emitted hnames hs ∅

def Emits (emitted : Scenario → List (PublishedEvent Contract Address Other))
    (scenarios : List Scenario) (t : Text) : Prop :=
  ∃ s ∈ scenarios, ∃ e ∈ emitted s, ∃ topic,
    e.2.1 = [.symbol synapse, .symbol topic] ∧ topic.chars = t

theorem mem_snapshottedTopics (hshown : shown.Strkeys) (hline : shown.OneLine) {host : TestHost}
    {emitted : Scenario → List (PublishedEvent Contract Address Other)}
    (hevents : ∀ s, ∀ e ∈ emitted s, TwoTopics e) {scenarios : List Scenario}
    (hnames : (scenarios.map Scenario.name).Nodup)
    (hlines : ∀ s ∈ scenarios, '\n' ∉ s.name ∧ '\n' ∉ s.entryPoint) (t : Text) :
    t ∈ snapshottedTopics
        (Machine.after (assertSnapshot shown toXdr host true emitted) ∅ scenarios) ↔
      Emits emitted scenarios t := by
  rw [snapshottedTopics, List.mem_toFinset, List.mem_flatMap]
  constructor
  · rintro ⟨⟨path, text⟩, hfile, ht⟩
    obtain ⟨s, hs, -, rfl⟩ := (mem_updated_iff emitted hnames path text).mp hfile
    exact ⟨s, hs, (mem_topicsOfText_renderSnapshot hshown hline (hlines s hs).1 (hlines s hs).2
      (hevents s)).mp ht⟩
  · rintro ⟨s, hs, htopic⟩
    refine ⟨(_, _), (mem_updated_iff emitted hnames _ _).mpr ⟨s, hs, rfl, rfl⟩, ?_⟩
    exact (mem_topicsOfText_renderSnapshot hshown hline (hlines s hs).1 (hlines s hs).2
      (hevents s)).mpr htopic

end Topics

/-! ## Topics of the catalogue -/

def catalogueMark : Text := ['#', '#', ' ', '2', '.']

def sectionMark : Text := ['#', '#', ' ']

/-- ``"| [`Event"`` -/
def rowMark : Text := ['|', ' ', '[', '\x60', 'E', 'v', 'e', 'n', 't']

def trimMatches (c : Char) (s : Text) : Text :=
  (s.dropWhile fun d => d == c).rdropWhile fun d => d == c

/-- `cols[2]`, without its backquotes; a row of fewer columns stops the test. -/
def topicColumn (line : Text) : Option Text :=
  (((line.splitOn '|').map trim)[2]?).map (trimMatches '\x60')

def catalogueLoop : List Text → Bool → List Text → Option (List Text)
  | [], _, topics => some topics
  | line :: rest, inTable, topics =>
    if catalogueMark <+: line then catalogueLoop rest true topics
    else if inTable ∧ sectionMark <+: line then some topics
    else if ¬ inTable ∨ ¬ rowMark <+: line then catalogueLoop rest inTable topics
    else
      match topicColumn line with
      | none => none
      | some topic => catalogueLoop rest inTable (topics ++ [topic])

def cataloguedTopics (eventsMd : Text) : Option (Finset Text) :=
  (catalogueLoop (lines eventsMd) false []).map List.toFinset

/-! ## The test -/

def knownGaps : List (Text × Text) :=
  [("batch".toList, "batch_register_callback lost in #176 merge (#199)".toList),
    ("up_prop".toList, "timelocked upgrade lost in #190 merge (#199)".toList),
    ("uprop".toList, "timelocked upgrade lost in #190 merge (#199)".toList),
    ("up_fin".toList, "timelocked upgrade lost in #190 merge (#199)".toList),
    ("up_can".toList, "timelocked upgrade lost in #190 merge (#199)".toList),
    ("rollback".toList, "rollback_upgrade lost in #190 merge (#199)".toList),
    ("migrate".toList, "upgrade_and_migrate lost in #190 merge (#199)".toList),
    ("chk_pass".toList, "post-upgrade self-check lost in #191 merge (#199)".toList),
    ("chk_fail".toList, "post-upgrade self-check lost in #191 merge (#199)".toList),
    ("expire".toList, "expire_transaction has no entry point (#199)".toList),
    ("uqset".toList, "upgrade quorum lost in #187 merge (#199)".toList),
    ("attest".toList, "set_signer_attestation has no entry point (#199)".toList),
    ("renounce".toList, "renounce_admin has no entry point (#199)".toList),
    ("guardian".toList, "set_guardian has no entry point (#199)".toList),
    ("apause".toList, "trip_auto_pause has no entry point (#199)".toList),
    ("aunpause".toList, "unpause_auto has no entry point (#199)".toList)]

def uncataloguedTopics : List Text :=
  ["param".toList, "bonded".toList, "unbondrq".toList, "unbondcl".toList, "slashed".toList,
    "tierset".toList, "rebate".toList]

inductive CoverageFailure where
  | unreadableRow
  | tableFormat (found : Nat)
  | untracked (topics : Finset Text)
  | staleGaps (topics : Finset Text)
  | droppedGaps (topics : Finset Text)
  | uncatalogued (topics : Finset Text)

def gapTopics : Finset Text := (knownGaps.map Prod.fst).toFinset

def everyCataloguedEvent (eventsMd : Text) (fixtures : Fixtures) : Except CoverageFailure Unit :=
  match cataloguedTopics eventsMd with
  | none => .error .unreadableRow
  | some catalogued =>
    let covered := snapshottedTopics fixtures
    let untracked := catalogued.filter fun t => t ∉ covered ∧ t ∉ gapTopics
    let staleGaps := gapTopics.filter fun t => t ∈ covered
    let droppedGaps := gapTopics.filter fun t => t ∉ catalogued
    if catalogued.card < 10 then .error (.tableFormat catalogued.card)
    else if untracked ≠ ∅ then .error (.untracked untracked)
    else if staleGaps ≠ ∅ then .error (.staleGaps staleGaps)
    else if droppedGaps ≠ ∅ then .error (.droppedGaps droppedGaps)
    else if covered \ catalogued ≠ uncataloguedTopics.toFinset then
      .error (.uncatalogued (covered \ catalogued))
    else .ok ()

/-- No untracked topic, no gap closed and no gap dropped: the gaps are the difference. -/
theorem gaps_eq_iff (catalogued covered gaps : Finset Text) :
    ((catalogued.filter fun t => t ∉ covered ∧ t ∉ gaps) = ∅ ∧
      (gaps.filter fun t => t ∈ covered) = ∅ ∧ (gaps.filter fun t => t ∉ catalogued) = ∅) ↔
      catalogued \ covered = gaps := by
  simp only [Finset.ext_iff, Finset.mem_filter, Finset.mem_sdiff, Finset.notMem_empty, iff_false,
    ← forall_and]
  refine forall_congr' fun t => ?_
  tauto

theorem everyCataloguedEvent_ok_iff (eventsMd : Text) (fixtures : Fixtures) :
    everyCataloguedEvent eventsMd fixtures = .ok () ↔
      ∃ catalogued, cataloguedTopics eventsMd = some catalogued ∧ 10 ≤ catalogued.card ∧
        catalogued \ snapshottedTopics fixtures = gapTopics ∧
        snapshottedTopics fixtures \ catalogued = uncataloguedTopics.toFinset := by
  unfold everyCataloguedEvent
  rcases cataloguedTopics eventsMd with _ | catalogued
  · simp
  · simp only [Option.some.injEq, exists_eq_left', ← gaps_eq_iff catalogued]
    split_ifs with hcard huntracked hstale hdropped huncatalogued
    · exact iff_of_false (by simp) fun h => absurd h.1 (Nat.not_le.mpr hcard)
    · exact iff_of_false (by simp) fun h => huntracked h.2.1.1
    · exact iff_of_false (by simp) fun h => hstale h.2.1.2.1
    · exact iff_of_false (by simp) fun h => hdropped h.2.1.2.2
    · exact iff_of_false (by simp) fun h => huncatalogued h.2.2
    · exact iff_of_true rfl ⟨Nat.not_lt.mp hcard, ⟨not_not.mp huntracked, not_not.mp hstale,
        not_not.mp hdropped⟩, not_not.mp huncatalogued⟩

/-! ## The loop reads one section -/

section Sections
variable {preface body rest : List Text} {header closing : Text}

theorem catalogueLoop_preface (h : ∀ line ∈ preface, ¬ catalogueMark <+: line)
    (ls : List Text) (topics : List Text) :
    catalogueLoop (preface ++ ls) false topics = catalogueLoop ls false topics := by
  induction preface with
  | nil => rfl
  | cons line preface ih =>
    have hline := h line (List.mem_cons_self ..)
    rw [List.cons_append, catalogueLoop, if_neg hline]
    simpa using ih fun l hl => h l (List.mem_cons_of_mem line hl)

theorem catalogueLoop_body (h : ∀ line ∈ body, ¬ sectionMark <+: line) (ls topics : List Text) :
    catalogueLoop (body ++ ls) true topics =
      ((body.filter fun line => decide (rowMark <+: line)).mapM topicColumn).bind fun found =>
        catalogueLoop ls true (topics ++ found) := by
  have hmarks : sectionMark <+: catalogueMark := by decide
  induction body generalizing topics with
  | nil => simp
  | cons line body ih =>
    have hline := h line (List.mem_cons_self ..)
    have hcatalogue : ¬ catalogueMark <+: line := fun hmark => hline (hmarks.trans hmark)
    have hbody := fun topics => ih (fun l hl => h l (List.mem_cons_of_mem line hl)) topics
    rw [List.cons_append, catalogueLoop, if_neg hcatalogue, if_neg (by simp [hline])]
    by_cases hrow : rowMark <+: line
    · rw [List.filter_cons_of_pos (by simpa using hrow)]
      cases hcolumn : topicColumn line with
      | none => simp [hcolumn, hrow]
      | some topic =>
        rw [if_neg (by simp [hrow])]
        simp only [hbody, List.mapM_cons, hcolumn]
        cases hfound : (body.filter fun line => decide (rowMark <+: line)).mapM topicColumn <;>
          simp
    · rw [if_pos (by simp [hrow]), List.filter_cons_of_neg (by simpa using hrow), hbody]

theorem catalogueLoop_closing (h : sectionMark <+: closing) (hmark : ¬ catalogueMark <+: closing)
    (ls topics : List Text) : catalogueLoop (closing :: ls) true topics = some topics := by
  rw [catalogueLoop, if_neg hmark, if_pos ⟨rfl, h⟩]

end Sections

/-- **The catalogue is read from its section alone.** Whatever stands in front of the section
and behind it, the topics are those of the rows inside. -/
theorem catalogued_topics_of_section {preface body rest : List Text} {header closing : Text}
    (hlines : ∀ line ∈ preface ++ header :: (body ++ closing :: rest), IsLine line)
    (hpreface : ∀ line ∈ preface, ¬ catalogueMark <+: line) (hheader : catalogueMark <+: header)
    (hbody : ∀ line ∈ body, ¬ sectionMark <+: line) (hclosing : sectionMark <+: closing)
    (hother : ¬ catalogueMark <+: closing) :
    cataloguedTopics (unlines (preface ++ header :: (body ++ closing :: rest))) =
      ((body.filter fun line => decide (rowMark <+: line)).mapM topicColumn).map
        List.toFinset := by
  have hloop : ∀ found, catalogueLoop (closing :: rest) true found = some found :=
    fun found => catalogueLoop_closing hclosing hother rest found
  rw [cataloguedTopics, lines_unlines hlines, catalogueLoop_preface hpreface, catalogueLoop,
    if_pos hheader, catalogueLoop_body hbody]
  simp [hloop]

theorem catalogued_topics_of_section_fixture :
    cataloguedTopics (unlines ([['#']] ++ catalogueMark :: ([rowMark ++ ['|', ' ', 'i', ' ', '|'],
      ['|', ' ', 'i', ' ', '|']] ++ (sectionMark ++ ['3']) :: [rowMark]))) = some {['i']} := by
  rw [catalogued_topics_of_section (by simp only [IsLine]; decide) (by decide) (by decide)
    (by decide) (by decide) (by decide)]
  decide

/-- **The coverage test counts what the tests emit.** After a rewriting run into an empty
directory, the test passes exactly if the catalogue has ten topics, the gaps are the topics
of the catalogue that no scenario emits, and the other list those emitted outside it. -/
theorem coverage_test_exact {Contract Address Other : Type} {shown : Displays Address Other}
    (hshown : shown.Strkeys) (hline : shown.OneLine)
    (toXdr : ScVal Address Other → List UInt8) (host : TestHost)
    {emitted : Scenario → List (PublishedEvent Contract Address Other)}
    (hevents : ∀ s, ∀ e ∈ emitted s, TwoTopics e) {scenarios : List Scenario}
    (hnames : (scenarios.map Scenario.name).Nodup)
    (hlines : ∀ s ∈ scenarios, '\n' ∉ s.name ∧ '\n' ∉ s.entryPoint) (eventsMd : Text) :
    everyCataloguedEvent eventsMd
        (Machine.after (assertSnapshot shown toXdr host true emitted) ∅ scenarios) = .ok () ↔
      ∃ catalogued, cataloguedTopics eventsMd = some catalogued ∧ 10 ≤ catalogued.card ∧
        (∀ t, t ∈ gapTopics ↔ t ∈ catalogued ∧ ¬ Emits emitted scenarios t) ∧
        (∀ t, t ∈ uncataloguedTopics ↔ Emits emitted scenarios t ∧ t ∉ catalogued) := by
  have hcovered : ∀ t, t ∈ snapshottedTopics
      (Machine.after (assertSnapshot shown toXdr host true emitted) ∅ scenarios) ↔
        Emits emitted scenarios t := mem_snapshottedTopics hshown hline hevents hnames hlines
  simp only [everyCataloguedEvent_ok_iff, Finset.ext_iff, Finset.mem_sdiff, hcovered,
    List.mem_toFinset, Emits, iff_comm]

/-! In the fixture the catalogue has a row for each tracked gap, and one scenario emits the
topics it lacks. -/

def catalogueRow (topic : Text) : Text :=
  rowMark ++ ['\x60', ']', ' ', '|', ' ', '\x60'] ++ topic ++ ['\x60', ' ', '|']

def gapCatalogue : List Text :=
  catalogueMark :: ((knownGaps.map fun gap => catalogueRow gap.1) ++ [sectionMark ++ ['3']])

theorem cataloguedTopics_gapCatalogue :
    cataloguedTopics (unlines gapCatalogue) = some gapTopics := by
  have hlines : ∀ line ∈ gapCatalogue, IsLine line := by
    simp only [IsLine]
    decide
  have hrows : ∀ line ∈ knownGaps.map fun gap => catalogueRow gap.1,
      rowMark <+: line ∧ ¬ sectionMark <+: line := by decide
  have hfilter : ((knownGaps.map fun gap => catalogueRow gap.1).filter fun line =>
      decide (rowMark <+: line)) = knownGaps.map fun gap => catalogueRow gap.1 :=
    List.filter_eq_self.mpr fun line hline => decide_eq_true (hrows line hline).1
  have hcolumns : (knownGaps.map fun gap => catalogueRow gap.1).mapM topicColumn =
      some (knownGaps.map Prod.fst) := by decide
  rw [cataloguedTopics, lines_unlines hlines, gapCatalogue, catalogueLoop,
    if_pos (List.prefix_refl _), catalogueLoop_body fun line hline => (hrows line hline).2, hfilter,
    hcolumns, Option.bind_some, catalogueLoop_closing (by decide) (by decide)]
  rfl

def symbolOf (s : Text) : ScSymbol :=
  if h : s.all isSymbolChar = true ∧ s.length ≤ 32 then ⟨s, h.1, h.2⟩ else synapse

def uncataloguedEvents : List (PublishedEvent Nat Unit Empty) :=
  uncataloguedTopics.map fun t => (0, [.symbol synapse, .symbol (symbolOf t)], .u32 7)

theorem uncataloguedEvents_twoTopics : ∀ e ∈ uncataloguedEvents, TwoTopics e := by
  intro e he
  obtain ⟨t, -, rfl⟩ := List.mem_map.mp he
  refine ⟨?_, fun s further h => ?_⟩
  · simp [Plain.symbol]
  · exact (List.cons.inj (List.cons.inj h).2).2.symm

theorem emits_uncatalogued_iff (scenario : Scenario) (t : Text) :
    Emits (fun _ => uncataloguedEvents) [scenario] t ↔ t ∈ uncataloguedTopics := by
  have hsymbols : ∀ t ∈ uncataloguedTopics, (symbolOf t).chars = t := by decide
  constructor
  · rintro ⟨_, _, e, he, topic, htopics, rfl⟩
    obtain ⟨t, ht, rfl⟩ := List.mem_map.mp he
    obtain rfl : symbolOf t = topic := ScVal.symbol.inj (List.cons.inj (List.cons.inj htopics).2).1
    rwa [hsymbols t ht]
  · intro ht
    exact ⟨scenario, List.mem_singleton_self _, _, List.mem_map_of_mem ht, symbolOf t, rfl,
      hsymbols t ht⟩

theorem coverage_test_exact_fixture :
    everyCataloguedEvent (unlines gapCatalogue)
      (Machine.after (assertSnapshot testDisplays xdrOneTopic testHost true
        fun _ => uncataloguedEvents) ∅ [⟨['i'], ['i']⟩]) = .ok () := by
  have hapart : ∀ t ∈ uncataloguedTopics, t ∉ gapTopics := by decide
  refine (coverage_test_exact testDisplays_strkeys testDisplays_oneLine xdrOneTopic testHost
    (fun _ => uncataloguedEvents_twoTopics) (by simp) (by decide) _).mpr
      ⟨gapTopics, cataloguedTopics_gapCatalogue, by decide, fun t => ?_, fun t => ?_⟩
  · rw [emits_uncatalogued_iff]
    exact (and_iff_left_of_imp fun hgap hmem => hapart t hmem hgap).symm
  · rw [emits_uncatalogued_iff]
    exact (and_iff_left_of_imp (hapart t)).symm

end Synapse
