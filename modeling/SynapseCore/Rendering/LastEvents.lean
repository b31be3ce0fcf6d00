import SynapseCore.Rendering.ScVal

/-! The rendering of the events of an invocation: three lines each, where the contract that
emitted the event is left out. -/

namespace Synapse
open Text

/-- An event: the contract that emitted it, its topics and its data. -/
abbrev PublishedEvent (Contract Address Other : Type) :=
  Contract × List (ScVal Address Other) × ScVal Address Other

section Events
variable {Contract Address Other : Type} (shown : Displays Address Other)
  (toXdr : ScVal Address Other → List UInt8)

def topicsLine (topics : List (ScVal Address Other)) : Text :=
  ['t', 'o', 'p', 'i', 'c', 's', ':', ' ', '['] ++
    ([',', ' '].intercalate (topics.map (renderScval shown)) ++ [']'])

def dataLine (data : ScVal Address Other) : Text :=
  ['d', 'a', 't', 'a', ':', ' ', ' ', ' '] ++ renderScval shown data

def xdrLine (topics : List (ScVal Address Other)) (data : ScVal Address Other) : Text :=
  ['x', 'd', 'r', ':', ' ', ' ', ' ', ' '] ++
    (xdrHex toXdr (.vec topics) ++ '|' :: xdrHex toXdr data)

/-- The lines for one event, by its topics and its data. -/
def renderEvent (event : List (ScVal Address Other) × ScVal Address Other) : List Text :=
  [topicsLine shown event.1, dataLine shown event.2, xdrLine toXdr event.1 event.2]

def renderLastEvents (events : List (PublishedEvent Contract Address Other)) : List Text :=
  events.flatMap fun event => renderEvent shown toXdr event.2

theorem renderLastEvents_eq (events : List (PublishedEvent Contract Address Other)) :
    renderLastEvents shown toXdr events =
      (events.map Prod.snd).flatMap (renderEvent shown toXdr) := by
  simp [renderLastEvents, List.flatMap_map]

variable {shown toXdr}

/-- Both XDR texts of an event are of values on the wire. -/
def OnWire (wire : Set (ScVal Address Other))
    (event : List (ScVal Address Other) × ScVal Address Other) : Prop :=
  .vec event.1 ∈ wire ∧ event.2 ∈ wire

theorem renderEvent_inj {wire : Set (ScVal Address Other)} (hxdr : Set.InjOn toXdr wire)
    {event event' : List (ScVal Address Other) × ScVal Address Other} (he : OnWire wire event)
    (he' : OnWire wire event')
    (h : renderEvent shown toXdr event = renderEvent shown toXdr event') : event = event' := by
  have hbar : ∀ bytes, '|' ∉ hex bytes := fun bytes hmem => by cases alphanum_of_mem_hex hmem
  obtain ⟨topics, data⟩ := event
  obtain ⟨topics', data'⟩ := event'
  simp only [renderEvent, xdrLine, List.cons.injEq, List.append_cancel_left_eq] at h
  -- the third line alone has both values
  obtain ⟨htopics, hdata⟩ := append_sep_inj (hbar _) (hbar _) h.2.2.1
  have hvec := hxdr he.1 he'.1 (hex_injective htopics)
  rw [ScVal.vec.injEq] at hvec
  exact Prod.ext hvec (hxdr he.2 he'.2 (hex_injective hdata))

theorem newline_not_mem_renderLastEvents (hshown : shown.OneLine)
    {events : List (PublishedEvent Contract Address Other)} {line : Text}
    (h : line ∈ renderLastEvents shown toXdr events) : '\n' ∉ line := by
  obtain ⟨event, -, hline⟩ := List.mem_flatMap.mp h
  have hitems := newline_not_mem_intercalate (show '\n' ∉ [',', ' '] by decide)
    (newline_not_mem_renderItems hshown event.2.1)
  rw [renderItems_eq] at hitems
  simp only [renderEvent, List.mem_cons, List.not_mem_nil, or_false] at hline
  rcases hline with rfl | rfl | rfl
  · simp [topicsLine, hitems]
  · simp [dataLine, newline_not_mem_renderScval hshown]
  · simp [xdrLine, xdrHex, newline_not_mem_hex]

theorem renderLastEvents_inj {wire : Set (ScVal Address Other)} (hxdr : Set.InjOn toXdr wire)
    {events events' : List (PublishedEvent Contract Address Other)}
    (hevents : ∀ event ∈ events, OnWire wire event.2)
    (hevents' : ∀ event ∈ events', OnWire wire event.2)
    (h : renderLastEvents shown toXdr events = renderLastEvents shown toXdr events') :
    events.map Prod.snd = events'.map Prod.snd := by
  rw [renderLastEvents_eq, renderLastEvents_eq] at h
  refine Canonical.flatMap_inj_of_mem three_pos (fun _ => rfl) ?_ h
  intro payload hpayload payload' hpayload'
  obtain ⟨event, hevent, rfl⟩ := List.mem_map.mp hpayload
  obtain ⟨event', hevent', rfl⟩ := List.mem_map.mp hpayload'
  exact renderEvent_inj hxdr (hevents event hevent) (hevents' event' hevent')

end Events

/-- **The event lines are faithful.** Two invocations have the same lines exactly if they
emitted the same topics and data in the same order, from whatever contracts. -/
theorem last_events_faithful {Contract Address Other : Type} (shown : Displays Address Other)
    {toXdr : ScVal Address Other → List UInt8} {wire : Set (ScVal Address Other)}
    (hxdr : Set.InjOn toXdr wire) {events events' : List (PublishedEvent Contract Address Other)}
    (hevents : ∀ event ∈ events, OnWire wire event.2)
    (hevents' : ∀ event ∈ events', OnWire wire event.2) :
    renderLastEvents shown toXdr events = renderLastEvents shown toXdr events' ↔
      events.map Prod.snd = events'.map Prod.snd := by
  constructor
  · exact renderLastEvents_inj hxdr hevents hevents'
  · intro h
    rw [renderLastEvents_eq, h, ← renderLastEvents_eq]

/-! The fixture has one topic and a number for data, under the XDR encoding of these. -/

def xdrSymbol (s : ScSymbol) : List UInt8 :=
  xdrWord 15 ++ xdrWord (UInt32.ofNat s.chars.length) ++ Utf8.encode s.chars ++
    List.replicate ((4 - s.chars.length % 4) % 4) 0

def xdrOneTopic : ScVal Unit Empty → List UInt8
  | .u32 n => xdrWord 3 ++ xdrWord n
  | .vec [.symbol s] => xdrWord 16 ++ xdrWord 1 ++ xdrWord 1 ++ xdrSymbol s
  | _ => []

def topicInit : ScVal Unit Empty := .symbol ⟨['i', 'n', 'i', 't'], by decide, by decide⟩

theorem xdrOneTopic_injOn :
    Set.InjOn xdrOneTopic {v | v = .vec [topicInit] ∨ ∃ n, v = .u32 n} := by
  have hkind : ∀ n, xdrOneTopic (.vec [topicInit]) ≠ xdrOneTopic (.u32 n) := by
    intro n h
    simp only [xdrOneTopic, topicInit, List.append_assoc] at h
    exact absurd (xdrWord_injective (List.append_inj_left h rfl)) (by decide)
  rintro v (rfl | ⟨n, rfl⟩) w (rfl | ⟨m, rfl⟩) h
  · rfl
  · exact absurd h (hkind m)
  · exact absurd h.symm (hkind n)
  · rw [xdrWord_injective (List.append_cancel_left h)]

theorem last_events_faithful_fixture :
    renderLastEvents testDisplays xdrOneTopic [(1, [topicInit], .u32 7)] ≠
      renderLastEvents testDisplays xdrOneTopic [(1, [topicInit], .u32 8)] := by
  intro hsame
  have hwire : ∀ n : UInt32, ∀ event ∈ [(1, [topicInit], (.u32 n : ScVal Unit Empty))],
      OnWire {v | v = .vec [topicInit] ∨ ∃ n, v = .u32 n} event.2 := by
    simp [OnWire]
  have hevents := (last_events_faithful testDisplays xdrOneTopic_injOn (hwire 7) (hwire 8)).mp hsame
  simp at hevents

end Synapse
