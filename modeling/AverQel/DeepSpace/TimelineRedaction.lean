/- digest: When coalesced thinking is redacted as a whole, and what the ranges of a timeline cover. -/
import AverQel.DeepSpace.Timeline

namespace AverQel.DeepSpace

open Foundation
open Providers (Json Fields JsonText truthy)

variable (env : TimelineEnvironment)

def TimelineItem.fragment (item : TimelineItem) : List Char := textOrEmpty env.text item.payload

/-- The ranges follow each other and cover the sequences of the events that are shown and of no
others; coalesced thinking is redacted as one text. -/
structure WholeTimeline (events : List DeepSpaceRunEvent) : Prop where
  ranges : ∀ entry ∈ timelineEvents env events, entry.sequence ≤ entry.sequenceEnd
  disjoint : (timelineEvents env events).Pairwise fun a b => a.sequenceEnd < b.sequence
  ends : ∀ entry ∈ timelineEvents env events, ∃ first last : DeepSpaceRunEvent,
    (first ∈ events ∧ (readEvent env first).isSome ∧ entry.sequence = first.sequence) ∧
      last ∈ events ∧ (readEvent env last).isSome ∧ entry.sequenceEnd = last.sequence
  covered : ∀ event ∈ events, (∃ entry ∈ timelineEvents env events,
    entry.sequence ≤ event.sequence ∧ event.sequence ≤ entry.sequenceEnd) ↔
      (readEvent env event).isSome
  redacted : List.Forall₂
    (fun group entry => (∀ item ∈ group, isThinking item.name) →
      textOrEmpty env.text entry.data =
        redactReasoningText env.tables (group.map (TimelineItem.fragment env)).flatten)
    (timelineGroups env events) (timelineEvents env events)

/-- The sequences increase, no event that is not shown stands between coalesced ones, thinking has
texts, and no pattern matches over the end of a fragment. -/
structure CleanlyCut (events : List DeepSpaceRunEvent) : Prop where
  increasing : events.Pairwise fun a b => a.sequence < b.sequence
  unbroken : ∀ group ∈ timelineGroups env events, ∀ first ∈ group, ∀ last ∈ group,
    ∀ event ∈ events, (readEvent env event).isNone →
      ¬(first.sequence < event.sequence ∧ event.sequence < last.sequence)
  texts : ∀ group ∈ timelineGroups env events, ∀ item ∈ group, isThinking item.name →
    ∀ value, item.payload.lookup "text" = some value → truthy env.text value →
      ∃ chars, value = .string chars
  apart : ∀ group ∈ timelineGroups env events, (∀ item ∈ group, isThinking item.name) →
    ApartInTurn (redactionPatterns env.tables) (group.map (TimelineItem.fragment env))

section Sequences

theorem sequence_of_readEvent {event : DeepSpaceRunEvent} {item : TimelineItem}
    (read : readEvent env event = some item) : item.sequence = event.sequence := by
  simp only [readEvent] at read
  split at read
  · split at read
    · cases read
      rfl
    · cases read
  · cases read

theorem sequence_foldl (more : List TimelineItem) (entry : TimelineEntry) :
    (more.foldl (TimelineEntry.extended env) entry).sequence = entry.sequence := by
  induction more generalizing entry with
  | nil => rfl
  | cons item more ih => exact ih (entry.extended env item)

theorem sequenceEnd_foldl {first : TimelineItem} {entry : TimelineEntry}
    (ended : entry.sequenceEnd = first.sequence) (more : List TimelineItem) :
    (more.foldl (TimelineEntry.extended env) entry).sequenceEnd =
      ((first :: more).getLast (List.cons_ne_nil first more)).sequence := by
  induction more generalizing first entry with
  | nil => exact ended
  | cons second more ih =>
    rw [List.getLast_cons (List.cons_ne_nil second more)]
    have ended : (entry.extended env second).sequenceEnd = second.sequence := rfl
    exact ih ended

variable {group : List TimelineItem}

theorem range_of_coalesced {entry : TimelineEntry} (coalesced : Coalesced env group entry) :
    ∃ full : group ≠ [],
      entry.sequence = (group.head full).sequence ∧
        entry.sequenceEnd = (group.getLast full).sequence := by
  obtain ⟨first, more, rfl, rfl⟩ := coalesced
  refine ⟨List.cons_ne_nil first more, sequence_foldl env more _, ?_⟩
  exact sequenceEnd_foldl env rfl more

theorem between_of_pairwise (increasing : group.Pairwise fun a b => a.sequence < b.sequence)
    (full : group ≠ []) :
    ∀ item ∈ group, (group.head full).sequence ≤ item.sequence ∧
      item.sequence ≤ (group.getLast full).sequence := by
  induction group with
  | nil => exact absurd rfl full
  | cons first more ih =>
    obtain ⟨head, tail⟩ := List.pairwise_cons.mp increasing
    cases more with
    | nil => simp
    | cons second more =>
      have rest := ih tail (List.cons_ne_nil second more)
      have later := head _ (List.getLast_mem (List.cons_ne_nil second more))
      rw [List.getLast_cons (List.cons_ne_nil second more), List.head_cons]
      intro item member
      rcases List.mem_cons.mp member with rfl | here
      · exact ⟨Nat.le_refl _, later.le⟩
      · exact ⟨(head item here).le, (rest item here).2⟩

theorem pairwise_of_forall₂ {α β : Type} {r : α → β → Prop} {p : α → α → Prop} {q : β → β → Prop}
    (carry : ∀ a b a' b', r a b → r a' b' → p a a' → q b b') {rows : List α} {others : List β}
    (related : List.Forall₂ r rows others) (ordered : rows.Pairwise p) : others.Pairwise q := by
  induction related with
  | nil => exact .nil
  | @cons a b rows others head rest ih =>
    obtain ⟨first, later⟩ := List.pairwise_cons.mp ordered
    refine List.pairwise_cons.mpr ⟨?_, ih later⟩
    intro other member
    obtain ⟨k, inside, rfl⟩ := List.mem_iff_getElem.mp member
    have size := rest.length_eq
    have bound : k < rows.length := by omega
    have pair := (List.forall₂_iff_get.mp rest).2 k bound inside
    exact carry _ _ _ _ head pair (first _ (List.getElem_mem bound))

theorem flatten_timelineGroups (events : List DeepSpaceRunEvent) :
    (timelineGroups env events).flatten = events.filterMap (readEvent env) :=
  List.flatten_splitBy coalesces _

variable {env} {events : List DeepSpaceRunEvent}

variable (env) in
theorem pairwise_items (increasing : events.Pairwise fun a b => a.sequence < b.sequence) :
    (timelineGroups env events).flatten.Pairwise fun a b => a.sequence < b.sequence := by
  rw [flatten_timelineGroups]
  refine List.Pairwise.filterMap (readEvent env) ?_ increasing
  intro a b earlier item first item' second
  have one := sequence_of_readEvent env first
  have other := sequence_of_readEvent env second
  omega

theorem event_of_group (grouped : group ∈ timelineGroups env events) {item : TimelineItem}
    (member : item ∈ group) :
    ∃ event ∈ events, readEvent env event = some item := by
  have shown : item ∈ (timelineGroups env events).flatten :=
    List.mem_flatten.mpr ⟨group, grouped, member⟩
  rw [flatten_timelineGroups] at shown
  exact List.mem_filterMap.mp shown

theorem entry_of_group (grouped : group ∈ timelineGroups env events) :
    ∃ entry ∈ timelineEvents env events, Coalesced env group entry := by
  obtain ⟨k, inside, rfl⟩ := List.mem_iff_getElem.mp grouped
  have related := List.forall₂_iff_get.mp (coalesced_timelineEvents env events)
  have bound : k < (timelineEvents env events).length := related.1 ▸ inside
  exact ⟨_, List.getElem_mem bound, related.2 k inside bound⟩

theorem group_of_entry {entry : TimelineEntry} (entered : entry ∈ timelineEvents env events) :
    ∃ group ∈ timelineGroups env events, Coalesced env group entry := by
  obtain ⟨k, inside, rfl⟩ := List.mem_iff_getElem.mp entered
  have related := List.forall₂_iff_get.mp (coalesced_timelineEvents env events)
  have bound : k < (timelineGroups env events).length := related.1 ▸ inside
  exact ⟨_, List.getElem_mem bound, related.2 k bound inside⟩

end Sequences

section Texts

variable {env}

theorem textOrEmpty_shown {item : TimelineItem} (thinking : isThinking item.name)
    (texts : ∀ value, item.payload.lookup "text" = some value → truthy env.text value →
      ∃ chars, value = .string chars) :
    textOrEmpty env.text (item.shown env) =
      redactReasoningText env.tables (item.fragment env) := by
  have apart : ("text" : String) ≠ "timestamp" := by decide
  have kept : ∀ payload, textOrEmpty env.text
      (setDefault payload "timestamp" (.string (env.isoformat item.createdAt))) =
        textOrEmpty env.text payload := by
    intro payload
    rw [textOrEmpty, lookup_setDefault_of_ne payload _ apart]
    rfl
  rw [TimelineItem.shown, kept, TimelineItem.fragment]
  cases found : item.payload.lookup "text" with
  | none => simp [textOrEmpty, found]
  | some value =>
    by_cases full : truthy env.text value
    · obtain ⟨chars, rfl⟩ := texts value found full
      have read : textOrEmpty env.text item.payload = chars := by
        simp only [textOrEmpty, found, full, if_true]
      simp only [thinking, if_true, textOrEmpty_setField, read]
    · have nothing : textOrEmpty env.text item.payload = [] := by
        simp only [textOrEmpty, found, full, if_false, Bool.false_eq_true]
      rw [nothing, redactReasoningText_nil]
      cases value with
      | string chars =>
        have empty : chars = [] := by simpa [truthy] using full
        simp [empty, thinking]
      | _ => exact nothing

theorem text_foldl (more : List TimelineItem) (entry : TimelineEntry) :
    textOrEmpty env.text (more.foldl (TimelineEntry.extended env) entry).data =
      textOrEmpty env.text entry.data ++
        (more.map fun item => textOrEmpty env.text (item.shown env)).flatten := by
  induction more generalizing entry with
  | nil => simp
  | cons item more ih =>
    rw [List.foldl_cons, ih, List.map_cons, List.flatten_cons, ← List.append_assoc]
    simp [TimelineEntry.extended]

theorem text_of_coalesced {group : List TimelineItem} {entry : TimelineEntry}
    (coalesced : Coalesced env group entry) (thinking : ∀ item ∈ group, isThinking item.name)
    (texts : ∀ item ∈ group, isThinking item.name → ∀ value,
      item.payload.lookup "text" = some value → truthy env.text value →
        ∃ chars, value = .string chars) :
    textOrEmpty env.text entry.data =
      ((group.map (TimelineItem.fragment env)).map (redactReasoningText env.tables)).flatten := by
  have each : (group.map fun item => textOrEmpty env.text (item.shown env)) =
      (group.map (TimelineItem.fragment env)).map (redactReasoningText env.tables) := by
    rw [List.map_map]
    apply List.map_congr_left
    intro item member
    rw [Function.comp_apply]
    exact textOrEmpty_shown (thinking item member) (texts item member (thinking item member))
  obtain ⟨first, more, rfl, rfl⟩ := coalesced
  refine Eq.trans ?_ (congrArg List.flatten each)
  rw [text_foldl, List.map_cons, List.flatten_cons, TimelineItem.entry]

end Texts

variable {env} {events : List DeepSpaceRunEvent}

variable (env) in
theorem disjoint_of_increasing (increasing : events.Pairwise fun a b => a.sequence < b.sequence) :
    (∀ entry ∈ timelineEvents env events, entry.sequence ≤ entry.sequenceEnd) ∧
      (timelineEvents env events).Pairwise fun a b => a.sequenceEnd < b.sequence := by
  obtain ⟨within, across⟩ := List.pairwise_flatten.mp (pairwise_items env increasing)
  constructor
  · intro entry member
    obtain ⟨group, grouped, coalesced⟩ := group_of_entry member
    obtain ⟨full, start, stop⟩ := range_of_coalesced env coalesced
    have bounds := between_of_pairwise (within group grouped) full _ (List.head_mem full)
    omega
  · refine pairwise_of_forall₂ ?_ (coalesced_timelineEvents env events) across
    intro first entry second other coalesced coalesced' before
    obtain ⟨full, _, stop⟩ := range_of_coalesced env coalesced
    obtain ⟨full', start, _⟩ := range_of_coalesced env coalesced'
    have apart := before _ (List.getLast_mem full) _ (List.head_mem full')
    omega

theorem ends_of_entry {entry : TimelineEntry} (member : entry ∈ timelineEvents env events) :
    ∃ first last : DeepSpaceRunEvent,
      (first ∈ events ∧ (readEvent env first).isSome ∧ entry.sequence = first.sequence) ∧
        last ∈ events ∧ (readEvent env last).isSome ∧ entry.sequenceEnd = last.sequence := by
  obtain ⟨group, grouped, coalesced⟩ := group_of_entry member
  obtain ⟨full, start, stop⟩ := range_of_coalesced env coalesced
  obtain ⟨first, here, read⟩ := event_of_group grouped (List.head_mem full)
  obtain ⟨last, there, read'⟩ := event_of_group grouped (List.getLast_mem full)
  refine ⟨first, last, ⟨here, by rw [read]; rfl, ?_⟩, there, by rw [read']; rfl, ?_⟩
  · rw [start, sequence_of_readEvent env read]
  · rw [stop, sequence_of_readEvent env read']

theorem event_eq_of_sequence (increasing : events.Pairwise fun a b => a.sequence < b.sequence)
    {event other : DeepSpaceRunEvent} (here : event ∈ events) (there : other ∈ events)
    (same : event.sequence = other.sequence) : event = other := by
  induction increasing with
  | nil => cases here
  | @cons first later head _ ih =>
    rcases List.mem_cons.mp here with first_is | after
    · rcases List.mem_cons.mp there with other_is | later_is
      · rw [first_is, other_is]
      · have earlier := head other later_is
        rw [← first_is] at earlier
        omega
    · rcases List.mem_cons.mp there with other_is | later_is
      · have earlier := head event after
        rw [← other_is] at earlier
        omega
      · exact ih after later_is

theorem covered_of_cleanlyCut (clean : CleanlyCut env events) {event : DeepSpaceRunEvent}
    (here : event ∈ events) : (∃ entry ∈ timelineEvents env events,
      entry.sequence ≤ event.sequence ∧ event.sequence ≤ entry.sequenceEnd) ↔
        (readEvent env event).isSome := by
  obtain ⟨within, _⟩ := List.pairwise_flatten.mp (pairwise_items env clean.increasing)
  constructor
  · rintro ⟨entry, member, start, stop⟩
    by_contra hidden
    have absent : readEvent env event = none := by simpa using hidden
    -- an end of the range is the sequence of a shown event, so the event lies strictly inside
    obtain ⟨group, grouped, coalesced⟩ := group_of_entry member
    obtain ⟨full, first, last⟩ := range_of_coalesced env coalesced
    have strict : ∀ item ∈ group, item.sequence ≠ event.sequence := by
      intro item member same
      obtain ⟨shown, there, read⟩ := event_of_group grouped member
      rw [sequence_of_readEvent env read] at same
      rw [event_eq_of_sequence clean.increasing here there same.symm, read] at absent
      cases absent
    have before := strict _ (List.head_mem full)
    have after := strict _ (List.getLast_mem full)
    exact clean.unbroken group grouped _ (List.head_mem full) _ (List.getLast_mem full) event here
      (by rw [absent]; rfl) ⟨by omega, by omega⟩
  · intro shown
    obtain ⟨item, read⟩ := Option.isSome_iff_exists.mp shown
    have listed : item ∈ (timelineGroups env events).flatten := by
      rw [flatten_timelineGroups]
      exact List.mem_filterMap.mpr ⟨event, here, read⟩
    obtain ⟨group, grouped, member⟩ := List.mem_flatten.mp listed
    obtain ⟨entry, entered, coalesced⟩ := entry_of_group grouped
    obtain ⟨full, first, last⟩ := range_of_coalesced env coalesced
    have bounds := between_of_pairwise (within group grouped) full item member
    have sequence := sequence_of_readEvent env read
    exact ⟨entry, entered, by omega, by omega⟩

/-- ASCII text in a frame `{"text":"..."}`. -/
def plainEnvironment : TimelineEnvironment where
  loads chars :=
    if "\x7b\"text\":\"".toList.isPrefixOf chars then
      some (.object [("text", .string ((chars.drop 9).take (chars.length - 11)))])
    else none
  isoformat _ := "2026-08-09T10:00:00+00:00".toList
  text := ⟨fun _ => [], fun literal => literal = "0"⟩
  tables := ⟨fun c => c.isAlphanum || c = '_', Char.isDigit⟩

def thinkingFrame (text : String) : String :=
  "event: thinking\ndata: \x7b\"text\":\"" ++ text ++ "\"\x7d\n\n"

def plannedEvents : List DeepSpaceRunEvent :=
  [⟨1, "thinking", thinkingFrame "Plan ", 0⟩, ⟨2, "thinking", thinkingFrame "first.", 1⟩,
    ⟨3, "delta", "event: delta\ndata: \x7b\"text\":\"Done.\"\x7d\n\n", 2⟩]

theorem plannedGroups : timelineGroups plainEnvironment plannedEvents =
    [[⟨"thinking", [("text", .string "Plan ".toList)], 1, 0⟩,
      ⟨"thinking", [("text", .string "first.".toList)], 2, 1⟩]] := rfl

theorem planned_cleanlyCut : CleanlyCut plainEnvironment plannedEvents where
  increasing := by decide
  unbroken := by
    rw [plannedGroups]
    decide +kernel
  texts := by
    rw [plannedGroups]
    intro group grouped item member _ value found _
    rw [List.mem_singleton] at grouped
    subst grouped
    simp only [List.mem_cons, List.not_mem_nil, or_false] at member
    rcases member with rfl | rfl
    · exact ⟨_, (Option.some.inj found).symm⟩
    · exact ⟨_, (Option.some.inj found).symm⟩
  apart := by
    rw [plannedGroups]
    intro group grouped _
    rw [List.mem_singleton] at grouped
    subst grouped
    have fragments : ApartInTurn (redactionPatterns plainEnvironment.tables)
        ["Plan ".toList, "first.".toList] := by
      decide +kernel
    exact fragments

def splitKeyEvents : List DeepSpaceRunEvent :=
  [⟨1, "thinking", thinkingFrame "sk-this-is", 0⟩, ⟨2, "thinking", thinkingFrame "-a-test-key", 1⟩]

theorem splitKeyGroups : timelineGroups plainEnvironment splitKeyEvents =
    [[⟨"thinking", [("text", .string "sk-this-is".toList)], 1, 0⟩,
      ⟨"thinking", [("text", .string "-a-test-key".toList)], 2, 1⟩]] := rfl

theorem splitKeyTexts : (timelineEvents plainEnvironment splitKeyEvents).map
    (fun entry => textOrEmpty plainEnvironment.text entry.data) =
      ["sk-this-is-a-test-key".toList] := by
  decide +kernel

end AverQel.DeepSpace
