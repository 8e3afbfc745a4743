/- digest: The replay of durable events with adjacent thinking frames coalesced. -/
import AverQel.DeepSpace.ReasoningPrivacy
import AverQel.DeepSpace.RunEvents
import AverQel.Providers.ResponsesParsing
import AverQel.System.TextAdmission
import Mathlib.Data.List.SplitBy

namespace AverQel.DeepSpace

open Foundation
open Foundation.Text (orDefault stripChars)
open Providers (Json Fields JsonText truthy)
open AverQel.System (lookup_setField setField)

/-- `json.loads`, `isoformat`, `str` of a value, and the characters of the patterns. -/
structure TimelineEnvironment where
  loads : List Char → Option Json
  isoformat : Time → List Char
  text : JsonText
  tables : CharTables

/-- `DeepSpaceRunEvent` -/
structure DeepSpaceRunEvent where
  sequence : Nat
  (eventName frame : String)
  createdAt : Time
  deriving DecidableEq

/-- An event that the timeline shows, with its payload as it is stored. -/
structure TimelineItem where
  name : String
  payload : Fields
  sequence : Nat
  createdAt : Time

structure TimelineEntry where
  event : String
  data : Fields
  (sequence sequenceEnd : Nat)

/-- `fields.setdefault(key, value)` -/
def setDefault (fields : Fields) (key : String) (value : Json) : Fields :=
  if (fields.lookup key).isSome then fields else fields ++ [(key, value)]

/-- `f"{fields.get('text') or ''}"` -/
def textOrEmpty (text : JsonText) (fields : Fields) : List Char :=
  match fields.lookup "text" with
  | none => []
  | some value =>
    if truthy text value then
      match value with
      | .string chars => chars
      | other => text.str other
    else []

theorem lookup_setDefault_of_ne (fields : Fields) {key other : String} (value : Json)
    (different : other ≠ key) : (setDefault fields key value).lookup other = fields.lookup other := by
  rw [setDefault]
  split
  · rfl
  · have apart : (other == key) = false := beq_eq_false_iff_ne.mpr different
    rw [List.lookup_append, List.lookup_cons, apart]
    exact Option.or_none

@[simp] theorem textOrEmpty_setField (text : JsonText) (fields : Fields) (chars : List Char) :
    textOrEmpty text (setField "text" (.string chars) fields) = chars := by
  rw [textOrEmpty, lookup_setField, if_pos rfl]
  by_cases empty : chars = []
  · simp [truthy, empty]
  · simp [truthy, empty]

/-- `_TIMELINE_EVENT_NAMES` -/
def timelineEventNames : List String :=
  ["agent_plan", "thinking", "model_message", "lane_thinking", "lane_agent_thinking",
    "agent_thinking", "tool_start", "tool_result", "tool_error", "research_status",
    "ask_user_question", "permission_request", "permission_granted", "permission_denied",
    "agent_testing", "agent_verifying", "agent_self_correct"]

/-- `_THINKING_EVENT_NAMES` -/
def isThinking (name : String) : Bool :=
  name ∈ ["thinking", "lane_thinking", "lane_agent_thinking", "agent_thinking"]

/-- The data of the first `data:` line of a frame. -/
def dataLine (frame : String) : List Char :=
  match (splitLines frame.toList).find? (fun line => "data:".toList.isPrefixOf line) with
  | some line => stripChars (line.drop 5)
  | none => "{}".toList

variable (env : TimelineEnvironment)

/-- The event of a row, unless it is not for the timeline or its data is no object. -/
def readEvent (event : DeepSpaceRunEvent) : Option TimelineItem :=
  let name := orDefault (some event.eventName) (eventNameFromFrame event.frame)
  if name ∈ timelineEventNames then
    match env.loads (dataLine event.frame) with
    | some (.object payload) => some ⟨name, payload, event.sequence, event.createdAt⟩
    | _ => none
  else none

/-- The payload of an event as it is shown. -/
def TimelineItem.shown (item : TimelineItem) : Fields :=
  let payload :=
    match item.payload.lookup "text" with
    | some (.string chars) =>
      if isThinking item.name then
        setField "text" (.string (redactReasoningText env.tables chars)) item.payload
      else item.payload
    | _ => item.payload
  setDefault payload "timestamp" (.string (env.isoformat item.createdAt))

def TimelineItem.entry (item : TimelineItem) : TimelineEntry :=
  ⟨item.name, item.shown env, item.sequence, item.sequence⟩

def TimelineEntry.extended (previous : TimelineEntry) (item : TimelineItem) : TimelineEntry :=
  { previous with
    data := setField "text" (.string
      (textOrEmpty env.text previous.data ++ textOrEmpty env.text (item.shown env))) previous.data
    sequenceEnd := item.sequence }

def place (result : List TimelineEntry) (item : TimelineItem) : List TimelineEntry :=
  match result.getLast? with
  | some previous =>
    if isThinking item.name ∧ isThinking previous.event then
      result.dropLast ++ [previous.extended env item]
    else result ++ [item.entry env]
  | none => result ++ [item.entry env]

/-- `timeline_events` -/
def timelineEvents (events : List DeepSpaceRunEvent) : List TimelineEntry :=
  events.foldl
    (fun result event =>
      match readEvent env event with
      | some item => place env result item
      | none => result)
    []

def coalesces (first second : TimelineItem) : Bool :=
  isThinking first.name && isThinking second.name

def timelineGroups (events : List DeepSpaceRunEvent) : List (List TimelineItem) :=
  (events.filterMap (readEvent env)).splitBy coalesces

def Coalesced (group : List TimelineItem) (entry : TimelineEntry) : Prop :=
  ∃ first more, group = first :: more ∧
    entry = more.foldl (TimelineEntry.extended env) (first.entry env)

theorem event_foldl (more : List TimelineItem) (entry : TimelineEntry) :
    (more.foldl (TimelineEntry.extended env) entry).event = entry.event := by
  induction more generalizing entry with
  | nil => rfl
  | cons item more ih => exact ih (entry.extended env item)

theorem place_apart {result : List TimelineEntry} {item : TimelineItem}
    (apart : ∀ previous ∈ result.getLast?, ¬(isThinking item.name ∧ isThinking previous.event)) :
    place env result item = result ++ [item.entry env] := by
  rw [place]
  split
  · rename_i previous last
    exact if_neg (apart previous last)
  · rfl

theorem place_extended (result : List TimelineEntry) {previous : TimelineEntry}
    {item : TimelineItem} (thinking : isThinking item.name ∧ isThinking previous.event) :
    place env (result ++ [previous]) item = result ++ [previous.extended env item] := by
  simp only [place, List.getLast?_append, List.getLast?_singleton, Option.some_or,
    List.dropLast_concat]
  exact if_pos thinking

theorem foldl_thinking (result : List TimelineEntry) {previous : TimelineEntry}
    (begun : isThinking previous.event) {more : List TimelineItem}
    (thinking : ∀ item ∈ more, isThinking item.name) :
    more.foldl (place env) (result ++ [previous]) =
      result ++ [more.foldl (TimelineEntry.extended env) previous] := by
  induction more generalizing previous with
  | nil => rfl
  | cons item more ih =>
    obtain ⟨head, tail⟩ := List.forall_mem_cons.mp thinking
    rw [List.foldl_cons, place_extended env result ⟨head, begun⟩]
    exact ih begun tail

theorem thinking_of_isChain {first second : TimelineItem} {more : List TimelineItem}
    (chain : (first :: second :: more).IsChain fun a b => coalesces a b = true) :
    isThinking first.name ∧ ∀ item ∈ second :: more, isThinking item.name := by
  induction more generalizing first second with
  | nil =>
    obtain ⟨head, _⟩ := List.isChain_cons_cons.mp chain
    obtain ⟨one, other⟩ := Bool.and_eq_true _ _ ▸ head
    exact ⟨one, by simpa using other⟩
  | cons third more ih =>
    obtain ⟨head, rest⟩ := List.isChain_cons_cons.mp chain
    obtain ⟨one, other⟩ := Bool.and_eq_true _ _ ▸ head
    obtain ⟨_, tail⟩ := ih rest
    exact ⟨one, List.forall_mem_cons.mpr ⟨other, tail⟩⟩

theorem foldl_group {result : List TimelineEntry} {first : TimelineItem} {more : List TimelineItem}
    (chain : (first :: more).IsChain fun a b => coalesces a b = true)
    (apart : ∀ previous ∈ result.getLast?, ¬(isThinking first.name ∧ isThinking previous.event)) :
    (first :: more).foldl (place env) result =
        result ++ [more.foldl (TimelineEntry.extended env) (first.entry env)] ∧
      isThinking ((first :: more).getLast (List.cons_ne_nil first more)).name =
        isThinking (more.foldl (TimelineEntry.extended env) (first.entry env)).event := by
  rw [List.foldl_cons, place_apart env apart, event_foldl]
  cases more with
  | nil => exact ⟨rfl, rfl⟩
  | cons second more =>
    obtain ⟨begun, thinking⟩ := thinking_of_isChain chain
    refine ⟨foldl_thinking env result begun thinking, ?_⟩
    have last := List.getLast_mem (List.cons_ne_nil second more)
    rw [List.getLast_cons (List.cons_ne_nil second more), thinking _ last]
    exact begun.symm

theorem foldl_groups {groups : List (List TimelineItem)} (full : [] ∉ groups)
    (chains : ∀ group ∈ groups, group.IsChain fun a b => coalesces a b = true)
    (cuts : groups.IsChain fun a b =>
      ∃ ha hb, coalesces (a.getLast ha) (b.head hb) = false)
    (result : List TimelineEntry)
    (apart : ∀ previous ∈ result.getLast?, ∀ first more later, groups = (first :: more) :: later →
      ¬(isThinking first.name ∧ isThinking previous.event)) :
    ∃ entries, groups.flatten.foldl (place env) result = result ++ entries ∧
      List.Forall₂ (Coalesced env) groups entries := by
  induction groups generalizing result with
  | nil => exact ⟨[], (List.append_nil result).symm, .nil⟩
  | cons group groups ih =>
    cases group with
    | nil => exact absurd List.mem_cons_self full
    | cons first more =>
      obtain ⟨chain, others⟩ := List.forall_mem_cons.mp chains
      obtain ⟨placed, last⟩ := foldl_group env chain fun previous member =>
        apart previous member first more groups rfl
      have next : ∀ previous ∈ (result ++ [more.foldl (TimelineEntry.extended env)
          (first.entry env)]).getLast?, ∀ head tail later, groups = (head :: tail) :: later →
          ¬(isThinking head.name ∧ isThinking previous.event) := by
        rintro previous member head tail later rfl ⟨one, other⟩
        rw [List.getLast?_concat] at member
        cases member
        obtain ⟨⟨_, _, cut⟩, _⟩ := List.isChain_cons_cons.mp cuts
        simp only [coalesces, List.head_cons, last, one, other, Bool.and_self] at cut
        cases cut
      obtain ⟨entries, rest, each⟩ := ih (fun member => full (List.mem_cons_of_mem _ member)) others
        cuts.tail _ next
      refine ⟨_ :: entries, ?_, .cons ⟨first, more, rfl, rfl⟩ each⟩
      rw [List.flatten_cons, List.foldl_append, placed, rest, List.append_assoc]
      rfl

theorem coalesced_timelineEvents (events : List DeepSpaceRunEvent) :
    List.Forall₂ (Coalesced env) (timelineGroups env events) (timelineEvents env events) := by
  have folded : timelineEvents env events =
      (events.filterMap (readEvent env)).foldl (place env) [] := by
    rw [timelineEvents, List.foldl_filterMap]
    congr 1
    funext result event
    cases readEvent env event <;> rfl
  obtain ⟨entries, same, each⟩ := foldl_groups env
    (List.nil_notMem_splitBy coalesces (events.filterMap (readEvent env)))
    (fun group member => List.isChain_of_mem_splitBy member)
    (List.isChain_getLast_head_splitBy coalesces _) [] (by simp)
  rw [List.flatten_splitBy, List.nil_append] at same
  rw [folded, same]
  exact each

end AverQel.DeepSpace
