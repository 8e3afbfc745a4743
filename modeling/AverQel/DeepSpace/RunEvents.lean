/- digest: The durable event log of one request, and the fan-out task by task. -/
import AverQel.DeepSpace.Rows
import AverQel.Foundation.AsyncQueue
import AverQel.Foundation.Transition

namespace AverQel.DeepSpace

open Foundation
open Foundation.Text (orDefault stripChars)

/-- The characters at which `splitlines` splits. -/
def isLineBreak (c : Char) : Bool :=
  let n := c.toNat
  (10 ≤ n && n ≤ 13) || (28 ≤ n && n ≤ 30) || n == 133 || n == 8232 || n == 8233

/-- The lines of a text. -/
def splitLines (text : List Char) : List (List Char) :=
  text.foldr
    (fun c lines =>
      if isLineBreak c then [] :: lines
      else
        match lines with
        | [] => [[c]]
        | line :: more => (c :: line) :: more)
    [[]]

/-- `event_name_from_frame` -/
def eventNameFromFrame (frame : String) : String :=
  match (splitLines frame.toList).find? (fun line => "event:".toList.isPrefixOf line) with
  | none => "message"
  | some line => orDefault (some (String.ofList (stripChars (line.drop 6)))) "message"

/-- `is_terminal_event` -/
def isTerminalEvent (eventName : String) : Bool := eventName = "done" || eventName = "error"

/-- `PendingRunEvent` -/
structure PendingRunEvent where
  sequence : Nat
  frame : String
  runId : Option Uuid
  deriving DecidableEq, Repr

namespace PendingRunEvent

def isTerminal (event : PendingRunEvent) : Bool := isTerminalEvent (eventNameFromFrame event.frame)

def shown (event : PendingRunEvent) : Nat × String := (event.sequence, event.frame)

def backfill (runId : Uuid) (event : PendingRunEvent) : PendingRunEvent :=
  if event.runId.isNone then { event with runId := some runId } else event

theorem sequence_backfill (runId : Uuid) (event : PendingRunEvent) :
    (event.backfill runId).sequence = event.sequence := by
  unfold backfill
  split <;> rfl

theorem shown_backfill (runId : Uuid) (event : PendingRunEvent) :
    (event.backfill runId).shown = event.shown := by
  unfold backfill
  split <;> rfl

end PendingRunEvent

abbrev RunLog := Table PendingRunEvent PendingRunEvent.sequence

namespace RunLog

/-- `latest_sequence` -/
def latestSequence (log : RunLog) : Nat :=
  (log.rows.map PendingRunEvent.sequence).foldl max 0

def shown (log : RunLog) : List (Nat × String) := log.rows.map PendingRunEvent.shown

/-- The update of `append_event_batch` that links earlier rows to the run. -/
def link (pending : List PendingRunEvent) (log : RunLog) : RunLog :=
  match pending.findSome? PendingRunEvent.runId with
  | none => log
  | some runId =>
    log.mapRows (PendingRunEvent.backfill runId) (PendingRunEvent.sequence_backfill runId)

/-- The rows of `add_all`; `none` is a violated unique index. -/
def addAll : List PendingRunEvent → RunLog → Option RunLog
  | [], log => some log
  | event :: rest, log => (log.insert? event).bind (addAll rest)

/-- `append_event_batch`; `fits` is the answer of the storage quota. -/
def appendEventBatch (pending : List PendingRunEvent) (fits : Bool) (log : RunLog) :
    Option RunLog :=
  match pending with
  | [] => some log
  | _ :: _ => if fits then addAll pending (link pending log) else none

/-- The event that `append_event` stores. -/
def nextEvent (frame : String) (runId : Option Uuid) (log : RunLog) : PendingRunEvent where
  sequence := log.latestSequence + 1
  frame := frame
  runId := runId

/-- `append_event`, up to its publication -/
def appendEvent (frame : String) (runId : Option Uuid) (fits : Bool) (log : RunLog) :
    Option RunLog :=
  log.appendEventBatch [log.nextEvent frame runId] fits

variable {log log' : RunLog}

@[simp] theorem shown_link (pending : List PendingRunEvent) (log : RunLog) :
    (link pending log).shown = log.shown := by
  unfold link
  split
  · rfl
  · unfold shown Table.mapRows
    rw [List.map_map]
    exact List.map_congr_left fun event _ => PendingRunEvent.shown_backfill _ event

theorem shown_addAll {pending : List PendingRunEvent} (added : addAll pending log = some log') :
    log'.shown = log.shown ++ pending.map PendingRunEvent.shown := by
  induction pending generalizing log with
  | nil =>
    cases added
    exact (List.append_nil _).symm
  | cons event rest ih =>
    obtain ⟨between, inserted, later⟩ := Option.bind_eq_some_iff.mp added
    have first : shown between = log.shown ++ [event.shown] := by
      unfold shown
      rw [Table.rows_of_insert? inserted, List.map_append, List.map_singleton]
    rw [ih later, first, List.map_cons, List.append_assoc]
    rfl

theorem shown_appendEventBatch {pending : List PendingRunEvent} {fits : Bool}
    (appended : log.appendEventBatch pending fits = some log') :
    log'.shown = log.shown ++ pending.map PendingRunEvent.shown := by
  cases pending with
  | nil =>
    cases appended
    exact (List.append_nil _).symm
  | cons =>
    simp only [appendEventBatch] at appended
    split at appended
    · have added := shown_addAll appended
      rw [shown_link] at added
      exact added
    · cases appended

end RunLog

/-- `_persist_loop`: it waits, fills a batch, has the batch written in its thread, and has it
written. -/
inductive PersistLoop where
  | waiting
  | collecting (batch : List PendingRunEvent)
  | writing (batch : List PendingRunEvent) (stopAfterBatch : Bool)
  | written (batch : List PendingRunEvent) (stopAfterBatch : Bool)
  | returned
  | failed
  deriving DecidableEq, Repr

namespace PersistLoop

def batch : PersistLoop → List PendingRunEvent
  | collecting batch | writing batch _ | written batch _ => batch
  | waiting | returned | failed => []

def unwritten : PersistLoop → List PendingRunEvent
  | collecting batch | writing batch _ => batch
  | written .. | waiting | returned | failed => []

end PersistLoop

/-- `_publish_loop` -/
inductive PublishLoop where
  | waiting
  | publishing (event : PendingRunEvent)
  | returned
  | failed
  deriving DecidableEq, Repr

/-- The await at which the producer stands, in `submit` and in `close`. -/
inductive Producer where
  | idle
  | putting (event : PendingRunEvent)
  | joining (event : PendingRunEvent)
  | placing (event : PendingRunEvent)
  | closing
  | stopping
  | closingLive
  | stoppingLive
  | closed
  deriving DecidableEq, Repr

/-- `AsyncRunEventFanout`, with the events that were submitted, placed on the live queue and
published so far. -/
structure Fanout where
  log : RunLog
  nextSequence : Nat
  (durable live : AsyncQueue (Option PendingRunEvent))
  persist : PersistLoop
  publish : PublishLoop
  producer : Producer
  (submitted placed published : List PendingRunEvent)

/-- One move of the producer, of the persist loop or of the publish loop. -/
inductive FanoutStep where
  | submit (frame : String) (runId : Option Uuid)
  | close
  | resume
  | take
  | flush
  | commit (fits : Bool)
  | done
  | fail
  | takeLive
  | publish (delivered : Bool)
  | failLive
  deriving DecidableEq, Repr

namespace Fanout

/-- `_QUEUE_SIZE` -/
def queueSize : Nat := 512

/-- `_MAX_BATCH_SIZE` -/
def maxBatchSize : Nat := 64

/-- `__init__` and `start` -/
def start (log : RunLog) (initialSequence : Int) : Fanout where
  log := log
  nextSequence := (max 0 initialSequence).toNat + 1
  durable := .empty
  live := .empty
  persist := .waiting
  publish := .waiting
  producer := .idle
  submitted := []
  placed := []
  published := []

/-- The last statement of `submit`. -/
def offerLive (event : PendingRunEvent) (s : Fanout) : Fanout :=
  if s.live.isFull queueSize then { s with producer := .placing event }
  else
    { s with
      live := s.live.put (some event)
      placed := s.placed ++ [event]
      producer := .idle }

/-- What `submit` does with an event that it has put on the durable queue. -/
def afterPut (event : PendingRunEvent) (s : Fanout) : Fanout :=
  if s.persist = .failed then { s with producer := .idle }
  else if event.isTerminal then { s with producer := .joining event }
  else s.offerLive event

/-- `put` of the durable queue: at once, or when the producer is woken. -/
def offerDurable (event : PendingRunEvent) (s : Fanout) : Fanout :=
  if s.durable.isFull queueSize then { s with producer := .putting event }
  else { s with durable := s.durable.put (some event) }.afterPut event

/-- `submit` -/
def submit (frame : String) (runId : Option Uuid) (s : Fanout) : Fanout :=
  if s.persist = .failed then s
  else
    let event : PendingRunEvent := ⟨s.nextSequence, frame, runId⟩
    { s with
      nextSequence := s.nextSequence + 1
      submitted := s.submitted ++ [event] }.offerDurable event

/-- The producer goes on from its await, if that has come to an end. -/
def resume (s : Fanout) : Fanout :=
  match s.producer with
  | .putting event => s.offerDurable event
  | .joining event =>
    if s.durable.joined then
      if s.persist = .failed then { s with producer := .idle } else s.offerLive event
    else s
  | .placing event => s.offerLive event
  | .closing =>
    if s.durable.joined then { s with durable := s.durable.put none, producer := .stopping } else s
  | .stopping =>
    if s.persist = .returned ∨ s.persist = .failed then { s with producer := .closingLive } else s
  | .closingLive =>
    if s.live.joined then { s with live := s.live.put none, producer := .stoppingLive } else s
  | .stoppingLive =>
    if s.publish = .returned ∨ s.publish = .failed then { s with producer := .closed } else s
  | .idle | .closed => s

/-- `get` of the persist loop: the first event of a batch, or the next one. -/
def take (s : Fanout) : Fanout :=
  match s.persist, s.durable.items with
  | .waiting, some event :: _ => { s with durable := s.durable.rest, persist := .collecting [event] }
  | .waiting, none :: _ => { s with durable := s.durable.rest.taskDone 1, persist := .returned }
  | .collecting batch, some event :: _ =>
    if batch.length < maxBatchSize then
      { s with durable := s.durable.rest, persist := .collecting (batch ++ [event]) }
    else s
  | .collecting batch, none :: _ =>
    if batch.length < maxBatchSize then
      { s with durable := s.durable.rest.taskDone 1, persist := .writing batch true }
    else s
  | _, _ => s

def flush (s : Fanout) : Fanout :=
  match s.persist with
  | .collecting batch => { s with persist := .writing batch false }
  | _ => s

/-- The commit of `_persist_batch`, in its thread. -/
def commit (fits : Bool) (s : Fanout) : Fanout :=
  match s.persist with
  | .writing batch stopAfterBatch =>
    match s.log.appendEventBatch batch fits with
    | some log => { s with log := log, persist := .written batch stopAfterBatch }
    | none => s
  | _ => s

/-- The loop goes on after its thread has returned. -/
def done (s : Fanout) : Fanout :=
  match s.persist with
  | .written batch stopAfterBatch =>
    { s with
      durable := s.durable.taskDone batch.length
      persist := if stopAfterBatch then .returned else .waiting }
  | _ => s

/-- The handler of `_persist_loop`, after an error of the thread before or after its commit. -/
def fail (s : Fanout) : Fanout :=
  match s.persist with
  | .writing batch _ | .written batch _ =>
    { s with durable := (s.durable.taskDone batch.length).drain, persist := .failed }
  | _ => s

/-- `get` of the publish loop. -/
def takeLive (s : Fanout) : Fanout :=
  match s.publish, s.live.items with
  | .waiting, some event :: _ => { s with live := s.live.rest, publish := .publishing event }
  | .waiting, none :: _ => { s with live := s.live.rest.taskDone 1, publish := .returned }
  | _, _ => s

/-- The end of one publication; `delivered` says whether Redis took it. -/
def publishEvent (delivered : Bool) (s : Fanout) : Fanout :=
  match s.publish with
  | .publishing event =>
    { s with
      live := s.live.taskDone 1
      publish := .waiting
      published := if delivered then s.published ++ [event] else s.published }
  | _ => s

/-- The handler of `_publish_loop`, when it cannot open its client. -/
def failLive (s : Fanout) : Fanout :=
  match s.publish with
  | .waiting => { s with live := s.live.drain, publish := .failed }
  | _ => s

def step (s : Fanout) : FanoutStep → Fanout
  | .submit frame runId => if s.producer = .idle then s.submit frame runId else s
  | .close => if s.producer = .idle then { s with producer := .closing } else s
  | .resume => s.resume
  | .take => s.take
  | .flush => s.flush
  | .commit fits => s.commit fits
  | .done => s.done
  | .fail => s.fail
  | .takeLive => s.takeLive
  | .publish delivered => s.publishEvent delivered
  | .failLive => s.failLive

end Fanout

end AverQel.DeepSpace
