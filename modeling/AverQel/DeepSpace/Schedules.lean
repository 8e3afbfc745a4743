/- digest: The poller of the schedules: it claims due schedules, hands tasks to the broker, commits. -/
import Mathlib.Data.List.Sort
import AverQel.Base
import AverQel.Foundation.Interleaving
import AverQel.Foundation.Table

namespace AverQel.DeepSpace

open Foundation

/-- `DeepSpaceSchedule`: "Tenant-owned recurring DeepSpace prompt with durable run history links."
Both schemas of the endpoints ask for at least five minutes. -/
structure Schedule where
  (id tenantId userId conversationId : Uuid)
  prompt : String
  intervalMinutes : Nat
  status : String
  nextRunAt : Time
  lastRunAt : Option Time
  lastRunId : Option String
  paced : 5 ≤ intervalMinutes

/-- `DeepSpaceScheduleRun`: "Durable execution record for one scheduled prompt dispatch." -/
structure ScheduleRun where
  (scheduleId tenantId userId : Uuid)
  (requestId status : String)
  error : Option String
  (startedAt completedAt : Option Time)

/-- The arguments of a call of `run_deepspace_task`. -/
structure RunTask where
  (tenantId userId : Uuid)
  (roles permissions : List String)
  conversationId : Uuid
  (prompt clientRequestId : String)
  thinkingEnabled : Bool

/-- What `update_schedule_run` writes into the run of a task. -/
def ScheduleRun.reported (run : ScheduleRun) (now : Time) (task : RunTask) (status : String)
    (error : Option String) : ScheduleRun :=
  if run.tenantId = task.tenantId ∧ run.userId = task.userId then
    { run with
      status := status
      error := (error.filter (· ≠ "")).map fun text => String.ofList (text.toList.take 2000)
      startedAt := if status = "running" then some now else run.startedAt
      completedAt :=
        if status ∈ ["completed", "failed", "cancelled"] then some now else run.completedAt }
  else run

theorem ScheduleRun.requestId_reported (run : ScheduleRun) (now : Time) (task : RunTask)
    (status : String) (error : Option String) :
    (run.reported now task status error).requestId = run.requestId := by
  unfold reported
  split <;> rfl

/-- A task for a schedule as it was claimed; its `nextRunAt` is the occurrence that the task is
for. -/
structure Firing where
  schedule : Schedule
  requestId : String

namespace Firing

variable (firing : Firing)

/-- The arguments of `run_deepspace_task.delay`. -/
def task (permissions : List String) : RunTask where
  tenantId := firing.schedule.tenantId
  userId := firing.schedule.userId
  roles := ["user"]
  permissions := permissions
  conversationId := firing.schedule.conversationId
  prompt := firing.schedule.prompt
  clientRequestId := firing.requestId
  thinkingEnabled := true

/-- The row that goes with the task. -/
def run : ScheduleRun where
  scheduleId := firing.schedule.id
  tenantId := firing.schedule.tenantId
  userId := firing.schedule.userId
  requestId := firing.requestId
  status := "queued"
  error := none
  startedAt := none
  completedAt := none

def occurrence : Uuid × Time := (firing.schedule.id, firing.schedule.nextRunAt)

end Firing

structure ScheduleState where
  schedules : Table Schedule Schedule.id
  runs : Table ScheduleRun ScheduleRun.requestId
  /-- The rows that open transactions have locked. -/
  locked : List Uuid
  /-- The tasks that the broker has accepted. -/
  submitted : List Firing
  /-- Those of the invocations that have ended. -/
  ended : List Firing

/-- What a step is given: the clock, the order in which the table is scanned, `uuid4()`, and
whether the broker accepts and the commit succeeds. -/
structure DispatchTurn where
  now : Time
  rank : Uuid → Nat
  uuid : Uuid
  (accepted commits : Bool)

/-- `request_id` -/
def scheduleRequestId (showUuid : Uuid → String) (scheduleId uuid : Uuid) : String :=
  "schedule-" ++ showUuid scheduleId ++ "-" ++ showUuid uuid

namespace ScheduleState

variable (state : ScheduleState)

/-- The SELECT of `dispatch_schedules`, `FOR UPDATE SKIP LOCKED LIMIT 100`. -/
def due (now : Time) (rank : Uuid → Nat) : List Schedule :=
  ((state.schedules.rows.filter fun schedule => schedule.status = "active" ∧
      schedule.nextRunAt ≤ now ∧ schedule.id ∉ state.locked).insertionSort
    fun a b => rank a.id ≤ rank b.id).take 100

def claim (rows : List Schedule) : ScheduleState :=
  { state with locked := rows.map Schedule.id ++ state.locked }

def submit (firing : Firing) : ScheduleState :=
  { state with submitted := state.submitted ++ [firing] }

/-- What the flush writes into a row. -/
def fired (now : Time) (firings : List Firing) (row : Schedule) : Schedule :=
  match firings.find? (fun firing => firing.schedule.id = row.id) with
  | none => row
  | some firing =>
    { row with
      lastRunAt := some now
      lastRunId := some firing.requestId
      nextRunAt := now + 60000000 * firing.schedule.intervalMinutes }

theorem id_fired (now : Time) (firings : List Firing) (row : Schedule) :
    (fired now firings row).id = row.id := by
  unfold fired
  split <;> rfl

def commit (now : Time) (firings : List Firing) : Option ScheduleState :=
  ((firings.map Firing.run).foldlM Table.insert? state.runs).map fun runs =>
    { state with
      schedules := state.schedules.mapRows (fired now firings) (id_fired now firings)
      runs := runs }

def finish (rows : List Schedule) (firings : List Firing) : ScheduleState :=
  { state with
    locked := state.locked.filter fun id => id ∉ rows.map Schedule.id
    ended := state.ended ++ firings }

/-- `update_schedule_run` of the task, with its commit. -/
def updateScheduleRun (now : Time) (task : RunTask) (status : String) (error : Option String) :
    ScheduleState :=
  if "schedule-".toList.isPrefixOf task.clientRequestId.toList = false then state
  else
    { state with
      runs := state.runs.modify task.clientRequestId
        (fun run => run.reported now task status error)
        (fun run => run.requestId_reported now task status error) }

end ScheduleState

inductive ScheduleCall where
  | dispatch
  | report (task : RunTask) (status : String) (error : Option String)

/-- The point that a call has reached; the loop has `rows` still to do. -/
inductive SchedulePoint where
  | called (call : ScheduleCall)
  | looping (now : Time) (rows : List Schedule) (firings : List Firing)
  | returned (count : Nat)
  | raised

namespace ScheduleState

variable (showUuid : Uuid → String)

/-- The next step of a call. A step that raises rolls the transaction back. -/
def next (turn : DispatchTurn) (state : ScheduleState) : SchedulePoint → ScheduleState × SchedulePoint
  | .called .dispatch =>
    let rows := state.due turn.now turn.rank
    (state.claim rows, .looping turn.now rows [])
  | .called (.report task status error) =>
    (state.updateScheduleRun turn.now task status error, .returned 0)
  | .looping now (schedule :: rows) firings =>
    if turn.accepted then
      let firing : Firing := ⟨schedule, scheduleRequestId showUuid schedule.id turn.uuid⟩
      (state.submit firing, .looping now rows (firings ++ [firing]))
    else (state.finish (firings.map Firing.schedule ++ schedule :: rows) firings, .raised)
  | .looping now [] firings =>
    match if turn.commits then state.commit now firings else none with
    | none => (state.finish (firings.map Firing.schedule) firings, .raised)
    | some state' => (state'.finish (firings.map Firing.schedule) firings, .returned firings.length)
  | .returned count => (state, .returned count)
  | .raised => (state, .raised)

end ScheduleState

abbrev ScheduleSystem := Interleaving.CallSystem ScheduleState SchedulePoint

namespace ScheduleSystem

def start (schedules : Table Schedule Schedule.id) (runs : Table ScheduleRun ScheduleRun.requestId)
    (calls : List ScheduleCall) : ScheduleSystem :=
  ⟨⟨schedules, runs, [], [], []⟩, calls.map SchedulePoint.called⟩

def step (showUuid : Uuid → String) (s : ScheduleSystem) (turn : Nat × DispatchTurn) :
    ScheduleSystem :=
  Interleaving.advance (fun _ _ => false) (ScheduleState.next showUuid) s turn

end ScheduleSystem

end AverQel.DeepSpace
