/- digest: The connections of the spaces: the maps of the manager, its calls and its subscriptions. -/
import Mathlib.Data.List.AList
import Mathlib.Logic.Function.Basic

namespace AverQel.Documents.Connections

universe u v
variable {κ : Type u} {υ : Type v}

/-- How far a `_redis_subscribe_loop` has come. -/
inductive LoopPoint where
  | subscribing
  | listening
  | backingOff
  | ended
  | cancelled
  deriving DecidableEq

def LoopPoint.isLive : LoopPoint → Bool
  | .subscribing | .listening | .backingOff => true
  | .ended | .cancelled => false

inductive LoopEvent where
  | subscribed
  | subscribeFails
  | listenFails
  | wakes
  deriving DecidableEq

/-- The dictionary objects and tasks made for a space, and the increments and decrements that Redis
has executed for its users. None of them is an entry of a map. -/
structure Objects (υ : Type v) where
  counts : Nat → υ → Nat
  made : Nat
  loops : List LoopPoint
  increments : υ → Nat
  decrements : υ → Nat

/-- What is there of one space: its entries in `active_connections` (a socket is named by its user),
`active_connection_users` (the number of the dictionary object) and `redis_tasks`. -/
structure Room (υ : Type v) extends Objects υ where
  active : Option (List υ)
  (users task : Option Nat)

def Objects.none : Objects υ := ⟨fun _ _ => 0, 0, [], fun _ => 0, fun _ => 0⟩

/-- How far a socket has come: the await that it is in, with the dictionary that it holds and
whether Redis has counted it. `entered` is an open socket, `releasing` awaits in the disconnect. -/
inductive Point where
  | arriving
  | refusing
  | incrementing (users : Nat)
  | expiring (users : Nat)
  | decrementing (users : Nat)
  | rejecting (users : Nat)
  | accepting (users : Nat) (counted : Bool)
  | entered (counted : Bool)
  | releasing
  | ended
  deriving DecidableEq

inductive Outcome where
  | ok (value : Nat)
  | fails (executed : Bool)
  deriving DecidableEq

def Outcome.executed : Outcome → Bool
  | .ok _ => true
  | .fails executed => executed

def limit (maxConnections : Nat) : Nat := max 1 maxConnections

namespace Room

variable [DecidableEq υ] (maxConnections : Nat) (user : υ) (room : Room υ)

/-- `users = self.active_connection_users.setdefault(collection_id, {})` -/
def setDefault : Room υ × Nat :=
  match room.users with
  | some users => (room, users)
  | none => ({ room with users := some room.made, made := room.made + 1 }, room.made)

def addCount (users : Nat) : Room υ :=
  { room with
    counts :=
      Function.update room.counts users
        (Function.update (room.counts users) user (room.counts users user + 1)) }

def removeCount (users : Nat) : Room υ :=
  { room with
    counts :=
      Function.update room.counts users
        (Function.update (room.counts users) user (room.counts users user - 1)) }

def countIncrement (executed : Bool) : Room υ :=
  { room with
    increments :=
      Function.update room.increments user (room.increments user + executed.toNat) }

def countDecrement (executed : Bool) : Room υ :=
  { room with
    decrements :=
      Function.update room.decrements user (room.decrements user + executed.toNat) }

def createTask : Room υ :=
  { room with task := some room.loops.length, loops := room.loops ++ [.subscribing] }

/-- `task.cancel()` of the task that the map has. -/
def cancelTask : Room υ :=
  match room.task with
  | none => room
  | some task =>
    { room with
      task := none
      loops := room.loops.modify task fun point => if point = .ended then .ended else .cancelled }

/-- The end of `connect`. -/
def enter (users : Nat) : Room υ :=
  match room.active with
  | none => ({ room.createTask with active := some [user] } : Room υ).addCount user users
  | some sockets => ({ room with active := some (sockets ++ [user]) } : Room υ).addCount user users

/-- The end of `disconnect`, which deletes the entries of a space without sockets. -/
def leave : Room υ :=
  let left :=
    match room.users with
    | none => room
    | some users => room.removeCount user users
  match room.active with
  | some [] => { left.cancelTask with active := none, users := none }
  | _ => left

/-- The next step of a socket, from one await to the next. -/
def next (outcome : Outcome) : Point → Room υ × Point
  | .arriving =>
    let (known, users) := room.setDefault
    if limit maxConnections ≤ known.counts users user then (known, .refusing)
    else (known, .incrementing users)
  | .refusing => (room, .ended)
  | .incrementing users =>
    match outcome with
    | .ok count =>
      (room.countIncrement user true,
        if count = 1 then .expiring users
        else if limit maxConnections < count then .decrementing users
        else .accepting users true)
    | .fails executed => (room.countIncrement user executed, .accepting users false)
  | .expiring users => (room, .accepting users true)
  | .decrementing users =>
    match outcome with
    | .ok _ => (room.countDecrement user true, .rejecting users)
    | .fails executed => (room.countDecrement user executed, .accepting users true)
  | .rejecting users =>
    match outcome with
    | .ok _ => (room, .ended)
    | .fails _ => (room, .accepting users true)
  | .accepting users counted =>
    match outcome with
    | .ok _ => (room.enter user users, .entered counted)
    | .fails _ => (room, .ended)
  | .entered counted =>
    match room.active with
    | none => (room, .ended)
    | some sockets =>
      let discarded : Room υ := { room with active := some (sockets.erase user) }
      if counted then (discarded, .releasing) else (discarded.leave user, .ended)
  | .releasing => ((room.countDecrement user outcome.executed).leave user, .ended)
  | .ended => (room, .ended)

/-- The next step of a subscription. A failing subscribe is outside of the `try`. -/
def loopNext (task : Nat) (event : LoopEvent) : Room υ :=
  match room.loops[task]?, event with
  | some .subscribing, .subscribed => { room with loops := room.loops.set task .listening }
  | some .subscribing, .subscribeFails => { room with loops := room.loops.set task .ended }
  | some .listening, .listenFails => { room with loops := room.loops.set task .backingOff }
  | some .backingOff, .wakes =>
    let woken : Room υ := { room with loops := room.loops.set task .ended }
    if room.active.isSome then woken.createTask else woken
  | _, _ => room

end Room

/-- `CollectionBroadcastManager`, its three maps and the objects of each space. -/
structure Manager (κ : Type u) (υ : Type v) where
  activeConnections : AList fun _ : κ => List υ
  activeConnectionUsers : AList fun _ : κ => Nat
  redisTasks : AList fun _ : κ => Nat
  objects : κ → Objects υ

variable [DecidableEq κ]

def setEntry {β : Type v} (key : κ) (value : Option β) (entries : AList fun _ : κ => β) :
    AList fun _ : κ => β :=
  match value with
  | none => entries.erase key
  | some value => entries.insert key value

namespace Manager

def empty : Manager κ υ := ⟨∅, ∅, ∅, fun _ => Objects.none⟩

def room (manager : Manager κ υ) (space : κ) : Room υ where
  toObjects := manager.objects space
  active := manager.activeConnections.lookup space
  users := manager.activeConnectionUsers.lookup space
  task := manager.redisTasks.lookup space

def put (manager : Manager κ υ) (space : κ) (room : Room υ) : Manager κ υ where
  activeConnections := setEntry space room.active manager.activeConnections
  activeConnectionUsers := setEntry space room.users manager.activeConnectionUsers
  redisTasks := setEntry space room.task manager.redisTasks
  objects := Function.update manager.objects space room.toObjects

/-- `has_user_connection` -/
def hasUserConnection (manager : Manager κ υ) (user : υ) : Bool :=
  manager.activeConnectionUsers.entries.any fun entry =>
    decide (0 < (manager.objects entry.1).counts entry.2 user)

end Manager

/-- A socket, from the call of `connect` to the end of `disconnect`. -/
structure Call (κ : Type u) (υ : Type v) where
  space : κ
  user : υ
  point : Point
  deriving DecidableEq

structure Server (κ : Type u) (υ : Type v) where
  manager : Manager κ υ
  calls : List (Call κ υ)

inductive Turn (κ : Type u) where
  | socket (i : Nat) (outcome : Outcome)
  | loop (space : κ) (task : Nat) (event : LoopEvent)

variable [DecidableEq υ]

def Server.step (maxConnections : Nat) (server : Server κ υ) : Turn κ → Server κ υ
  | .socket i outcome =>
    match server.calls[i]? with
    | none => server
    | some call =>
      let moved := (server.manager.room call.space).next maxConnections call.user outcome call.point
      ⟨server.manager.put call.space moved.1, server.calls.set i { call with point := moved.2 }⟩
  | .loop space task event =>
    let moved := (server.manager.room space).loopNext task event
    { server with manager := server.manager.put space moved }

end AverQel.Documents.Connections
