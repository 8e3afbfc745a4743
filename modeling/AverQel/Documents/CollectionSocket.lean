/- digest: The WebSocket of a shared space: connecting, the actions of its loop, and fan-out. -/
import AverQel.Documents.Collections

namespace AverQel.Documents

open Foundation AverQel.System

/-- An action that a client sends over its socket. -/
inductive SocketAction where
  | ping
  | postMessage (payload : ChatPayload)
  | typing
  | react (messageId reaction : String)
  | delivered (messageId : String)
  | delete (messageId : String)
  | read

inductive ActionResult (Bytes : Type) where
  | goesOn (s : Spaces Bytes) (effect : Bool)
  | closes

namespace Spaces

variable {Bytes : Type} (env : ConnectEnvironment Bytes) (s : Spaces Bytes)

def roomSockets (collectionId : Uuid) : List Socket :=
  s.sockets.filter (fun socket => socket.collectionId = collectionId)

/-- `replay_events`: at most a hundred events after the cursor. -/
def replayEvents (collectionId : Uuid) (lastEventId : Option Nat) : List RoomEvent :=
  match lastEventId with
  | none => []
  | some cursor =>
    ((s.stream.filter fun event => event.collectionId = collectionId).drop cursor).take 100

/-- The opening of `collection_websocket`: the events that are replayed, or the close code. -/
def connectSocket (socket : Socket) (lastEventId : Option Nat) :
    Except Nat (Spaces Bytes × List RoomEvent) :=
  if (s.collections.find? socket.collectionId).isNone then .error 4004
  else
    match s.enforceAccess socket.collectionId socket.userId with
    | .error _ => .error 4403
    | .ok _ =>
      if s.deviceActive socket.tenantId socket.userId socket.deviceId = false then .error 4403
      else if max 1 env.connectionsPerUser ≤
          ((s.roomSockets socket.collectionId).filter fun other =>
            other.userId = socket.userId).length then .error 4429
      else
        let joined : Spaces Bytes := { s with sockets := s.sockets ++ [socket] }
        .ok (joined.publish ⟨socket.collectionId, "presence_change", none⟩,
          s.replayEvents socket.collectionId lastEventId)

def disconnectSocket (socket : Socket) : Spaces Bytes :=
  let left : Spaces Bytes :=
    { s with sockets := s.sockets.filter fun other => other.id ≠ socket.id }
  if left.sockets.any fun other => other.userId = socket.userId then left
  else left.publish ⟨socket.collectionId, "presence_change", none⟩

def findMessage (collectionId messageId : Uuid) : Option CollectionChatMessage :=
  (s.messages.find? messageId).filter fun m => m.collectionId = collectionId

/-- `post_message`. A refused media reference ends the socket, as does a failed insert. -/
def postMessage (socket : Socket) (fits : Bool) (messageId : Uuid)
    (payload : ChatPayload) (now : Time) : ActionResult Bytes :=
  let content := Text.strip payload.message
  let clientId := (payload.clientMessageId.map Text.strip).filter fun id => id ≠ ""
  let payload : ChatPayload := { payload with message := content, clientMessageId := clientId }
  if content = "" ∨ s.userHasCollectionBlock socket.collectionId socket.userId ∨
      4096 < content.length ∨ (∃ id ∈ clientId, 128 < id.length) then .goesOn s false
  else
    match (do
        let collection ← s.requireCollection socket.collectionId
        let reference ← mediaReference env collection payload
        let registered ← s.validateRegisteredMedia env collection socket.userId reference
        return (reference, registered)) with
    | .error _ => .closes
    | .ok (reference, registered) =>
      match s.existingMessage socket.userId socket.collectionId clientId with
      | some existing =>
        if conflicts existing payload reference then .closes
        else .goesOn (s.publish ⟨socket.collectionId, "new_message", some existing.id⟩) false
      | none =>
        if fits = false then .closes
        else
          let message :=
            newMessage socket.userId socket.collectionId messageId payload reference now
          match s.sendMessage message registered with
          | none => .closes
          | some sent => .goesOn sent true

def toggleReaction (userId : Uuid) (reaction : String) (reactions : List (Uuid × String)) :
    List (Uuid × String) :=
  let others := reactions.filter fun entry => entry.1 ≠ userId
  if (userId, reaction) ∈ reactions then others else others ++ [(userId, reaction)]

def reactToMessage (socket : Socket) (messageId reaction : String) : ActionResult Bytes :=
  if messageId = "" ∨ reaction = "" then .goesOn s false
  else
    match env.parseUuid messageId with
    | none => .closes
    | some id =>
      match s.findMessage socket.collectionId id with
      | none => .goesOn s false
      | some message =>
        let reacted : Spaces Bytes :=
          { s with
            messages := s.messages.modify message.id
              (fun m => { m with reactions := toggleReaction socket.userId reaction m.reactions })
              (fun _ => rfl) }
        .goesOn (reacted.publish ⟨socket.collectionId, "message_reacted", some message.id⟩) true

/-- `delivered`; the receipts themselves are left out. -/
def acknowledge (socket : Socket) (messageId : String) : ActionResult Bytes :=
  if messageId = "" then .goesOn s false
  else
    match env.parseUuid messageId with
    | none => .closes
    | some id =>
      match s.findMessage socket.collectionId id with
      | none => .goesOn s false
      | some message =>
        .goesOn (s.publish ⟨socket.collectionId, "message_delivered", some message.id⟩) false

/-- The sender of a message and the owners of the space may delete it. -/
def deleteMessage (socket : Socket) (messageId : String) : ActionResult Bytes :=
  if messageId = "" then .goesOn s false
  else
    match env.parseUuid messageId with
    | none => .closes
    | some id =>
      match s.findMessage socket.collectionId id, s.collections.find? socket.collectionId with
      | none, _ => .goesOn s false
      | some _, none => .closes
      | some message, some collection =>
        if message.userId = socket.userId ∨
            s.roleOf socket.collectionId socket.userId = some .owner then
          let queued :=
            s.queueMediaCleanup collection message.mediaId message.mediaObjectKey message.userId
          let erase (m : CollectionChatMessage) : CollectionChatMessage :=
            { m with
              message := "This message was deleted"
              isMedia := false
              mediaMimeType := none
              mediaObjectKey := none
              reactions := [] }
          let deleted : Spaces Bytes :=
            { queued with messages := queued.messages.modify message.id erase (fun _ => rfl) }
          .goesOn (deleted.publish ⟨socket.collectionId, "message_deleted", some message.id⟩) true
        else .goesOn s false

/-- `read`: the other members' messages count as read. -/
def markRead (socket : Socket) : ActionResult Bytes :=
  if (s.messagesOf socket.collectionId).all fun m => m.userId = socket.userId then .goesOn s false
  else .goesOn (s.publish ⟨socket.collectionId, "messages_read", none⟩) false

def socketAction (socket : Socket) (fits : Bool) (messageId : Uuid) (now : Time) :
    SocketAction → ActionResult Bytes
  | .ping => .goesOn s false
  | .postMessage payload => s.postMessage env socket fits messageId payload now
  | .typing => .goesOn (s.publish ⟨socket.collectionId, "user_typing", none⟩) false
  | .react id reaction => s.reactToMessage env socket id reaction
  | .delivered id => s.acknowledge env socket id
  | .delete id => s.deleteMessage env socket id
  | .read => s.markRead socket

/-- One turn of the loop: the device is checked again, the membership is not. -/
def socketTurn (socket : Socket) (withinRate fits : Bool) (messageId : Uuid) (now : Time)
    (action : SocketAction) : Spaces Bytes × Bool :=
  if s.deviceActive socket.tenantId socket.userId socket.deviceId = false then
    (s.disconnectSocket socket, false)
  else if withinRate = false then (s, false)
  else
    match s.socketAction env socket fits messageId now action with
    | .goesOn next effect => (next, effect)
    | .closes => (s.disconnectSocket socket, false)

def deliverNext (collectionId : Uuid) : Spaces Bytes × List Socket :=
  let ofRoom (event : RoomEvent) : Bool := event.collectionId = collectionId
  match s.channel.find? ofRoom with
  | none => (s, [])
  | some _ => ({ s with channel := s.channel.eraseP ofRoom }, s.roomSockets collectionId)

end Spaces

end AverQel.Documents
