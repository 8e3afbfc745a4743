/- digest: The endpoints and the socket of a space, the messages they store and the events they publish. -/
import AverQel.SealedChat.ChatCalls

namespace AverQel.SealedChat

open Foundation Interleaving

/-- The data of a `new_message` event. Only the REST handler adds the encryption flag and the
epoch. -/
structure MessagePayload where
  id : Nat
  userId : UuidText
  userEmail : String
  userAvatar : Option String
  message : String
  clientMessageId : Option String
  isMedia : Bool
  (mediaMimeType mediaId mediaObjectKey : Option String)
  reactions : List (String × String)
  encryption : Option (Bool × Nat)
  createdAt : Time
  deriving DecidableEq

/-- What is published to the broadcast channel of a space and to its replay stream. -/
inductive ChatEvent where
  | presenceChange (userId : UuidText) (isOnline : Bool)
  | newMessage (payload : MessagePayload)
  | userTyping (userId : UuidText) (isTyping : Bool)
  | messageReacted (messageId : Nat) (reactions : List (String × String))
  | messageDelivered (messageId : Nat) (userId : UuidText)
  | messageDeleted (messageId : Nat) (message : String)
  | messagesRead (readerId : UuidText) (messageIds : List Nat)
  | chatCleared
  | expiryUpdated (expiryDays : Nat)
  | documentSync (action : String) (documentIds : List Nat)
  deriving DecidableEq

/-- A message as the socket receives it. -/
structure Draft where
  content : String
  clientMessageId : Option String
  isMedia : Bool
  (mediaMimeType mediaId mediaObjectKey : Option String)

inductive MessageRef where
  | missing
  | malformed
  | id (id : Nat)

inductive SocketAction where
  | ping
  | postMessage (draft : Draft)
  | typing (isTyping : Bool)
  | react (message : MessageRef) (reaction : String)
  | delivered (message : MessageRef)
  | delete (message : MessageRef)
  | read

/-- The requests to a space. The keyring is configured by the deployment, and an outage leaves
one that is missing, cannot be parsed, or lacks the active key. -/
inductive RoomRequest where
  | enableSealedChat
  | rotateEpoch
  | createChat (post : ChatPost)
  | getChats (cutoff : Time)
  | clearChats
  | configure (settings : ChatSettings)
  | updateExpiry (expiryDays : Nat)
  | changeDocuments (action : String) (documentIds : List Nat)
  | connect (connection : Nat) (userId : UuidText)
  | disconnect (connection : Nat)
  | socket (connection : Nat) (action : SocketAction)

/-- What a turn is told by the other tables and services: access, the device, the rate limit,
blocks, the media registry, and the author. -/
structure RoomInput extends TurnInput where
  (admitted deviceActive withinRate blocked mediaValid isOwner connectedElsewhere : Bool)
  userEmail : String
  userAvatar : Option String

/-- A space, its open sockets with their users, and, which are no tables, the events it has
published and the chat rows it has created. -/
structure Room where
  space : Space
  connections : List (Nat × UuidText)
  events : List ChatEvent
  created : List ChatRow

/-- How far a request has come. A transaction of the socket names the connection. -/
inductive RoomCall where
  | arriving (request : RoomRequest)
  | working (socket : Option Nat) (call : ChatCall)
  | opening (row : ChatRow)
  | publishing (event : ChatEvent)
  | finished

inductive Halt where
  | dropped
  | closed
  deriving DecidableEq

def Draft.post (draft : Draft) (userId : UuidText) : ChatPost where
  userId := userId
  message := draft.content
  clientMessageId := draft.clientMessageId
  isMedia := draft.isMedia
  mediaMimeType := draft.mediaMimeType
  mediaId := draft.mediaId
  mediaObjectKey := draft.mediaObjectKey

def ChatRow.payload (row : ChatRow) (turn : RoomInput) (message : String)
    (encryption : Option (Bool × Nat)) : MessagePayload where
  id := row.id
  userId := row.userId
  userEmail := turn.userEmail
  userAvatar := turn.userAvatar
  message := message
  clientMessageId := row.clientMessageId
  isMedia := row.isMedia
  mediaMimeType := row.mediaMimeType
  mediaId := row.mediaId
  mediaObjectKey := row.mediaObjectKey
  reactions := row.reactions
  encryption := encryption
  createdAt := row.createdAt

/-- `CreateChatMessage` -/
def ChatPost.wellFormed (post : ChatPost) : Bool :=
  1 ≤ post.message.length && post.message.length ≤ 4096 &&
    post.clientMessageId.all (fun id => id.length ≤ 128) &&
    post.mediaId.all (fun id => id.length ≤ 64) &&
    post.mediaObjectKey.all (fun key => key.length ≤ 1024)

def toggleReaction (reactions : List (String × String)) (userId reaction : String) :
    List (String × String) :=
  if reactions.lookup userId = some reaction then reactions.filter (fun entry => entry.1 ≠ userId)
  else if (reactions.lookup userId).isSome then
    reactions.map fun entry => if entry.1 = userId then (userId, reaction) else entry
  else reactions ++ [(userId, reaction)]

def ChatRow.react (row : ChatRow) (userId reaction : String) : ChatRow :=
  { row with reactions := toggleReaction row.reactions userId reaction }

def Space.react (s : Space) (id : Nat) (userId reaction : String) : Space :=
  { s with messages := s.messages.modify id (fun row => row.react userId reaction) fun _ => rfl }

namespace Room

variable (env : ChatEnvironment) (turn : RoomInput) (room : Room)

/-- The socket is closed; a user without another one goes offline. -/
def leave (connection : Nat) : Room × RoomCall :=
  match room.connections.lookup connection with
  | none => (room, .finished)
  | some userId =>
    let left := room.connections.filter (fun entry => entry.1 ≠ connection)
    let still := left.any (fun entry => entry.2 = userId) || turn.connectedElsewhere
    ({ room with connections := left },
      if still then .finished else .publishing (.presenceChange userId false))

def transact (request : ChatRequest) : Room × RoomCall :=
  if turn.admitted then (room, .working none (.begin request)) else (room, .finished)

def announce (event : ChatEvent) : Room × RoomCall :=
  if turn.admitted then (room, .publishing event) else (room, .finished)

/-- `collection_websocket`, a post up to its checks and its look for an earlier post. A sealed row
is compared by its envelope. -/
def haltPost (post : ChatPost) : Option Halt :=
  if post.message = "" then some .dropped
  else if turn.blocked then some .dropped
  else if 4096 < post.message.length then some .dropped
  else if post.clientMessageId.any (fun id => 128 < id.length) then some .dropped
  else if !turn.mediaValid then some .closed
  else
    match room.space.existingPost post with
    | none => none
    | some existing =>
      if existing.message.column env ≠ post.message ∨ existing.isMedia ≠ post.isMedia ∨
          existing.mediaObjectKey ≠ post.mediaObjectKey then some .closed
      else none

def receive (connection : Nat) (post : ChatPost) : Room × RoomCall :=
  match room.haltPost env turn post with
  | some .dropped => (room, .finished)
  | some .closed => room.leave turn connection
  | none =>
    match room.space.existingPost post with
    | some existing =>
      (room, .publishing (.newMessage (existing.payload turn (existing.message.column env) none)))
    | none => (room, .working (some connection) (.sending none (post.plainRow turn.toTurnInput)))

/-- The row that an action names; a malformed id closes the socket. -/
def withMessage (connection : Nat) (message : MessageRef) (found : ChatRow → Room × RoomCall) :
    Room × RoomCall :=
  match message with
  | .missing => (room, .finished)
  | .malformed => room.leave turn connection
  | .id id =>
    match room.space.messages.find? id with
    | none => (room, .finished)
    | some row => found row

def act (connection : Nat) (userId : UuidText) : SocketAction → Room × RoomCall
  | .ping => (room, .finished)
  | .postMessage draft => room.receive env turn connection (draft.post userId).stripped
  | .typing isTyping => (room, .publishing (.userTyping userId isTyping))
  | .react message reaction =>
    if reaction = "" then (room, .finished)
    else room.withMessage turn connection message fun row =>
      let reacted := row.react userId.text reaction
      ({ room with space := room.space.react row.id userId.text reaction },
        .publishing (.messageReacted row.id reacted.reactions))
  | .delivered message =>
    room.withMessage turn connection message fun row =>
      (room, .publishing (.messageDelivered row.id userId))
  | .delete message =>
    room.withMessage turn connection message fun row =>
      if row.userId = userId ∨ turn.isOwner = true then
        ({ room with space := room.space.eraseMessage row.id },
          .publishing (.messageDeleted row.id deletionNotice))
      else (room, .finished)
  | .read =>
    let unread := room.space.messages.rows.filter (fun row => row.userId ≠ userId)
    if unread = [] then (room, .finished)
    else (room, .publishing (.messagesRead userId (unread.map ChatRow.id)))

/-- A request arrives. -/
def arrive : RoomRequest → Room × RoomCall
  | .enableSealedChat => room.transact turn .enable
  | .rotateEpoch => room.transact turn .rotate
  | .createChat post =>
    if turn.blocked || !turn.mediaValid || !post.wellFormed then (room, .finished)
    else room.transact turn (.send post)
  | .getChats cutoff => room.transact turn (.expire cutoff)
  | .clearChats => room.transact turn .clear
  | .configure settings => ({ room with space := { room.space with settings } }, .finished)
  | .updateExpiry expiryDays => room.announce turn (.expiryUpdated expiryDays)
  | .changeDocuments action documentIds => room.announce turn (.documentSync action documentIds)
  | .connect connection userId =>
    if turn.admitted && turn.deviceActive && (room.connections.lookup connection).isNone then
      ({ room with connections := room.connections ++ [(connection, userId)] },
        .publishing (.presenceChange userId true))
    else (room, .finished)
  | .disconnect connection => room.leave turn connection
  | .socket connection action =>
    match room.connections.lookup connection with
    | none => (room, .finished)
    | some userId =>
      if !turn.deviceActive then room.leave turn connection
      else if !turn.withinRate then (room, .finished)
      else room.act env turn connection userId action

/-- A send has met its commit. Over REST a lost insert only answers the request; the socket looks
up the earlier post again and publishes it. -/
def conclude (socket : Option Nat) (epoch : Option EpochRow) (row : ChatRow) : Room × RoomCall :=
  if room.space.hasRoom env turn.capacity row then
    match room.space.commitSend epoch row with
    | some space =>
      ({ room with space, created := room.created ++ [row] },
        match socket with
        | none => .opening row
        | some _ => .publishing (.newMessage (row.payload turn (row.message.column env) none)))
    | none =>
      match socket with
      | none => (room, .finished)
      | some connection =>
        match row.clientMessageId.bind fun clientId =>
            room.space.messages.rows.find? fun other =>
              other.userId = row.userId ∧ other.clientMessageId = some clientId with
        | none => room.leave turn connection
        | some existing =>
          (room,
            .publishing (.newMessage (existing.payload turn (existing.message.column env) none)))
  else
    match socket with
    | none => (room, .finished)
    | some connection => room.leave turn connection

def resume (socket : Option Nat) (call : ChatCall) : ChatCall → RoomCall
  | .returned =>
    match call with
    | .shredding _ _ => .publishing .chatCleared
    | _ => .finished
  | later => .working socket later

/-- The next step of a request. -/
def next (turn : RoomInput) (room : Room) : RoomCall → Room × RoomCall
  | .arriving request => room.arrive env turn request
  | .working socket (.sending epoch row) => room.conclude env turn socket epoch row
  | .working socket call =>
    let after := room.space.next env turn.toTurnInput call
    ({ room with space := after.1 }, resume socket call after.2)
  | .opening row =>
    match room.space.openForRead env row with
    | .ok text =>
      (room, .publishing (.newMessage (row.payload turn (if row.isEncrypted then "" else text)
        (some (row.isEncrypted, row.cryptoEpoch)))))
    | .error _ => (room, .finished)
  | .publishing event => ({ room with events := room.events ++ [event] }, .finished)
  | .finished => (room, .finished)

end Room

abbrev RoomSystem := CallSystem Room RoomCall

def RoomSystem.start (space : Space) (connections : List (Nat × UuidText))
    (requests : List RoomRequest) : RoomSystem :=
  ⟨⟨space, connections, [], []⟩, requests.map RoomCall.arriving⟩

def RoomSystem.step (env : ChatEnvironment) : RoomSystem → Nat × RoomInput → RoomSystem :=
  advance (fun _ _ => false) (Room.next env)

end AverQel.SealedChat
