/- digest: The sends of one space, query by query and commit by commit, and what they report. -/
import AverQel.Documents.CollectionRows
import AverQel.SealedChat.ChatCalls

namespace AverQel.SealedChat

open Foundation Interleaving
open Documents (MediaStatus)

/-- `CollectionChatMedia` -/
structure ChatMedia where
  id : String
  (collectionId tenantId uploadedByUserId : UuidText)
  objectKey : String
  status : MediaStatus
  attachedMessageId : Option Nat
  deriving DecidableEq

inductive DeliveryStatus where
  | pending
  | delivered
  | read
  deriving DecidableEq, Repr

/-- `CollectionChatDelivery`: "Per-member delivery/read state for a collection message." -/
structure ChatDelivery where
  messageId : Nat
  userId : UuidText
  deviceId : String
  status : DeliveryStatus
  (deliveredAt readAt : Option Time)
  deriving DecidableEq

def ChatDelivery.address (delivery : ChatDelivery) : Nat × UuidText × String :=
  (delivery.messageId, delivery.userId, delivery.deviceId)

structure SpaceMember where
  userId : UuidText
  connected : Bool
  deriving DecidableEq

structure MemberDevice where
  userId : UuidText
  deviceId : String
  revoked : Bool
  deriving DecidableEq

def MemberDevice.key (device : MemberDevice) : UuidText × String := (device.userId, device.deviceId)

/-- The tables that the sends of one space read and write. -/
structure ChatTables where
  tenantId : UuidText
  space : Space
  members : Table SpaceMember SpaceMember.userId
  devices : Table MemberDevice MemberDevice.key
  media : Table ChatMedia ChatMedia.id
  deliveries : Table ChatDelivery ChatDelivery.address

structure ChatSend where
  socket : Bool
  posted : ChatPost
  deriving DecidableEq

def ChatSend.post (send : ChatSend) : ChatPost :=
  if send.socket then send.posted.stripped else send.posted

/-- How a send ends. `failed` is a violated constraint that nothing catches, `refused` any error
that does not come from other sends. -/
inductive Report where
  | sent (messageId : Nat)
  | conflict
  | refused
  | failed
  deriving DecidableEq

/-- How far a send has come, with what it has read. -/
inductive SendPoint where
  | requested
  | checking (registered : Option String)
  | ensuring (registered : Option String)
  | indexing (registered : Option String) (row : EpochRow) (created : Bool)
  | inserting (registered : Option String) (epoch : Option EpochRow) (row : ChatRow)
  | rechecking
  | recording (registered : Option String) (messageId : Nat)
  | reported (report : Report)
  | dead
  deriving DecidableEq

structure SendCall where
  send : ChatSend
  point : SendPoint
  deriving DecidableEq

/-- What happens to a send at its turn. -/
inductive SendTurn where
  | step (input : TurnInput)
  | refuse
  | die
  deriving DecidableEq

def Space.insertNewEpoch (s : Space) : Option EpochRow → Option Space
  | none => some s
  | some epoch => s.insertEpoch epoch

namespace ChatTables

variable (env : ChatEnvironment) (tables : ChatTables)

/-- `_active_device_ids` -/
def activeDeviceIds (userId : UuidText) : List String :=
  let active := tables.devices.rows.filter fun device =>
    device.userId = userId ∧ device.revoked = false
  if active = [] then ["legacy"] else active.map MemberDevice.deviceId

def recipients (sender : UuidText) : List (UuidText × String) :=
  (tables.members.rows.filter fun member => member.userId ≠ sender ∧ member.connected = true).flatMap
    fun member => (tables.activeDeviceIds member.userId).map fun device => (member.userId, device)

/-- The checks of the media reference and `_validate_registered_media`: `none` is an error, and a
reference without a record is an upload from before the registry. -/
def validateMedia (post : ChatPost) : Option (Option String) :=
  match post.mediaId, post.mediaObjectKey with
  | none, none => if post.isMedia then none else some none
  | some mediaId, some objectKey =>
    match tables.media.find? mediaId with
    | none => some none
    | some media =>
      if media.collectionId = tables.space.id ∧ media.tenantId = tables.tenantId ∧
          media.uploadedByUserId = post.userId ∧ media.objectKey = objectKey ∧
          media.status ∈ [MediaStatus.uploaded, .attached] then some (some mediaId)
      else none
  | _, _ => none

/-- `_chat_idempotency_conflict`, and the comparison of the socket, which knows no sealed rows. -/
def conflicts (send : ChatSend) (existing : ChatRow) : Bool :=
  let differs :=
    if send.socket then decide (existing.message.column env ≠ send.post.message)
    else if existing.isEncrypted then
      !tables.space.chatEncryptionEnabled ||
        decide (existing.messageHash ≠ some (env.plaintextHash send.post.message))
    else decide (existing.message.column env ≠ send.post.message)
  differs || decide (existing.isMedia ≠ send.post.isMedia) ||
    decide (existing.mediaObjectKey ≠ send.post.mediaObjectKey)

def rowOfClient (post : ChatPost) (clientId : String) : Option ChatRow :=
  tables.space.messages.rows.find? fun row =>
    row.userId = post.userId ∧ row.clientMessageId = some clientId

def withSpace (space : Space) : ChatTables := { tables with space := space }

/-- The second transaction of a send: its delivery rows and its media record. -/
def recordDeliveries (registered : Option String) (sender : UuidText) (messageId : Nat) :
    Option ChatTables :=
  let rows := (tables.recipients sender).map fun recipient =>
    (⟨messageId, recipient.1, recipient.2, .pending, none, none⟩ : ChatDelivery)
  (rows.foldlM Table.insert? tables.deliveries).map fun deliveries =>
    { tables with
      deliveries := deliveries
      media :=
        match registered with
        | none => tables.media
        | some mediaId =>
          tables.media.modify mediaId
            (fun media => { media with status := .attached, attachedMessageId := some messageId })
            fun _ => rfl }

/-- The next step of `create_collection_chat` and of `post_message`. -/
def step (input : TurnInput) (send : ChatSend) : SendPoint → ChatTables × SendPoint
  | .requested =>
    match tables.validateMedia send.post with
    | none => (tables, .reported .refused)
    | some registered => (tables, .checking registered)
  | .checking registered =>
    match tables.space.existingPost send.post with
    | some existing =>
      if tables.conflicts env send existing then (tables, .reported .conflict)
      else (tables, .reported (.sent existing.id))
    | none =>
      if !send.socket && tables.space.chatEncryptionEnabled then
        match tables.space.settings.activeKeyringKey with
        | .ok _ => (tables, .ensuring registered)
        | .error _ => (tables, .reported .refused)
      else (tables, .inserting registered none (send.post.plainRow input))
  | .ensuring registered =>
    match tables.space.ensureEpoch input.keyNonce with
    | .ok (minted, row, created) => (tables.withSpace minted, .indexing registered row created)
    | .error _ => (tables, .reported .refused)
  | .indexing registered row created =>
    match tables.space.sealUnder env row (senderLabel send.post.userId none) send.post.message
        input.nonce with
    | .ok sealed =>
      (tables, .inserting registered (if created then some row else none)
        (send.post.sealedRow input sealed))
    | .error _ => (tables, .reported .refused)
  | .inserting registered epoch row =>
    match tables.space.insertNewEpoch epoch with
    | none => (tables, .reported .failed)
    | some space =>
      if space.hasRoom env input.capacity row then
        match space.insertChat row with
        | some stored => (tables.withSpace stored, .recording registered row.id)
        | none =>
          if send.post.clientMessageId = none then (tables, .reported .failed)
          else (tables, .rechecking)
      else (tables, .reported .refused)
  | .rechecking =>
    match send.post.clientMessageId.bind (tables.rowOfClient send.post) with
    | none => (tables, .reported .failed)
    | some existing =>
      if !send.socket && tables.conflicts env send existing then (tables, .reported .conflict)
      else (tables, .reported (.sent existing.id))
  | .recording registered messageId =>
    match tables.recordDeliveries registered send.post.userId messageId with
    | some recorded => (recorded, .reported (.sent messageId))
    | none => (tables, .reported .failed)
  | .reported report => (tables, .reported report)
  | .dead => (tables, .dead)

end ChatTables

/-- A turn of one send. Errors that have nothing to do with other sends come at its beginning. -/
def SendCall.next (env : ChatEnvironment) (turn : SendTurn) (tables : ChatTables)
    (call : SendCall) : ChatTables × SendCall :=
  match turn with
  | .step input =>
    let moved := tables.step env input call.send call.point
    (moved.1, ⟨call.send, moved.2⟩)
  | .refuse =>
    if call.point = .requested then (tables, ⟨call.send, .reported .refused⟩) else (tables, call)
  | .die => (tables, ⟨call.send, .dead⟩)

abbrev SendSystem := CallSystem ChatTables SendCall

def SendSystem.step (env : ChatEnvironment) : SendSystem → Nat × SendTurn → SendSystem :=
  advance (fun _ _ => false) (SendCall.next env)

end AverQel.SealedChat
