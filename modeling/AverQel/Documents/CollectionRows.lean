/- digest: The rows of shared spaces, their chats, media and sockets. -/
import AverQel.Foundation.Fallible
import AverQel.Foundation.Ranking
import AverQel.System.StorageService

namespace AverQel.Documents

open Foundation AverQel.System

/-- The roles of a permission row; `shared` is the default of old rows. -/
inductive AccessRole where
  | owner
  | member
  | shared
  | pending
  deriving DecidableEq

inductive MemberRole where
  | owner
  | member
  | pending
  deriving DecidableEq

/-- `_normalize_member_role` -/
def normalizeMemberRole : AccessRole → MemberRole
  | .owner => .owner
  | .shared | .member => .member
  | .pending => .pending

/-- `_is_connected_role` -/
def isConnectedRole (role : AccessRole) : Bool := normalizeMemberRole role ≠ .pending

structure DocumentCollection where
  (id tenantId : Uuid)
  description : String
  expiryDays : Int
  securityEpoch : Nat

structure CollectionPermission where
  (collectionId userId : Uuid)
  role : AccessRole

def CollectionPermission.pair (p : CollectionPermission) : Uuid × Uuid := (p.collectionId, p.userId)

structure CollectionChatMessage where
  (id collectionId userId : Uuid)
  message : String
  clientMessageId : Option String
  isMedia : Bool
  mediaMimeType : Option String
  mediaId : Option Uuid
  mediaObjectKey : Option String
  reactions : List (Uuid × String)
  createdAt : Time

inductive MediaStatus where
  | uploaded
  | attached
  | cleanupQueued
  deriving DecidableEq

/-- `CollectionChatMedia`: "Server-side ownership/lifecycle record for collection chat uploads." -/
structure CollectionChatMedia where
  (id collectionId tenantId uploadedByUserId : Uuid)
  objectKey : ObjectKey
  status : MediaStatus
  attachedMessageId : Option Uuid
  createdAt : Time

/-- A job of the clean-up queue; `collectionId` is no column, it is the space that queued it. -/
structure StorageCleanupJob where
  (tenantId ownerUserId : Uuid)
  objectKey : String
  collectionId : Uuid

structure User where
  id : Uuid
  isActive : Bool
  collectionCode : String

structure CollectionDevice where
  (tenantId userId : Uuid)
  deviceId : String
  revoked : Bool
  deriving DecidableEq

structure CollectionChatBlock where
  (collectionId blockerUserId blockedUserId : Uuid)
  deriving DecidableEq

structure RoomEvent where
  collectionId : Uuid
  type : String
  messageId : Option Uuid

/-- An accepted WebSocket of a member. -/
structure Socket where
  (id tenantId userId collectionId : Uuid)
  deviceId : String

structure ConnectEnvironment (Bytes : Type) where
  showUuid : Uuid → String
  parseUuid : String → Option Uuid
  parseInt : String → Option Int
  lower : String → String
  upper : String → String
  size : Bytes → Nat
  uploadMaxBytes : Nat
  uploadAllowedMimeTypes : List String
  connectionsPerUser : Nat

def ConnectEnvironment.path {Bytes : Type} (env : ConnectEnvironment Bytes) (key : ObjectKey) :
    String :=
  env.showUuid key.tenantId ++ "/" ++ env.showUuid key.documentId ++ "/" ++ key.safeName

/-- The tables, the object store, and the sockets and events of all rooms. -/
structure Spaces (Bytes : Type) where
  users : List User
  collections : Table DocumentCollection DocumentCollection.id
  permissions : Table CollectionPermission CollectionPermission.pair
  messages : Table CollectionChatMessage CollectionChatMessage.id
  media : Table CollectionChatMedia CollectionChatMedia.id
  jobs : List StorageCleanupJob
  devices : List CollectionDevice
  blocks : List CollectionChatBlock
  objects : ObjectStore Bytes
  sockets : List Socket
  /-- All events, for replay. -/
  stream : List RoomEvent
  /-- Published events that have not been delivered. -/
  channel : List RoomEvent

/-- The caller, the space, and what the rate limiter and the storage plan say. -/
structure ConnectRequest where
  (tenantId userId collectionId : Uuid)
  (withinRate fits : Bool)

/-- A chat message as the client sends it. -/
structure ChatPayload where
  message : String
  clientMessageId : Option String
  isMedia : Bool
  (mediaMimeType mediaId mediaObjectKey : Option String)

namespace Spaces

variable {Bytes : Type} (s : Spaces Bytes)

def roleOf (collectionId userId : Uuid) : Option AccessRole :=
  (s.permissions.find? (collectionId, userId)).map CollectionPermission.role

def permissionsOf (collectionId : Uuid) : List CollectionPermission :=
  s.permissions.rows.filter (fun p => p.collectionId = collectionId)

def messagesOf (collectionId : Uuid) : List CollectionChatMessage :=
  s.messages.rows.filter (fun m => m.collectionId = collectionId)

/-- `_user_has_collection_block` -/
def userHasCollectionBlock (collectionId userId : Uuid) : Bool :=
  s.blocks.any (fun b => b.collectionId = collectionId ∧
    (b.blockerUserId = userId ∨ b.blockedUserId = userId))

/-- The device is linked and not revoked; clients without a device call themselves `legacy`. -/
def deviceActive (tenantId userId : Uuid) (deviceId : String) : Bool :=
  deviceId = "legacy" ∨ s.devices.any (fun d => d.tenantId = tenantId ∧ d.userId = userId ∧
    d.deviceId = deviceId ∧ d.revoked = false)

/-- `publish_event` -/
def publish (event : RoomEvent) : Spaces Bytes :=
  { s with stream := s.stream ++ [event], channel := s.channel ++ [event] }

/-- `_queue_media_cleanup` -/
def queueMediaCleanup (collection : DocumentCollection) (mediaId : Option Uuid)
    (objectKey : Option String) (ownerUserId : Uuid) : Spaces Bytes :=
  let withdraw (m : CollectionChatMedia) : CollectionChatMedia :=
    if m.collectionId = collection.id then
      { m with status := .cleanupQueued, attachedMessageId := none }
    else m
  let media :=
    match mediaId with
    | none => s.media
    | some id => s.media.modify id withdraw (fun m => by unfold withdraw; split <;> rfl)
  let jobs :=
    match Text.nonempty objectKey with
    | none => s.jobs
    | some key => s.jobs ++ [⟨collection.tenantId, ownerUserId, key, collection.id⟩]
  { s with media := media, jobs := jobs }

def queueMessages (collection : DocumentCollection) :
    Spaces Bytes → List CollectionChatMessage → Spaces Bytes
  | s, [] => s
  | s, m :: rest =>
    queueMessages collection
      (s.queueMediaCleanup collection m.mediaId m.mediaObjectKey m.userId) rest

/-- Deleting the row of a space deletes what belongs to it. -/
def deleteCollectionRow (collectionId : Uuid) : Spaces Bytes :=
  { s with
    collections := s.collections.filter (fun c => c.id ≠ collectionId)
    permissions := s.permissions.filter (fun p => p.collectionId ≠ collectionId)
    messages := s.messages.filter (fun m => m.collectionId ≠ collectionId)
    media := s.media.filter (fun m => m.collectionId ≠ collectionId)
    blocks := s.blocks.filter (fun b => b.collectionId ≠ collectionId) }

def insertMessage (m : CollectionChatMessage) : Option (Spaces Bytes) :=
  if (s.collections.find? m.collectionId).isSome ∧
      m.mediaId.all (fun id => (s.media.find? id).isSome) then
    (s.messages.insert? m).map fun messages => { s with messages := messages }
  else none

/-- Attach the media of a new message. -/
def attachMedia (registered : Option CollectionChatMedia) (messageId : Uuid) : Spaces Bytes :=
  match registered with
  | none => s
  | some media =>
    { s with
      media := s.media.modify media.id
        (fun m => { m with status := .attached, attachedMessageId := some messageId })
        (fun _ => rfl) }

end Spaces

end AverQel.Documents
