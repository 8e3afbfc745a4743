/- digest: Histories of shared spaces: every call, socket turn and delivery, in any order. -/
import AverQel.Documents.CollectionSocket
import AverQel.Foundation.Transition

namespace AverQel.Documents

open Foundation AverQel.System

structure MediaUse where
  collectionId : Uuid
  key : ObjectKey
  deriving DecidableEq

/-- A user took part in a space, with this role at that moment. -/
structure Participation where
  (userId collectionId : Uuid)
  role : Option AccessRole
  deriving DecidableEq

/-- The spaces, and what happened: uploads and reads of media, and who took part. -/
structure ConnectHistory (Bytes : Type) where
  spaces : Spaces Bytes
  (uploads reads : List MediaUse)
  participations : List Participation
  /-- Ids under which objects were stored. -/
  usedIds : List Uuid

inductive ConnectStep (Bytes : Type) where
  | createCollection (tenantId userId collectionId : Uuid) (description : String)
  | addPermissions (userId collectionId : Uuid) (connectionCode : String)
  | respond (userId collectionId : Uuid) (approve : Bool)
  | removePermissions (userId collectionId : Uuid) (userIds : List Uuid)
  | deleteCollection (userId collectionId : Uuid)
  | getChats (userId collectionId : Uuid) (limit : Nat) (before : Option Time) (now : Time)
  | postChat (request : ConnectRequest) (messageId : Uuid) (payload : ChatPayload) (now : Time)
  | clearChats (userId collectionId : Uuid)
  | updateExpiry (userId collectionId : Uuid) (expiryDays : Int)
  | addDocuments (userId collectionId : Uuid)
  | removeDocuments (userId collectionId : Uuid)
  | uploadMedia (request : ConnectRequest) (mediaId : Uuid) (upload : Spaces.MediaUpload Bytes)
      (now : Time)
  | downloadMedia (userId collectionId mediaId : Uuid) (filename : String)
  | connect (socket : Socket) (lastEventId : Option Nat)
  | turn (socketId : Uuid) (withinRate fits : Bool) (messageId : Uuid) (now : Time)
      (action : SocketAction)
  | disconnect (socketId : Uuid)
  | deliver (collectionId : Uuid)
  | orphanSweep (cutoff : Time)
  | runCleanup (jobs : Nat)
  | registerDevice (tenantId userId : Uuid) (deviceId : String)
  | revokeDevice (tenantId userId : Uuid) (deviceId : String)
  | block (userId collectionId blockedId : Uuid)
  | unblock (userId collectionId blockedId : Uuid)
  /-- Another feature stores a document, a Library file or an artifact. -/
  | storeObject (key : ObjectKey) (payload : Bytes)

namespace ConnectHistory

variable {Bytes : Type} (env : ConnectEnvironment Bytes) (h : ConnectHistory Bytes)

/-- Nothing but users yet. -/
def start (users : List User) : ConnectHistory Bytes where
  spaces :=
    { users := users, collections := .empty, permissions := .empty, messages := .empty
      media := .empty, jobs := [], devices := [], blocks := [], objects := fun _ => none
      sockets := [], stream := [], channel := [] }
  uploads := []
  reads := []
  participations := []
  usedIds := []

def participate (userId collectionId : Uuid) : ConnectHistory Bytes :=
  { h with participations :=
      ⟨userId, collectionId, h.spaces.roleOf collectionId userId⟩ :: h.participations }

def participateAll (collectionId : Uuid) : ConnectHistory Bytes → List Socket → ConnectHistory Bytes
  | h, [] => h
  | h, socket :: rest => participateAll collectionId (h.participate socket.userId collectionId) rest

def withSpaces (spaces : Spaces Bytes) : ConnectHistory Bytes := { h with spaces := spaces }

def call {α : Type} (userId collectionId : Uuid) (result : Attempt (Spaces Bytes) α) :
    ConnectHistory Bytes :=
  match result with
  | .error (s, _) => h.withSpaces s
  | .ok (s, _) => (h.participate userId collectionId).withSpaces s

/-- An upload whose checks pass stores its object, with or without a record; `uuid4` does not repeat
an id. -/
def uploadMedia (request : ConnectRequest) (mediaId : Uuid) (media : Spaces.MediaUpload Bytes)
    (now : Time) : ConnectHistory Bytes :=
  let result := h.spaces.uploadCollectionChatMedia env request mediaId media now
  if mediaId ∈ h.usedIds then h
  else
    match h.spaces.planUpload env request media with
    | .error _ => h.withSpaces result.state
    | .ok collection =>
      let key := objectKey collection.tenantId mediaId (Text.orDefault media.filename "media")
      { h with
        spaces := result.state
        uploads := ⟨request.collectionId, key⟩ :: h.uploads
        usedIds := mediaId :: h.usedIds }

def postChat (request : ConnectRequest) (messageId : Uuid) (payload : ChatPayload) (now : Time) :
    ConnectHistory Bytes :=
  match h.spaces.createCollectionChat env request messageId payload now with
  | .ok (s, _, true) => (h.participate request.userId request.collectionId).withSpaces s
  | result => h.withSpaces result.state

def downloadMedia (userId collectionId mediaId : Uuid) (filename : String) :
    ConnectHistory Bytes :=
  match h.spaces.downloadCollectionChatMedia userId collectionId mediaId filename with
  | .error _ => h
  | .ok (key, _) =>
    { h.participate userId collectionId with reads := ⟨collectionId, key⟩ :: h.reads }

/-- A new socket; the replay of earlier events is a reception. -/
def connect (socket : Socket) (lastEventId : Option Nat) : ConnectHistory Bytes :=
  if socket.id ∈ h.spaces.sockets.map Socket.id then h
  else
    match h.spaces.connectSocket env socket lastEventId with
    | .error _ => h
    | .ok (s, []) => h.withSpaces s
    | .ok (s, _ :: _) => (h.participate socket.userId socket.collectionId).withSpaces s

def turn (socketId : Uuid) (withinRate fits : Bool) (messageId : Uuid) (now : Time)
    (action : SocketAction) : ConnectHistory Bytes :=
  match h.spaces.sockets.find? (fun socket => socket.id = socketId) with
  | none => h
  | some socket =>
    match h.spaces.socketTurn env socket withinRate fits messageId now action with
    | (s, true) => (h.participate socket.userId socket.collectionId).withSpaces s
    | (s, false) => h.withSpaces s

def disconnect (socketId : Uuid) : ConnectHistory Bytes :=
  match h.spaces.sockets.find? (fun socket => socket.id = socketId) with
  | none => h
  | some socket => h.withSpaces (h.spaces.disconnectSocket socket)

def deliver (collectionId : Uuid) : ConnectHistory Bytes :=
  let (s, receivers) := h.spaces.deliverNext collectionId
  (participateAll collectionId h receivers).withSpaces s

def storeObject (key : ObjectKey) (payload : Bytes) : ConnectHistory Bytes :=
  if key.documentId ∈ h.uploads.map (fun upload => upload.key.documentId) then h
  else
    { h with
      spaces := { h.spaces with objects := h.spaces.objects.put key payload }
      usedIds := key.documentId :: h.usedIds }

def step : ConnectStep Bytes → ConnectHistory Bytes
  | .createCollection tenantId userId collectionId description =>
    h.withSpaces (h.spaces.createCollection tenantId userId collectionId description).state
  | .addPermissions userId collectionId code =>
    h.withSpaces (h.spaces.addPermissions env userId collectionId code).state
  | .respond userId collectionId approve =>
    h.withSpaces (h.spaces.respondToCollectionInvitation userId collectionId approve).state
  | .removePermissions userId collectionId userIds =>
    h.withSpaces (h.spaces.removePermissions userId collectionId userIds).state
  | .deleteCollection userId collectionId =>
    h.withSpaces (h.spaces.deleteCollection userId collectionId).state
  | .getChats userId collectionId limit before now =>
    h.call userId collectionId (h.spaces.getCollectionChats userId collectionId limit before now)
  | .postChat request messageId payload now => h.postChat env request messageId payload now
  | .clearChats userId collectionId =>
    h.call userId collectionId (h.spaces.clearCollectionChats userId collectionId)
  | .updateExpiry userId collectionId expiryDays =>
    h.withSpaces (h.spaces.updateCollectionExpiry userId collectionId expiryDays).state
  | .addDocuments userId collectionId =>
    h.withSpaces (h.spaces.addDocumentsToCollection userId collectionId).state
  | .removeDocuments userId collectionId =>
    h.withSpaces (h.spaces.removeDocumentsFromCollection userId collectionId).state
  | .uploadMedia request mediaId media now => h.uploadMedia env request mediaId media now
  | .downloadMedia userId collectionId mediaId filename =>
    h.downloadMedia userId collectionId mediaId filename
  | .connect socket lastEventId => h.connect env socket lastEventId
  | .turn socketId withinRate fits messageId now action =>
    h.turn env socketId withinRate fits messageId now action
  | .disconnect socketId => h.disconnect socketId
  | .deliver collectionId => h.deliver collectionId
  | .orphanSweep cutoff => h.withSpaces (h.spaces.orphanSweep env cutoff)
  | .runCleanup jobs => h.withSpaces (h.spaces.runCleanup env jobs)
  | .registerDevice tenantId userId deviceId =>
    h.withSpaces (h.spaces.registerDevice tenantId userId deviceId)
  | .revokeDevice tenantId userId deviceId =>
    h.withSpaces (h.spaces.revokeDevice tenantId userId deviceId)
  | .block userId collectionId blockedId =>
    h.withSpaces (h.spaces.blockMember userId collectionId blockedId).state
  | .unblock userId collectionId blockedId =>
    h.withSpaces (h.spaces.unblockMember userId collectionId blockedId).state
  | .storeObject key payload => h.storeObject key payload

def parseDigits (text : String) : Option Nat :=
  let digits := text.toList
  if digits = [] ∨ ¬ digits.all Char.isDigit then none
  else some (digits.foldl (fun n digit => 10 * n + (digit.toNat - '0'.toNat)) 0)

/-- Ids are written as numbers. -/
def smallEnvironment : ConnectEnvironment String where
  showUuid := Nat.repr
  parseUuid := parseDigits
  parseInt := fun text => (parseDigits text).map Int.ofNat
  lower := id
  upper := id
  size := String.length
  uploadMaxBytes := 100
  uploadAllowedMimeTypes := ["image/png"]
  connectionsPerUser := 5

def twoUsers : List User := [⟨1, true, "ADA"⟩, ⟨2, true, "BEN"⟩]

end ConnectHistory

end AverQel.Documents
