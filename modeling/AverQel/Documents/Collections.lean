/- digest: The endpoints of shared spaces: membership, chat history and chat media. -/
import AverQel.Documents.CollectionRows
import AverQel.Foundation.Paging
import Mathlib.Data.List.Infix
import Mathlib.Data.Prod.Lex

namespace AverQel.Documents

open Foundation AverQel.System

def forbidden (message : String) : ApiError := ⟨"FORBIDDEN", message, 403⟩
def noAccess : ApiError := forbidden "You do not have access to this Qel Connect space."
def collectionNotFound : ApiError := ⟨"COLLECTION_NOT_FOUND", "Qel Connect not found.", 404⟩
def invalidMember (message : String) (statusCode : Nat) : ApiError :=
  ⟨"INVALID_COLLECTION_MEMBER", message, statusCode⟩
def bridgeFull : ApiError :=
  ⟨"COLLECTION_BRIDGE_FULL", "This Qel Connect space already has its maximum ten members.", 400⟩
def invalidMediaReference (message : String) : ApiError := ⟨"VALIDATION_ERROR", message, 422⟩
def chatBlocked : ApiError := ⟨"CHAT_BLOCKED",
  "Messaging is unavailable because a Qel Connect member is blocked.", 403⟩
def rateLimitExceeded : ApiError :=
  ⟨"RATE_LIMIT_EXCEEDED", "Rate limit exceeded for this operation.", 429⟩
def storageQuotaExceeded : ApiError :=
  ⟨"STORAGE_QUOTA_EXCEEDED", "Your workspace storage limit has been reached.", 413⟩
def idempotencyConflict : ApiError := ⟨"IDEMPOTENCY_CONFLICT",
  "This client message ID was already used for different content.", 409⟩
def internalError (message : String) : ApiError := ⟨"INTERNAL_SERVER_ERROR", message, 500⟩

namespace Spaces

variable {Bytes : Type} (env : ConnectEnvironment Bytes) (s : Spaces Bytes)

section Access

/-- `_enforce_collection_access_global`: any permission row gives access. -/
def enforceAccess (collectionId userId : Uuid) : Except ApiError AccessRole :=
  match s.roleOf collectionId userId with
  | none => .error noAccess
  | some role => .ok role

def requireCollection (collectionId : Uuid) : Except ApiError DocumentCollection :=
  match s.collections.find? collectionId with
  | none => .error collectionNotFound
  | some collection => .ok collection

def accessAs (collectionId userId : Uuid) : Except ApiError (DocumentCollection × MemberRole) := do
  let collection ← s.requireCollection collectionId
  let role ← s.enforceAccess collectionId userId
  return (collection, normalizeMemberRole role)

/-- The opening of the media endpoints and of `clear_collection_chats`: without the space, their
error lacks its status code and becomes an internal one. -/
def accessGlobal (collectionId userId : Uuid) :
    Except (Option ApiError) DocumentCollection :=
  match s.collections.find? collectionId, s.enforceAccess collectionId userId with
  | none, _ => .error none
  | some _, .error error => .error (some error)
  | some collection, .ok _ => .ok collection

def countConnectedMembers (collectionId : Uuid) : Nat :=
  ((s.permissionsOf collectionId).filter (fun p => isConnectedRole p.role)).length

variable {s} {collectionId userId : Uuid} {collection : DocumentCollection}

theorem enforceAccess_ok {role : AccessRole}
    (access : s.enforceAccess collectionId userId = .ok role) :
    s.roleOf collectionId userId = some role := by
  unfold enforceAccess at access
  split at access
  · cases access
  · rename_i given
    cases access
    exact given

theorem requireCollection_ok (found : s.requireCollection collectionId = .ok collection) :
    s.collections.find? collectionId = some collection ∧ collection.id = collectionId := by
  unfold requireCollection at found
  split at found
  · cases found
  · rename_i located
    cases found
    exact ⟨located, (Table.find?_eq_some_iff.mp located).2⟩

theorem accessAs_ok {role : MemberRole}
    (access : s.accessAs collectionId userId = .ok (collection, role)) :
    collection.id = collectionId ∧
      ∃ raw, s.roleOf collectionId userId = some raw ∧ normalizeMemberRole raw = role := by
  simp only [accessAs, bind_eq_ok_iff] at access
  obtain ⟨found, located, raw, allowed, result⟩ := access
  cases result
  exact ⟨(requireCollection_ok located).2, raw, enforceAccess_ok allowed, rfl⟩

theorem accessGlobal_ok (access : s.accessGlobal collectionId userId = .ok collection) :
    s.collections.find? collectionId = some collection ∧ collection.id = collectionId ∧
      ∃ role, s.roleOf collectionId userId = some role := by
  unfold accessGlobal at access
  split at access
  · cases access
  · cases access
  · rename_i located allowed
    cases access
    exact ⟨located, (Table.find?_eq_some_iff.mp located).2, _, enforceAccess_ok allowed⟩

end Access

/-- `create_collection`; names and codes are left out. -/
def createCollection (tenantId userId collectionId : Uuid) (description : String) :
    Attempt (Spaces Bytes) Unit :=
  let failed := internalError "Failed to create Qel Connect."
  match s.collections.insert? ⟨collectionId, tenantId, description, 0, 0⟩,
      s.permissions.insert? ⟨collectionId, userId, .owner⟩ with
  | some collections, some permissions =>
    .ok ({ s with collections := collections, permissions := permissions }, ())
  | _, _ => .error (s, some failed)

def isDirectConnection (collectionId : Uuid) : Bool :=
  (s.collections.find? collectionId).any fun collection =>
    ["1:1 Connection", "1:1 Qel Connect"].any fun marker =>
      marker.toList <:+: collection.description.toList

def invitee (connectionCode : String) : Except ApiError User :=
  let code := env.upper (Text.strip connectionCode)
  match s.users.find? (fun user => user.collectionCode = code ∧ user.isActive) with
  | none => .error (invalidMember "That Qel Connect ID was not found." 404)
  | some target => .ok target

/-- The checks of `add_permissions`, and the user that is invited. -/
def planInvitation (userId collectionId : Uuid) (connectionCode : String) :
    Except ApiError User := do
  let (_, role) ← s.accessAs collectionId userId
  ensure (role = .owner) (forbidden "Only the Qel Connect owner can send invitations.")
  let target ← s.invitee env connectionCode
  ensure (target.id ≠ userId)
    (invalidMember "Use another user's Qel Connect ID to connect." 400)
  let shared := s.permissions.rows.find? fun p =>
    p.userId = target.id ∧ (s.roleOf p.collectionId userId).isSome
  ensure (∀ p ∈ shared, s.isDirectConnection p.collectionId = false)
    (⟨"DUPLICATE_CONNECTION", "Qel Connect connection already exists!", 400⟩ : ApiError)
  ensure (s.countConnectedMembers collectionId < 10) bridgeFull
  ensure ((s.permissionsOf collectionId).all fun p => p.role ≠ .pending)
    (⟨"COLLECTION_BRIDGE_PENDING",
      "This Qel Connect space already has a pending connection request.", 400⟩ : ApiError)
  ensure (s.roleOf collectionId target.id = none)
    (⟨"COLLECTION_BRIDGE_EXISTS",
      "That user is already connected to this Qel Connect space.", 400⟩ : ApiError)
  return target

def addPermissions (userId collectionId : Uuid) (connectionCode : String) :
    Attempt (Spaces Bytes) Unit :=
  match s.planInvitation env userId collectionId connectionCode with
  | .error error => .error (s, some error)
  | .ok target =>
    match s.permissions.insert? ⟨collectionId, target.id, .pending⟩ with
    | none => .error (s, some (internalError "Failed to update Qel Connect permissions."))
    | some permissions => .ok ({ s with permissions := permissions }, ())

def advanceEpoch (collectionId : Uuid) : Spaces Bytes :=
  { s with
    collections := s.collections.modify collectionId
      (fun c => { c with securityEpoch := c.securityEpoch + 1 }) (fun _ => rfl) }

def dropPermissions (collectionId : Uuid) (userIds : List Uuid) : Spaces Bytes :=
  { s with
    permissions := s.permissions.filter fun p =>
      ¬ (p.collectionId = collectionId ∧ p.userId ∈ userIds) }

/-- `respond_to_collection_invitation`; a full space fails inside of the block that turns every
error into an internal one. -/
def respondToCollectionInvitation (userId collectionId : Uuid) (approve : Bool) :
    Attempt (Spaces Bytes) Unit :=
  match s.requireCollection collectionId with
  | .error error => .error (s, some error)
  | .ok _ =>
    if s.roleOf collectionId userId ≠ some .pending then
      .error (s, some (forbidden "No pending Qel Connect invitation was found."))
    else if approve then
      if 10 ≤ s.countConnectedMembers collectionId then
        .error (s, some (internalError "Failed to respond to Qel Connect invitation."))
      else
        let approved : Spaces Bytes :=
          { s with
            permissions := s.permissions.modify (collectionId, userId)
              (fun p => { p with role := .member }) (fun _ => rfl) }
        .ok (approved.advanceEpoch collectionId, ())
    else .ok ((s.dropPermissions collectionId [userId]).advanceEpoch collectionId, ())

/-- The checks of `remove_permissions`, and the users that are removed. -/
def planRemoval (userId collectionId : Uuid) (userIds : List Uuid) :
    Except ApiError (List Uuid) := do
  let (_, role) ← s.accessAs collectionId userId
  ensure (role ≠ .pending)
    (forbidden "Approve the Qel Connect connection before changing members.")
  if role = .owner then
    let others := userIds.filter (fun id => id ≠ userId)
    ensure (others ≠ []) (invalidMember "Select at least one non-owner member to remove." 400)
    return others
  else
    ensure (userIds.all fun id => id = userId)
      (forbidden "Members can only leave Qel Connect spaces themselves.")
    return [userId]

def removePermissions (userId collectionId : Uuid) (userIds : List Uuid) :
    Attempt (Spaces Bytes) Unit :=
  match s.planRemoval userId collectionId userIds with
  | .error error => .error (s, some error)
  | .ok removed =>
    let left := (s.advanceEpoch collectionId).dropPermissions collectionId removed
    if left.permissionsOf collectionId = [] then .ok (left.deleteCollectionRow collectionId, ())
    else .ok (left, ())

/-- `delete_collection` -/
def deleteCollection (userId collectionId : Uuid) : Attempt (Spaces Bytes) Unit :=
  match s.accessAs collectionId userId with
  | .error error => .error (s, some error)
  | .ok (collection, role) =>
    if role ≠ .owner then
      .error (s, some
        (forbidden "Only the Qel Connect owner can delete this Qel Connect space."))
    else
      let queued := s.queueMessages collection (s.messagesOf collectionId)
      .ok (queued.deleteCollectionRow collectionId, ())

/-- Delete the messages of a space that are older than its expiry, and queue their media. -/
def sweepExpired (collection : DocumentCollection) (now : Time) : Spaces Bytes :=
  if collection.expiryDays ≤ 0 then s
  else
    let cutoff := now - collection.expiryDays * 86400000000
    let expired := (s.messagesOf collection.id).filter (fun m => m.createdAt < cutoff)
    let queued := s.queueMessages collection expired
    { queued with
      messages := queued.messages.filter fun m =>
        ¬ (m.collectionId = collection.id ∧ m.createdAt < cutoff) }

/-- `list_chat_messages`: the last messages before a time, oldest first. -/
def listChatMessages (collectionId : Uuid) (limit : Nat) (before : Option Time) :
    List CollectionChatMessage :=
  let older := (s.messagesOf collectionId).filter fun m => before.all fun time => m.createdAt < time
  ((descending (fun m => toLex (m.createdAt, m.id)) older).take (max 1 (min limit 200))).reverse

/-- A page of the history. The cursor is `X-Chat-Next-Cursor`, and `X-Chat-Has-More` says whether
there is one. -/
def chatPage (collectionId : Uuid) (limit : Nat) (before : Option Time) :
    Paging.Page CollectionChatMessage Time :=
  let pageLimit := max 1 (min limit 200)
  let messages := s.listChatMessages collectionId (pageLimit + 1) before
  if pageLimit < messages.length then
    ⟨messages.tail, messages.tail.head?.map CollectionChatMessage.createdAt⟩
  else ⟨messages, none⟩

/-- `get_collection_chats` -/
def getCollectionChats (userId collectionId : Uuid) (limit : Nat) (before : Option Time)
    (now : Time) : Attempt (Spaces Bytes) (Paging.Page CollectionChatMessage Time) :=
  match s.enforceAccess collectionId userId with
  | .error error => .error (s, some error)
  | .ok _ =>
    let swept :=
      match s.collections.find? collectionId with
      | none => s
      | some collection => s.sweepExpired collection now
    .ok (swept, swept.chatPage collectionId limit before)

/-- `clear_collection_chats` -/
def clearCollectionChats (userId collectionId : Uuid) : Attempt (Spaces Bytes) Unit :=
  match s.accessGlobal collectionId userId with
  | .error error => .error (s, error)
  | .ok collection =>
    let queued := s.queueMessages collection (s.messagesOf collectionId)
    let cleared : Spaces Bytes :=
      { queued with messages := queued.messages.filter fun m => m.collectionId ≠ collectionId }
    .ok (cleared.publish ⟨collectionId, "chat_cleared", none⟩, ())

/-- `update_collection_expiry` -/
def updateCollectionExpiry (userId collectionId : Uuid) (expiryDays : Int) :
    Attempt (Spaces Bytes) Unit :=
  match s.enforceAccess collectionId userId, s.requireCollection collectionId with
  | .error error, _ => .error (s, some error)
  | .ok role, found =>
    if normalizeMemberRole role ≠ .owner then
      .error (s, some
        (forbidden "Only the Qel Connect owner can update self-destruct timers."))
    else
      match found with
      | .error error => .error (s, some error)
      | .ok _ =>
        let updated : Spaces Bytes :=
          { s with
            collections := s.collections.modify collectionId
              (fun c => { c with expiryDays := expiryDays }) (fun _ => rfl) }
        .ok (updated.publish ⟨collectionId, "expiry_updated", none⟩, ())

def syncDocuments (refusal : String) (userId collectionId : Uuid) : Attempt (Spaces Bytes) Unit :=
  match s.accessAs collectionId userId with
  | .error error => .error (s, some error)
  | .ok (_, role) =>
    if role = .pending then .error (s, some (forbidden refusal))
    else .ok (s.publish ⟨collectionId, "document_sync", none⟩, ())

def addDocumentsToCollection : Uuid → Uuid → Attempt (Spaces Bytes) Unit :=
  s.syncDocuments "Approve the Qel Connect connection before adding documents."

def removeDocumentsFromCollection : Uuid → Uuid → Attempt (Spaces Bytes) Unit :=
  s.syncDocuments "Approve the Qel Connect connection before changing documents."

/-- `_require_complete_media_reference` and `_validate_media_reference`. -/
def mediaReference (collection : DocumentCollection) (payload : ChatPayload) :
    Except ApiError (Option (Uuid × String)) :=
  let mediaId := Text.nonempty payload.mediaId
  let objectKey := Text.nonempty payload.mediaObjectKey
  if payload.isMedia ∧ (mediaId = none ∨ objectKey = none) then
    .error (invalidMediaReference
      "Media messages require an uploaded media ID and storage reference.")
  else
    match mediaId.map env.parseUuid, objectKey with
    | none, none => .ok none
    | some none, _ => .error (invalidMediaReference "The media reference is invalid.")
    | none, some _ | some (some _), none =>
      .error (invalidMediaReference
        "A media ID and storage reference must be supplied together.")
    | some (some id), some key =>
      let normalized := key.toList.map fun c => if c = '\\' then '/' else c
      let ownPrefix := env.showUuid collection.tenantId ++ "/" ++ env.showUuid id ++ "/"
      if ¬ ownPrefix.toList <+: normalized ∨ "..".toList ∈ normalized.splitOn '/' then
        .error (forbidden "The media object is not owned by this Qel Connect tenant.")
      else .ok (some (id, String.ofList normalized))

/-- `_validate_registered_media` -/
def validateRegisteredMedia (collection : DocumentCollection) (userId : Uuid)
    (reference : Option (Uuid × String)) : Except ApiError (Option CollectionChatMedia) :=
  match reference with
  | none => .ok none
  | some (id, key) =>
    match s.media.find? id with
    | none => .ok none
    | some media =>
      if media.collectionId ≠ collection.id ∨ media.tenantId ≠ collection.tenantId ∨
          media.uploadedByUserId ≠ userId ∨ env.path media.objectKey ≠ key ∨
          media.status = .cleanupQueued then
        .error (forbidden "The media object is not available to this Qel Connect member.")
      else .ok (some media)

def existingMessage (userId collectionId : Uuid) (clientMessageId : Option String) :
    Option CollectionChatMessage :=
  (Text.nonempty clientMessageId).bind fun clientId =>
    s.messages.rows.find? fun m =>
      m.collectionId = collectionId ∧ m.userId = userId ∧ m.clientMessageId = some clientId

def conflicts (existing : CollectionChatMessage) (payload : ChatPayload)
    (reference : Option (Uuid × String)) : Bool :=
  existing.message ≠ payload.message ∨ existing.isMedia ≠ payload.isMedia ∨
    existing.mediaObjectKey ≠ reference.map Prod.snd

def newMessage (userId collectionId messageId : Uuid) (payload : ChatPayload)
    (reference : Option (Uuid × String)) (now : Time) : CollectionChatMessage where
  id := messageId
  collectionId := collectionId
  userId := userId
  message := payload.message
  clientMessageId := payload.clientMessageId
  isMedia := payload.isMedia
  mediaMimeType := payload.mediaMimeType
  mediaId := reference.map Prod.fst
  mediaObjectKey := reference.map Prod.snd
  reactions := []
  createdAt := now

def sendMessage (message : CollectionChatMessage) (registered : Option CollectionChatMedia) :
    Option (Spaces Bytes) :=
  (s.insertMessage message).map fun sent =>
    (sent.attachMedia registered message.id).publish
      ⟨message.collectionId, "new_message", some message.id⟩

/-- The checks of `create_collection_chat` before it looks for an earlier send. -/
def planChat (request : ConnectRequest) (payload : ChatPayload) :
    Except ApiError (Option (Uuid × String) × Option CollectionChatMedia) := do
  let _ ← s.enforceAccess request.collectionId request.userId
  let collection ← s.requireCollection request.collectionId
  ensure (s.userHasCollectionBlock request.collectionId request.userId = false) chatBlocked
  ensure (request.withinRate = true) rateLimitExceeded
  let reference ← mediaReference env collection payload
  let registered ← s.validateRegisteredMedia env collection request.userId reference
  return (reference, registered)

/-- `create_collection_chat`: the message, and whether it is new. -/
def createCollectionChat (request : ConnectRequest) (messageId : Uuid) (payload : ChatPayload)
    (now : Time) : Attempt (Spaces Bytes) (CollectionChatMessage × Bool) :=
  match s.planChat env request payload with
  | .error error => .error (s, some error)
  | .ok (reference, registered) =>
    match s.existingMessage request.userId request.collectionId payload.clientMessageId with
    | some existing =>
      if conflicts existing payload reference then .error (s, some idempotencyConflict)
      else .ok (s, existing, false)
    | none =>
      if request.fits = false then .error (s, some storageQuotaExceeded)
      else
        let message :=
          newMessage request.userId request.collectionId messageId payload reference now
        match s.sendMessage message registered with
        | none => .error (s, none)
        | some sent => .ok (sent, message, true)

/-- An upload as the client declares it. -/
structure MediaUpload (Bytes : Type) where
  (filename contentType contentLength : Option String)
  payload : Bytes

/-- The checks of `upload_collection_chat_media`. -/
def planUpload (request : ConnectRequest) (upload : MediaUpload Bytes) :
    Except (Option ApiError) DocumentCollection := do
  let collection ← s.accessGlobal request.collectionId request.userId
  ensure (request.withinRate = true) (some rateLimitExceeded)
  let declared := Text.orDefault upload.contentType "application/octet-stream"
  let plain := String.ofList (declared.toList.takeWhile fun c => c ≠ ';')
  ensure (env.lower (Text.strip plain) ∈ env.uploadAllowedMimeTypes.map env.lower)
    (some (⟨"UNSUPPORTED_MEDIA_TYPE",
      "This media type is not allowed for Qel Connect chat uploads.", 415⟩ : ApiError))
  let length := (Text.nonempty upload.contentLength).map env.parseInt
  ensure (length ≠ some none)
    (some (invalidMediaReference "The media content length is invalid."))
  let tooLarge : ApiError :=
    ⟨"PAYLOAD_TOO_LARGE", "Qel Connect media exceeds the configured upload limit.", 413⟩
  ensure (∀ size ∈ length.join, size ≤ env.uploadMaxBytes) (some tooLarge)
  ensure (env.size upload.payload ≤ env.uploadMaxBytes) (some tooLarge)
  return collection

/-- `upload_collection_chat_media`: the object is stored first, and queued for deletion again when
its record cannot be written. -/
def uploadCollectionChatMedia (request : ConnectRequest) (mediaId : Uuid)
    (upload : MediaUpload Bytes) (now : Time) : Attempt (Spaces Bytes) ObjectKey :=
  match s.planUpload env request upload with
  | .error error => .error (s, error)
  | .ok collection =>
    let key := objectKey collection.tenantId mediaId (Text.orDefault upload.filename "media")
    let stored : Spaces Bytes := { s with objects := s.objects.put key upload.payload }
    let record : CollectionChatMedia :=
      { id := mediaId
        collectionId := request.collectionId
        tenantId := collection.tenantId
        uploadedByUserId := request.userId
        objectKey := key
        status := .uploaded
        attachedMessageId := none
        createdAt := now }
    match stored.media.insert? record with
    | none =>
      .error (stored.queueMediaCleanup collection none (some (env.path key)) request.userId,
        some ⟨"MEDIA_REGISTRATION_FAILED",
          "The uploaded media could not be registered safely.", 500⟩)
    | some media => .ok ({ stored with media := media }, key)

/-- The key that `download_collection_chat_media` makes of its URL. -/
def downloadKey (collection : DocumentCollection) (mediaId : Uuid) (filename : String) :
    ObjectKey :=
  let safe := replaceUnsafe filename.toList
  ⟨collection.tenantId, mediaId, if safe = [] then "file" else String.ofList safe⟩

/-- `download_collection_chat_media` -/
def downloadCollectionChatMedia (userId collectionId mediaId : Uuid) (filename : String) :
    Except (Option ApiError) (ObjectKey × Bytes) :=
  match s.accessGlobal collectionId userId with
  | .error error => .error error
  | .ok collection =>
    let key := downloadKey collection mediaId filename
    match s.objects key with
    | none => .error none
    | some payload => .ok (key, payload)

/-- `collection_chat_media_orphan_sweep`: uploads of long ago that no message has. -/
def orphanSweep (cutoff : Time) : Spaces Bytes :=
  let abandoned (m : CollectionChatMedia) : Bool :=
    m.status = .uploaded ∧ m.attachedMessageId = none ∧ m.createdAt < cutoff
  let swept := (ascending CollectionChatMedia.createdAt (s.media.rows.filter abandoned)).take 200
  { s with
    media := s.media.mapRows
      (fun m => if m.id ∈ swept.map CollectionChatMedia.id then { m with status := .cleanupQueued }
        else m)
      (fun m => by split <;> rfl)
    jobs := s.jobs ++ swept.map fun m =>
      ⟨m.tenantId, m.uploadedByUserId, env.path m.objectKey, m.collectionId⟩ }

def runCleanup (jobs : Nat) : Spaces Bytes :=
  let due := s.jobs.take jobs
  { s with
    objects := fun key =>
      if env.path key ∈ due.map StorageCleanupJob.objectKey then none else s.objects key
    jobs := s.jobs.drop jobs }

/-- `register_collection_device`, which also brings a revoked device back. -/
def registerDevice (tenantId userId : Uuid) (deviceId : String) : Spaces Bytes :=
  let others := s.devices.filter fun d =>
    ¬ (d.tenantId = tenantId ∧ d.userId = userId ∧ d.deviceId = deviceId)
  { s with devices := others ++ [⟨tenantId, userId, deviceId, false⟩] }

/-- `revoke_collection_device` -/
def revokeDevice (tenantId userId : Uuid) (deviceId : String) : Spaces Bytes :=
  { s with
    devices := s.devices.map fun d =>
      if d.tenantId = tenantId ∧ d.userId = userId ∧ d.deviceId = deviceId then
        { d with revoked := true }
      else d }

/-- `block_collection_member` -/
def blockMember (userId collectionId blockedId : Uuid) : Attempt (Spaces Bytes) Unit :=
  match (do
      let _ ← s.accessAs collectionId userId
      ensure (blockedId ≠ userId) (invalidMediaReference "You cannot block yourself.")
      s.enforceAccess collectionId blockedId) with
  | .error error => .error (s, some error)
  | .ok _ =>
    let block : CollectionChatBlock := ⟨collectionId, userId, blockedId⟩
    .ok ({ s with blocks := if block ∈ s.blocks then s.blocks else s.blocks ++ [block] }, ())

/-- `unblock_collection_member` -/
def unblockMember (userId collectionId blockedId : Uuid) : Attempt (Spaces Bytes) Unit :=
  match s.accessAs collectionId userId with
  | .error error => .error (s, some error)
  | .ok _ =>
    .ok ({ s with blocks := s.blocks.filter fun b => b ≠ ⟨collectionId, userId, blockedId⟩ }, ())

end Spaces

end AverQel.Documents
