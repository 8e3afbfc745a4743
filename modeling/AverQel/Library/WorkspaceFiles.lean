/- digest: Library files, their recorded versions, and the endpoints that write them. -/
import AverQel.Foundation.Fallible
import AverQel.Foundation.Table
import AverQel.Library.ContentTypes
import AverQel.System.StorageService

namespace AverQel.Library

open Foundation AverQel.System

structure Conversation where
  (id tenantId userId : Uuid)
  kind : String

structure WorkspaceFolder where
  (id tenantId userId conversationId : Uuid)

structure WorkspaceFile where
  (id tenantId userId conversationId : Uuid)
  parentFolderId : Option Uuid
  (name contentType content source : String)
  sizeBytes : Nat
  storageKey : Option ObjectKey
  checksumSha256 : Option String
  version : Nat
  isBinary : Bool

/-- `DeepSpaceWorkspaceFileVersion`: "Immutable metadata/content snapshot for one Library file
revision." -/
structure WorkspaceFileVersion where
  (fileId tenantId userId conversationId : Uuid)
  version : Nat
  (name contentType : String)
  content : Option String
  storageKey : Option ObjectKey
  checksumSha256 : String
  sizeBytes : Nat

def WorkspaceFileVersion.number (v : WorkspaceFileVersion) : Uuid × Nat := (v.fileId, v.version)

/-- Encodings, hashing and parsing, as the endpoints call them. -/
structure LibraryEnvironment (Bytes : Type) where
  lower : String → String
  parseUuid : String → Option Uuid
  /-- `file_id.hex[:8]` -/
  shortHex : Uuid → String
  /-- `str.encode("utf-8")` -/
  encode : String → Bytes
  /-- `bytes.decode("utf-8", errors="replace")` -/
  decode : Bytes → String
  sha256 : Bytes → String
  sha256_ne_empty : ∀ payload, sha256 payload ≠ ""
  size : Bytes → Nat
  /-- The declared type and the decoded payload of a data URL; `none` for other text. -/
  parseDataUrl : String → Option (String × Option Bytes)
  uploadMaxBytes : Nat

structure LibraryState (Bytes : Type) where
  conversations : List Conversation
  folders : List WorkspaceFolder
  files : Table WorkspaceFile WorkspaceFile.id
  versions : Table WorkspaceFileVersion WorkspaceFileVersion.number
  objects : ObjectStore Bytes

/-- The caller, the conversation of the request, and whether the storage plan has room left. -/
structure LibraryRequest where
  (tenantId userId conversationId : Uuid)
  fits : Bool

structure NewFile (Bytes : Type) where
  file : WorkspaceFile
  payload : Option Bytes

structure OfficeWrite (Bytes : Type) where
  key : ObjectKey
  (payload oldPayload : Bytes)

structure FileUpdate (Bytes : Type) where
  (original file : WorkspaceFile)
  write : Option (OfficeWrite Bytes)

/-- `WorkspaceFileUpdate`; a folder that is given may be empty text, which stands for the root. -/
structure FileChanges where
  (name content : Option String)
  parentFolderId : Option (Option String)
  expectedVersion : Option Nat

def notFound (message : String) : ApiError := ⟨"NOT_FOUND", message, 404⟩
def nameConflict (message : String) : ApiError := ⟨"IDEMPOTENCY_CONFLICT", message, 409⟩
def storageQuotaExceeded : ApiError := ⟨"STORAGE_QUOTA_EXCEEDED",
  "Your workspace storage limit has been reached. Choose a larger plan or remove old files.", 413⟩
def docTooLarge (message : String) : ApiError := ⟨"DOC_TOO_LARGE", message, 413⟩

namespace LibraryState

variable {Bytes : Type} (env : LibraryEnvironment Bytes) (lib : LibraryState Bytes)
  (request : LibraryRequest)

/-- `_conversation` -/
def requireConversation : Except ApiError Unit :=
  ensure (∃ c ∈ lib.conversations, c.id = request.conversationId ∧ c.tenantId = request.tenantId ∧
      c.userId = request.userId ∧ c.kind = "deepspace")
    ⟨"CONVERSATION_NOT_FOUND", "DeepSpace workspace not found", 404⟩

/-- `_owned_file` -/
def ownedFile (fileId : Uuid) : Except ApiError WorkspaceFile :=
  match (lib.files.find? fileId).filter (fun file => file.tenantId = request.tenantId ∧
      file.userId = request.userId ∧ file.conversationId = request.conversationId) with
  | none => .error (notFound "DeepSpace file not found")
  | some file => .ok file

/-- `_parse_optional_uuid` followed by `_owned_folder` -/
def ownedParent (parentFolderId : Option String) : Except ApiError (Option Uuid) :=
  match Text.nonempty parentFolderId with
  | none => .ok none
  | some text =>
    match env.parseUuid text with
    | none => .error ⟨"INVALID_REQUEST", "Invalid parent_folder_id.", 422⟩
    | some id =>
      if lib.folders.any (fun folder => folder.id = id ∧ folder.tenantId = request.tenantId ∧
          folder.userId = request.userId ∧ folder.conversationId = request.conversationId) then
        .ok (some id)
      else .error (notFound "DeepSpace folder not found")

/-- `_ensure_storage_capacity` -/
def ensureStorageCapacity : Except ApiError Unit := ensure (request.fits = true) storageQuotaExceeded

def nameTaken (file : WorkspaceFile) : Bool :=
  lib.files.rows.any (fun other => other.id ≠ file.id ∧
    other.conversationId = file.conversationId ∧ other.parentFolderId = file.parentFolderId ∧
    other.name = file.name)

/-- `_library_file_payload` -/
def libraryFilePayload (file : WorkspaceFile) : Except ApiError Bytes :=
  if file.isBinary = false then .ok (env.encode file.content)
  else
    match file.storageKey with
    | none => .error ⟨"STORAGE_OBJECT_NOT_FOUND", "Library file payload is missing.", 404⟩
    | some key =>
      match lib.objects key with
      | none => .error ⟨"STORAGE_OBJECT_NOT_FOUND", "Object storage payload is missing.", 503⟩
      | some payload => .ok payload

/-- The row that `_add_version` adds. -/
def snapshot (file : WorkspaceFile) : WorkspaceFileVersion where
  fileId := file.id
  tenantId := file.tenantId
  userId := file.userId
  conversationId := file.conversationId
  version := file.version
  name := file.name
  contentType := file.contentType
  content := if file.isBinary then none else some file.content
  storageKey := file.storageKey
  checksumSha256 := Text.orDefault file.checksumSha256 (env.sha256 (env.encode ""))
  sizeBytes := file.sizeBytes

/-- `_add_version` and the commit after it. -/
def addVersion (file : WorkspaceFile) : Attempt (LibraryState Bytes) WorkspaceFile :=
  match lib.versions.insert? (snapshot env file) with
  | none => .error (lib, none)
  | some versions => .ok ({ lib with versions := versions }, file)

def saveFile (file : WorkspaceFile) : LibraryState Bytes :=
  { lib with files := lib.files.modify file.id (fun row => { file with id := row.id }) (fun _ => rfl) }

/-- The common end of the endpoints that create a file: store the object, insert the row, and
record the first version. A name that is taken deletes the object again. -/
def publish (new : NewFile Bytes) (conflictMessage : String) :
    Attempt (LibraryState Bytes) WorkspaceFile :=
  let key := objectKey new.file.tenantId new.file.id new.file.name
  let stored : LibraryState Bytes × WorkspaceFile :=
    match new.payload with
    | none => (lib, new.file)
    | some payload => ({ lib with objects := lib.objects.put key payload },
        { new.file with storageKey := some key })
  let withdrawn : LibraryState Bytes :=
    match new.payload with
    | none => lib
    | some _ => { lib with objects := stored.1.objects.delete key }
  if lib.nameTaken new.file then .error (withdrawn, some (nameConflict conflictMessage))
  else
    match lib.files.insert? stored.2 with
    | none => .error (withdrawn, some (nameConflict conflictMessage))
    | some files => { stored.1 with files := files }.addVersion env stored.2

/-- The row of a new file; the object is stored for binary types only. -/
def newFile (fileId : Uuid) (parentFolderId : Option Uuid) (name contentType source text : String)
    (payload : Bytes) (isBinary : Bool) : NewFile Bytes where
  file :=
    { id := fileId
      tenantId := request.tenantId
      userId := request.userId
      conversationId := request.conversationId
      parentFolderId := parentFolderId
      name := name
      contentType := contentType
      content := if isBinary then "" else text
      source := source
      sizeBytes := env.size payload
      storageKey := none
      checksumSha256 := some (env.sha256 payload)
      version := 1
      isBinary := isBinary }
  payload := if isBinary then some payload else none

/-- `decode_library_payload`: payload, content type, and whether it came as a data URL. -/
def decodeLibraryPayload (content contentType : String) :
    Except ApiError (Bytes × String × Bool) :=
  match env.parseDataUrl (Text.strip content) with
  | none => .ok (env.encode content, contentType, false)
  | some (_, none) =>
    .error ⟨"INVALID_UPLOAD_SIGNATURE", "The binary file payload is invalid.", 422⟩
  | some (declared, some payload) =>
    .ok (payload, Text.orDefault (some (env.lower (Text.strip declared))) contentType, true)

/-- The checks of `create_workspace_file`, on a request that its schema has accepted. -/
def planCreate (fileId : Uuid) (name content contentType : String)
    (parentFolderId : Option String) : Except ApiError (NewFile Bytes) := do
  lib.requireConversation request
  let parentId ← lib.ownedParent env request parentFolderId
  let (payload, contentType, isDataUrl) ← decodeLibraryPayload env content contentType
  ensure (contentType ∈ libraryContentTypes)
    (⟨"INVALID_UPLOAD_TYPE", "This file type is not supported in the DeepSpace Library.", 422⟩ :
      ApiError)
  ensure (env.size payload ≤ env.uploadMaxBytes)
    (docTooLarge "The file exceeds the configured upload limit.")
  ensureStorageCapacity request
  return newFile env request fileId parentId name contentType "user" content payload
    (isDataUrl || !isTextType contentType)

def createWorkspaceFile (fileId : Uuid) (name content contentType : String)
    (parentFolderId : Option String) : Attempt (LibraryState Bytes) WorkspaceFile :=
  match lib.planCreate env request fileId name content contentType parentFolderId with
  | .error error => .error (lib, some error)
  | .ok new => lib.publish env new "A file with that name already exists in this workspace"

def uploadContentType (declared : Option String) (name : String) : String :=
  let declared := env.lower (Text.orDefault declared (contentTypeForName env.lower name))
  let plain := String.ofList (declared.toList.takeWhile (fun c => c ≠ ';'))
  if plain ∈ libraryContentTypes then plain else contentTypeForName env.lower name

def uploadName (filename : Option String) : Except ApiError String :=
  match safeName (Text.strip (Text.orDefault filename "upload.bin")) with
  | none => .error ⟨"INVALID_UPLOAD_FILENAME",
    "File names may contain only letters, numbers, spaces, dots, underscores, and hyphens.", 422⟩
  | some name => .ok name

/-- The checks of `upload_workspace_file`. A text payload is decoded, and its checksum is that of
the bytes that were sent. -/
def planUpload (fileId : Uuid) (filename declaredType : Option String) (payload : Bytes)
    (parentFolderId : Option String) : Except ApiError (NewFile Bytes) := do
  lib.requireConversation request
  let name ← uploadName filename
  let parentId ← lib.ownedParent env request parentFolderId
  ensure (env.size payload ≤ env.uploadMaxBytes)
    (docTooLarge "The file exceeds the configured upload limit.")
  ensureStorageCapacity request
  let contentType := uploadContentType env declaredType name
  return newFile env request fileId parentId name contentType "user" (env.decode payload) payload
    (!isTextType contentType)

def uploadWorkspaceFile (fileId : Uuid) (filename declaredType : Option String) (payload : Bytes)
    (parentFolderId : Option String) : Attempt (LibraryState Bytes) WorkspaceFile :=
  match lib.planUpload env request fileId filename declaredType payload parentFolderId with
  | .error error => .error (lib, some error)
  | .ok new => lib.publish env new "A file with that name already exists in this workspace."

/-- The end of `import_remote_asset`, once an image has been downloaded and checked. -/
def planAsset (fileId : Uuid) (name contentType : String) (body : Bytes) (temporary : Bool) :
    Except ApiError (NewFile Bytes) := do
  lib.requireConversation request
  let duplicate := lib.files.rows.any (fun file => file.tenantId = request.tenantId ∧
    file.userId = request.userId ∧ file.conversationId = request.conversationId ∧
    file.parentFolderId = none ∧ file.name = name)
  let name :=
    if duplicate then
      match lastExtension name with
      | none => name ++ "-" ++ env.shortHex fileId
      | some extension => stem name ++ "-" ++ env.shortHex fileId ++ "." ++ extension
    else name
  ensureStorageCapacity request
  return newFile env request fileId none name contentType
    (if temporary then "temporary_asset" else "remote_asset") "" body true

def importRemoteAsset (fileId : Uuid) (name contentType : String) (body : Bytes)
    (temporary : Bool) : Attempt (LibraryState Bytes) WorkspaceFile :=
  match lib.planAsset env request fileId name contentType body temporary with
  | .error error => .error (lib, some error)
  | .ok new => lib.publish env new "An owned asset with that name already exists."

def retainTemporaryAsset (fileId : Uuid) : Attempt (LibraryState Bytes) WorkspaceFile :=
  match (do lib.requireConversation request; lib.ownedFile request fileId) with
  | .error error => .error (lib, some error)
  | .ok file =>
    if file.source = "temporary_asset" then
      let kept := { file with source := "remote_asset", version := file.version + 1 }
      (lib.saveFile kept).addVersion env kept
    else .ok (lib, file)

/-- What `update_workspace_file` does to the row for new content: text is stored in the row, an
Office document is generated and stored under the file's current name. -/
def planContent (file : WorkspaceFile) (content : String) (generated : Bytes) :
    Except ApiError (WorkspaceFile × Option (OfficeWrite Bytes)) := do
  if file.isBinary then
    ensure (file.contentType ∈ officeTypes)
      (⟨"VALIDATION_ERROR", "This binary format cannot be edited in the browser.", 422⟩ : ApiError)
    ensure (content.length ≤ 8000000)
      (⟨"DOCUMENT_TEXT_LIMIT_EXCEEDED", "The edited document is too large.", 413⟩ : ApiError)
    let oldPayload ← lib.libraryFilePayload env file
    ensure (env.size generated ≤ env.uploadMaxBytes) (docTooLarge "The edited file is too large.")
    ensureStorageCapacity request
    let key := objectKey request.tenantId file.id file.name
    let edited : WorkspaceFile :=
      { file with
        storageKey := some key
        sizeBytes := env.size generated
        checksumSha256 := some (env.sha256 generated) }
    .ok (edited, some ⟨key, generated, oldPayload⟩)
  else
    ensureStorageCapacity request
    let encoded := env.encode content
    let edited : WorkspaceFile :=
      { file with
        content := content
        sizeBytes := env.size encoded
        checksumSha256 := some (env.sha256 encoded) }
    .ok (edited, none)

/-- The row with the name of the changes; a text file takes the content type of its new name. -/
def renamed (file : WorkspaceFile) (changes : FileChanges) : WorkspaceFile :=
  match changes.name with
  | none => file
  | some name =>
    { file with
      name := name
      contentType :=
        if file.isBinary then file.contentType else contentTypeForName env.lower name }

def planParent (file : WorkspaceFile) (changes : FileChanges) : Except ApiError (Option Uuid) :=
  match changes.parentFolderId with
  | none => .ok file.parentFolderId
  | some text => lib.ownedParent env request text

def planEdit (file : WorkspaceFile) (changes : FileChanges) (generated : Bytes) :
    Except ApiError (WorkspaceFile × Option (OfficeWrite Bytes)) :=
  match changes.content with
  | none => .ok (file, none)
  | some content => lib.planContent env request file content generated

/-- The part of `update_workspace_file` before its commit. `generated` is what the Office writer
makes of the new content. -/
def planUpdate (fileId : Uuid) (changes : FileChanges) (generated : Bytes) :
    Except ApiError (FileUpdate Bytes) := do
  lib.requireConversation request
  let original ← lib.ownedFile request fileId
  ensure (∀ expected ∈ changes.expectedVersion, expected = original.version)
    (nameConflict "The file changed since it was opened. Reload before saving.")
  let named := renamed env original changes
  let parentFolderId ← lib.planParent env request named changes
  let moved : WorkspaceFile := { named with parentFolderId := parentFolderId }
  let (edited, write) ← lib.planEdit env request moved changes generated
  let changed := changes.name.isSome || changes.content.isSome || changes.parentFolderId.isSome
  let row := if changed then { edited with version := edited.version + 1 } else edited
  return ⟨original, row, write⟩

/-- The commit of `update_workspace_file`. When the name is taken, the row is rolled back and the
old payload is written again, under the name that the row has after the rollback. -/
def commitUpdate (update : FileUpdate Bytes) : Attempt (LibraryState Bytes) WorkspaceFile :=
  let written : LibraryState Bytes :=
    match update.write with
    | none => lib
    | some write => { lib with objects := lib.objects.put write.key write.payload }
  if lib.nameTaken update.file then
    let oldKey := objectKey update.original.tenantId update.original.id update.original.name
    let restored : LibraryState Bytes :=
      match update.write with
      | none => lib
      | some write => { lib with objects := written.objects.put oldKey write.oldPayload }
    .error (restored,
      some (nameConflict "A file with that name already exists in this workspace"))
  else (written.saveFile update.file).addVersion env update.file

def updateWorkspaceFile (fileId : Uuid) (changes : FileChanges) (generated : Bytes) :
    Attempt (LibraryState Bytes) WorkspaceFile :=
  match lib.planUpdate env request fileId changes generated with
  | .error error => .error (lib, some error)
  | .ok update => lib.commitUpdate env update

/-- `copy_workspace_file` with mode `move`. A name that the copy would get must be safe as well. -/
def moveWorkspaceFile (fileId : Uuid) (name parentFolderId : Option String) :
    Attempt (LibraryState Bytes) WorkspaceFile :=
  match (do lib.requireConversation request; lib.ownedFile request fileId) with
  | .error error => .error (lib, some error)
  | .ok source =>
    let copyName :=
      match lastExtension source.name with
      | some extension => Text.orDefault name (stem source.name ++ " copy." ++ extension)
      | none => source.name ++ " copy"
    match safeName copyName, lib.ownedParent env request parentFolderId with
    | none, _ => .error (lib, none)
    | some _, .error error => .error (lib, some error)
    | some _, .ok parentId =>
      match name.elim (some source.name) safeName with
      | none => .error (lib, none)
      | some newName =>
        let moved : WorkspaceFile :=
          { source with
            name := newName
            parentFolderId := parentId
            version := source.version + 1 }
        if lib.nameTaken moved then
          .error (lib, some (nameConflict "A file with that name already exists in this folder."))
        else (lib.saveFile moved).addVersion env moved

/-- The version that `restore_workspace_file_version` looks up, with its file. -/
def findSnapshot (fileId : Uuid) (version : Nat) :
    Except ApiError (WorkspaceFile × WorkspaceFileVersion) := do
  lib.requireConversation request
  let file ← lib.ownedFile request fileId
  match (lib.versions.find? (file.id, version)).filter (fun v =>
      v.tenantId = request.tenantId ∧ v.userId = request.userId) with
  | none => .error (notFound "Library file version not found")
  | some v => .ok (file, v)

/-- The row with the columns of a version. -/
def restoredFile (file : WorkspaceFile) (v : WorkspaceFileVersion) (content : String) :
    WorkspaceFile :=
  { file with
    name := v.name
    contentType := v.contentType
    content := content
    storageKey := v.storageKey
    checksumSha256 := some v.checksumSha256
    sizeBytes := v.sizeBytes
    isBinary := false
    version := file.version + 1 }

/-- `restore_workspace_file_version`: a version without text makes the content null, which the
column does not allow. -/
def restoreWorkspaceFileVersion (fileId : Uuid) (version : Nat) :
    Attempt (LibraryState Bytes) WorkspaceFile :=
  match lib.findSnapshot request fileId version with
  | .error error => .error (lib, some error)
  | .ok (file, v) =>
    if request.fits = false then .error (lib, some storageQuotaExceeded)
    else
      match v.content with
      | none => .error (lib, none)
      | some content =>
        let restored := restoredFile file v content
        if lib.nameTaken restored then .error (lib, none)
        else
          match (lib.saveFile restored).addVersion env restored with
          | .error _ => .error (lib, none)
          | .ok done => .ok done

end LibraryState

end AverQel.Library
