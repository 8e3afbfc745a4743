/- digest: The folder table of the Library: creating, updating and deleting folders in two steps. -/
import AverQel.Foundation.Forests
import AverQel.Foundation.Interleaving
import AverQel.Foundation.Worklist
import AverQel.Library.WorkspaceFiles

namespace AverQel.Library

open Foundation AverQel.System

/-- `DeepSpaceWorkspaceFolder`: "Tenant- and conversation-owned Library folder." -/
structure LibraryFolder where
  (id tenantId userId conversationId : Uuid)
  parentFolderId : Option Uuid
  name : String
  deriving DecidableEq

namespace LibraryFolder

def ownedBy (request : LibraryRequest) (folder : LibraryFolder) : Bool :=
  folder.tenantId = request.tenantId ∧ folder.userId = request.userId ∧
    folder.conversationId = request.conversationId

def flush (read written row : LibraryFolder) : LibraryFolder :=
  { row with
    name := if written.name = read.name then row.name else written.name
    parentFolderId :=
      if written.parentFolderId = read.parentFolderId then row.parentFolderId
      else written.parentFolderId }

end LibraryFolder

/-- `WorkspaceFolderUpdate`; a parent that is given may be null or empty text, which stands for the
root. -/
structure FolderChanges where
  name : Option String
  parentFolderId : Option (Option String)

structure FolderState (Bytes : Type) where
  conversations : List Conversation
  folders : Table LibraryFolder LibraryFolder.id
  files : Table WorkspaceFile WorkspaceFile.id
  objects : ObjectStore Bytes

def folderNameConflict : ApiError := nameConflict "A folder with that name already exists here."

namespace FolderState

variable {Bytes : Type} (parseUuid : String → Option Uuid) (state : FolderState Bytes)
  (request : LibraryRequest)

def parentOf (id : Uuid) : Option Uuid := (state.folders.find? id).bind LibraryFolder.parentFolderId

/-- `_conversation` -/
def requireConversation : Except ApiError Unit :=
  ensure (∃ c ∈ state.conversations, c.id = request.conversationId ∧
      c.tenantId = request.tenantId ∧ c.userId = request.userId ∧ c.kind = "deepspace")
    ⟨"CONVERSATION_NOT_FOUND", "DeepSpace workspace not found", 404⟩

/-- `_owned_folder` -/
def ownedFolder (folderId : Uuid) : Except ApiError LibraryFolder :=
  match (state.folders.find? folderId).filter (LibraryFolder.ownedBy request) with
  | none => .error (notFound "DeepSpace folder not found")
  | some folder => .ok folder

/-- `_parse_optional_uuid` -/
def parseParent (parentFolderId : Option String) : Except ApiError (Option Uuid) :=
  match Text.nonempty parentFolderId with
  | none => .ok none
  | some text =>
    match parseUuid text with
    | none => .error ⟨"INVALID_REQUEST", "Invalid parent_folder_id.", 422⟩
    | some id => .ok (some id)

/-- The check of `create_workspace_folder`. -/
def checkCreate (parentFolderId : Option String) : Except ApiError (Option Uuid) := do
  state.requireConversation request
  let parentId ← parseParent parseUuid parentFolderId
  match parentId with
  | none => return none
  | some id =>
    let parent ← state.ownedFolder request id
    return some parent.id

/-- The loop of `update_workspace_folder` over the ancestors; `none` when the fuel does not last. -/
def walkAncestors (folderId : Uuid) : Nat → LibraryFolder → Option (Except ApiError Unit)
  | 0, _ => none
  | fuel + 1, cursor =>
    match cursor.parentFolderId with
    | none => some (.ok ())
    | some above =>
      if above = folderId then
        some (.error ⟨"INVALID_REQUEST", "A folder cannot move into its descendant.", 422⟩)
      else
        match state.ownedFolder request above with
        | .error error => some (.error error)
        | .ok next => walkAncestors folderId fuel next

def walkFuel : Nat := state.folders.rows.length + 1

/-- The check of `update_workspace_folder`; `none` when it does not end. -/
def checkUpdate (folderId : Uuid) (changes : FolderChanges) :
    Option (Except ApiError (LibraryFolder × Option Uuid)) :=
  match (do
    state.requireConversation request
    let folder ← state.ownedFolder request folderId
    let parentId ← parseParent parseUuid (changes.parentFolderId.getD none)
    return (folder, parentId)) with
  | .error error => some (.error error)
  | .ok (folder, none) => some (.ok (folder, none))
  | .ok (folder, some parentId) =>
    match state.ownedFolder request parentId with
    | .error error => some (.error error)
    | .ok parent =>
      if parent.id = folder.id then
        some (.error ⟨"INVALID_REQUEST", "A folder cannot contain itself.", 422⟩)
      else
        (state.walkAncestors request folder.id state.walkFuel parent).map fun walked =>
          walked.map fun _ => (folder, some parentId)

def updated (folder : LibraryFolder) (changes : FolderChanges) (parentId : Option Uuid) :
    LibraryFolder :=
  { folder with name := changes.name.getD folder.name, parentFolderId := parentId }

/-- The check of `delete_workspace_folder`. -/
def checkDelete (folderId : Uuid) (recursive : Bool) : Except ApiError LibraryFolder := do
  state.requireConversation request
  let folder ← state.ownedFolder request folderId
  let childCount := state.folders.rows.countP fun row => row.parentFolderId = some folder.id
  let fileCount := state.files.rows.countP fun file => file.parentFolderId = some folder.id
  ensure (¬ ((childCount ≠ 0 ∨ fileCount ≠ 0) ∧ recursive = false))
    (⟨"VALIDATION_ERROR", "Folder is not empty. Confirm recursive deletion.", 409⟩ : ApiError)
  return folder

/-- `children`: the folders of the owner by their parent. -/
def childrenOf (id : Uuid) : List Uuid :=
  (state.folders.rows.filter fun folder =>
    folder.ownedBy request ∧ folder.parentFolderId = some id).map LibraryFolder.id

/-- `subtree`: the loop of `delete_workspace_folder` over a stack of folders; every folder enters
the stack once. -/
def subtree (folderId : Uuid) : List Uuid :=
  Worklist.collect (state.childrenOf request) (state.folders.rows.length + 1) [folderId] [folderId]

def subtreeFiles (folderId : Uuid) : List WorkspaceFile :=
  state.files.rows.filter fun file => file.tenantId = request.tenantId ∧
    file.userId = request.userId ∧ file.conversationId = request.conversationId ∧
    ∃ id ∈ file.parentFolderId, id ∈ state.subtree request folderId

def deleteObjects (undeleted : List ObjectKey) (files : List WorkspaceFile) : FolderState Bytes :=
  { state with
    objects := (files.filterMap WorkspaceFile.storageKey).foldl
      (fun objects key => if key ∈ undeleted then objects else objects.delete key) state.objects }

/-- The loop of `_library_folder_path`; `none` when the fuel does not last. -/
def pathParts : Nat → Option Uuid → List Uuid → List String → Option (List String)
  | 0, _, _, _ => none
  | _ + 1, none, _, parts => some parts
  | fuel + 1, some id, visited, parts =>
    if id ∈ visited ∨ ¬ parts.length < 256 then some parts
    else
      match state.folders.find? id with
      | none => some parts
      | some folder =>
        pathParts fuel folder.parentFolderId (id :: visited) (parts ++ [folder.name])

def admits (row : LibraryFolder) : Bool :=
  (∀ parentId ∈ row.parentFolderId, (state.folders.find? parentId).isSome) ∧
    ∀ other ∈ state.folders.rows, other.id ≠ row.id → ¬ (other.conversationId = row.conversationId ∧
      other.parentFolderId = row.parentFolderId ∧ other.name = row.name)

def insertFolder (row : LibraryFolder) : Option (FolderState Bytes) :=
  if state.admits row then
    (state.folders.insert? row).map fun folders => { state with folders := folders }
  else none

/-- The commit of an update: the row may be gone, or the database may refuse it. -/
def commitUpdate (read written : LibraryFolder) : Option (FolderState Bytes) :=
  match state.folders.find? read.id with
  | none => none
  | some row =>
    if state.admits (LibraryFolder.flush read written row) then
      some { state with
        folders := state.folders.modify read.id
          (fun row => { LibraryFolder.flush read written row with id := row.id }) (fun _ => rfl) }
    else none

/-- The folder is the row or one of its ancestors; `ON DELETE CASCADE` deletes the row with it. -/
def inside (folderId id : Uuid) : Bool :=
  (List.range state.walkFuel).any fun n => Forests.climb state.parentOf n id = some folderId

/-- The file as `ON DELETE SET NULL` leaves it. -/
def detached (folderId : Uuid) (file : WorkspaceFile) : WorkspaceFile :=
  if ∃ id ∈ file.parentFolderId, state.inside folderId id then { file with parentFolderId := none }
  else file

def uniqueFileNames (files : List WorkspaceFile) : Bool :=
  ∀ file ∈ files, ∀ other ∈ files, file.id ≠ other.id →
    ¬ (file.conversationId = other.conversationId ∧ file.parentFolderId = other.parentFolderId ∧
      file.name = other.name)

/-- The commit of a deletion: the folders cascade, the files fall back to the root, and a name that
is taken there refuses it. -/
def commitDelete (folderId : Uuid) : Option (FolderState Bytes) :=
  let files := state.files.mapRows (state.detached folderId) (fun file => by
    unfold detached
    split <;> rfl)
  if uniqueFileNames files.rows then
    some { state with
      folders := state.folders.filter (fun folder => ¬ state.inside folderId folder.id)
      files := files }
  else none

end FolderState

inductive FolderCall where
  | create (request : LibraryRequest) (id : Uuid) (name : String) (parentFolderId : Option String)
  | update (request : LibraryRequest) (folderId : Uuid) (changes : FolderChanges)
  | delete (request : LibraryRequest) (folderId : Uuid) (recursive : Bool)

/-- The point that a call has reached; the error is `none` for an error of the database. -/
inductive FolderPoint where
  | called (call : FolderCall)
  | creating (row : LibraryFolder)
  | updating (read : LibraryFolder) (changes : FolderChanges) (parentId : Option Uuid)
  | deleting (folder : LibraryFolder)
  | returned
  | raised (error : Option ApiError)

namespace FolderState

variable {Bytes : Type} (parseUuid : String → Option Uuid)

/-- The check of a call. -/
def check (undeleted : List ObjectKey) (state : FolderState Bytes) :
    FolderCall → FolderState Bytes × FolderPoint
  | .create request id name parentFolderId =>
    match state.checkCreate parseUuid request parentFolderId with
    | .error error => (state, .raised (some error))
    | .ok parentId => (state, .creating
        ⟨id, request.tenantId, request.userId, request.conversationId, parentId, name⟩)
  | .update request folderId changes =>
    match state.checkUpdate parseUuid request folderId changes with
    | none => (state, .called (.update request folderId changes))
    | some (.error error) => (state, .raised (some error))
    | some (.ok (folder, parentId)) => (state, .updating folder changes parentId)
  | .delete request folderId recursive =>
    match state.checkDelete request folderId recursive with
    | .error error => (state, .raised (some error))
    | .ok folder =>
      (if recursive then state.deleteObjects undeleted (state.subtreeFiles request folder.id)
        else state, .deleting folder)

def committed (state : FolderState Bytes) (error : Option ApiError) :
    Option (FolderState Bytes) → FolderState Bytes × FolderPoint
  | none => (state, .raised error)
  | some state' => (state', .returned)

def next (undeleted : List ObjectKey) (state : FolderState Bytes) :
    FolderPoint → FolderState Bytes × FolderPoint
  | .called call => state.check parseUuid undeleted call
  | .creating row => state.committed (some folderNameConflict) (state.insertFolder row)
  | .updating read changes parentId =>
    -- a row that is gone is no `IntegrityError`
    state.committed (if (state.folders.find? read.id).isSome then some folderNameConflict else none)
      (state.commitUpdate read (updated read changes parentId))
  | .deleting folder => state.committed none (state.commitDelete folder.id)
  | .returned => (state, .returned)
  | .raised error => (state, .raised error)

end FolderState

abbrev FolderSystem (Bytes : Type) := Interleaving.CallSystem (FolderState Bytes) FolderPoint

namespace FolderSystem

variable {Bytes : Type} (parseUuid : String → Option Uuid)

def start (conversations : List Conversation) (files : Table WorkspaceFile WorkspaceFile.id)
    (objects : ObjectStore Bytes) (calls : List FolderCall) : FolderSystem Bytes :=
  ⟨⟨conversations, .empty, files, objects⟩, calls.map FolderPoint.called⟩

def step (s : FolderSystem Bytes) (turn : Nat × List ObjectKey) : FolderSystem Bytes :=
  Interleaving.advance (fun _ _ => false) (FolderState.next parseUuid) s turn

end FolderSystem

end AverQel.Library
