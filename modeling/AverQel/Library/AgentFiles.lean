/- digest: The Library tools of the agent, and the visual artifacts, which write files as well. -/
import AverQel.Library.WorkspaceFiles

namespace AverQel.Library

open Foundation AverQel.System

/-- What a Library tool raises: a `ValueError` with its text, the storage quota, or an error of
the database. -/
inductive ToolError where
  | value (message : String)
  | storageQuotaExceeded
  | database

/-- The `mode` argument of the tools. -/
inductive WriteMode where
  | replace | append | move | other
  deriving DecidableEq

/-- `MAX_WORKSPACE_FILE_LENGTH` -/
def maxWorkspaceFileLength : Nat := 100000

/-- A name that `_SAFE_WORKSPACE_FILE_NAME` matches, without the blanks around it. -/
def safeWorkspaceName (value : String) : Option String :=
  let normalized := Text.strip value
  match normalized.toList with
  | [] => none
  | c :: rest =>
    if c.isAlphanum ∧ rest.length ≤ 254 ∧
        rest.all (fun c => c.isAlphanum || c == '.' || c == '_' || c == ' ' || c == '-') then
      some normalized
    else none

/-- The table of `_workspace_content_type`. -/
def workspaceExtensions : List (List String × String) :=
  [(["md", "mdx"], "text/markdown"), (["json"], "application/json"), (["csv"], "text/csv"),
   (["yaml", "yml"], "application/yaml"), (["xml"], "application/xml"),
   (["html", "htm"], "text/html"), (["css"], "text/css"), (["sql"], "text/sql"),
   (["py"], "text/x-python"), (["js", "mjs", "ts", "tsx"], "text/javascript"),
   (["diff", "patch"], "text/x-diff"), (["pdf"], "application/pdf"), (["docx"], wordType),
   (["xlsx"], sheetType), (["xls"], "application/vnd.ms-excel"),
   (["ods"], "application/vnd.oasis.opendocument.spreadsheet"), (["svg"], "image/svg+xml"),
   (["uml", "mermaid", "tex"], "text/plain"), (["png"], "image/png"),
   (["jpg", "jpeg"], "image/jpeg"), (["webp"], "image/webp"), (["gif"], "image/gif"),
   (["mp4"], "video/mp4"), (["webm"], "video/webm"), (["mov"], "video/quicktime"),
   (["mp3"], "audio/mpeg"), (["wav"], "audio/wav"), (["ogg"], "audio/ogg"),
   (["m4a"], "audio/mp4"), (["zip"], "application/zip")]

/-- `_workspace_content_type` -/
def workspaceContentType (lower : String → String) (name : String) : String :=
  let extension := ((lastExtension name).map lower).getD ""
  ((workspaceExtensions.find? (fun entry => entry.1.contains extension)).map Prod.snd).getD
    "text/plain"

namespace LibraryState

variable {Bytes : Type} (env : LibraryEnvironment Bytes) (lib : LibraryState Bytes)
  (request : LibraryRequest)

/-- `_assert_conversation` -/
def assertConversation : Except ToolError Unit :=
  ensure (∃ c ∈ lib.conversations, c.id = request.conversationId ∧ c.tenantId = request.tenantId ∧
    c.userId = request.userId ∧ c.kind = "deepspace") (.value "DeepSpace conversation not found.")

/-- The folder argument of a tool; `malformed` is the text for an id that is not a UUID. -/
def toolFolder (malformed : String) (parentFolderId : Option String) :
    Except ToolError (Option Uuid) :=
  match Text.nonempty parentFolderId with
  | none => .ok none
  | some text =>
    match env.parseUuid text with
    | none => .error (.value malformed)
    | some id =>
      if lib.folders.any (fun folder => folder.id = id ∧ folder.tenantId = request.tenantId ∧
          folder.userId = request.userId ∧ folder.conversationId = request.conversationId) then
        .ok (some id)
      else .error (.value "DeepSpace Library folder not found.")

/-- What `write_workspace_file` will write, and the file that has the name already. -/
structure ToolWrite where
  existing : Option WorkspaceFile
  name : String
  parentId : Option Uuid
  nextContent : String

/-- The checks of `write_workspace_file`. -/
def planWrite (filename content : String) (mode : WriteMode) (parentFolderId : Option String) :
    Except ToolError ToolWrite := do
  let name ← (safeWorkspaceName filename).elim
    (.error (.value "Workspace file name is invalid.")) Except.ok
  ensure (content.length ≤ maxWorkspaceFileLength)
    (ToolError.value "Workspace file content is invalid or too large.")
  ensure (mode = .replace ∨ mode = .append)
    (ToolError.value "Workspace file mode must be replace or append.")
  lib.assertConversation request
  let parentId ← lib.toolFolder env request "Workspace parent_folder_id is invalid." parentFolderId
  let existing := lib.files.rows.find? (fun file => file.tenantId = request.tenantId ∧
    file.userId = request.userId ∧ file.conversationId = request.conversationId ∧
    file.name = name ∧ file.parentFolderId = parentId)
  let nextContent :=
    match existing with
    | none => content
    | some file =>
      if mode = .append ∧ file.content ≠ "" then file.content ++ "\n" ++ content else content
  ensure (request.fits = true) ToolError.storageQuotaExceeded
  return ⟨existing, name, parentId, nextContent⟩

/-- The row that the tool creates; it has no checksum. -/
def agentFile (fileId : Uuid) (write : ToolWrite) : WorkspaceFile where
  id := fileId
  tenantId := request.tenantId
  userId := request.userId
  conversationId := request.conversationId
  parentFolderId := write.parentId
  name := write.name
  contentType := workspaceContentType env.lower write.name
  content := write.nextContent
  source := "agent"
  sizeBytes := env.size (env.encode write.nextContent)
  storageKey := none
  checksumSha256 := none
  version := 1
  isBinary := false

def agentWritten (file : WorkspaceFile) (nextContent : String) : WorkspaceFile :=
  { file with
    content := nextContent
    sizeBytes := env.size (env.encode nextContent)
    source := "agent" }

def writeWorkspaceFile (fileId : Uuid) (filename content : String) (mode : WriteMode)
    (parentFolderId : Option String) : Except ToolError (LibraryState Bytes × WorkspaceFile) :=
  match lib.planWrite env request filename content mode parentFolderId with
  | .error error => .error error
  | .ok write =>
    match write.existing with
    | some file =>
      let written := agentWritten env file write.nextContent
      .ok (lib.saveFile written, written)
    | none =>
      let created := agentFile env request fileId write
      if lib.nameTaken created then .error .database
      else
        match lib.files.insert? created with
        | none => .error .database
        | some files => .ok ({ lib with files := files }, created)

/-- The new content of a row under `edit_workspace_file`. -/
def editedContent (file : WorkspaceFile) (content : String) (mode : WriteMode) :
    Except ToolError String :=
  if maxWorkspaceFileLength < content.length then
    .error (.value "Workspace file content is too large.")
  else if mode = .append ∧ file.content ≠ "" then .ok (file.content ++ "\n" ++ content)
  else if mode = .replace ∨ mode = .move then .ok content
  else .error (.value "Library edit mode must be replace or append.")

/-- The file of an `edit_workspace_file` call and the row that it writes. -/
def planToolEdit (fileId : String) (name content : Option String) (mode : WriteMode)
    (parentFolderId : Option String) : Except ToolError (WorkspaceFile × WorkspaceFile) := do
  lib.assertConversation request
  let parsed ← (env.parseUuid fileId).elim (.error (.value "Library file_id is invalid.")) Except.ok
  let file ← ((lib.files.find? parsed).filter (fun file => file.tenantId = request.tenantId ∧
    file.userId = request.userId ∧ file.conversationId = request.conversationId)).elim
      (.error (.value "DeepSpace Library file not found.")) Except.ok
  ensure (file.isBinary = true → content = none)
    (ToolError.value "Binary Library files must be replaced through file upload.")
  let newName ← name.elim (.ok file.name) fun text => (safeWorkspaceName text).elim
    (.error (.value "Workspace file name is invalid.")) Except.ok
  let parentId ← parentFolderId.elim (.ok file.parentFolderId) fun text =>
    lib.toolFolder env request "badly formed hexadecimal UUID string" (some text)
  let newContent ← content.elim (.ok file.content) fun text => editedContent file text mode
  return (file,
    { file with
      name := newName
      contentType :=
        if name.isSome ∧ file.isBinary = false then workspaceContentType env.lower newName
        else file.contentType
      parentFolderId := parentId
      content := newContent
      sizeBytes := if content.isSome then env.size (env.encode newContent) else file.sizeBytes
      source := "agent" })

def editWorkspaceFile (fileId : String) (name content : Option String) (mode : WriteMode)
    (parentFolderId : Option String) : Except ToolError (LibraryState Bytes × WorkspaceFile) :=
  match lib.planToolEdit env request fileId name content mode parentFolderId with
  | .error error => .error error
  | .ok (_, edited) =>
    if lib.nameTaken edited then .error .database else .ok (lib.saveFile edited, edited)

def visualFiles (name : String) : List WorkspaceFile :=
  lib.files.rows.filter (fun file => file.tenantId = request.tenantId ∧
    file.userId = request.userId ∧ file.conversationId = request.conversationId ∧
    file.name = name)

def visualRevised (file : WorkspaceFile) (content : String) : WorkspaceFile :=
  { file with
    content := content
    sizeBytes := env.size (env.encode content)
    checksumSha256 := some (env.sha256 (env.encode content))
    version := file.version + 1 }

/-- `save_visual_artifact` for a block that is valid; `content` is the document as JSON. Two files
of the name in different folders are an error of the query. -/
def saveVisualArtifact (fileId : Uuid) (filename content : String) (expectedVersion : Option Nat) :
    Attempt (LibraryState Bytes) WorkspaceFile :=
  match lib.requireConversation request, safeName filename with
  | .error error, _ => .error (lib, some error)
  | .ok _, none => .error (lib, none)
  | .ok _, some name =>
    match lib.visualFiles request name with
    | [] =>
      if request.fits = false then .error (lib, some storageQuotaExceeded)
      else lib.publish env
        (newFile env request fileId none name "application/json" "visual_editor" content
          (env.encode content) false) "A visual artifact with that name already exists."
    | [file] =>
      if ∃ expected ∈ expectedVersion, expected ≠ file.version then
        .error (lib, some (nameConflict
          "The visual artifact changed elsewhere. Reload before saving."))
      else if file.content = content then .ok (lib, file)
      else if request.fits = false then .error (lib, some storageQuotaExceeded)
      else
        let revised := visualRevised env file content
        (lib.saveFile revised).addVersion env revised
    | _ :: _ :: _ => .error (lib, none)

end LibraryState

end AverQel.Library
