/- digest: Histories of Library operations, and when their recorded versions keep their bytes. -/
import AverQel.Foundation.Transition
import AverQel.Library.Revisions

namespace AverQel.Library

open Foundation Transition AverQel.System

variable {Bytes : Type} {env : LibraryEnvironment Bytes}

namespace LibraryState

variable {lib : LibraryState Bytes} {request : LibraryRequest}

variable {fileId : Uuid}

theorem mem_of_ownedFile {file : WorkspaceFile} (owned : lib.ownedFile request fileId = .ok file) :
    file ∈ lib.files.rows ∧ file.tenantId = request.tenantId := by
  unfold ownedFile at owned
  split at owned
  · cases owned
  · rename_i found
    cases owned
    obtain ⟨located, allowed⟩ := Option.filter_eq_some_iff.mp found
    simp only [decide_eq_true_eq] at allowed
    exact ⟨(Table.find?_eq_some_iff.mp located).1, allowed.1⟩

theorem mem_of_checked {file : WorkspaceFile}
    (checked : (do lib.requireConversation request; lib.ownedFile request fileId) = .ok file) :
    file ∈ lib.files.rows := by
  obtain ⟨_, _, owned⟩ := bind_eq_ok_iff.mp checked
  exact (mem_of_ownedFile owned).1

theorem decodeLibraryPayload_text {content contentType chosen : String} {payload : Bytes}
    (decoded : decodeLibraryPayload env content contentType = .ok (payload, chosen, false)) :
    payload = env.encode content := by
  unfold decodeLibraryPayload at decoded
  split at decoded
  · cases decoded
    rfl
  · cases decoded
  · cases decoded

variable {parentFolderId : Option String}

theorem planCreate_ok {name content contentType : String} {new : NewFile Bytes}
    (planned : lib.planCreate env request fileId name content contentType parentFolderId = .ok new) :
    ∃ parentId chosen payload isBinary,
      new = newFile env request fileId parentId name chosen "user" content payload isBinary ∧
        (isBinary = false → payload = env.encode content) := by
  simp only [planCreate, bind_eq_ok_iff] at planned
  obtain ⟨_, _, parentId, _, ⟨payload, chosen, isDataUrl⟩, decoded, _, _, _, _, _, _, result⟩ := planned
  cases result
  refine ⟨parentId, chosen, payload, _, rfl, fun text => ?_⟩
  have plain : isDataUrl = false := (Bool.or_eq_false_iff.mp text).1
  rw [plain] at decoded
  exact decodeLibraryPayload_text decoded

theorem planUpload_ok {filename declaredType : Option String} {payload : Bytes}
    {new : NewFile Bytes}
    (planned : lib.planUpload env request fileId filename declaredType payload parentFolderId = .ok new) :
    ∃ parentId name chosen isBinary,
      new = newFile env request fileId parentId name chosen "user" (env.decode payload) payload
        isBinary := by
  simp only [planUpload, bind_eq_ok_iff] at planned
  obtain ⟨_, _, name, _, parentId, _, _, _, _, _, result⟩ := planned
  cases result
  exact ⟨parentId, name, _, _, rfl⟩

theorem planAsset_ok {name contentType : String} {body : Bytes} {temporary : Bool}
    {new : NewFile Bytes}
    (planned : lib.planAsset env request fileId name contentType body temporary = .ok new) :
    ∃ chosen source,
      new = newFile env request fileId none chosen contentType source "" body true := by
  simp only [planAsset, bind_eq_ok_iff] at planned
  obtain ⟨_, _, _, _, result⟩ := planned
  cases result
  exact ⟨_, _, rfl⟩

variable {changes : FileChanges} {generated : Bytes}

theorem planContent_ok {file : WorkspaceFile} {content : String}
    {edited : WorkspaceFile × Option (OfficeWrite Bytes)}
    (planned : lib.planContent env request file content generated = .ok edited) :
    edited.1.id = file.id ∧ edited.1.version = file.version ∧
      Revised env file edited.1 edited.2 := by
  unfold planContent at planned
  by_cases binary : file.isBinary = true
  · simp only [binary, if_true, bind_eq_ok_iff] at planned
    obtain ⟨_, _, _, _, oldPayload, _, _, _, _, _, result⟩ := planned
    cases result
    exact ⟨rfl, rfl, .office _ rfl rfl rfl rfl⟩
  · simp only [binary, Bool.false_eq_true, if_false, bind_eq_ok_iff] at planned
    obtain ⟨_, _, result⟩ := planned
    cases result
    exact ⟨rfl, rfl, .text rfl rfl⟩

theorem renamed_eq (env : LibraryEnvironment Bytes) (file : WorkspaceFile) (changes : FileChanges) :
    ∃ name contentType, renamed env file changes =
      { file with name := name, contentType := contentType } := by
  unfold renamed
  cases changes.name with
  | none => exact ⟨file.name, file.contentType, rfl⟩
  | some name => exact ⟨name, _, rfl⟩

theorem planUpdate_ok {fileId : Uuid} {update : FileUpdate Bytes}
    (planned : lib.planUpdate env request fileId changes generated = .ok update) :
    update.original ∈ lib.files.rows ∧ update.file.id = update.original.id ∧
      ((update.file = update.original ∧ update.write = none) ∨
        (update.file.version = update.original.version + 1 ∧
          Revised env update.original update.file update.write)) := by
  simp only [planUpdate, bind_eq_ok_iff] at planned
  obtain ⟨_, _, original, owned, _, _, parent, placed, ⟨edited, write⟩, content, result⟩ := planned
  have known := (mem_of_ownedFile owned).1
  obtain ⟨name, contentType, naming⟩ := renamed_eq env original changes
  rw [naming] at placed content
  unfold planEdit at content
  cases hcontent : changes.content with
  | some text =>
    rw [hcontent] at content
    obtain ⟨same, version, revised⟩ := planContent_ok content
    simp only [hcontent, Option.isSome_some, Bool.or_true, Bool.true_or, if_true] at result
    cases result
    refine ⟨known, same, .inr ⟨congrArg (· + 1) version, ?_⟩⟩
    cases revised with
    | kept content binary stored checked => exact .kept content binary stored checked
    | text binary checked => exact .text binary checked
    | office write binary stored own checked => exact .office write binary stored own checked
  | none =>
    rw [hcontent] at content
    cases content
    cases hname : changes.name with
    | some =>
      simp only [hname, Option.isSome_some, Bool.true_or, if_true] at result
      cases result
      exact ⟨known, rfl, .inr ⟨rfl, .kept rfl rfl rfl rfl⟩⟩
    | none =>
      cases hparent : changes.parentFolderId with
      | some =>
        simp only [hparent, Option.isSome_some, Bool.or_true, if_true] at result
        cases result
        exact ⟨known, rfl, .inr ⟨rfl, .kept rfl rfl rfl rfl⟩⟩
      | none =>
        simp only [hname, hcontent, hparent, Option.isSome_none, Bool.or_false,
          Bool.false_eq_true, if_false] at result
        simp only [renamed, hname] at naming
        simp only [planParent, hparent] at placed
        cases placed
        cases result
        exact ⟨known, rfl, .inl ⟨naming.symm, rfl⟩⟩

/-- The objects that an update writes hold no other bytes of a recorded version: its own object,
and after a name conflict also the object of the old name. -/
def WritesSpare (env : LibraryEnvironment Bytes) (lib : LibraryState Bytes)
    (update : FileUpdate Bytes) : Prop :=
  ∀ write ∈ update.write,
    let oldKey := objectKey update.original.tenantId update.original.id update.original.name
    if lib.nameTaken update.file then
      KeyFree env lib.versions.rows oldKey write.oldPayload ∧
        (write.key ≠ oldKey → KeyFree env lib.versions.rows write.key write.payload)
    else KeyFree env lib.versions.rows write.key write.payload

theorem denotes_put_put_iff {objects : ObjectStore Bytes} {versions : List WorkspaceFileVersion}
    (held : ∀ v ∈ versions, v.Denotes env objects) (key oldKey : ObjectKey)
    (payload oldPayload : Bytes) :
    (∀ v ∈ versions, v.Denotes env ((objects.put key payload).put oldKey oldPayload)) ↔
      KeyFree env versions oldKey oldPayload ∧
        (key ≠ oldKey → KeyFree env versions key payload) := by
  by_cases shared : key = oldKey
  · have once : (objects.put key payload).put oldKey oldPayload = objects.put oldKey oldPayload := by
      rw [shared]
      exact Function.update_idem _ _ _
    rw [once, denotes_put_iff held]
    exact (and_iff_left (absurd shared)).symm
  · constructor
    · intro survive
      constructor
      · intro v member no_text stored
        exact (denotes_of_object no_text stored (ObjectStore.put_self _ _ _)).mp (survive v member)
      · intro _ v member no_text stored
        have found : ((objects.put key payload).put oldKey oldPayload) key = some payload :=
          (ObjectStore.put_of_ne _ _ shared).trans (objects.put_self key payload)
        exact (denotes_of_object no_text stored found).mp (survive v member)
    · rintro ⟨oldFree, free⟩
      have first := (denotes_put_iff held key payload).mpr (free shared)
      exact (denotes_put_iff first oldKey oldPayload).mpr oldFree

theorem commitUpdate_effect (cons : lib.Consistent env) {update : FileUpdate Bytes}
    (known : update.original ∈ lib.files.rows) (same : update.file.id = update.original.id)
    (made : (update.file = update.original ∧ update.write = none) ∨
      (update.file.version = update.original.version + 1 ∧
        Revised env update.original update.file update.write)) :
    KeepsVersions env lib (lib.commitUpdate env update).state (WritesSpare env lib update) := by
  obtain ⟨original, file, write⟩ := update
  simp only [commitUpdate, WritesSpare] at known same made ⊢
  by_cases taken : lib.nameTaken file = true
  · simp only [taken, if_true, Attempt.state]
    cases write with
    | none => exact .same cons fun _ written => absurd written (Option.not_mem_none _)
    | some =>
      refine ⟨cons.withObjects _, fun held => ?_⟩
      simp only [Option.mem_some_iff, forall_eq']
      exact denotes_put_put_iff held _ _ _ _
  · simp only [taken, Bool.false_eq_true, if_false]
    rcases made with ⟨rfl, rfl⟩ | ⟨next, revised⟩
    · rw [addVersion_unchanged cons known]
      exact .same cons fun _ written => absurd written (Option.not_mem_none _)
    · have recorded := revised.recorded cons known same next
      cases write with
      | none | some => exact recorded

theorem publish_effect (cons : lib.Consistent env) (fresh : FreshId lib fileId)
    (parentId : Option Uuid) (name contentType source text conflict : String) (payload : Bytes)
    (isBinary : Bool) :
    let new := newFile env request fileId parentId name contentType source text payload isBinary
    KeepsVersions env lib (lib.publish env new conflict).state
      (lib.nameTaken new.file = false → isBinary = false →
        env.sha256 (env.encode text) = env.sha256 payload) := by
  intro new
  by_cases taken : lib.nameTaken new.file = true
  · obtain ⟨objects, result, same⟩ := publish_taken conflict cons fresh taken
    rw [result]
    refine ⟨cons.withObjects objects, fun held => iff_of_true ?_ (fun free => ?_)⟩
    · intro v member
      exact (same v member).mpr (held v member)
    · rw [free] at taken
      cases taken
  · have free : lib.nameTaken new.file = false := Bool.eq_false_iff.mpr taken
    exact (publish_new conflict cons fresh free).congr (imp_iff_right free).symm

theorem createWorkspaceFile_effect (cons : lib.Consistent env) (fresh : FreshId lib fileId)
    (name content contentType : String) (parentFolderId : Option String) :
    KeepsVersions env lib (lib.createWorkspaceFile env request fileId name content contentType
      parentFolderId).state True := by
  unfold createWorkspaceFile
  split
  · exact .same cons trivial
  · rename_i new planned
    obtain ⟨parentId, chosen, payload, isBinary, rfl, encoded⟩ := planCreate_ok planned
    refine (publish_effect cons fresh _ _ _ _ _ _ _ _).congr (iff_true_intro ?_)
    intro _ text
    rw [encoded text]

def UploadKeepsText (env : LibraryEnvironment Bytes) (lib : LibraryState Bytes)
    (request : LibraryRequest) (fileId : Uuid) (filename declaredType : Option String)
    (payload : Bytes) (parentFolderId : Option String) : Prop :=
  ∀ new, lib.planUpload env request fileId filename declaredType payload parentFolderId = .ok new →
    lib.nameTaken new.file = false → new.file.isBinary = false →
      env.sha256 (env.encode (env.decode payload)) = env.sha256 payload

theorem uploadWorkspaceFile_effect (cons : lib.Consistent env) (fresh : FreshId lib fileId)
    (filename declaredType : Option String) (payload : Bytes) (parentFolderId : Option String) :
    KeepsVersions env lib (lib.uploadWorkspaceFile env request fileId filename declaredType payload
      parentFolderId).state
      (UploadKeepsText env lib request fileId filename declaredType payload parentFolderId) := by
  unfold uploadWorkspaceFile
  split
  · rename_i refused
    refine .same cons fun new planned => ?_
    rw [refused] at planned
    cases planned
  · rename_i new planned
    obtain ⟨parentId, name, chosen, isBinary, rfl⟩ := planUpload_ok planned
    refine (publish_effect cons fresh _ _ _ _ _ _ _ _).congr ?_
    simp only [UploadKeepsText, planned, Except.ok.injEq, forall_eq']
    exact Iff.rfl

theorem importRemoteAsset_effect (cons : lib.Consistent env) (fresh : FreshId lib fileId)
    (name contentType : String) (body : Bytes) (temporary : Bool) :
    KeepsVersions env lib
      (lib.importRemoteAsset env request fileId name contentType body temporary).state True := by
  unfold importRemoteAsset
  split
  · exact .same cons trivial
  · rename_i new planned
    obtain ⟨chosen, source, rfl⟩ := planAsset_ok planned
    exact (publish_effect cons fresh _ _ _ _ _ _ _ _).congr
      (iff_true_intro fun _ isText => by cases isText)

theorem kept_effect (cons : lib.Consistent env) {file file' : WorkspaceFile}
    (known : file ∈ lib.files.rows) (same : file'.id = file.id)
    (next : file'.version = file.version + 1) (kept : Revised env file file' none) :
    KeepsVersions env lib ((lib.saveFile file').addVersion env file').state True :=
  (kept.recorded cons known same next).congr
    (iff_true_intro fun _ written => absurd written (Option.not_mem_none _))

theorem retainTemporaryAsset_effect (cons : lib.Consistent env) :
    KeepsVersions env lib (lib.retainTemporaryAsset env request fileId).state True := by
  unfold retainTemporaryAsset
  split
  · exact .same cons trivial
  · rename_i file checked
    by_cases temporary : file.source = "temporary_asset"
    · simp only [temporary, if_true]
      exact kept_effect cons (mem_of_checked checked) rfl rfl (.kept rfl rfl rfl rfl)
    · simp only [temporary, if_false]
      exact .same cons trivial

theorem updateWorkspaceFile_effect (cons : lib.Consistent env) (changes : FileChanges)
    (generated : Bytes) :
    KeepsVersions env lib (lib.updateWorkspaceFile env request fileId changes generated).state
      (∀ update, lib.planUpdate env request fileId changes generated = .ok update →
        WritesSpare env lib update) := by
  unfold updateWorkspaceFile
  split
  · rename_i refused
    refine .same cons fun update planned => ?_
    rw [refused] at planned
    cases planned
  · rename_i update planned
    obtain ⟨known, same, made⟩ := planUpdate_ok planned
    refine (commitUpdate_effect cons known same made).congr ?_
    simp only [planned, Except.ok.injEq, forall_eq']

theorem moveWorkspaceFile_effect (cons : lib.Consistent env) (name parentFolderId : Option String) :
    KeepsVersions env lib (lib.moveWorkspaceFile env request fileId name parentFolderId).state
      True := by
  unfold moveWorkspaceFile
  split
  · exact .same cons trivial
  · rename_i file checked
    extract_lets copyName
    split
    · exact .same cons trivial
    · exact .same cons trivial
    · rename_i parentId _ _
      split
      · exact .same cons trivial
      · rename_i newName _
        extract_lets moved
        by_cases taken : lib.nameTaken moved = true
        · simp only [taken, if_true]
          exact .same cons trivial
        · simp only [taken, Bool.false_eq_true, if_false]
          exact kept_effect cons (mem_of_checked checked) rfl rfl (.kept rfl rfl rfl rfl)

variable {version : Nat} {file : WorkspaceFile} {v : WorkspaceFileVersion}

def Restorable (lib : LibraryState Bytes) (request : LibraryRequest) (file : WorkspaceFile)
    (v : WorkspaceFileVersion) : Prop :=
  request.fits = true ∧ ∃ content, v.content = some content ∧
    lib.nameTaken (restoredFile file v content) = false

theorem restoredFile_id (content : String) : (restoredFile file v content).id = file.id := rfl

theorem restoredFile_version (content : String) :
    (restoredFile file v content).version = file.version + 1 := rfl

theorem restoredFile_ownKey (content : String) : OwnKey (restoredFile file v content) := by
  intro key binary
  cases binary

theorem findSnapshot_ok (found : lib.findSnapshot request fileId version = .ok (file, v)) :
    file ∈ lib.files.rows ∧ v ∈ lib.versions.rows := by
  simp only [findSnapshot, bind_eq_ok_iff] at found
  obtain ⟨_, _, file', owned, result⟩ := found
  split at result
  · cases result
  · rename_i located
    cases result
    obtain ⟨listed, _⟩ := Option.filter_eq_some_iff.mp located
    exact ⟨(mem_of_ownedFile owned).1, (Table.find?_eq_some_iff.mp listed).1⟩

theorem restore_cases (cons : lib.Consistent env)
    (found : lib.findSnapshot request fileId version = .ok (file, v)) :
    (∃ content lib', v.content = some content ∧ Restorable lib request file v ∧
      (lib.saveFile (restoredFile file v content)).addVersion env (restoredFile file v content) =
        .ok (lib', restoredFile file v content) ∧
      lib.restoreWorkspaceFileVersion env request fileId version =
        .ok (lib', restoredFile file v content)) ∨
    (¬ Restorable lib request file v ∧ ∃ error,
      lib.restoreWorkspaceFileVersion env request fileId version = .error (lib, error)) := by
  simp only [restoreWorkspaceFileVersion, found]
  by_cases full : request.fits = false
  · refine .inr ⟨fun possible => ?_, _, if_pos full⟩
    exact Bool.false_ne_true (full.symm.trans possible.1)
  · rw [if_neg full]
    have fits : request.fits = true := Bool.not_eq_false _ ▸ full
    cases text : v.content with
    | none =>
      refine .inr ⟨fun possible => ?_, _, rfl⟩
      obtain ⟨_, _, stored, _⟩ := possible
      rw [text] at stored
      cases stored
    | some content =>
      by_cases taken : lib.nameTaken (restoredFile file v content) = true
      · refine .inr ⟨fun possible => ?_, none, by simp only [taken, if_true]⟩
        obtain ⟨_, content', stored, free⟩ := possible
        cases text.symm.trans stored
        rw [taken] at free
        cases free
      · obtain ⟨lib', recorded, _, _, _⟩ :=
          addVersion_of_next cons (findSnapshot_ok found).1 (restoredFile_id content)
            (restoredFile_version content) (restoredFile_ownKey content) lib.objects
        change (lib.saveFile _).addVersion env _ = _ at recorded
        have free : lib.nameTaken (restoredFile file v content) = false :=
          Bool.eq_false_iff.mpr taken
        refine .inl ⟨content, lib', rfl, ⟨fits, content, text, free⟩, recorded, ?_⟩
        simp only [taken, Bool.false_eq_true, if_false, recorded]

theorem restoreWorkspaceFileVersion_effect (cons : lib.Consistent env) :
    KeepsVersions env lib (lib.restoreWorkspaceFileVersion env request fileId version).state
      True := by
  cases found : lib.findSnapshot request fileId version with
  | error =>
    simp only [restoreWorkspaceFileVersion, found]
    exact .same cons trivial
  | ok pair =>
    obtain ⟨file, v⟩ := pair
    rcases restore_cases cons found with ⟨content, lib', text, _, recorded, done⟩ | ⟨_, e, refused⟩
    · obtain ⟨known, listed⟩ := findSnapshot_ok found
      have state : (lib.restoreWorkspaceFileVersion env request fileId version).state =
          ((lib.saveFile (restoredFile file v content)).addVersion env
            (restoredFile file v content)).state := by
        rw [done, recorded]
      rw [state]
      refine ⟨consistent_revision cons known (restoredFile_id content) (restoredFile_version content)
        (restoredFile_ownKey content) lib.objects, fun held => ?_⟩
      have checked := (denotes_of_text text).mp (held v listed)
      have revised : Revised env file (restoredFile file v content) none :=
        .text rfl (congrArg some checked.symm)
      exact (kept_effect cons known (restoredFile_id content) (restoredFile_version content)
        revised).holds held
    · rw [refused]
      exact .same cons trivial

end LibraryState

structure Restore (Bytes : Type) where
  recorded : Option Bytes
  checksum : String
  payload : Option Bytes

def Restore.Faithful (env : LibraryEnvironment Bytes) (restore : Restore Bytes) : Prop :=
  ∃ payload, restore.recorded = some payload ∧ restore.payload = some payload ∧
    env.sha256 payload = restore.checksum

instance [DecidableEq Bytes] (restore : Restore Bytes) : Decidable (restore.Faithful env) :=
  decidable_of_iff
    (restore.recorded.any (fun payload => restore.payload = some payload ∧
      env.sha256 payload = restore.checksum) = true)
    (by simp [Restore.Faithful, Option.any_eq_true])

structure History (Bytes : Type) where
  library : LibraryState Bytes
  restores : List (Restore Bytes)

/-- One call of an endpoint; the id of a new row comes with the call that makes it. -/
inductive LibraryStep (Bytes : Type) where
  | create (request : LibraryRequest) (fileId : Uuid) (name content contentType : String)
      (parentFolderId : Option String)
  | upload (request : LibraryRequest) (fileId : Uuid) (filename declaredType : Option String)
      (payload : Bytes) (parentFolderId : Option String)
  | importAsset (request : LibraryRequest) (fileId : Uuid) (name contentType : String)
      (body : Bytes) (temporary : Bool)
  | retain (request : LibraryRequest) (fileId : Uuid)
  | update (request : LibraryRequest) (fileId : Uuid) (changes : FileChanges) (generated : Bytes)
  | move (request : LibraryRequest) (fileId : Uuid) (name parentFolderId : Option String)
  | restore (request : LibraryRequest) (fileId : Uuid) (version : Nat)

namespace History

open LibraryState

variable (env : LibraryEnvironment Bytes)

def start (conversations : List Conversation) (folders : List WorkspaceFolder)
    (objects : ObjectStore Bytes) : History Bytes :=
  ⟨⟨conversations, folders, .empty, .empty, objects⟩, []⟩

def payloadAfter (result : Attempt (LibraryState Bytes) WorkspaceFile) : Option Bytes :=
  match result with
  | .error _ => none
  | .ok (lib, file) => (lib.libraryFilePayload env file).toOption

def step (h : History Bytes) : LibraryStep Bytes → History Bytes
  | .create request fileId name content contentType parentFolderId =>
    -- the ids of `uuid4` do not come twice
    if fileId ∈ h.library.files.rows.map WorkspaceFile.id then h
    else { h with library := (h.library.createWorkspaceFile env request fileId name content
      contentType parentFolderId).state }
  | .upload request fileId filename declaredType payload parentFolderId =>
    if fileId ∈ h.library.files.rows.map WorkspaceFile.id then h
    else { h with library := (h.library.uploadWorkspaceFile env request fileId filename declaredType
      payload parentFolderId).state }
  | .importAsset request fileId name contentType body temporary =>
    if fileId ∈ h.library.files.rows.map WorkspaceFile.id then h
    else { h with library := (h.library.importRemoteAsset env request fileId name contentType body
      temporary).state }
  | .retain request fileId =>
    { h with library := (h.library.retainTemporaryAsset env request fileId).state }
  | .update request fileId changes generated =>
    { h with library := (h.library.updateWorkspaceFile env request fileId changes generated).state }
  | .move request fileId name parentFolderId =>
    { h with library := (h.library.moveWorkspaceFile env request fileId name parentFolderId).state }
  | .restore request fileId version =>
    let result := h.library.restoreWorkspaceFileVersion env request fileId version
    match h.library.findSnapshot request fileId version with
    | .error _ => { h with library := result.state }
    | .ok (_, v) =>
      ⟨result.state,
        ⟨v.payload env h.library.objects, v.checksumSha256, payloadAfter env result⟩ :: h.restores⟩

def VersionsImmutable (h : History Bytes) : Prop :=
  VersionsHold env h.library ∧ ∀ restore ∈ h.restores, restore.Faithful env

/-- What the next call needs: a text upload keeps its SHA-256 as text, an Office edit writes to
keys that hold no other bytes of a version, and a version that is restored can be. -/
def SafeCall (h : History Bytes) : LibraryStep Bytes → Prop
  | .upload request fileId filename declaredType payload parentFolderId =>
    FreshId h.library fileId →
      UploadKeepsText env h.library request fileId filename declaredType payload parentFolderId
  | .update request fileId changes generated =>
    ∀ update, h.library.planUpdate env request fileId changes generated = .ok update →
      WritesSpare env h.library update
  | .restore request fileId version =>
    ∀ file v, h.library.findSnapshot request fileId version = .ok (file, v) →
      Restorable h.library request file v
  | _ => True

instance [DecidableEq Bytes] (h : History Bytes) : Decidable (VersionsImmutable env h) :=
  inferInstanceAs (Decidable (_ ∧ ∀ restore ∈ h.restores, _))

variable {env} {h : History Bytes}

theorem consistent_start (conversations : List Conversation) (folders : List WorkspaceFolder)
    (objects : ObjectStore Bytes) :
    (start conversations folders objects).library.Consistent env :=
  ⟨fun _ member => absurd member List.not_mem_nil, fun _ member => absurd member List.not_mem_nil,
    fun _ member => absurd member List.not_mem_nil⟩

theorem keepsVersions_step (cons : h.library.Consistent env) (call : LibraryStep Bytes) :
    KeepsVersions env h.library (step env h call).library
      (match call with
        | .restore _ _ _ => True
        | _ => SafeCall env h call) := by
  cases call with
  | create request fileId name content contentType parentFolderId =>
    by_cases used : fileId ∈ h.library.files.rows.map WorkspaceFile.id
    · simp only [step, used, if_true]
      exact .same cons trivial
    · simp only [step, used, if_false]
      exact createWorkspaceFile_effect cons used name content contentType parentFolderId
  | upload request fileId filename declaredType payload parentFolderId =>
    by_cases used : fileId ∈ h.library.files.rows.map WorkspaceFile.id
    · simp only [step, used, if_true]
      exact .same cons fun fresh => absurd used fresh
    · simp only [step, used, if_false]
      refine KeepsVersions.congr ?_ (imp_iff_right used).symm
      exact uploadWorkspaceFile_effect cons used filename declaredType payload parentFolderId
  | importAsset request fileId name contentType body temporary =>
    by_cases used : fileId ∈ h.library.files.rows.map WorkspaceFile.id
    · simp only [step, used, if_true]
      exact .same cons trivial
    · simp only [step, used, if_false]
      exact importRemoteAsset_effect cons used name contentType body temporary
  | retain => exact retainTemporaryAsset_effect cons
  | update request fileId changes generated =>
    exact updateWorkspaceFile_effect cons changes generated
  | move request fileId name parentFolderId =>
    exact moveWorkspaceFile_effect cons name parentFolderId
  | restore request fileId version =>
    have effect : KeepsVersions env h.library
        (h.library.restoreWorkspaceFileVersion env request fileId version).state True :=
      restoreWorkspaceFileVersion_effect cons
    cases found : h.library.findSnapshot request fileId version with
    | error | ok =>
      simp only [step, found]
      exact effect

theorem faithful_restore_iff (cons : h.library.Consistent env) (held : VersionsHold env h.library)
    {request : LibraryRequest} {fileId : Uuid} {version : Nat} {file : WorkspaceFile}
    {v : WorkspaceFileVersion}
    (found : h.library.findSnapshot request fileId version = .ok (file, v)) :
    Restore.Faithful env ⟨v.payload env h.library.objects, v.checksumSha256,
      payloadAfter env (h.library.restoreWorkspaceFileVersion env request fileId version)⟩ ↔
      Restorable h.library request file v := by
  rcases restore_cases cons found with
    ⟨content, lib', text, possible, _, done⟩ | ⟨refused, error, failed⟩
  · refine iff_of_true ⟨env.encode content, ?_, ?_, ?_⟩ possible
    · simp only [WorkspaceFileVersion.payload, text]
    · rw [done]
      rfl
    · exact (denotes_of_text text).mp (held v (findSnapshot_ok found).2)
  · refine iff_of_false ?_ refused
    rintro ⟨_, _, after, _⟩
    rw [failed] at after
    cases after

theorem versionsImmutable_step_iff (cons : h.library.Consistent env) (call : LibraryStep Bytes)
    (immutable : VersionsImmutable env h) :
    VersionsImmutable env (step env h call) ↔ SafeCall env h call := by
  obtain ⟨held, faithful⟩ := immutable
  have versions := (keepsVersions_step cons call).holds held
  cases call with
  | restore request fileId version =>
    have kept : VersionsHold env (step env h (.restore request fileId version)).library :=
      versions.mpr trivial
    simp only [VersionsImmutable, kept, true_and, SafeCall]
    cases found : h.library.findSnapshot request fileId version with
    | error =>
      simp only [step, found]
      exact iff_of_true faithful fun _ _ same => by cases same
    | ok pair =>
      obtain ⟨file, v⟩ := pair
      simp only [step, found, List.forall_mem_cons, faithful_restore_iff cons held found]
      constructor
      · rintro ⟨possible, _⟩ file' v' same
        cases same
        exact possible
      · intro possible
        exact ⟨possible file v rfl, faithful⟩
  | create | upload | importAsset =>
    refine (and_iff_left ?_).trans versions
    simp only [step]
    split <;> exact faithful
  | retain | update | move => exact (and_iff_left faithful).trans versions

/-- Versions are immutable throughout a history exactly when all its calls are safe. -/
theorem versions_immutable_iff (env : LibraryEnvironment Bytes) (conversations : List Conversation)
    (folders : List WorkspaceFolder) (objects : ObjectStore Bytes)
    (calls : List (LibraryStep Bytes)) :
    (∀ h ∈ trace (step env) (start conversations folders objects) calls, VersionsImmutable env h) ↔
      Guarded (SafeCall env) (step env) (start conversations folders objects) calls := by
  refine forall_trace_iff_guarded (fun h call cons => (keepsVersions_step cons call).consistent)
    (fun h call cons held => versionsImmutable_step_iff cons call held)
    (consistent_start conversations folders objects) ?_
  constructor
  · intro v member
    exact absurd member List.not_mem_nil
  · intro restore member
    exact absurd member List.not_mem_nil

/-- Texts stand for their bytes, and a marked text for its hash. -/
def textEnvironment : LibraryEnvironment String where
  lower text := String.ofList (text.toList.map Char.toLower)
  parseUuid _ := none
  shortHex id := toString id
  encode text := text
  decode payload := payload
  sha256 payload := "#" ++ payload
  sha256_ne_empty payload := by
    intro empty
    have length := congrArg String.length empty
    simp at length
  size payload := payload.length
  parseDataUrl _ := none
  uploadMaxBytes := 1000

def owner : LibraryRequest := ⟨1, 1, 1, true⟩

def editedDocument : List (LibraryStep String) :=
  [.upload owner 7 (some "report.docx") none "first" none,
    .update owner 7 ⟨none, some "second", none, none⟩ "second"]

/-- Version 1 of the document has the bytes of version 2. -/
theorem edited_document_loses_version :
    ¬ ∀ h ∈ trace (step textEnvironment)
        (start [⟨1, 1, 1, "deepspace"⟩] [] (fun _ => none)) editedDocument,
      VersionsImmutable textEnvironment h := by
  decide +kernel

end History

end AverQel.Library
