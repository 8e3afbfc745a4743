/- digest: Every way to write a Library file, and what one write does to the rows and objects. -/
import AverQel.Library.AgentFiles
import AverQel.Library.ImmutableVersions

namespace AverQel.Library

open Foundation Transition AverQel.System

variable {Bytes : Type}

/-- What a reader of a file is shown. -/
structure Shown (Bytes : Type) where
  fileId : Uuid
  version : Nat
  name : String
  folder : Option Uuid
  payload : Option Bytes
  deriving DecidableEq

/-- A call that writes a file: an endpoint of the Library, the save of a visual artifact, or a tool
of the agent. -/
inductive FileWrite (Bytes : Type) where
  | endpoint (call : LibraryStep Bytes)
  | visual (request : LibraryRequest) (fileId : Uuid) (filename content : String)
      (expectedVersion : Option Nat)
  | agentWrite (request : LibraryRequest) (fileId : Uuid) (filename content : String)
      (mode : WriteMode) (parentFolderId : Option String)
  | agentEdit (request : LibraryRequest) (fileId : String) (name content : Option String)
      (mode : WriteMode) (parentFolderId : Option String)

namespace LibraryState

variable (env : LibraryEnvironment Bytes) (lib : LibraryState Bytes)

def apply : FileWrite Bytes → LibraryState Bytes
  | .endpoint call => (History.step env ⟨lib, []⟩ call).library
  | .visual request fileId filename content expectedVersion =>
    (lib.saveVisualArtifact env request fileId filename content expectedVersion).state
  | .agentWrite request fileId filename content mode parentFolderId =>
    ((lib.writeWorkspaceFile env request fileId filename content mode parentFolderId).toOption.map
      Prod.fst).getD lib
  | .agentEdit request fileId name content mode parentFolderId =>
    ((lib.editWorkspaceFile env request fileId name content mode parentFolderId).toOption.map
      Prod.fst).getD lib

def shown (file : WorkspaceFile) : Shown Bytes :=
  ⟨file.id, file.version, file.name, file.parentFolderId, (lib.libraryFilePayload env file).toOption⟩

def Derived (file : WorkspaceFile) : Prop :=
  ∃ payload, lib.libraryFilePayload env file = .ok payload ∧ file.sizeBytes = env.size payload ∧
    file.checksumSha256 = some (env.sha256 payload)

/-- One row is written, perhaps its version is recorded, and the objects of other files stay. The
row gets a higher version, or readers are shown the same. -/
structure Writes (lib lib' : LibraryState Bytes) (file : WorkspaceFile) : Prop where
  rows : ∀ row, row ∈ lib'.files.rows ↔ row = file ∨ (row ∈ lib.files.rows ∧ row.id ≠ file.id)
  versions : ∀ v ∈ lib'.versions.rows, v ∈ lib.versions.rows ∨ v = snapshot env file
  objects : ∀ key : ObjectKey, key.documentId ≠ file.id → lib'.objects key = lib.objects key
  own : OwnKey file
  derived : lib'.Derived env file
  later : ∀ row ∈ lib.files.rows, row.id = file.id →
    row.version < file.version ∨ lib'.shown env file = lib.shown env row

/-- What a write may do: leave rows and payloads alone, or write one row. -/
inductive Edits (lib lib' : LibraryState Bytes) : Prop where
  | keeps (files : lib'.files = lib.files) (versions : lib'.versions = lib.versions)
      (payloads : ∀ row ∈ lib.files.rows,
        lib'.libraryFilePayload env row = lib.libraryFilePayload env row)
  | writes (file : WorkspaceFile) (written : Writes env lib lib' file)

variable {env lib} {lib' : LibraryState Bytes} {request : LibraryRequest}

theorem libraryFilePayload_congr {file : WorkspaceFile}
    (agree : ∀ key, file.isBinary = true → file.storageKey = some key →
      lib'.objects key = lib.objects key) :
    lib'.libraryFilePayload env file = lib.libraryFilePayload env file := by
  unfold libraryFilePayload
  split
  · rfl
  · rename_i binary
    cases located : file.storageKey with
    | none => rfl
    | some key => simp only [agree key (by simpa using binary) located]

theorem libraryFilePayload_text {file : WorkspaceFile} (text : file.isBinary = false) :
    lib.libraryFilePayload env file = .ok (env.encode file.content) := if_pos text

theorem libraryFilePayload_object {file : WorkspaceFile} {key : ObjectKey} {payload : Bytes}
    (binary : file.isBinary = true) (located : file.storageKey = some key)
    (stored : lib.objects key = some payload) : lib.libraryFilePayload env file = .ok payload := by
  simp only [libraryFilePayload, binary, Bool.true_eq_false, if_false, located, stored]

variable {file file' : WorkspaceFile}

theorem Writes.addVersion (writes : Writes env lib lib' file) :
    Writes env lib (lib'.addVersion env file).state file := by
  unfold LibraryState.addVersion
  split
  · exact writes
  · rename_i versions inserted
    refine ⟨writes.rows, fun v member => ?_, writes.objects, writes.own, writes.derived, writes.later⟩
    rcases (Table.mem_of_insert? inserted).mp member with old | new
    · exact writes.versions v old
    · exact .inr new

theorem writes_saveFile (known : file ∈ lib.files.rows) (same : file'.id = file.id)
    (objects : ObjectStore Bytes)
    (others : ∀ key : ObjectKey, key.documentId ≠ file.id → objects key = lib.objects key)
    (own : OwnKey file') (derived : Derived env { lib with objects := objects } file')
    (later : file.version < file'.version ∨
      shown env { lib with objects := objects } file' = lib.shown env file) :
    Writes env lib ({ lib with objects := objects }.saveFile file') file' where
  rows row := by
    rw [same]
    exact mem_saveFile known same
  versions v member := .inl member
  objects key elsewhere := others key (same ▸ elsewhere)
  own := own
  derived := derived
  later row member here := by
    have row_eq : row = file := lib.files.eq_of_key_eq member known (here.trans same)
    rw [row_eq]
    exact later

theorem edits_saved (known : file ∈ lib.files.rows) (same : file'.id = file.id)
    (own : OwnKey file') (derived : lib.Derived env file') (later : file.version < file'.version) :
    Edits env lib ((lib.saveFile file').addVersion env file').state :=
  .writes file' (Writes.addVersion
    (writes_saveFile known same lib.objects (fun _ _ => rfl) own derived (.inl later)))

theorem Edits.refl (env : LibraryEnvironment Bytes) (lib : LibraryState Bytes) : Edits env lib lib :=
  .keeps rfl rfl fun _ _ => rfl

variable {fileId : Uuid} {parentId : Option Uuid} {name contentType source text : String}
  {payload : Bytes} {isBinary : Bool}

theorem writes_insert {file : WorkspaceFile} {objects : ObjectStore Bytes}
    {files : Table WorkspaceFile WorkspaceFile.id} (inserted : lib.files.insert? file = some files)
    (others : ∀ key : ObjectKey, key.documentId ≠ file.id → objects key = lib.objects key)
    (own : OwnKey file) (derived : Derived env { lib with objects := objects } file) :
    Writes env lib { lib with objects := objects, files := files } file where
  rows row := by
    show row ∈ files.rows ↔ _
    rw [Table.mem_of_insert? inserted]
    constructor
    · rintro (old | new)
      · exact .inr ⟨old, Table.fresh_of_insert? inserted old⟩
      · exact .inl new
    · rintro (new | ⟨old, _⟩)
      · exact .inr new
      · exact .inl old
  versions v member := .inl member
  objects := others
  own := own
  derived := derived
  later row member here := absurd here (Table.fresh_of_insert? inserted member)

theorem edits_publish (owns : ∀ row ∈ lib.files.rows, OwnKey row)
    (fresh : isBinary = true → FreshId lib fileId) (conflict : String)
    (encoded : lib.nameTaken (newFile env request fileId parentId name contentType source text
        payload isBinary).file = false → isBinary = false →
      env.size (env.encode text) = env.size payload ∧
        env.sha256 (env.encode text) = env.sha256 payload) :
    Edits env lib (lib.publish env (newFile env request fileId parentId name contentType source
      text payload isBinary) conflict).state := by
  let key := objectKey request.tenantId fileId name
  have elsewhere {other : ObjectKey} (differ : other.documentId ≠ fileId) : other ≠ key :=
    fun same => differ (congrArg ObjectKey.documentId same)
  cases isBinary with
  | false =>
    let row := (newFile env request fileId parentId name contentType source text payload false).file
    by_cases taken : lib.nameTaken row = true
    · have done : (lib.publish env (newFile env request fileId parentId name contentType source text
          payload false) conflict).state = lib := by
        simp only [publish, row] at taken ⊢
        rw [if_pos taken]
        rfl
      rw [done]
      exact .refl env lib
    · have free : lib.nameTaken row = false := Bool.eq_false_iff.mpr taken
      have done : (lib.publish env (newFile env request fileId parentId name contentType source text
          payload false) conflict).state = ((lib.files.insert? row).map fun files =>
            ({ lib with files := files }.addVersion env row).state).getD lib := by
        simp only [publish, row] at free ⊢
        rw [if_neg (by rw [free]; exact Bool.false_ne_true)]
        simp only [newFile, Bool.false_eq_true, if_false]
        split <;> rename_i result <;> rw [result] <;> rfl
      obtain ⟨size, sha⟩ := encoded free rfl
      have derived : lib.Derived env row :=
        ⟨env.encode text, libraryFilePayload_text rfl, size.symm, congrArg some sha.symm⟩
      rw [done]
      cases inserted : lib.files.insert? row with
      | none => exact .refl env lib
      | some =>
        exact .writes row (Writes.addVersion (writes_insert inserted (fun _ _ => rfl)
          (fun _ binary => by cases binary) derived))
  | true =>
    have fresh := fresh rfl
    let row : WorkspaceFile :=
      { (newFile env request fileId parentId name contentType source text payload true).file with
        storageKey := some key }
    by_cases taken : lib.nameTaken (newFile env request fileId parentId name contentType source text
        payload true).file = true
    · have done : (lib.publish env (newFile env request fileId parentId name contentType source text
          payload true) conflict).state =
            { lib with objects := (lib.objects.put key payload).delete key } := by
        simp only [publish, taken, if_true]
        rfl
      rw [done]
      refine .keeps rfl rfl fun old member => libraryFilePayload_congr fun other binary located => ?_
      have own := owns old member other binary located
      have apart : other.documentId ≠ fileId := fun same =>
        fresh (List.mem_map.mpr ⟨old, member, own.symm.trans same⟩)
      exact (ObjectStore.delete_of_ne _ (elsewhere apart)).trans
        (ObjectStore.put_of_ne _ _ (elsewhere apart))
    · have free := Bool.eq_false_iff.mpr taken
      obtain ⟨files, inserted, _⟩ := Table.insert?_of_fresh (a := row) fresh
      have done : (lib.publish env (newFile env request fileId parentId name contentType source text
          payload true) conflict).state =
            ({ lib with objects := lib.objects.put key payload, files := files }.addVersion env
              row).state := by
        simp only [publish, free, Bool.false_eq_true, if_false]
        simp only [row, key, newFile, if_true] at inserted ⊢
        rw [inserted]
      have stored : (lib.objects.put key payload) key = some payload := ObjectStore.put_self _ _ _
      have derived : Derived env { lib with objects := lib.objects.put key payload } row :=
        ⟨payload, libraryFilePayload_object rfl rfl stored, rfl, rfl⟩
      rw [done]
      refine .writes row (Writes.addVersion (writes_insert inserted (fun other apart => ?_) ?_ derived))
      · exact ObjectStore.put_of_ne _ _ (elsewhere apart)
      · rintro _ _ ⟨⟩
        rfl

/-- The row that `update_workspace_file` makes of the one that it has loaded, and its object. -/
inductive Updated (env : LibraryEnvironment Bytes) (lib : LibraryState Bytes)
    (original : WorkspaceFile) : WorkspaceFile → Option (OfficeWrite Bytes) → Prop
  | same : Updated env lib original original none
  | kept (name contentType : String) (folder : Option Uuid) :
      Updated env lib original
        { original with
          name := name
          contentType := contentType
          parentFolderId := folder
          version := original.version + 1 } none
  | text (plain : original.isBinary = false) (name contentType content : String)
      (folder : Option Uuid) :
      Updated env lib original
        { original with
          name := name
          contentType := contentType
          parentFolderId := folder
          content := content
          sizeBytes := env.size (env.encode content)
          checksumSha256 := some (env.sha256 (env.encode content))
          version := original.version + 1 } none
  | office (binary : original.isBinary = true) (name contentType : String) (folder : Option Uuid)
      (payload oldPayload : Bytes) (read : lib.libraryFilePayload env original = .ok oldPayload) :
      Updated env lib original
        { original with
          name := name
          contentType := contentType
          parentFolderId := folder
          storageKey := some (objectKey original.tenantId original.id name)
          sizeBytes := env.size payload
          checksumSha256 := some (env.sha256 payload)
          version := original.version + 1 }
        (some ⟨objectKey original.tenantId original.id name, payload, oldPayload⟩)

theorem updated_of_planUpdate {fileId : Uuid} {changes : FileChanges} {generated : Bytes}
    {update : FileUpdate Bytes}
    (planned : lib.planUpdate env request fileId changes generated = .ok update) :
    update.original ∈ lib.files.rows ∧ update.original.id = fileId ∧
      (∀ expected ∈ changes.expectedVersion, expected = update.original.version) ∧
      Updated env lib update.original update.file update.write := by
  simp only [planUpdate, bind_eq_ok_iff, ensure_eq_ok_iff] at planned
  obtain ⟨_, _, original, owned, _, expected, parent, placed, ⟨edited, write⟩, content, result⟩ :=
    planned
  obtain ⟨known, tenant⟩ := mem_of_ownedFile owned
  have id_eq : original.id = fileId := by
    unfold ownedFile at owned
    split at owned
    · cases owned
    · rename_i found
      cases owned
      exact (Table.find?_eq_some_iff.mp (Option.filter_eq_some_iff.mp found).1).2
  obtain ⟨name, contentType, naming⟩ := renamed_eq env original changes
  cases hcontent : changes.content with
  | some text =>
    rw [naming] at content
    simp only [hcontent, Option.isSome_some, Bool.or_true, Bool.true_or, if_true] at result
    cases result
    refine ⟨known, id_eq, expected, ?_⟩
    simp only [planEdit, hcontent, planContent] at content
    by_cases binary : original.isBinary = true
    · simp only [binary, if_true, bind_eq_ok_iff] at content
      obtain ⟨_, _, _, _, oldPayload, read, _, _, _, _, made⟩ := content
      cases made
      rw [← tenant]
      have old : lib.libraryFilePayload env original = .ok oldPayload := by
        rw [← read]
        simp only [libraryFilePayload, binary]
      have row : Updated env lib original _ _ :=
        .office binary name contentType parent generated oldPayload old
      simpa only [binary] using row
    · have plain : original.isBinary = false := Bool.eq_false_iff.mpr binary
      simp only [plain, Bool.false_eq_true, if_false, bind_eq_ok_iff] at content
      obtain ⟨_, _, made⟩ := content
      cases made
      have row : Updated env lib original _ _ := .text plain name contentType text parent
      simpa only [plain] using row
  | none =>
    simp only [planEdit, hcontent] at content
    cases content
    rw [naming] at result
    cases hname : changes.name with
    | some =>
      simp only [hname, Option.isSome_some, Bool.true_or, if_true] at result
      cases result
      exact ⟨known, id_eq, expected, .kept name contentType parent⟩
    | none =>
      cases hparent : changes.parentFolderId with
      | some =>
        simp only [hparent, Option.isSome_some, Bool.or_true, if_true] at result
        cases result
        exact ⟨known, id_eq, expected, .kept name contentType parent⟩
      | none =>
        simp only [hname, hcontent, hparent, Option.isSome_none, Bool.or_false,
          Bool.false_eq_true, if_false] at result
        have unnamed : renamed env original changes = original := by
          simp only [renamed, hname]
        rw [unnamed] at naming
        simp only [planParent, hparent] at placed
        rw [unnamed] at placed
        cases placed
        cases result
        rw [← naming]
        exact ⟨known, id_eq, expected, .same⟩

def KeepsOwnObject (lib : LibraryState Bytes) (update : FileUpdate Bytes) : Prop :=
  lib.nameTaken update.file = true → ∀ write ∈ update.write,
    update.original.storageKey = some write.key →
      write.key = objectKey update.original.tenantId update.original.id update.original.name ∨
        write.payload = write.oldPayload

theorem stored_of_read {file : WorkspaceFile} {key : ObjectKey} {payload : Bytes}
    (binary : file.isBinary = true) (located : file.storageKey = some key)
    (read : lib.libraryFilePayload env file = .ok payload) : lib.objects key = some payload := by
  simp only [libraryFilePayload, binary, Bool.true_eq_false, if_false, located] at read
  split at read
  · cases read
  · rename_i stored
    rw [stored, Except.ok.inj read]

theorem payloads_of_refused (owns : ∀ row ∈ lib.files.rows, OwnKey row) {original : WorkspaceFile}
    (known : original ∈ lib.files.rows) {key oldKey : ObjectKey} {payload oldPayload : Bytes}
    (binary : original.isBinary = true)
    (read : lib.libraryFilePayload env original = .ok oldPayload)
    (ofKey : key.documentId = original.id) (ofOldKey : oldKey.documentId = original.id)
    (careful : original.storageKey = some key → key = oldKey ∨ payload = oldPayload) :
    ∀ row ∈ lib.files.rows,
      libraryFilePayload env { lib with objects := (lib.objects.put key payload).put oldKey oldPayload }
        row = lib.libraryFilePayload env row := by
  intro row member
  refine libraryFilePayload_congr fun other rowBinary located => ?_
  show ((lib.objects.put key payload).put oldKey oldPayload) other = lib.objects other
  have own := owns row member other rowBinary located
  by_cases isOld : other = oldKey
  · have row_eq : row = original :=
      lib.files.eq_of_key_eq member known (own.symm.trans ((congrArg _ isOld).trans ofOldKey))
    subst row_eq
    rw [isOld, ObjectStore.put_self]
    exact (stored_of_read binary (isOld ▸ located) read).symm
  · rw [ObjectStore.put_of_ne _ _ isOld]
    by_cases isNew : other = key
    · have row_eq : row = original :=
        lib.files.eq_of_key_eq member known (own.symm.trans ((congrArg _ isNew).trans ofKey))
      subst row_eq
      rw [isNew, ObjectStore.put_self]
      rcases careful (isNew ▸ located) with same | same
      · exact absurd (isNew.trans same) isOld
      · rw [same]
        exact (stored_of_read binary (isNew ▸ located) read).symm
    · exact ObjectStore.put_of_ne _ _ isNew

theorem edits_commitUpdate (owns : ∀ row ∈ lib.files.rows, OwnKey row)
    (deriveds : ∀ row ∈ lib.files.rows, lib.Derived env row) {update : FileUpdate Bytes}
    (known : update.original ∈ lib.files.rows)
    (updated : Updated env lib update.original update.file update.write)
    (careful : lib.KeepsOwnObject update) :
    Edits env lib (lib.commitUpdate env update).state := by
  obtain ⟨original, file, write⟩ := update
  simp only [commitUpdate, KeepsOwnObject] at known updated careful ⊢
  obtain ⟨payload, read, size, sha⟩ := deriveds original known
  by_cases taken : lib.nameTaken file = true
  · simp only [taken, if_true]
    cases updated with
    | office binary name contentType folder generated oldPayload old =>
      refine .keeps rfl rfl (payloads_of_refused owns known binary old rfl rfl fun located => ?_)
      exact careful taken _ rfl located
    | _ => exact .refl env lib
  · simp only [taken, Bool.false_eq_true, if_false]
    cases updated with
    | same =>
      exact .writes _ (Writes.addVersion (writes_saveFile known rfl lib.objects (fun _ _ => rfl)
        (owns _ known) ⟨payload, read, size, sha⟩ (.inr rfl)))
    | kept =>
      exact edits_saved known rfl (owns original known) ⟨payload, read, size, sha⟩
        (Nat.lt_succ_self _)
    | text plain name contentType content folder =>
      have own : OwnKey { original with
          name := name
          contentType := contentType
          parentFolderId := folder
          content := content
          sizeBytes := env.size (env.encode content)
          checksumSha256 := some (env.sha256 (env.encode content))
          version := original.version + 1 } := by
        intro key binary
        rw [show original.isBinary = true from binary] at plain
        cases plain
      exact edits_saved known rfl own ⟨env.encode content, libraryFilePayload_text plain, rfl, rfl⟩
        (Nat.lt_succ_self _)
    | office binary name contentType folder generated =>
      let key := objectKey original.tenantId original.id name
      let objects := lib.objects.put key generated
      have stored : objects key = some generated := ObjectStore.put_self _ _ _
      have apart (other : ObjectKey) (differ : other.documentId ≠ original.id) :
          objects other = lib.objects other :=
        ObjectStore.put_of_ne _ _ fun same => differ (congrArg ObjectKey.documentId same)
      show Edits env lib ((LibraryState.saveFile { lib with objects := objects } _).addVersion env
        _).state
      refine .writes _ (Writes.addVersion (writes_saveFile known ?_ objects apart ?_ ?_ (.inl ?_)))
      · rfl
      · rintro _ _ ⟨⟩
        rfl
      · exact ⟨generated, libraryFilePayload_object binary rfl stored, rfl, rfl⟩
      · exact Nat.lt_succ_self _

variable {edited : WorkspaceFile}

def SameShown (env : LibraryEnvironment Bytes) (file edited : WorkspaceFile) : Prop :=
  edited.name = file.name ∧ edited.parentFolderId = file.parentFolderId ∧
    (file.isBinary = false → env.encode edited.content = env.encode file.content) ∧
      edited.sizeBytes = file.sizeBytes

/-- The columns that the tools of the agent leave alone. -/
structure ToolKeeps (file edited : WorkspaceFile) : Prop where
  id : edited.id = file.id
  version : edited.version = file.version
  isBinary : edited.isBinary = file.isBinary
  storageKey : edited.storageKey = file.storageKey
  checksum : edited.checksumSha256 = file.checksumSha256

theorem edits_tool (owns : ∀ row ∈ lib.files.rows, OwnKey row)
    (deriveds : ∀ row ∈ lib.files.rows, lib.Derived env row) (known : file ∈ lib.files.rows)
    (keeps : ToolKeeps file edited) (same : SameShown env file edited) :
    Edits env lib (lib.saveFile edited) := by
  obtain ⟨name, folder, text, size⟩ := same
  have payload_eq : lib.libraryFilePayload env edited = lib.libraryFilePayload env file := by
    unfold libraryFilePayload
    rw [keeps.isBinary, keeps.storageKey]
    split
    · rename_i plain
      rw [text plain]
    · rfl
  have own : OwnKey edited := by
    intro key binary located
    rw [keeps.id]
    exact owns file known key (keeps.isBinary.symm.trans binary) (keeps.storageKey.symm.trans located)
  have derived : lib.Derived env edited := by
    obtain ⟨payload, read, sizes, sha⟩ := deriveds file known
    exact ⟨payload, payload_eq.trans read, size.trans sizes, keeps.checksum.trans sha⟩
  have shown_eq : lib.shown env edited = lib.shown env file := by
    simp only [shown, keeps.id, keeps.version, name, folder, payload_eq]
  exact .writes edited (writes_saveFile known keeps.id lib.objects (fun _ _ => rfl) own derived
    (.inr shown_eq))

end LibraryState

end AverQel.Library
