/- digest: What a failing update leaves of a Library file, at every step where it can fail. -/
import AverQel.Library.FileWrites

namespace AverQel.Library

open Foundation AverQel.System

/-- Where `update_workspace_file` fails besides its checks: before `put_bytes` or in it, where it
may have been executed; in the commit, with a violated constraint or without; while the version is
recorded. -/
inductive UpdateStep where
  | preparing
  | put (executed : Bool)
  | commit
  | constraint
  | recording
  deriving DecidableEq

/-- The failing step, and whether the old payload is written again after a violated constraint. -/
structure UpdateFaults where
  step : Option UpdateStep
  restores : Bool

/-- How far an update gets. -/
inductive UpdateEnd where
  | unwritten
  | written
  | restored
  | saved
  | recorded (versions : Table WorkspaceFileVersion WorkspaceFileVersion.number)

namespace FileUpdate

variable {Bytes : Type} (update : FileUpdate Bytes)

/-- The key under which the old payload is written again. -/
def oldKey : ObjectKey :=
  objectKey update.original.tenantId update.original.id update.original.name

/-- A new object does not stand in the place of the old one, unless it is the same. -/
def Spares : Prop :=
  ∀ write ∈ update.write, update.original.storageKey = some write.key →
    write.payload = write.oldPayload

/-- Neither the name nor the bytes are new. -/
def Repeats (env : LibraryEnvironment Bytes) : Prop :=
  update.file.name = update.original.name ∧
    env.encode update.file.content = env.encode update.original.content ∧
    ∀ write ∈ update.write, write.payload = write.oldPayload

end FileUpdate

namespace LibraryState

variable {Bytes : Type} (env : LibraryEnvironment Bytes) (lib : LibraryState Bytes)
  (request : LibraryRequest) (update : FileUpdate Bytes) (faults : UpdateFaults)

def ending : UpdateEnd :=
  let refused := if faults.restores then .restored else .written
  match faults.step with
  | some .preparing => .unwritten
  | some (.put executed) => if executed then .written else .unwritten
  | some .commit => .written
  | some .constraint => refused
  | some .recording => if lib.nameTaken update.file then refused else .saved
  | none =>
    if lib.nameTaken update.file then refused
    else ((lib.versions.insert? (snapshot env update.file)).map .recorded).getD .saved

def writtenObjects : ObjectStore Bytes :=
  update.write.elim lib.objects fun write => lib.objects.put write.key write.payload

/-- What is left, and whether the call succeeds. -/
def leaves : UpdateEnd → LibraryState Bytes × Bool
  | .unwritten => (lib, false)
  | .written => ({ lib with objects := lib.writtenObjects update }, false)
  | .restored =>
    ({ lib with
        objects := update.write.elim lib.objects fun write =>
          (lib.writtenObjects update).put update.oldKey write.oldPayload }, false)
  | .saved => ({ lib with objects := lib.writtenObjects update }.saveFile update.file, false)
  | .recorded versions =>
    ({ { lib with objects := lib.writtenObjects update }.saveFile update.file with
        versions := versions }, true)

/-- `update_workspace_file`, with the step at which it fails. -/
def updateOrFail (fileId : Uuid) (changes : FileChanges) (generated : Bytes) :
    LibraryState Bytes × Bool :=
  match lib.planUpdate env request fileId changes generated with
  | .error _ => (lib, false)
  | .ok update => lib.leaves update (lib.ending env update faults)

/-- Reading the file gives the name and the bytes that it had, and they are those of its row. -/
def Intact (lib' : LibraryState Bytes) (file : WorkspaceFile) : Prop :=
  ∃ after ∈ lib'.files.rows, after.id = file.id ∧ after.name = file.name ∧
    lib'.libraryFilePayload env after = lib.libraryFilePayload env file ∧ lib'.Derived env after

/-- The condition on where the update ends. -/
def SafeEnd : UpdateEnd → Prop
  | .unwritten | .recorded _ => True
  | .written => update.Spares
  | .restored => update.Spares ∨ update.original.storageKey = some update.oldKey
  | .saved => update.Repeats env

variable {env lib request update faults}

/-- Without a failing step the update is the one of the endpoint. -/
theorem updateOrFail_none (fileId : Uuid) (changes : FileChanges) (generated : Bytes) :
    (lib.updateOrFail env request ⟨none, true⟩ fileId changes generated).1 =
      (lib.updateWorkspaceFile env request fileId changes generated).state := by
  unfold updateOrFail updateWorkspaceFile
  cases lib.planUpdate env request fileId changes generated with
  | error => rfl
  | ok update =>
    obtain ⟨original, file, write⟩ := update
    simp only [ending, commitUpdate, if_true]
    split
    · cases write <;> rfl
    · unfold addVersion
      cases write <;> cases inserted : lib.versions.insert? (snapshot env file) <;>
        simp [saveFile, inserted, leaves, writtenObjects, Attempt.state]

theorem intact_objects_iff {file : WorkspaceFile} (known : file ∈ lib.files.rows)
    (derived : lib.Derived env file) (objects : ObjectStore Bytes) :
    lib.Intact env { lib with objects := objects } file ↔
      libraryFilePayload env { lib with objects := objects } file =
        lib.libraryFilePayload env file := by
  constructor
  · rintro ⟨after, member, id, _, read, _⟩
    rwa [lib.files.eq_of_key_eq member known id] at read
  · intro read
    obtain ⟨payload, old, size, sha⟩ := derived
    exact ⟨file, known, rfl, rfl, read, payload, read.trans old, size, sha⟩

theorem intact_saved_iff {file file' : WorkspaceFile} (known : file ∈ lib.files.rows)
    (same : file'.id = file.id) {objects : ObjectStore Bytes}
    (derived : Derived env { lib with objects := objects } file') :
    lib.Intact env ({ lib with objects := objects }.saveFile file') file ↔
      file'.name = file.name ∧ libraryFilePayload env { lib with objects := objects } file' =
        lib.libraryFilePayload env file := by
  have rows {row : WorkspaceFile} :
      row ∈ ({ lib with objects := objects }.saveFile file').files.rows ↔
        row = file' ∨ (row ∈ lib.files.rows ∧ row.id ≠ file.id) :=
    mem_saveFile (show file ∈ (LibraryState.files { lib with objects := objects }).rows from known)
      same
  constructor
  · rintro ⟨after, member, id, name, read, _⟩
    rcases rows.mp member with rfl | ⟨_, other⟩
    · exact ⟨name, read⟩
    · exact absurd id other
  · rintro ⟨name, read⟩
    exact ⟨file', rows.mpr (.inl rfl), same, name, read, derived⟩

theorem read_eq_iff {x y : Except ApiError Bytes} {a b : Bytes} (first : x = .ok a)
    (second : y = .ok b) : x = y ↔ a = b := by
  rw [first, second, Except.ok.injEq]

/-- The key of an object that was read, and what other objects make of it. -/
theorem exists_key_of_read {file : WorkspaceFile} {old : Bytes} (binary : file.isBinary = true)
    (read : lib.libraryFilePayload env file = .ok old) :
    ∃ key, file.storageKey = some key ∧ lib.objects key = some old ∧
      ∀ objects : ObjectStore Bytes,
        libraryFilePayload env { lib with objects := objects } file =
          lib.libraryFilePayload env file ↔ objects key = some old := by
  cases located : file.storageKey with
  | none => simp [libraryFilePayload, binary, located] at read
  | some key =>
    refine ⟨key, rfl, stored_of_read binary located read, fun objects => ?_⟩
    rw [read]
    refine ⟨fun other => stored_of_read binary located other, fun stored => ?_⟩
    exact libraryFilePayload_object binary located stored

theorem intact_leaves_iff (known : update.original ∈ lib.files.rows)
    (derived : lib.Derived env update.original)
    (updated : Updated env lib update.original update.file update.write) (reached : UpdateEnd) :
    ((lib.leaves update reached).2 = false →
      lib.Intact env (lib.leaves update reached).1 update.original) ↔
      SafeEnd env update reached := by
  obtain ⟨original, file, write⟩ := update
  dsimp only at known derived updated
  have same : lib.Intact env lib original := (intact_objects_iff known derived lib.objects).mpr rfl
  cases reached with
  | unwritten => exact iff_of_true (fun _ => same) trivial
  | recorded => exact iff_of_true (fun done => by cases done) trivial
  | written =>
    rw [leaves, forall_prop_of_true rfl, intact_objects_iff known derived]
    cases updated with
    | office binary name contentType folder payload old read =>
      obtain ⟨key, located, stored, reads⟩ := exists_key_of_read binary read
      rw [reads]
      by_cases here : key = objectKey original.tenantId original.id name
      · simp [writtenObjects, SafeEnd, FileUpdate.Spares, located, ← here]
      · simp [writtenObjects, SafeEnd, FileUpdate.Spares, located, here,
          ObjectStore.put_of_ne _ _ here, stored]
    | _ => exact iff_of_true rfl fun _ none_ => by cases none_
  | restored =>
    rw [leaves, forall_prop_of_true rfl, intact_objects_iff known derived]
    cases updated with
    | office binary name contentType folder payload old read =>
      obtain ⟨key, located, stored, reads⟩ := exists_key_of_read binary read
      rw [reads]
      by_cases back : key = objectKey original.tenantId original.id original.name
      · simp [SafeEnd, FileUpdate.oldKey, located, ← back]
      · by_cases here : key = objectKey original.tenantId original.id name
        · simp [writtenObjects, SafeEnd, FileUpdate.Spares, FileUpdate.oldKey, located, back,
            ObjectStore.put_of_ne _ _ back, ← here]
        · simp [writtenObjects, SafeEnd, FileUpdate.Spares, FileUpdate.oldKey, located, back, here,
            ObjectStore.put_of_ne _ _ back, ObjectStore.put_of_ne _ _ here, stored]
    | _ => exact iff_of_true rfl (.inl fun _ none_ => by cases none_)
  | saved =>
    rw [leaves, forall_prop_of_true rfl]
    obtain ⟨payload, read, size, sha⟩ := derived
    refine Iff.trans (intact_saved_iff known ?_ ?_) ?_
    · cases updated <;> rfl
    · cases updated with
      | same | kept => exact ⟨payload, read, size, sha⟩
      | text plain => exact ⟨_, libraryFilePayload_text plain, rfl, rfl⟩
      | office binary name contentType folder generated =>
        exact ⟨generated, libraryFilePayload_object binary rfl (ObjectStore.put_self _ _ _), rfl, rfl⟩
    cases updated with
    | same | kept =>
      exact and_congr_right fun _ => iff_of_true rfl ⟨rfl, fun _ none_ => by cases none_⟩
    | text plain name contentType content =>
      refine and_congr_right fun _ => Iff.trans
        (read_eq_iff (a := env.encode content) ?_ (libraryFilePayload_text plain)) ?_
      · exact libraryFilePayload_text plain
      · exact (and_iff_left fun _ none_ => by cases none_).symm
    | office binary name contentType folder generated old oldRead =>
      refine and_congr_right fun _ => Iff.trans (read_eq_iff (a := generated) ?_ oldRead) ?_
      · exact libraryFilePayload_object binary rfl (ObjectStore.put_self _ _ _)
      · simp

/-- A file whose bytes are those of its row is intact after a failing update exactly when the new
object does not stand in the place of the old one where it stays, and neither the name nor the
bytes are new where the version is not recorded. -/
theorem failed_update_intact_iff {file : WorkspaceFile} {fileId : Uuid} (faults : UpdateFaults)
    (changes : FileChanges) (generated : Bytes) (known : lib.files.find? fileId = some file)
    (derived : lib.Derived env file) :
    ((lib.updateOrFail env request faults fileId changes generated).2 = false →
      lib.Intact env (lib.updateOrFail env request faults fileId changes generated).1 file) ↔
      ∀ update, lib.planUpdate env request fileId changes generated = .ok update →
        SafeEnd env update (lib.ending env update faults) := by
  obtain ⟨member, id⟩ := Table.find?_eq_some_iff.mp known
  unfold updateOrFail
  cases planned : lib.planUpdate env request fileId changes generated with
  | error =>
    exact iff_of_true (fun _ => (intact_objects_iff member derived lib.objects).mpr rfl)
      fun _ made => by cases made
  | ok update =>
    obtain ⟨loaded, same, _, updated⟩ := updated_of_planUpdate planned
    obtain rfl := lib.files.eq_of_key_eq loaded member (same.trans id.symm)
    refine (intact_leaves_iff loaded derived updated _).trans ⟨?_, fun safe => safe update rfl⟩
    rintro safe _ ⟨⟩
    exact safe

open History (textEnvironment owner)

def document : WorkspaceFile :=
  ⟨7, 1, 1, 1, none, "report.docx", wordType, "", "user", 5, some (objectKey 1 7 "report.docx"),
    some "#first", 1, true⟩

/-- A document whose bytes are stored under its name. -/
def oneDocument : LibraryState String :=
  ⟨[⟨1, 1, 1, "deepspace"⟩], [], ⟨[document], by decide⟩, ⟨[], by decide⟩,
    fun key => if key = objectKey 1 7 "report.docx" then some "first" else none⟩

/-- Its new content is stored, and the commit raises. -/
def uncommitted : LibraryState String × Bool :=
  oneDocument.updateOrFail textEnvironment owner ⟨some .commit, true⟩ 7
    ⟨none, some "second", none, none⟩ "second"

theorem failed_update_intact_iff_document :
    (uncommitted.2 = false → oneDocument.Intact textEnvironment uncommitted.1 document) ↔
      ∀ update, oneDocument.planUpdate textEnvironment owner 7 ⟨none, some "second", none, none⟩
        "second" = .ok update → SafeEnd textEnvironment update .written :=
  failed_update_intact_iff ⟨some .commit, true⟩ _ _ rfl ⟨"first", by decide, by decide, by decide⟩

/-- The row has the checksum of the bytes that are overwritten. -/
theorem document_overwritten :
    ¬ (uncommitted.2 = false → oneDocument.Intact textEnvironment uncommitted.1 document) := by
  intro intact
  obtain ⟨after, member, _, _, read, _⟩ := intact (by decide)
  obtain rfl := List.mem_singleton.mp member
  revert read
  decide

end LibraryState

end AverQel.Library
