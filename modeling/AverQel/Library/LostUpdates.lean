/- digest: Edits that expect a version, and the writes that change a file under its version. -/
import AverQel.Library.FileWrites

namespace AverQel.Library

open Foundation Transition AverQel.System

variable {Bytes : Type}

namespace LibraryState

/-- The file that the save of a visual artifact writes over. -/
def visualTarget (lib : LibraryState Bytes) (request : LibraryRequest) (filename content : String)
    (expectedVersion : Option Nat) : Option WorkspaceFile :=
  match lib.requireConversation request, safeName filename with
  | .ok _, some name =>
    match lib.visualFiles request name with
    | [file] =>
      if (∃ expected ∈ expectedVersion, expected ≠ file.version) ∨ file.content = content ∨
          request.fits = false then none
      else some file
    | _ => none
  | _, _ => none

variable (env : LibraryEnvironment Bytes)

/-- The writes that keep what readers rely on. A text upload is the encoding of its text, a refused
Office edit does not write over the object of the file, a visual artifact is not saved over a binary
file with another payload, and the tools of the agent change nothing that a reader is shown. -/
def Careful (lib : LibraryState Bytes) : FileWrite Bytes → Prop
  | .endpoint (.upload request fileId filename declaredType payload parentFolderId) =>
    ∀ new ∈ (lib.planUpload env request fileId filename declaredType payload parentFolderId).toOption,
      new.file.isBinary = false → env.size (env.encode (env.decode payload)) = env.size payload ∧
        env.sha256 (env.encode (env.decode payload)) = env.sha256 payload
  | .endpoint (.update request fileId changes generated) =>
    ∀ update ∈ (lib.planUpdate env request fileId changes generated).toOption,
      lib.KeepsOwnObject update
  | .visual request _ filename content expectedVersion =>
    ∀ file ∈ lib.visualTarget request filename content expectedVersion, file.isBinary = true →
      lib.libraryFilePayload env file = .ok (env.encode content)
  | .agentWrite request _ filename content mode parentFolderId =>
    ∀ write ∈ (lib.planWrite env request filename content mode parentFolderId).toOption,
      ∃ file ∈ write.existing, SameShown env file (agentWritten env file write.nextContent)
  | .agentEdit request fileId name content mode parentFolderId =>
    ∀ rows ∈ (lib.planToolEdit env request fileId name content mode parentFolderId).toOption,
      lib.nameTaken rows.2 = false → SameShown env rows.1 rows.2
  | _ => True

/-- The rows have the size and checksum of their payload, and so do the recorded texts. -/
structure Sound (lib : LibraryState Bytes) : Prop where
  owns : ∀ row ∈ lib.files.rows, OwnKey row
  deriveds : ∀ row ∈ lib.files.rows, lib.Derived env row
  texts : ∀ v ∈ lib.versions.rows, ∀ text, v.content = some text →
    v.sizeBytes = env.size (env.encode text) ∧ v.checksumSha256 = env.sha256 (env.encode text)

variable {env} {lib lib' : LibraryState Bytes} {request : LibraryRequest}

theorem toOption_of_ok {ε α : Type} {x : Except ε α} {a : α} (ok : x = .ok a) : a ∈ x.toOption := by
  rw [ok]
  exact rfl

variable {fileId : Uuid}

theorem edits_create (sound : lib.Sound env) (fresh : FreshId lib fileId)
    (name content contentType : String) (parentFolderId : Option String) :
    Edits env lib (lib.createWorkspaceFile env request fileId name content contentType
      parentFolderId).state := by
  unfold createWorkspaceFile
  split
  · exact .refl env lib
  · rename_i new planned
    obtain ⟨parentId, chosen, payload, isBinary, rfl, encoded⟩ := planCreate_ok planned
    refine edits_publish sound.owns (fun _ => fresh) _ fun _ text => ?_
    rw [encoded text]
    exact ⟨rfl, rfl⟩

variable {parentFolderId : Option String}

theorem edits_upload (sound : lib.Sound env) (fresh : FreshId lib fileId)
    {filename declaredType : Option String} {payload : Bytes}
    (careful : lib.Careful env
      (.endpoint (.upload request fileId filename declaredType payload parentFolderId))) :
    Edits env lib (lib.uploadWorkspaceFile env request fileId filename declaredType payload
      parentFolderId).state := by
  unfold uploadWorkspaceFile
  split
  · exact .refl env lib
  · rename_i new planned
    have kept := careful new (toOption_of_ok planned)
    obtain ⟨parentId, name, chosen, isBinary, rfl⟩ := planUpload_ok planned
    exact edits_publish sound.owns (fun _ => fresh) _ fun _ text => kept text

theorem edits_importAsset (sound : lib.Sound env) (fresh : FreshId lib fileId)
    (name contentType : String) (body : Bytes) (temporary : Bool) :
    Edits env lib (lib.importRemoteAsset env request fileId name contentType body temporary).state := by
  unfold importRemoteAsset
  split
  · exact .refl env lib
  · rename_i new planned
    obtain ⟨chosen, source, rfl⟩ := planAsset_ok planned
    exact edits_publish sound.owns (fun _ => fresh) _ fun _ text => by cases text

theorem edits_retain (sound : lib.Sound env) (fileId : Uuid) :
    Edits env lib (lib.retainTemporaryAsset env request fileId).state := by
  unfold retainTemporaryAsset
  split
  · exact .refl env lib
  · rename_i file checked
    have known := mem_of_checked checked
    split
    · exact edits_saved known rfl (sound.owns file known) (sound.deriveds file known)
        (Nat.lt_succ_self _)
    · exact .refl env lib

theorem edits_update (sound : lib.Sound env) {changes : FileChanges} {generated : Bytes}
    (careful : lib.Careful env (.endpoint (.update request fileId changes generated))) :
    Edits env lib (lib.updateWorkspaceFile env request fileId changes generated).state := by
  unfold updateWorkspaceFile
  split
  · exact .refl env lib
  · rename_i update planned
    obtain ⟨known, _, _, updated⟩ := updated_of_planUpdate planned
    exact edits_commitUpdate sound.owns sound.deriveds known updated
      (careful update (toOption_of_ok planned))

theorem edits_move (sound : lib.Sound env) (fileId : Uuid) (name parentFolderId : Option String) :
    Edits env lib (lib.moveWorkspaceFile env request fileId name parentFolderId).state := by
  unfold moveWorkspaceFile
  split
  · exact .refl env lib
  rename_i source checked
  have known := mem_of_checked checked
  simp only
  split
  · exact .refl env lib
  · exact .refl env lib
  split
  · exact .refl env lib
  split
  · exact .refl env lib
  · exact edits_saved known rfl (sound.owns source known) (sound.deriveds source known)
      (Nat.lt_succ_self _)

theorem edits_restore (sound : lib.Sound env) (fileId : Uuid) (version : Nat) :
    Edits env lib (lib.restoreWorkspaceFileVersion env request fileId version).state := by
  unfold restoreWorkspaceFileVersion
  split
  · exact .refl env lib
  rename_i file v found
  obtain ⟨known, recorded⟩ := findSnapshot_ok found
  split
  · exact .refl env lib
  split
  · exact .refl env lib
  rename_i content text
  obtain ⟨size, sha⟩ := sound.texts v recorded content text
  have derived : lib.Derived env (restoredFile file v content) :=
    ⟨env.encode content, libraryFilePayload_text rfl, size, congrArg some sha⟩
  have written := edits_saved known (restoredFile_id content) (restoredFile_ownKey content) derived
    (Nat.lt_succ_self _)
  simp only
  split
  · exact .refl env lib
  split
  · exact .refl env lib
  · rename_i done saved
    rw [saved] at written
    exact written

theorem edits_visual (sound : lib.Sound env) {filename content : String}
    {expectedVersion : Option Nat}
    (careful : lib.Careful env (.visual request fileId filename content expectedVersion)) :
    Edits env lib (lib.saveVisualArtifact env request fileId filename content expectedVersion).state := by
  have targets : ∀ file ∈ lib.visualTarget request filename content expectedVersion,
      file.isBinary = true → lib.libraryFilePayload env file = .ok (env.encode content) := careful
  unfold saveVisualArtifact
  split
  · exact .refl env lib
  · exact .refl env lib
  rename_i done name allowed named
  split
  · split
    · exact .refl env lib
    · have text : (false : Bool) = true → FreshId lib fileId := fun binary => by cases binary
      exact edits_publish sound.owns text _ fun _ _ => ⟨rfl, rfl⟩
  · rename_i file found
    have known : file ∈ lib.files.rows :=
      (List.mem_filter.mp (found ▸ List.mem_singleton_self file)).1
    split
    · exact .refl env lib
    split
    · exact .refl env lib
    split
    · exact .refl env lib
    rename_i expected differs fits
    have target : lib.visualTarget request filename content expectedVersion = some file := by
      simp only [visualTarget, allowed, named, found]
      rw [if_neg]
      rintro (is | is | is)
      · exact expected is
      · exact differs is
      · exact fits is
    have derived : lib.Derived env (visualRevised env file content) := by
      refine ⟨env.encode content, ?_, rfl, rfl⟩
      by_cases binary : file.isBinary = true
      · rw [← targets file target binary]
        simp only [libraryFilePayload, visualRevised, binary, Bool.true_eq_false, if_false]
      · exact libraryFilePayload_text (Bool.eq_false_iff.mpr binary)
    exact edits_saved known rfl (sound.owns file known) derived (Nat.lt_succ_self _)
  · exact .refl env lib

variable {mode : WriteMode}

theorem edits_agentWrite (sound : lib.Sound env) {filename content : String}
    (careful : lib.Careful env (.agentWrite request fileId filename content mode parentFolderId)) :
    Edits env lib (lib.apply env
      (.agentWrite request fileId filename content mode parentFolderId)) := by
  simp only [apply, writeWorkspaceFile]
  split
  · exact .refl env lib
  rename_i write planned
  obtain ⟨file, existing, same⟩ := careful write (toOption_of_ok planned)
  have known : file ∈ lib.files.rows := by
    simp only [planWrite, bind_eq_ok_iff] at planned
    obtain ⟨_, _, _, _, _, _, _, _, _, _, _, _, made⟩ := planned
    cases made
    exact List.mem_of_find?_eq_some existing
  rw [existing]
  exact edits_tool sound.owns sound.deriveds known ⟨rfl, rfl, rfl, rfl, rfl⟩ same

theorem toolKeeps_of_planToolEdit {fileId : String} {name content : Option String}
    {file edited : WorkspaceFile}
    (planned : lib.planToolEdit env request fileId name content mode parentFolderId = .ok (file, edited)) :
    file ∈ lib.files.rows ∧ ToolKeeps file edited := by
  simp only [planToolEdit, bind_eq_ok_iff] at planned
  obtain ⟨_, _, parsed, _, owned, located, _, _, newName, _, parentId, _, newContent, _, made⟩ :=
    planned
  cases made
  cases found : (lib.files.find? parsed).filter (fun file => file.tenantId = request.tenantId ∧
    file.userId = request.userId ∧ file.conversationId = request.conversationId) with
  | none =>
    rw [found] at located
    cases located
  | some row =>
    rw [found] at located
    cases located
    exact ⟨(Table.find?_eq_some_iff.mp (Option.filter_eq_some_iff.mp found).1).1,
      rfl, rfl, rfl, rfl, rfl⟩

theorem edits_agentEdit (sound : lib.Sound env) {fileId : String} {name content : Option String}
    (careful : lib.Careful env (.agentEdit request fileId name content mode parentFolderId)) :
    Edits env lib (lib.apply env (.agentEdit request fileId name content mode parentFolderId)) := by
  simp only [apply, editWorkspaceFile]
  split
  · exact .refl env lib
  rename_i file edited planned
  have same := careful (file, edited) (toOption_of_ok planned)
  obtain ⟨known, keeps⟩ := toolKeeps_of_planToolEdit planned
  split
  · exact .refl env lib
  · rename_i free
    exact edits_tool sound.owns sound.deriveds known keeps (same (Bool.eq_false_iff.mpr free))

theorem edits_apply (sound : lib.Sound env) {write : FileWrite Bytes}
    (careful : lib.Careful env write) : Edits env lib (lib.apply env write) := by
  cases write with
  | endpoint call =>
    cases call with
    | create request fileId name content contentType parentFolderId =>
      simp only [apply, History.step]
      split
      · exact .refl env lib
      · rename_i fresh
        exact edits_create sound fresh name content contentType parentFolderId
    | upload request fileId filename declaredType payload parentFolderId =>
      simp only [apply, History.step]
      split
      · exact .refl env lib
      · rename_i fresh
        exact edits_upload sound fresh careful
    | importAsset request fileId name contentType body temporary =>
      simp only [apply, History.step]
      split
      · exact .refl env lib
      · rename_i fresh
        exact edits_importAsset sound fresh name contentType body temporary
    | retain request fileId => exact edits_retain sound fileId
    | update => exact edits_update sound careful
    | move request fileId name parentFolderId => exact edits_move sound fileId name parentFolderId
    | restore request fileId version =>
      simp only [apply, History.step]
      split <;> exact edits_restore sound fileId version
  | visual => exact edits_visual sound careful
  | agentWrite =>
    exact edits_agentWrite sound careful
  | agentEdit => exact edits_agentEdit sound careful

end LibraryState

structure EditHistory (Bytes : Type) where
  library : LibraryState Bytes
  seen : List (Shown Bytes)

namespace EditHistory

open LibraryState

variable (env : LibraryEnvironment Bytes)

def start (conversations : List Conversation) (folders : List WorkspaceFolder)
    (objects : ObjectStore Bytes) : EditHistory Bytes :=
  ⟨⟨conversations, folders, .empty, .empty, objects⟩, []⟩

def step (h : EditHistory Bytes) (write : FileWrite Bytes) : EditHistory Bytes :=
  let library := h.library.apply env write
  ⟨library, h.seen ++ library.files.rows.map (library.shown env)⟩

/-- An update that expects a version succeeds only if the file is what every reader of that version
was shown, and the rows have the size and the checksum of their payloads. -/
structure Optimistic (h : EditHistory Bytes) : Prop where
  expected : ∀ (request : LibraryRequest) (fileId : Uuid) (changes : FileChanges)
    (generated : Bytes) (version : Nat) (result : LibraryState Bytes × WorkspaceFile),
    changes.expectedVersion = some version →
    h.library.updateWorkspaceFile env request fileId changes generated = .ok result →
    ∃ file ∈ h.library.files.rows, file.id = fileId ∧ file.version = version ∧
      ∀ reader ∈ h.seen, reader.fileId = fileId → reader.version = version →
        reader = h.library.shown env file
  derived : ∀ file ∈ h.library.files.rows, h.library.Derived env file

/-- Every reader was shown an older version of a file, or what the file is now. -/
structure Current (h : EditHistory Bytes) : Prop where
  sound : h.library.Sound env
  readers : ∀ reader ∈ h.seen, ∃ file ∈ h.library.files.rows, file.id = reader.fileId ∧
    reader.version ≤ file.version ∧
      (reader.version = file.version → reader = h.library.shown env file)

variable {env} {h : EditHistory Bytes}

section Runs

variable {lib lib' : LibraryState Bytes}

theorem payload_of_other {file row : WorkspaceFile} (sound : lib.Sound env)
    (writes : Writes env lib lib' file) (member : row ∈ lib.files.rows) (other : row.id ≠ file.id) :
    lib'.libraryFilePayload env row = lib.libraryFilePayload env row := by
  refine libraryFilePayload_congr fun key binary located => writes.objects key fun same => ?_
  exact other ((sound.owns row member key binary located).symm.trans same)

theorem derived_of_payload {row : WorkspaceFile}
    (same : lib'.libraryFilePayload env row = lib.libraryFilePayload env row)
    (derived : lib.Derived env row) : lib'.Derived env row := by
  obtain ⟨payload, read, size, sha⟩ := derived
  exact ⟨payload, same.trans read, size, sha⟩

theorem text_of_snapshot {lib : LibraryState Bytes} {file : WorkspaceFile} {text : String}
    (derived : lib.Derived env file) (stored : (snapshot env file).content = some text) :
    (snapshot env file).sizeBytes = env.size (env.encode text) ∧
      (snapshot env file).checksumSha256 = env.sha256 (env.encode text) := by
  have content : (if file.isBinary then none else some file.content) = some text := stored
  split at content
  · cases content
  rename_i plain
  obtain rfl := Option.some.inj content
  obtain ⟨payload, read, size, sha⟩ := derived
  rw [libraryFilePayload_text (Bool.eq_false_iff.mpr plain)] at read
  obtain rfl := Except.ok.inj read
  refine ⟨size, ?_⟩
  show Text.orDefault file.checksumSha256 _ = _
  rw [sha, orDefault_sha256]

theorem sound_of_edits (sound : lib.Sound env) (edits : Edits env lib lib') : lib'.Sound env := by
  cases edits with
  | keeps files versions payloads =>
    refine ⟨?_, ?_, ?_⟩
    · rw [files]
      exact sound.owns
    · rw [files]
      exact fun row member => derived_of_payload (payloads row member) (sound.deriveds row member)
    · rw [versions]
      exact sound.texts
  | writes file writes =>
    refine ⟨fun row member => ?_, fun row member => ?_, fun v member text stored => ?_⟩
    · rcases (writes.rows row).mp member with rfl | ⟨old, _⟩
      · exact writes.own
      · exact sound.owns row old
    · rcases (writes.rows row).mp member with rfl | ⟨old, other⟩
      · exact writes.derived
      · exact derived_of_payload (payload_of_other sound writes old other) (sound.deriveds row old)
    · rcases writes.versions v member with old | rfl
      · exact sound.texts v old text stored
      · exact text_of_snapshot writes.derived stored

theorem current_of_edits (current : h.Current env) {lib' : LibraryState Bytes}
    (edits : Edits env h.library lib') :
    Current env ⟨lib', h.seen ++ lib'.files.rows.map (lib'.shown env)⟩ := by
  refine ⟨sound_of_edits current.sound edits, fun reader member => ?_⟩
  rcases List.mem_append.mp member with before | now
  · obtain ⟨row, stored, same, bound, shown⟩ := current.readers reader before
    cases edits with
    | keeps files versions payloads =>
      refine ⟨row, by rw [files]; exact stored, same, bound, fun equal => ?_⟩
      rw [shown equal]
      simp only [LibraryState.shown, payloads row stored]
    | writes file writes =>
      by_cases written : row.id = file.id
      · refine ⟨file, (writes.rows file).mpr (.inl rfl), written.symm.trans same, ?_⟩
        rcases writes.later row stored written with higher | unchanged
        · exact ⟨by omega, fun equal => by omega⟩
        · have versions : file.version = row.version := congrArg Shown.version unchanged
          refine ⟨by omega, fun equal => ?_⟩
          rw [unchanged]
          exact shown (equal.trans versions)
      · refine ⟨row, (writes.rows row).mpr (.inr ⟨stored, written⟩), same, bound, fun equal => ?_⟩
        rw [shown equal]
        simp only [LibraryState.shown, payload_of_other current.sound writes stored written]
  · obtain ⟨row, stored, rfl⟩ := List.mem_map.mp now
    exact ⟨row, stored, rfl, le_refl _, fun _ => rfl⟩

theorem current_start (conversations : List Conversation) (folders : List WorkspaceFolder)
    (objects : ObjectStore Bytes) : Current env (start conversations folders objects) := by
  refine ⟨⟨?_, ?_, ?_⟩, ?_⟩
  · exact fun _ none_ => absurd none_ List.not_mem_nil
  · exact fun _ none_ => absurd none_ List.not_mem_nil
  · exact fun _ none_ => absurd none_ List.not_mem_nil
  · exact fun _ none_ => absurd none_ List.not_mem_nil

theorem optimistic_of_current (current : h.Current env) : h.Optimistic env := by
  refine ⟨?_, current.sound.deriveds⟩
  intro request fileId changes generated version result expects succeeded
  unfold updateWorkspaceFile at succeeded
  split at succeeded
  · cases succeeded
  rename_i update planned
  obtain ⟨known, id, expected, _⟩ := updated_of_planUpdate planned
  have version_eq := expected version expects
  refine ⟨update.original, known, id, version_eq.symm, fun reader member ofFile ofVersion => ?_⟩
  obtain ⟨file, stored, same, _, shown⟩ := current.readers reader member
  have file_eq : file = update.original :=
    h.library.files.eq_of_key_eq stored known (same.trans (ofFile.trans id.symm))
  rw [file_eq] at shown
  exact shown (ofVersion.trans version_eq)

end Runs

/-- No update is lost in a history of careful writes. -/
theorem careful_writes_lose_no_update (env : LibraryEnvironment Bytes)
    (conversations : List Conversation) (folders : List WorkspaceFolder)
    (objects : ObjectStore Bytes) {writes : List (FileWrite Bytes)}
    (careful : Guarded (fun h write => h.library.Careful env write) (step env)
      (start conversations folders objects) writes) :
    ∀ h ∈ trace (step env) (start conversations folders objects) writes, h.Optimistic env := by
  have current := invariant_of_guarded (I := fun h : EditHistory Bytes => h.Current env)
    (fun h write held safe => current_of_edits held (edits_apply held.sound safe))
    (current_start conversations folders objects) careful
  exact fun h member => optimistic_of_current (current h member)

instance (file edited : WorkspaceFile) [DecidableEq Bytes] :
    Decidable (SameShown env file edited) :=
  inferInstanceAs (Decidable (_ ∧ _ ∧ (_ → _) ∧ _))

instance (lib : LibraryState Bytes) [DecidableEq Bytes] :
    ∀ write : FileWrite Bytes, Decidable (lib.Careful env write)
  | .endpoint (.upload ..) => inferInstanceAs (Decidable (∀ new ∈ Except.toOption _, _ → _ ∧ _))
  | .endpoint (.update ..) => inferInstanceAs (Decidable (∀ update ∈ Except.toOption _, _ → _))
  | .visual .. => inferInstanceAs (Decidable (∀ file ∈ lib.visualTarget _ _ _ _, _ → _))
  | .agentWrite .. => inferInstanceAs (Decidable (∀ write ∈ Except.toOption _, ∃ file ∈ _, _))
  | .agentEdit .. => inferInstanceAs (Decidable (∀ rows ∈ Except.toOption _, _ → _))
  | .endpoint (.create ..) | .endpoint (.importAsset ..) | .endpoint (.retain ..)
  | .endpoint (.move ..) | .endpoint (.restore ..) => .isTrue trivial

def numberedEnvironment : LibraryEnvironment String :=
  { History.textEnvironment with parseUuid := fun text => if text = "7" then some 7 else none }

def owner : LibraryRequest := ⟨1, 1, 1, true⟩

/-- A note is written, edited against its version, renamed by a move and restored; a visual artifact
is saved twice, and the agent writes what the note has already. -/
def carefulWrites : List (FileWrite String) :=
  [.endpoint (.create owner 7 "notes.md" "first" "text/markdown" none),
    .endpoint (.update owner 7 ⟨none, some "second", none, some 1⟩ ""),
    .endpoint (.move owner 7 (some "plan.md") none),
    .endpoint (.restore owner 7 1),
    .visual owner 8 "chart.visual.json" "draft" none,
    .visual owner 9 "chart.visual.json" "final" (some 1),
    .agentEdit owner "7" none (some "first") .replace none]

theorem careful_writes_are_optimistic :
    Guarded (fun h write => h.library.Careful numberedEnvironment write) (step numberedEnvironment)
        (start [⟨1, 1, 1, "deepspace"⟩] [] (fun _ => none)) carefulWrites ∧
      ∀ h ∈ trace (step numberedEnvironment) (start [⟨1, 1, 1, "deepspace"⟩] [] (fun _ => none))
        carefulWrites, h.Optimistic numberedEnvironment :=
  have guarded : Guarded (fun h write => h.library.Careful numberedEnvironment write)
      (step numberedEnvironment) (start [⟨1, 1, 1, "deepspace"⟩] [] (fun _ => none))
      carefulWrites := by decide +kernel
  ⟨guarded, careful_writes_lose_no_update numberedEnvironment _ _ _ guarded⟩

def editedUnseen : EditHistory String :=
  run (step numberedEnvironment) (start [⟨1, 1, 1, "deepspace"⟩] [] (fun _ => none))
    [.endpoint (.create owner 7 "notes.md" "first" "text/markdown" none),
      .agentEdit owner "7" none (some "agent") .replace none]

/-- The reader of version 1 may still save, over a text that only the agent has seen, and the
checksum is that of the old text. -/
theorem agent_edit_goes_unnoticed :
    (∃ result, editedUnseen.library.updateWorkspaceFile numberedEnvironment owner 7
        ⟨none, some "mine", none, some 1⟩ "" = .ok result) ∧
      ⟨7, 1, "notes.md", none, some "first"⟩ ∈ editedUnseen.seen ∧
      (∀ file ∈ editedUnseen.library.files.rows,
        editedUnseen.library.shown numberedEnvironment file =
            ⟨7, 1, "notes.md", none, some "agent"⟩ ∧ file.checksumSha256 = some "#first") ∧
      ¬ editedUnseen.Optimistic numberedEnvironment := by
  have succeeds : (editedUnseen.library.updateWorkspaceFile numberedEnvironment owner 7
      ⟨none, some "mine", none, some 1⟩ "").toOption.isSome = true := by decide +kernel
  have opened : (⟨7, 1, "notes.md", none, some "first"⟩ : Shown String) ∈ editedUnseen.seen := by
    decide +kernel
  have current : ∀ file ∈ editedUnseen.library.files.rows,
      editedUnseen.library.shown numberedEnvironment file = ⟨7, 1, "notes.md", none, some "agent"⟩ ∧
        file.checksumSha256 = some "#first" := by
    decide +kernel
  obtain ⟨result, saved⟩ : ∃ result, editedUnseen.library.updateWorkspaceFile numberedEnvironment
      owner 7 ⟨none, some "mine", none, some 1⟩ "" = .ok result := by
    cases outcome : editedUnseen.library.updateWorkspaceFile numberedEnvironment owner 7
        ⟨none, some "mine", none, some 1⟩ "" with
    | error _ =>
      rw [outcome] at succeeds
      cases succeeds
    | ok result => exact ⟨result, rfl⟩
  refine ⟨⟨result, saved⟩, opened, current, fun optimistic => ?_⟩
  obtain ⟨file, stored, _, _, readers⟩ := optimistic.expected owner 7 _ "" 1 result rfl saved
  have same := readers _ opened rfl rfl
  rw [(current file stored).1] at same
  exact absurd (congrArg Shown.payload same) (by decide)

end EditHistory

end AverQel.Library
