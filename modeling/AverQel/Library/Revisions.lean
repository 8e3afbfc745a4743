/- digest: What creating and revising a file do to the recorded versions. -/
import AverQel.Library.WorkspaceFiles

namespace AverQel.Library

open Foundation AverQel.System

variable {Bytes : Type} {env : LibraryEnvironment Bytes}

@[simp] theorem orDefault_sha256 (payload : Bytes) (default : String) :
    Text.orDefault (some (env.sha256 payload)) default = env.sha256 payload :=
  if_neg (env.sha256_ne_empty payload)

def WorkspaceFileVersion.payload (env : LibraryEnvironment Bytes) (objects : ObjectStore Bytes)
    (v : WorkspaceFileVersion) : Option Bytes :=
  match v.content with
  | some text => some (env.encode text)
  | none => v.storageKey.bind objects

def WorkspaceFileVersion.Denotes (env : LibraryEnvironment Bytes) (objects : ObjectStore Bytes)
    (v : WorkspaceFileVersion) : Prop :=
  ∃ payload, v.payload env objects = some payload ∧ env.sha256 payload = v.checksumSha256

instance (objects : ObjectStore Bytes) (v : WorkspaceFileVersion) :
    Decidable (v.Denotes env objects) :=
  decidable_of_iff
    ((v.payload env objects).any (fun payload => env.sha256 payload = v.checksumSha256) = true)
    (by simp [WorkspaceFileVersion.Denotes, Option.any_eq_true])

def KeyFree (env : LibraryEnvironment Bytes) (versions : List WorkspaceFileVersion)
    (key : ObjectKey) (payload : Bytes) : Prop :=
  ∀ v ∈ versions, v.content = none → v.storageKey = some key →
    env.sha256 payload = v.checksumSha256

variable {objects : ObjectStore Bytes}

theorem denotes_of_text {v : WorkspaceFileVersion} {text : String}
    (stored : v.content = some text) :
    v.Denotes env objects ↔ env.sha256 (env.encode text) = v.checksumSha256 := by
  simp [WorkspaceFileVersion.Denotes, WorkspaceFileVersion.payload, stored]

theorem denotes_of_object {v : WorkspaceFileVersion} {key : ObjectKey} {payload : Bytes}
    (no_text : v.content = none) (stored : v.storageKey = some key)
    (found : objects key = some payload) :
    v.Denotes env objects ↔ env.sha256 payload = v.checksumSha256 := by
  simp [WorkspaceFileVersion.Denotes, WorkspaceFileVersion.payload, no_text, stored, found]

theorem denotes_congr {objects objects' : ObjectStore Bytes} {v : WorkspaceFileVersion}
    (agree : ∀ key, v.content = none → v.storageKey = some key → objects' key = objects key) :
    v.Denotes env objects' ↔ v.Denotes env objects := by
  have same : v.payload env objects' = v.payload env objects := by
    unfold WorkspaceFileVersion.payload
    cases stored : v.content with
    | some => rfl
    | none =>
      cases located : v.storageKey with
      | none => rfl
      | some key => exact agree key stored located
  simp only [WorkspaceFileVersion.Denotes, same]

theorem denotes_put_iff {versions : List WorkspaceFileVersion}
    (held : ∀ v ∈ versions, v.Denotes env objects) (key : ObjectKey) (payload : Bytes) :
    (∀ v ∈ versions, v.Denotes env (objects.put key payload)) ↔
      KeyFree env versions key payload := by
  constructor
  · intro survive v member no_text stored
    exact (denotes_of_object no_text stored (objects.put_self key payload)).mp (survive v member)
  · intro free v member
    by_cases here : v.content = none ∧ v.storageKey = some key
    · have checked := free v member here.1 here.2
      exact (denotes_of_object here.1 here.2 (objects.put_self key payload)).mpr checked
    · refine (denotes_congr ?_).mpr (held v member)
      intro other no_text stored
      have differ : other ≠ key := fun h => here ⟨no_text, h ▸ stored⟩
      exact objects.put_of_ne payload differ

namespace LibraryState

variable {lib : LibraryState Bytes}

def VersionsHold (env : LibraryEnvironment Bytes) (lib : LibraryState Bytes) : Prop :=
  ∀ v ∈ lib.versions.rows, v.Denotes env lib.objects

instance (lib : LibraryState Bytes) : Decidable (VersionsHold env lib) :=
  inferInstanceAs (Decidable (∀ v ∈ lib.versions.rows, _))

/-- The rows fit together: a version belongs to a file that has at least its number, its object
lives under a key of that file, and the newest version of a file mirrors the file. -/
structure Consistent (env : LibraryEnvironment Bytes) (lib : LibraryState Bytes) : Prop where
  ownKey : ∀ v ∈ lib.versions.rows, ∀ key, v.content = none → v.storageKey = some key →
    key.documentId = v.fileId
  hasFile : ∀ v ∈ lib.versions.rows, ∃ file ∈ lib.files.rows,
    file.id = v.fileId ∧ v.version ≤ file.version
  latest : ∀ file ∈ lib.files.rows, snapshot env file ∈ lib.versions.rows

structure KeepsVersions (env : LibraryEnvironment Bytes) (lib lib' : LibraryState Bytes)
    (condition : Prop) : Prop where
  consistent : lib'.Consistent env
  holds : VersionsHold env lib → (VersionsHold env lib' ↔ condition)

theorem KeepsVersions.same (cons : lib.Consistent env) {condition : Prop} (granted : condition) :
    KeepsVersions env lib lib condition :=
  ⟨cons, fun held => iff_of_true held granted⟩

theorem KeepsVersions.congr {lib' : LibraryState Bytes} {condition condition' : Prop}
    (keeps : KeepsVersions env lib lib' condition) (same : condition ↔ condition') :
    KeepsVersions env lib lib' condition' :=
  ⟨keeps.consistent, fun held => (keeps.holds held).trans same⟩

def OwnKey (file : WorkspaceFile) : Prop :=
  ∀ key, file.isBinary = true → file.storageKey = some key → key.documentId = file.id

theorem Consistent.ownKey_file (cons : lib.Consistent env) {file : WorkspaceFile}
    (known : file ∈ lib.files.rows) : OwnKey file := by
  intro key binary stored
  exact cons.ownKey _ (cons.latest file known) key (by simp [snapshot, binary]) stored

theorem ownKey_snapshot {file : WorkspaceFile} (own : OwnKey file) :
    ∀ key, (snapshot env file).content = none → (snapshot env file).storageKey = some key →
      key.documentId = (snapshot env file).fileId := by
  intro key no_text stored
  have binary : file.isBinary = true := by
    by_contra text
    simp [snapshot, text] at no_text
  exact own key binary stored

variable {file file' : WorkspaceFile}

theorem mem_saveFile (known : file ∈ lib.files.rows) (same : file'.id = file.id)
    {row : WorkspaceFile} :
    row ∈ (lib.saveFile file').files.rows ↔
      row = file' ∨ (row ∈ lib.files.rows ∧ row.id ≠ file.id) := by
  simp only [saveFile, Table.mem_modify]
  constructor
  · rintro ⟨old, member, rfl⟩
    split
    · rename_i here
      left
      rw [here]
    · rename_i elsewhere
      exact .inr ⟨member, fun h => elsewhere (h.trans same.symm)⟩
  · rintro (rfl | ⟨member, elsewhere⟩)
    · refine ⟨file, known, ?_⟩
      rw [if_pos same.symm, ← same]
    · refine ⟨row, member, ?_⟩
      rw [if_neg (fun h => elsewhere (h.trans same))]

theorem addVersion_of_next (cons : lib.Consistent env) (known : file ∈ lib.files.rows)
    (same : file'.id = file.id) (next : file'.version = file.version + 1) (own : OwnKey file')
    (objects : ObjectStore Bytes) :
    ∃ lib', ({ lib with objects := objects }.saveFile file').addVersion env file' = .ok (lib', file') ∧
      lib'.versions.rows = lib.versions.rows ++ [snapshot env file'] ∧
      lib'.objects = objects ∧ lib'.Consistent env := by
  have fresh : (snapshot env file').number ∉ lib.versions.rows.map WorkspaceFileVersion.number := by
    intro used
    obtain ⟨v, member, number⟩ := List.mem_map.mp used
    obtain ⟨owner, ownerKnown, ownerId, bound⟩ := cons.hasFile v member
    have ids : v.fileId = file'.id := congrArg Prod.fst number
    have numbers : v.version = file'.version := congrArg Prod.snd number
    have owner_eq : owner = file :=
      lib.files.eq_of_key_eq ownerKnown known (ownerId.trans (ids.trans same))
    rw [owner_eq] at bound
    omega
  obtain ⟨versions, inserted, rows⟩ := Table.insert?_of_fresh fresh
  refine ⟨{ { lib with objects := objects }.saveFile file' with versions := versions },
    ?_, rows, rfl, ?_⟩
  · simp only [addVersion, saveFile, inserted]
  · constructor
    all_goals simp only [rows]
    · intro v member
      rcases List.mem_append.mp member with old | new
      · exact cons.ownKey v old
      · rw [List.mem_singleton.mp new]
        exact ownKey_snapshot own
    · intro v member
      rcases List.mem_append.mp member with old | new
      · obtain ⟨owner, ownerKnown, ownerId, bound⟩ := cons.hasFile v old
        by_cases here : owner.id = file.id
        · have owner_eq : owner = file := lib.files.eq_of_key_eq ownerKnown known here
          refine ⟨file', (mem_saveFile known same).mpr (.inl rfl), ?_, ?_⟩
          · rw [same, ← here, ownerId]
          · rw [owner_eq] at bound
            omega
        · exact ⟨owner, (mem_saveFile known same).mpr (.inr ⟨ownerKnown, here⟩), ownerId, bound⟩
      · rw [List.mem_singleton.mp new]
        exact ⟨file', (mem_saveFile known same).mpr (.inl rfl), rfl, le_refl _⟩
    · intro row member
      rcases (mem_saveFile known same).mp member with rfl | ⟨old, _⟩
      · exact List.mem_append_right _ List.mem_cons_self
      · exact List.mem_append_left _ (cons.latest row old)

theorem versionsHold_revision_iff (cons : lib.Consistent env) (known : file ∈ lib.files.rows)
    (same : file'.id = file.id) (next : file'.version = file.version + 1) (own : OwnKey file')
    (objects : ObjectStore Bytes) :
    VersionsHold env (({ lib with objects := objects }.saveFile file').addVersion env file').state ↔
      (∀ v ∈ lib.versions.rows, v.Denotes env objects) ∧
        (snapshot env file').Denotes env objects := by
  obtain ⟨lib', done, rows, stored, _⟩ := addVersion_of_next cons known same next own objects
  rw [done]
  simp only [Attempt.state, VersionsHold, rows, stored, List.forall_mem_append,
    List.forall_mem_singleton]

theorem consistent_revision (cons : lib.Consistent env) (known : file ∈ lib.files.rows)
    (same : file'.id = file.id) (next : file'.version = file.version + 1) (own : OwnKey file')
    (objects : ObjectStore Bytes) :
    Consistent env (({ lib with objects := objects }.saveFile file').addVersion env file').state := by
  obtain ⟨lib', done, _, _, cons'⟩ := addVersion_of_next cons known same next own objects
  rw [done]
  exact cons'

theorem saveFile_self (known : file ∈ lib.files.rows) : lib.saveFile file = lib := by
  have unchanged : lib.files.modify file.id (fun row => { file with id := row.id }) (fun _ => rfl) =
      lib.files := by
    apply Table.ext
    refine (List.map_congr_left ?_).trans (List.map_id _)
    intro row member
    by_cases here : row.id = file.id
    · have same : row = file := lib.files.eq_of_key_eq member known here
      rw [if_pos here, same, id]
    · rw [if_neg here, id]
  rw [saveFile, unchanged]

theorem addVersion_unchanged (cons : lib.Consistent env) (known : file ∈ lib.files.rows) :
    ((lib.saveFile file).addVersion env file).state = lib := by
  rw [saveFile_self known]
  have used : (snapshot env file).number ∈ lib.versions.rows.map WorkspaceFileVersion.number :=
    List.mem_map_of_mem (cons.latest file known)
  have refused : lib.versions.insert? (snapshot env file) = none := dif_pos used
  simp only [addVersion, refused, Attempt.state]

/-- What an endpoint makes of the payload of a row: it keeps it, stores text, or has the bytes
of an Office document written to an object. -/
inductive Revised (env : LibraryEnvironment Bytes) (file file' : WorkspaceFile) :
    Option (OfficeWrite Bytes) → Prop
  | kept (content : file'.content = file.content) (binary : file'.isBinary = file.isBinary)
      (stored : file'.storageKey = file.storageKey)
      (checked : file'.checksumSha256 = file.checksumSha256) : Revised env file file' none
  | text (binary : file'.isBinary = false)
      (checked : file'.checksumSha256 = some (env.sha256 (env.encode file'.content))) :
      Revised env file file' none
  | office (write : OfficeWrite Bytes) (binary : file'.isBinary = true)
      (stored : file'.storageKey = some write.key) (own : write.key.documentId = file'.id)
      (checked : file'.checksumSha256 = some (env.sha256 write.payload)) :
      Revised env file file' (some write)

variable {write : Option (OfficeWrite Bytes)}

theorem Revised.ownKey (cons : lib.Consistent env) (known : file ∈ lib.files.rows)
    (same : file'.id = file.id) (revised : Revised env file file' write) : OwnKey file' := by
  intro key isBinary located
  cases revised with
  | kept content binary stored =>
    have own := cons.ownKey_file known key (binary.symm.trans isBinary) (stored.symm.trans located)
    exact own.trans same.symm
  | text binary =>
    rw [binary] at isBinary
    cases isBinary
  | office write binary stored own =>
    rw [stored] at located
    cases located
    exact own

def written (lib : LibraryState Bytes) : Option (OfficeWrite Bytes) → ObjectStore Bytes
  | none => lib.objects
  | some write => lib.objects.put write.key write.payload

theorem Revised.denotes (cons : lib.Consistent env) (known : file ∈ lib.files.rows)
    (revised : Revised env file file' write) (held : VersionsHold env lib) :
    (snapshot env file').Denotes env (lib.written write) := by
  cases revised with
  | kept content binary stored checked =>
    have before : (snapshot env file).Denotes env (lib.written none) :=
      held _ (cons.latest file known)
    simpa only [WorkspaceFileVersion.Denotes, WorkspaceFileVersion.payload, snapshot, content,
      binary, stored, checked] using before
  | text binary checked =>
    have stored : (snapshot env file').content = some file'.content := by simp [snapshot, binary]
    refine (denotes_of_text stored).mpr ?_
    simp only [snapshot, checked, orDefault_sha256]
  | office write binary stored own checked =>
    refine (denotes_of_object (by simp [snapshot, binary]) stored
      (lib.objects.put_self write.key write.payload)).mpr ?_
    simp only [snapshot, checked, orDefault_sha256]

theorem Revised.recorded (cons : lib.Consistent env) (known : file ∈ lib.files.rows)
    (same : file'.id = file.id) (next : file'.version = file.version + 1)
    (revised : Revised env file file' write) :
    KeepsVersions env lib
      (({ lib with objects := lib.written write }.saveFile file').addVersion env file').state
      (∀ w ∈ write, KeyFree env lib.versions.rows w.key w.payload) := by
  have own := revised.ownKey cons known same
  refine ⟨consistent_revision cons known same next own _, fun held => ?_⟩
  rw [versionsHold_revision_iff cons known same next own,
    and_iff_left (revised.denotes cons known held)]
  cases write with
  | none => exact iff_of_true held fun _ written => absurd written (Option.not_mem_none _)
  | some w =>
    simp only [Option.mem_some_iff, forall_eq', written]
    exact denotes_put_iff held w.key w.payload

theorem Consistent.withObjects (cons : lib.Consistent env) (objects : ObjectStore Bytes) :
    Consistent env { lib with objects := objects } :=
  ⟨cons.ownKey, cons.hasFile, cons.latest⟩

def FreshId (lib : LibraryState Bytes) (fileId : Uuid) : Prop :=
  fileId ∉ lib.files.rows.map WorkspaceFile.id

theorem denotes_of_agree (cons : lib.Consistent env) {fileId : Uuid} (fresh : FreshId lib fileId)
    {objects : ObjectStore Bytes}
    (agree : ∀ key, key.documentId ≠ fileId → objects key = lib.objects key)
    {v : WorkspaceFileVersion} (member : v ∈ lib.versions.rows) :
    v.Denotes env objects ↔ v.Denotes env lib.objects := by
  apply denotes_congr
  intro key no_text stored
  apply agree
  intro here
  obtain ⟨owner, known, ownerId, _⟩ := cons.hasFile v member
  have key_id := cons.ownKey v member key no_text stored
  exact fresh (List.mem_map.mpr ⟨owner, known, ownerId.trans (key_id.symm.trans here)⟩)

theorem addVersion_of_fresh (cons : lib.Consistent env) {file : WorkspaceFile}
    (fresh : FreshId lib file.id) (own : OwnKey file) (objects : ObjectStore Bytes) :
    ∃ files lib', lib.files.insert? file = some files ∧
      { lib with objects := objects, files := files }.addVersion env file = .ok (lib', file) ∧
      lib'.versions.rows = lib.versions.rows ++ [snapshot env file] ∧
      lib'.objects = objects ∧ lib'.Consistent env := by
  have unused : (snapshot env file).number ∉ lib.versions.rows.map WorkspaceFileVersion.number := by
    intro used
    obtain ⟨v, member, number⟩ := List.mem_map.mp used
    obtain ⟨owner, known, ownerId, _⟩ := cons.hasFile v member
    have ids : v.fileId = file.id := congrArg Prod.fst number
    exact fresh (List.mem_map.mpr ⟨owner, known, ownerId.trans ids⟩)
  obtain ⟨files, insertedFile, fileRows⟩ := Table.insert?_of_fresh fresh
  obtain ⟨versions, inserted, rows⟩ := Table.insert?_of_fresh unused
  refine ⟨files, { lib with objects := objects, files := files, versions := versions },
    insertedFile, ?_, rows, rfl, ?_⟩
  · simp only [addVersion, inserted]
  · constructor
    all_goals simp only [rows, fileRows, List.forall_mem_append, List.forall_mem_singleton]
    · exact ⟨cons.ownKey, ownKey_snapshot own⟩
    · constructor
      · intro v member
        obtain ⟨owner, known, facts⟩ := cons.hasFile v member
        exact ⟨owner, List.mem_append_left _ known, facts⟩
      · exact ⟨file, List.mem_append_right _ List.mem_cons_self, rfl, le_refl _⟩
    · constructor
      · intro row member
        exact List.mem_append_left _ (cons.latest row member)
      · exact List.mem_append_right _ List.mem_cons_self

variable {request : LibraryRequest} {fileId : Uuid} {parentId : Option Uuid}
  {name contentType source text : String} {payload : Bytes} {isBinary : Bool} (conflict : String)

theorem publish_taken (cons : lib.Consistent env) (fresh : FreshId lib fileId)
    (taken : lib.nameTaken (newFile env request fileId parentId name contentType source text
      payload isBinary).file = true) :
    ∃ objects, (lib.publish env (newFile env request fileId parentId name contentType source text
        payload isBinary) conflict).state = { lib with objects := objects } ∧
      ∀ v ∈ lib.versions.rows, (v.Denotes env objects ↔ v.Denotes env lib.objects) := by
  simp only [publish, taken, if_true]
  cases isBinary with
  | false => exact ⟨lib.objects, rfl, fun _ _ => Iff.rfl⟩
  | true =>
    refine ⟨_, rfl, fun v member => denotes_of_agree cons fresh ?_ member⟩
    intro key elsewhere
    have differ : key ≠ objectKey request.tenantId fileId name := by
      rintro rfl
      exact elsewhere rfl
    exact (ObjectStore.delete_of_ne _ differ).trans (ObjectStore.put_of_ne _ _ differ)

theorem publish_new (cons : lib.Consistent env) (fresh : FreshId lib fileId)
    (free : lib.nameTaken (newFile env request fileId parentId name contentType source text
      payload isBinary).file = false) :
    KeepsVersions env lib
      (lib.publish env (newFile env request fileId parentId name contentType source text payload
        isBinary) conflict).state
      (isBinary = false → env.sha256 (env.encode text) = env.sha256 payload) := by
  cases isBinary with
  | false =>
    have own : OwnKey (newFile env request fileId parentId name contentType source text payload
        false).file := by
      intro key binary
      cases binary
    obtain ⟨files, lib', inserted, recorded, rows, objects, cons'⟩ :=
      addVersion_of_fresh cons fresh own lib.objects
    have done : (lib.publish env (newFile env request fileId parentId name contentType source text
        payload false) conflict).state = lib' := by
      simp only [publish, free, Bool.false_eq_true, if_false]
      simp only [newFile] at inserted recorded ⊢
      simp only [Bool.false_eq_true, if_false] at inserted recorded ⊢
      rw [inserted]
      simp only [recorded, Attempt.state]
    rw [done]
    refine ⟨cons', fun held => ?_⟩
    have first : (snapshot env (newFile env request fileId parentId name contentType source text
        payload false).file).Denotes env lib.objects ↔
          env.sha256 (env.encode text) = env.sha256 payload := by
      have stored : (snapshot env (newFile env request fileId parentId name contentType source text
          payload false).file).content = some text := by simp [snapshot, newFile]
      rw [denotes_of_text stored]
      simp only [snapshot, newFile, orDefault_sha256]
    simp only [VersionsHold, rows, objects, List.forall_mem_append, List.forall_mem_singleton,
      first, true_implies]
    exact and_iff_right held
  | true =>
    let key := objectKey request.tenantId fileId name
    let row : WorkspaceFile :=
      { (newFile env request fileId parentId name contentType source text payload true).file with
        storageKey := some key }
    have new_id : FreshId lib row.id := fresh
    have own : OwnKey row := by
      rintro _ _ ⟨⟩
      rfl
    obtain ⟨files, lib', inserted, recorded, rows, objects, cons'⟩ :=
      addVersion_of_fresh cons new_id own (lib.objects.put key payload)
    have done : (lib.publish env (newFile env request fileId parentId name contentType source text
        payload true) conflict).state = lib' := by
      simp only [publish, free, Bool.false_eq_true, if_false]
      simp only [row, key, newFile, if_true] at inserted recorded ⊢
      rw [inserted]
      simp only [recorded, Attempt.state]
    rw [done]
    refine ⟨cons', fun held => ?_⟩
    have first : (snapshot env row).Denotes env (lib.objects.put key payload) := by
      refine (denotes_of_object rfl rfl (lib.objects.put_self key payload)).mpr ?_
      exact (orDefault_sha256 payload _).symm
    have old : ∀ v ∈ lib.versions.rows, v.Denotes env (lib.objects.put key payload) := by
      intro v member
      refine (denotes_of_agree cons fresh ?_ member).mpr (held v member)
      intro other elsewhere
      have differ : other ≠ key := by
        rintro rfl
        exact elsewhere rfl
      exact ObjectStore.put_of_ne _ _ differ
    have all : VersionsHold env lib' := by
      intro v member
      rw [objects]
      rcases List.mem_append.mp (rows ▸ member) with known | new
      · exact old v known
      · rw [List.mem_singleton.mp new]
        exact first
    exact iff_of_true all fun isText => by cases isText

end LibraryState

end AverQel.Library
