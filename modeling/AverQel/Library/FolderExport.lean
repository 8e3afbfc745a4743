/- digest: The ZIP export: the path of a file, the names of the entries, and what the archive holds. -/
import AverQel.Foundation.Splitting
import AverQel.Foundation.Totals
import AverQel.Library.FolderForest
import AverQel.Library.ImmutableVersions
import AverQel.Library.UniqueFilenames

namespace AverQel.Library

open Foundation Loops Splitting AverQel.System

/-- `posixpath.normpath` -/
def normpath (path : List Char) : List Char :=
  if path = [] then ['.']
  else
    let slashes := if ['/', '/'].isPrefixOf path ∧ ¬['/', '/', '/'].isPrefixOf path then 2
      else if ['/'].isPrefixOf path then 1 else 0
    let comps := (path.splitOn '/').foldl (fun comps comp =>
      if comp = [] ∨ comp = ['.'] then comps
      else if comp ≠ ['.', '.'] ∨ (slashes = 0 ∧ comps = []) ∨ comps.getLast? = some ['.', '.'] then
        comps ++ [comp]
      else comps.dropLast) []
    let joined := List.replicate slashes '/' ++ ['/'].intercalate comps
    if joined = [] then ['.'] else joined

def maxLibraryExportBytes : Nat := 250 * 1024 * 1024

def exportTooLarge : ApiError :=
  ⟨"EXPORT_TOO_LARGE", "The selected files exceed the safe export size limit.", 413⟩

def renamed (entryName : String) (index : Nat) : String :=
  match rpartition '.' entryName.toList with
  | none => String.ofList (entryName.toList ++ suffixOf index)
  | some (stem, suffix) => String.ofList (stem ++ (suffixOf index ++ '.' :: suffix))

def uniqueEntryName (fuel : Nat) (usedNames : List String) (entryName : String) : String :=
  if entryName ∈ usedNames then
    renamed entryName (loop (fun index => decide (renamed entryName index ∈ usedNames)) Nat.succ fuel 2)
  else entryName

structure Archive (Bytes : Type) where
  usedNames : List String
  exportedBytes : Nat
  output : List (String × Bytes)

namespace FolderState

variable {Bytes : Type} (env : LibraryEnvironment Bytes) (state : FolderState Bytes)
  (request : LibraryRequest)

/-- `_library_folder_path` -/
def libraryFolderPath (file : WorkspaceFile) : String :=
  let parts := (state.pathParts 256 file.parentFolderId [] [file.name]).getD [file.name]
  let path := normpath (['/'].intercalate (parts.reverse.map String.toList))
  if ['/'].isPrefixOf path ∨ path = ['.'] ∨ path = ['.', '.'] ∨ ['.', '.', '/'].isPrefixOf path then
    file.name
  else String.ofList path

/-- `_library_file_payload` -/
def filePayload (file : WorkspaceFile) : Except ApiError Bytes :=
  LibraryState.libraryFilePayload env ⟨state.conversations, [], state.files, .empty, state.objects⟩ file

/-- One turn of the loop over the selected files. -/
def exportFile (fuel : Nat) (archive : Archive Bytes) (file : WorkspaceFile) :
    Except ApiError (Archive Bytes) := do
  let entryName := uniqueEntryName fuel archive.usedNames (state.libraryFolderPath file)
  let payload ← state.filePayload env file
  let exportedBytes := archive.exportedBytes + env.size payload
  ensure (exportedBytes ≤ maxLibraryExportBytes) exportTooLarge
  return ⟨entryName :: archive.usedNames, exportedBytes, archive.output ++ [(entryName, payload)]⟩

def selectedFile (fileId : Uuid) : Option WorkspaceFile :=
  (state.files.find? fileId).filter fun file => file.tenantId = request.tenantId ∧
    file.userId = request.userId ∧ file.conversationId = request.conversationId ∧
      file.source ≠ "temporary_asset"

/-- `export_workspace_files`: the entries of the archive. -/
def exportWorkspaceFiles (fuel : Nat) (fileIds : List Uuid) :
    Except ApiError (List (String × Bytes)) := do
  state.requireConversation request
  ensure fileIds.Nodup ⟨"INVALID_REQUEST", "A file may only be selected once.", 422⟩
  let files := fileIds.filterMap (state.selectedFile request)
  ensure (files.length = fileIds.length)
    (notFound "One or more selected Library files were not found.")
  ensure (total WorkspaceFile.sizeBytes files ≤ maxLibraryExportBytes) exportTooLarge
  let seen := { state with folders := state.folders.filter (LibraryFolder.ownedBy request) }
  let archive ← files.foldlM (seen.exportFile env fuel) ⟨[], 0, []⟩
  return archive.output

end FolderState

def SafePart (part : List Char) : Prop :=
  part ≠ [] ∧ '/' ∉ part ∧ part ≠ ['.'] ∧ part ≠ ['.', '.']

theorem safePart_of_safeName {name : String} (stored : safeName name = some name) :
    SafePart name.toList := by
  unfold safeName at stored
  dsimp only at stored
  split at stored
  · rename_i valid
    rw [Option.some.inj stored] at valid
    obtain ⟨filled, _, letters, dot, dots⟩ := valid
    refine ⟨filled, fun slash => ?_, fun same => dot ?_, fun same => dots ?_⟩
    · have clean := List.all_eq_true.mp letters '/' slash
      revert clean
      decide
    · exact String.toList_inj.mp same
    · exact String.toList_inj.mp same
  · cases stored

def Relative (path : String) : Prop :=
  path.toList.head? ≠ some '/' ∧ ['.', '.'] ∉ path.toList.splitOn '/'

variable {parts : List (List Char)}

theorem splitOn_join (filled : parts ≠ []) (safe : ∀ part ∈ parts, SafePart part) :
    (['/'].intercalate parts).splitOn '/' = parts :=
  List.splitOn_intercalate '/' (fun part member => (safe part member).2.1) filled

theorem head?_join (filled : parts ≠ []) (safe : ∀ part ∈ parts, SafePart part) :
    ∃ c rest, c ≠ '/' ∧ ['/'].intercalate parts = c :: rest := by
  obtain ⟨first, later, rfl⟩ := List.exists_cons_of_ne_nil filled
  obtain ⟨letters, clean, _⟩ := safe first List.mem_cons_self
  obtain ⟨c, rest, rfl⟩ := List.exists_cons_of_ne_nil letters
  have other : c ≠ '/' := fun same => clean (same ▸ List.mem_cons_self)
  cases later with
  | nil => exact ⟨c, rest, other, List.intercalate_singleton⟩
  | cons => exact ⟨c, _, other, List.intercalate_cons_cons⟩

theorem foldl_of_appends {f : List (List Char) → List Char → List (List Char)}
    (appends : ∀ part ∈ parts, ∀ done, f done part = done ++ [part]) (done : List (List Char)) :
    parts.foldl f done = done ++ parts := by
  induction parts generalizing done with
  | nil => exact (List.append_nil done).symm
  | cons part later ih =>
    rw [List.foldl_cons, appends part List.mem_cons_self,
      ih fun other member => appends other (List.mem_cons_of_mem part member), List.append_assoc]
    rfl

theorem normpath_join (filled : parts ≠ []) (safe : ∀ part ∈ parts, SafePart part) :
    normpath (['/'].intercalate parts) = ['/'].intercalate parts := by
  obtain ⟨c, rest, other, shape⟩ := head?_join filled safe
  have slashes (more : List Char) : ('/' :: more).isPrefixOf (c :: rest) = false := by
    simp [List.isPrefixOf, other.symm]
  unfold normpath
  dsimp only
  rw [splitOn_join filled safe, foldl_of_appends]
  · simp [shape, slashes]
  · intro part member done
    obtain ⟨letters, _, dot, dots⟩ := safe part member
    rw [if_neg (not_or.mpr ⟨letters, dot⟩), if_pos (.inl dots)]

theorem relative_join (filled : parts ≠ []) (safe : ∀ part ∈ parts, SafePart part) :
    Relative (String.ofList (['/'].intercalate parts)) := by
  obtain ⟨c, rest, other, shape⟩ := head?_join filled safe
  rw [Relative, String.toList_ofList, splitOn_join filled safe, shape]
  exact ⟨fun same => other (Option.some.inj same), fun up => (safe _ up).2.2.2 rfl⟩

theorem splitOn_append (text : List Char) : ∃ parts last, ∀ more first rest,
    more.splitOn '/' = first :: rest → (text ++ more).splitOn '/' = parts ++ (last ++ first) :: rest := by
  induction text with
  | nil => exact ⟨[], [], fun more first rest shape => shape⟩
  | cons c text ih =>
    obtain ⟨parts, last, goes⟩ := ih
    by_cases slash : c = '/'
    · refine ⟨[] :: parts, last, fun more first rest shape => ?_⟩
      rw [slash, List.cons_append, splitOn_cons_self, goes more first rest shape]
      rfl
    · cases parts with
      | nil =>
        exact ⟨[], c :: last, fun more first rest shape =>
          splitOn_cons_of_ne slash (goes more first rest shape)⟩
      | cons part parts =>
        exact ⟨(c :: part) :: parts, last, fun more first rest shape =>
          splitOn_cons_of_ne slash (goes more first rest shape)⟩

theorem relative_insert {before after : List Char} {index : Nat}
    (relative : Relative (String.ofList (before ++ after))) :
    Relative (String.ofList (before ++ (suffixOf index ++ after))) := by
  rw [Relative, String.toList_ofList] at relative ⊢
  obtain ⟨parts, last, goes⟩ := splitOn_append before
  obtain ⟨first, rest, shape⟩ := exists_splitOn '/' after
  have suffix : ∀ c ∈ suffixOf index, c ≠ '/' := by
    rintro c member rfl
    rcases List.mem_cons.mp member with wrong | member
    · exact absurd wrong (by decide)
    rcases List.mem_cons.mp member with wrong | member
    · exact absurd wrong (by decide)
    rcases List.mem_append.mp member with digit | wrong
    · exact absurd (Nat.isDigit_of_mem_toDigits (by decide) (by decide) digit) (by decide)
    · exact absurd (List.mem_singleton.mp wrong) (by decide)
  have longer : (suffixOf index ++ after).splitOn '/' = (suffixOf index ++ first) :: rest := by
    revert suffix
    induction suffixOf index with
    | nil => exact fun _ => shape
    | cons c text ih =>
      intro clean
      exact splitOn_cons_of_ne (clean c List.mem_cons_self)
        (ih fun d member => clean d (List.mem_cons_of_mem c member))
  rw [goes _ _ _ shape] at relative
  rw [goes _ _ _ longer]
  refine ⟨?_, fun up => ?_⟩
  · cases before with
    | nil => exact fun same => absurd (Option.some.inj same) (by decide)
    | cons => exact relative.1
  · rcases List.mem_append.mp up with early | here
    · exact relative.2 (List.mem_append_left _ early)
    · rcases List.mem_cons.mp here with here | late
      · have space : ' ' ∈ ['.', '.'] := by
          rw [here]
          exact List.mem_append_right _ List.mem_cons_self
        exact absurd space (by decide)
      · exact relative.2 (List.mem_append_right _ (List.mem_cons_of_mem _ late))

variable {fuel : Nat} {usedNames : List String}

theorem exists_renamed (entryName : String) : ∃ before after,
    entryName = String.ofList (before ++ after) ∧
      ∀ index, renamed entryName index = String.ofList (before ++ (suffixOf index ++ after)) := by
  unfold renamed
  cases parts : rpartition '.' entryName.toList with
  | none =>
    refine ⟨entryName.toList, [], ?_, fun index => ?_⟩
    · rw [List.append_nil, String.ofList_toList]
    · rw [List.append_nil]
  | some found =>
    obtain ⟨stem, suffix⟩ := found
    refine ⟨stem, '.' :: suffix, ?_, fun _ => rfl⟩
    rw [← of_rpartition parts, String.ofList_toList]

theorem renamed_injective (entryName : String) : Function.Injective (renamed entryName) := by
  intro m n same
  obtain ⟨before, after, _, shape⟩ := exists_renamed entryName
  rw [shape, shape, String.ofList_inj, List.append_cancel_left_eq] at same
  exact suffixOf_injective same

theorem uniqueEntryName_spec (entryName : String) (enough : usedNames.length ≤ fuel) :
    uniqueEntryName fuel usedNames entryName ∉ usedNames ∧
      (Relative entryName → Relative (uniqueEntryName fuel usedNames entryName)) := by
  unfold uniqueEntryName
  by_cases taken : entryName ∈ usedNames
  · obtain ⟨n, few, ends⟩ := exists_endsAfter_of_injective (renamed_injective entryName)
      (fun i (asked : decide (renamed entryName i ∈ usedNames) = true) => of_decide_eq_true asked) 2
    rw [if_pos taken, loop_of_endsAfter ends (Nat.le_trans few enough)]
    refine ⟨of_decide_eq_false ends.1, fun relative => ?_⟩
    obtain ⟨before, after, whole, shape⟩ := exists_renamed entryName
    rw [shape]
    rw [whole] at relative
    exact relative_insert relative
  · rw [if_neg taken]
    exact ⟨taken, fun relative => relative⟩

namespace FolderState

variable {Bytes : Type} {env : LibraryEnvironment Bytes} {state : FolderState Bytes}
  {request : LibraryRequest} {fuel : Nat}

structure Named (state : FolderState Bytes) : Prop where
  files : ∀ file ∈ state.files.rows, safeName file.name = some file.name
  folders : ∀ folder ∈ state.folders.rows, safeName folder.name = some folder.name

def SafeNames (names : List String) : Prop := names ≠ [] ∧ ∀ name ∈ names, SafePart name.toList

theorem safe_pathParts (named : state.Named) {parts : List String} (safe : SafeNames parts)
    {turns : Nat} {current : Option Uuid} {visited : List Uuid} {found : List String}
    (walked : state.pathParts turns current visited parts = some found) : SafeNames found := by
  induction turns generalizing current visited parts with
  | zero => cases walked
  | succ turns ih =>
    cases current with
    | none => exact Option.some.inj walked ▸ safe
    | some id =>
      unfold pathParts at walked
      split at walked
      · exact Option.some.inj walked ▸ safe
      · split at walked
        · exact Option.some.inj walked ▸ safe
        · rename_i folder hit
          refine ih ⟨List.append_ne_nil_of_left_ne_nil safe.1 _, fun name member => ?_⟩ walked
          rcases List.mem_append.mp member with old | new
          · exact safe.2 name old
          · rw [List.mem_singleton.mp new]
            exact safePart_of_safeName (named.folders folder (Table.find?_eq_some_iff.mp hit).1)

theorem relative_libraryFolderPath (named : state.Named) {file : WorkspaceFile}
    (member : file ∈ state.files.rows) : Relative (state.libraryFolderPath file) := by
  have own : SafePart file.name.toList := safePart_of_safeName (named.files file member)
  have single : SafeNames [file.name] :=
    ⟨List.cons_ne_nil _ _, fun name inside => List.mem_singleton.mp inside ▸ own⟩
  have safe : SafeNames
      ((state.pathParts 256 file.parentFolderId [] [file.name]).getD [file.name]) := by
    cases walked : state.pathParts 256 file.parentFolderId [] [file.name] with
    | none => exact single
    | some => exact safe_pathParts named single walked
  have filled : ((state.pathParts 256 file.parentFolderId [] [file.name]).getD
      [file.name]).reverse.map String.toList ≠ [] := by
    simpa using safe.1
  have parts : ∀ part ∈ ((state.pathParts 256 file.parentFolderId [] [file.name]).getD
      [file.name]).reverse.map String.toList, SafePart part := by
    intro part inside
    obtain ⟨name, listed, rfl⟩ := List.mem_map.mp inside
    exact safe.2 name (List.mem_reverse.mp listed)
  unfold libraryFolderPath
  dsimp only
  split
  · have alone := relative_join (List.cons_ne_nil _ [])
      fun part inside => List.mem_singleton.mp inside ▸ own
    rwa [List.intercalate_singleton, String.ofList_toList] at alone
  · rw [normpath_join filled parts]
    exact relative_join filled parts

def payloadSize (env : LibraryEnvironment Bytes) (state : FolderState Bytes)
    (file : WorkspaceFile) : Nat :=
  (state.filePayload env file).toOption.elim 0 env.size

/-- What the archive holds after some files. -/
structure Packed (env : LibraryEnvironment Bytes) (state : FolderState Bytes)
    (files : List WorkspaceFile) (archive : Archive Bytes) : Prop where
  names : (archive.output.map Prod.fst).Nodup
  used : archive.usedNames = (archive.output.map Prod.fst).reverse
  relative : ∀ entry ∈ archive.output, Relative entry.1
  payloads : List.Forall₂ (fun file entry => state.filePayload env file = .ok entry.2) files
    archive.output

theorem exportFile_eq_ok_iff {archive after : Archive Bytes} {file : WorkspaceFile} :
    state.exportFile env fuel archive file = .ok after ↔ ∃ payload,
      state.filePayload env file = .ok payload ∧
      archive.exportedBytes + env.size payload ≤ maxLibraryExportBytes ∧
      ⟨uniqueEntryName fuel archive.usedNames (state.libraryFolderPath file) :: archive.usedNames,
        archive.exportedBytes + env.size payload, archive.output ++
          [(uniqueEntryName fuel archive.usedNames (state.libraryFolderPath file), payload)]⟩ =
        after := by
  unfold exportFile
  simp only [bind_eq_ok_iff, ensure_eq_ok_iff]
  constructor
  · rintro ⟨payload, read, _, fits, same⟩
    exact ⟨payload, read, fits, Except.ok.inj same⟩
  · rintro ⟨payload, read, fits, rfl⟩
    exact ⟨payload, read, ⟨⟩, fits, rfl⟩

theorem packed_exportFile (named : state.Named) {files : List WorkspaceFile}
    {archive after : Archive Bytes} {file : WorkspaceFile} (packed : Packed env state files archive)
    (member : file ∈ state.files.rows) (enough : files.length ≤ fuel)
    (done : state.exportFile env fuel archive file = .ok after) :
    Packed env state (files ++ [file]) after := by
  obtain ⟨payload, read, _, rfl⟩ := exportFile_eq_ok_iff.mp done
  have room : archive.usedNames.length ≤ fuel := by
    rw [packed.used, List.length_reverse, List.length_map, ← packed.payloads.length_eq]
    exact enough
  obtain ⟨new, relative⟩ := uniqueEntryName_spec (state.libraryFolderPath file) room
  refine ⟨?_, ?_, ?_, ?_⟩
  · have fresh : uniqueEntryName fuel archive.usedNames (state.libraryFolderPath file) ∉
        archive.output.map Prod.fst := by
      intro old
      have used := List.mem_reverse.mpr old
      rw [← packed.used] at used
      exact new used
    rw [List.map_append]
    exact packed.names.append (List.nodup_singleton _) (List.disjoint_singleton.mpr fresh)
  · rw [List.map_append, List.reverse_append, ← packed.used]
    rfl
  · intro entry inside
    rcases List.mem_append.mp inside with old | last
    · exact packed.relative entry old
    · rw [List.mem_singleton.mp last]
      exact relative (relative_libraryFolderPath named member)
  · exact List.rel_append packed.payloads (.cons read .nil)

theorem packed_foldlM (named : state.Named) {rest files : List WorkspaceFile}
    {archive after : Archive Bytes} (packed : Packed env state files archive)
    (members : ∀ file ∈ rest, file ∈ state.files.rows) (enough : (files ++ rest).length ≤ fuel)
    (done : rest.foldlM (state.exportFile env fuel) archive = .ok after) :
    Packed env state (files ++ rest) after := by
  induction rest generalizing files archive with
  | nil =>
    obtain rfl := Except.ok.inj done
    rwa [List.append_nil]
  | cons file rest ih =>
    obtain ⟨next, one, later⟩ := bind_eq_ok_iff.mp done
    rw [List.append_cons] at enough ⊢
    have short : files.length ≤ fuel := by
      simp only [List.length_append] at enough
      omega
    exact ih (packed_exportFile named packed (members file List.mem_cons_self) short one)
      (fun other member => members other (List.mem_cons_of_mem file member)) enough later

theorem exists_foldlM_iff (state : FolderState Bytes) {files : List WorkspaceFile}
    (archive : Archive Bytes) (room : archive.exportedBytes ≤ maxLibraryExportBytes) :
    (∃ after, files.foldlM (state.exportFile env fuel) archive = .ok after) ↔
      (∀ file ∈ files, ∃ payload, state.filePayload env file = .ok payload) ∧
        archive.exportedBytes + total (payloadSize env state) files ≤ maxLibraryExportBytes := by
  induction files generalizing archive with
  | nil => exact iff_of_true ⟨archive, rfl⟩ ⟨fun _ member => absurd member List.not_mem_nil, room⟩
  | cons file files ih =>
    have size {payload : Bytes} (read : state.filePayload env file = .ok payload) :
        payloadSize env state file = env.size payload := by
      rw [payloadSize, read]
      rfl
    rw [total_cons, ← Nat.add_assoc, List.forall_mem_cons]
    constructor
    · rintro ⟨after, done⟩
      obtain ⟨next, one, later⟩ := bind_eq_ok_iff.mp done
      obtain ⟨payload, read, fits, rfl⟩ := exportFile_eq_ok_iff.mp one
      obtain ⟨others, total_⟩ := (ih _ fits).mp ⟨after, later⟩
      exact ⟨⟨⟨payload, read⟩, others⟩, size read ▸ total_⟩
    · rintro ⟨⟨⟨payload, read⟩, others⟩, total_⟩
      rw [size read] at total_
      have fits := Nat.le_trans (Nat.le_add_right _ _) total_
      obtain ⟨after, later⟩ := (ih ⟨_, _, _⟩ fits).mpr ⟨others, total_⟩
      exact ⟨after, bind_eq_ok_iff.mpr ⟨_, exportFile_eq_ok_iff.mpr ⟨payload, read, fits, rfl⟩, later⟩⟩

/-- The archive has one entry for each id, in order, under names of their own. -/
structure Exported (env : LibraryEnvironment Bytes) (state : FolderState Bytes)
    (request : LibraryRequest) (fileIds : List Uuid) (entries : List (String × Bytes)) : Prop where
  names : (entries.map Prod.fst).Nodup
  relative : ∀ entry ∈ entries, Relative entry.1
  payloads : List.Forall₂ (fun fileId entry => ∃ file, state.selectedFile request fileId = some file ∧
    state.filePayload env file = .ok entry.2) fileIds entries

/-- A selection that an archive is written for. -/
structure Exportable (env : LibraryEnvironment Bytes) (state : FolderState Bytes)
    (request : LibraryRequest) (fileIds : List Uuid) : Prop where
  conversation : state.requireConversation request = .ok ()
  different : fileIds.Nodup
  found : (fileIds.filterMap (state.selectedFile request)).length = fileIds.length
  declared : total WorkspaceFile.sizeBytes (fileIds.filterMap (state.selectedFile request)) ≤
    maxLibraryExportBytes
  readable : ∀ file ∈ fileIds.filterMap (state.selectedFile request),
    ∃ payload, state.filePayload env file = .ok payload
  fits : total (payloadSize env state) (fileIds.filterMap (state.selectedFile request)) ≤
    maxLibraryExportBytes

theorem map_selectedFile {fileIds : List Uuid}
    (found : (fileIds.filterMap (state.selectedFile request)).length = fileIds.length) :
    fileIds.map (state.selectedFile request) =
      (fileIds.filterMap (state.selectedFile request)).map some := by
  induction fileIds with
  | nil => rfl
  | cons fileId fileIds ih =>
    cases here : state.selectedFile request fileId with
    | none =>
      rw [List.filterMap_cons_none here, List.length_cons] at found
      have most := List.length_filterMap_le (state.selectedFile request) fileIds
      omega
    | some =>
      rw [List.filterMap_cons_some here, List.length_cons, List.length_cons] at found
      rw [List.filterMap_cons_some here, List.map_cons, List.map_cons, here, ih (Nat.succ.inj found)]

theorem selectedFile_mem {fileIds : List Uuid} {file : WorkspaceFile}
    (selected : file ∈ fileIds.filterMap (state.selectedFile request)) :
    file ∈ state.files.rows := by
  obtain ⟨fileId, _, found⟩ := List.mem_filterMap.mp selected
  exact (Table.find?_eq_some_iff.mp (Option.filter_eq_some_iff.mp found).1).1

/-- A note beside a file of its name in a folder that is its own parent. -/
def notes : FolderState String where
  conversations := [⟨1, 1, 1, "deepspace"⟩]
  folders := .single ⟨5, 1, 1, 1, some 5, "drafts"⟩
  files := ⟨[⟨3, 1, 1, 1, none, "plan", "text/plain", "now", "manual", 3, none, none, 1, false⟩,
    ⟨4, 1, 1, 1, some 5, "plan", "text/plain", "later", "manual", 5, none, none, 1, false⟩],
    by decide⟩
  objects := fun _ => none

end FolderState

end AverQel.Library
