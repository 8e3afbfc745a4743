/- digest: The recursive deletion of a folder, and the trees that it deletes exactly. -/
import AverQel.Library.FolderForest

namespace AverQel.Library

open Foundation Forests AverQel.System

variable {Bytes : Type}

namespace FolderState

/-- `delete_workspace_folder`: its check and its commit. -/
def deleteWorkspaceFolder (parseUuid : String → Option Uuid) (undeleted : List ObjectKey)
    (state : FolderState Bytes) (request : LibraryRequest) (folderId : Uuid) (recursive : Bool) :
    FolderState Bytes × FolderPoint :=
  let checked := state.check parseUuid undeleted (.delete request folderId recursive)
  checked.1.next parseUuid undeleted checked.2

def Within (state : FolderState Bytes) (folderId : Uuid) (file : WorkspaceFile) : Prop :=
  ∃ id ∈ file.parentFolderId, Above state.parentOf folderId id

/-- A folder tree: folders and files have the owner of the folder they are in, and the names of the
files are unique. -/
structure Filed (state : FolderState Bytes) : Prop where
  forest : state.Forest
  folders : ∀ folder ∈ state.folders.rows, ∀ parent ∈ state.folders.rows,
    folder.parentFolderId = some parent.id → folder.tenantId = parent.tenantId ∧
      folder.userId = parent.userId ∧ folder.conversationId = parent.conversationId
  files : ∀ file ∈ state.files.rows, ∀ parent ∈ state.folders.rows,
    file.parentFolderId = some parent.id → file.tenantId = parent.tenantId ∧
      file.userId = parent.userId ∧ file.conversationId = parent.conversationId
  names : uniqueFileNames state.files.rows = true

/-- The folders and files of the subtree are gone, all others are as before, and the objects of the
others are still there. -/
structure DeletedExactly (before after : FolderState Bytes) (folderId : Uuid) : Prop where
  folders : ∀ folder, folder ∈ after.folders.rows ↔
    folder ∈ before.folders.rows ∧ ¬ Above before.parentOf folderId folder.id
  files : ∀ file, file ∈ after.files.rows ↔
    file ∈ before.files.rows ∧ ¬ before.Within folderId file
  referenced : ∀ file ∈ after.files.rows, ∀ key ∈ file.storageKey,
    (before.objects key).isSome → (after.objects key).isSome

def ExactlyDeleted (before : FolderState Bytes) (folderId : Uuid) :
    FolderState Bytes × FolderPoint → Prop
  | (after, .returned) => DeletedExactly before after folderId
  | (after, _) => after = before

def NamesCollide (state : FolderState Bytes) (folderId : Uuid) : Prop :=
  ∃ file ∈ state.files.rows, ∃ other ∈ state.files.rows, file.id ≠ other.id ∧
    file.conversationId = other.conversationId ∧ file.name = other.name ∧
    state.Within folderId file ∧ (other.parentFolderId = none ∨ state.Within folderId other)

def NothingStored (state : FolderState Bytes) (undeleted : List ObjectKey) (folderId : Uuid) :
    Prop :=
  ∀ file ∈ state.files.rows, state.Within folderId file → ∀ key ∈ file.storageKey,
    state.objects key = none ∨ key ∈ undeleted

variable {state state' : FolderState Bytes} {request : LibraryRequest} {folder : LibraryFolder}
  {undeleted : List ObjectKey}

theorem inside_eq_true_iff (forest : state.Forest) {folderId id : Uuid} :
    state.inside folderId id = true ↔ Above state.parentOf folderId id := by
  constructor
  · intro held
    obtain ⟨n, _, met⟩ := List.any_eq_true.mp held
    exact ⟨n, of_decide_eq_true met⟩
  · rintro ⟨n, met⟩
    have short : n < state.walkFuel := by
      by_contra long
      have ended := climb_walkFuel (rooted_all forest.rooted id)
      rw [climb_mono ended (Nat.le_of_not_lt long)] at met
      cases met
    exact List.any_eq_true.mpr ⟨n, List.mem_range.mpr short, decide_eq_true met⟩

theorem mem_childrenOf {id child : Uuid} :
    child ∈ state.childrenOf request id ↔ ∃ folder ∈ state.folders.rows, folder.id = child ∧
      folder.ownedBy request = true ∧ folder.parentFolderId = some id := by
  simp [childrenOf, and_comm, and_assoc, and_left_comm]

theorem nodup_childrenOf (id : Uuid) : (state.childrenOf request id).Nodup :=
  state.folders.keys_nodup.sublist (List.filter_sublist.map _)

theorem above_of_mem_subtree {folderId id : Uuid} (member : id ∈ state.subtree request folderId) :
    Above state.parentOf folderId id := by
  refine Worklist.forall_mem_collect (P := Above state.parentOf folderId) ?_ ?_ ?_ id member
  · intro a above b edge
    obtain ⟨row, known, rfl, _, parent⟩ := mem_childrenOf.mp edge
    exact above_of_parent ((parentOf_of_mem known).trans parent) above
  · intro a same
    rw [List.mem_singleton.mp same]
    exact .refl folderId
  · intro a same
    rw [List.mem_singleton.mp same]
    exact .refl folderId

theorem closed_subtree (folderId : Uuid) :
    ∀ id ∈ state.subtree request folderId,
      state.childrenOf request id ⊆ state.subtree request folderId := by
  refine Worklist.closed_collect (state.folders.rows.map LibraryFolder.id) nodup_childrenOf
    (fun a b edge => ?_) ?_ ?_
  · obtain ⟨row, known, same, _⟩ := mem_childrenOf.mp edge
    exact List.mem_map.mpr ⟨row, known, same⟩
  · have bound := List.length_filter_le (fun id => decide (id ∉ [folderId]))
      (state.folders.rows.map LibraryFolder.id)
    rw [List.length_map] at bound
    rw [List.length_singleton]
    omega
  · intro a found waits
    exact absurd found waits

theorem mem_subtree_of_above (filed : state.Filed) (known : folder ∈ state.folders.rows)
    (owned : folder.ownedBy request = true) {id : Uuid}
    (above : Above state.parentOf folder.id id) :
    id ∈ state.subtree request folder.id ∧
      ∃ row ∈ state.folders.rows, row.id = id ∧ row.ownedBy request = true := by
  obtain ⟨n, met⟩ := above
  induction n generalizing id with
  | zero =>
    cases met
    exact ⟨Worklist.subset_collect (List.mem_singleton_self _), folder, known, rfl, owned⟩
  | succ n ih =>
    obtain ⟨parentId, link, rest⟩ := Option.bind_eq_some_iff.mp met
    obtain ⟨found, parent, parentKnown, rfl, parentOwned⟩ := ih rest
    obtain ⟨row, rowKnown, same, linked⟩ := parentOf_eq_some link
    have sameOwner := filed.folders row rowKnown parent parentKnown linked
    have rowOwned : row.ownedBy request = true := by
      have own := of_decide_eq_true parentOwned
      refine decide_eq_true ?_
      rw [sameOwner.1, sameOwner.2.1, sameOwner.2.2]
      exact own
    exact ⟨closed_subtree _ _ found (mem_childrenOf.mpr ⟨row, rowKnown, same, rowOwned, linked⟩),
      row, rowKnown, same, rowOwned⟩

theorem mem_subtreeFiles_iff (filed : state.Filed) (known : folder ∈ state.folders.rows)
    (owned : folder.ownedBy request = true) {file : WorkspaceFile} :
    file ∈ state.subtreeFiles request folder.id ↔
      file ∈ state.files.rows ∧ state.Within folder.id file := by
  unfold subtreeFiles
  rw [List.mem_filter]
  refine and_congr_right fun member => ?_
  constructor
  · intro held
    obtain ⟨_, _, _, id, parent, found⟩ := of_decide_eq_true held
    exact ⟨id, parent, above_of_mem_subtree found⟩
  · rintro ⟨id, parent, above⟩
    obtain ⟨found, row, rowKnown, rfl, rowOwned⟩ := mem_subtree_of_above filed known owned above
    have sameOwner := filed.files file member row rowKnown parent
    have own := of_decide_eq_true rowOwned
    exact decide_eq_true ⟨sameOwner.1.trans own.1, sameOwner.2.1.trans own.2.1,
      sameOwner.2.2.trans own.2.2, row.id, parent, found⟩

theorem foldl_delete (undeleted keys : List ObjectKey)
    (objects : ObjectStore Bytes) (key : ObjectKey) :
    keys.foldl (fun objects key => if key ∈ undeleted then objects else objects.delete key) objects
        key =
      if key ∈ keys ∧ key ∉ undeleted then none else objects key := by
  induction keys generalizing objects with
  | nil => rw [if_neg (fun listed => List.not_mem_nil listed.1)]; rfl
  | cons first rest ih =>
    rw [List.foldl_cons, ih]
    by_cases later : key ∈ rest ∧ key ∉ undeleted
    · rw [if_pos later, if_pos ⟨List.mem_cons_of_mem first later.1, later.2⟩]
    · rw [if_neg later]
      by_cases same : key = first
      · by_cases spared : first ∈ undeleted
        · rw [if_pos spared, if_neg fun listed => listed.2 (same ▸ spared)]
        · rw [if_neg spared, if_pos ⟨same ▸ List.mem_cons_self, same ▸ spared⟩, same]
          exact if_pos rfl
      · have absent : ¬ (key ∈ first :: rest ∧ key ∉ undeleted) := fun listed =>
          later ⟨(List.mem_cons.mp listed.1).resolve_left same, listed.2⟩
        refine Eq.trans ?_ (if_neg absent).symm
        split
        · rfl
        · exact ObjectStore.delete_of_ne objects same

theorem deleteObjects_eq_self_iff (undeleted : List ObjectKey) (files : List WorkspaceFile) :
    state.deleteObjects undeleted files = state ↔
      ∀ file ∈ files, ∀ key ∈ file.storageKey, state.objects key = none ∨ key ∈ undeleted := by
  have value : ∀ key, (state.deleteObjects undeleted files).objects key =
      if key ∈ files.filterMap WorkspaceFile.storageKey ∧ key ∉ undeleted then none
      else state.objects key := foldl_delete undeleted _ state.objects
  constructor
  · intro same file member key own
    by_cases spared : key ∈ undeleted
    · exact .inr spared
    · left
      have gone := value key
      rw [same, if_pos ⟨List.mem_filterMap.mpr ⟨file, member, own⟩, spared⟩] at gone
      exact gone
  · intro spared
    have objects : (state.deleteObjects undeleted files).objects = state.objects := by
      funext key
      rw [value]
      split
      · rename_i listed
        obtain ⟨file, member, own⟩ := List.mem_filterMap.mp listed.1
        exact ((spared file member key own).resolve_right listed.2).symm
      · rfl
    show { state with objects := (state.deleteObjects undeleted files).objects } = state
    rw [objects]

theorem detached_of_within (forest : state.Forest) {folderId : Uuid} {file : WorkspaceFile}
    (within : state.Within folderId file) :
    state.detached folderId file = { file with parentFolderId := none } := by
  obtain ⟨id, parent, above⟩ := within
  exact if_pos ⟨id, parent, (inside_eq_true_iff forest).mpr above⟩

theorem detached_of_not_within (forest : state.Forest) {folderId : Uuid} {file : WorkspaceFile}
    (without : ¬ state.Within folderId file) : state.detached folderId file = file :=
  if_neg fun ⟨id, parent, inside⟩ => without ⟨id, parent, (inside_eq_true_iff forest).mp inside⟩

theorem uniqueFileNames_iff {files : List WorkspaceFile} : uniqueFileNames files = true ↔
    ∀ file ∈ files, ∀ other ∈ files, file.id ≠ other.id →
      ¬ (file.conversationId = other.conversationId ∧
        file.parentFolderId = other.parentFolderId ∧ file.name = other.name) :=
  decide_eq_true_iff

theorem uniqueFileNames_detached_iff (filed : state.Filed) (folderId : Uuid) :
    uniqueFileNames (state.files.rows.map (state.detached folderId)) = true ↔
      ¬ state.NamesCollide folderId := by
  rw [uniqueFileNames_iff]
  have forest := filed.forest
  have kept : ∀ file, (state.detached folderId file).id = file.id ∧
      (state.detached folderId file).conversationId = file.conversationId ∧
      (state.detached folderId file).name = file.name := by
    intro file
    by_cases within : state.Within folderId file
    · rw [detached_of_within forest within]
      exact ⟨rfl, rfl, rfl⟩
    · rw [detached_of_not_within forest within]
      exact ⟨rfl, rfl, rfl⟩
  simp only [List.forall_mem_map, kept]
  constructor
  · rintro unique ⟨file, known, other, otherKnown, differ, conversation, name, within, atRoot⟩
    refine unique file known other otherKnown differ ⟨conversation, ?_, name⟩
    rw [detached_of_within forest within]
    by_cases also : state.Within folderId other
    · rw [detached_of_within forest also]
    · rw [detached_of_not_within forest also]
      exact (atRoot.resolve_right also).symm
  · rintro free file known other otherKnown differ ⟨conversation, parents, name⟩
    by_cases within : state.Within folderId file
    · refine free ⟨file, known, other, otherKnown, differ, conversation, name, within, ?_⟩
      by_cases also : state.Within folderId other
      · exact .inr also
      · rw [detached_of_within forest within, detached_of_not_within forest also] at parents
        exact .inl parents.symm
    · by_cases also : state.Within folderId other
      · rw [detached_of_not_within forest within, detached_of_within forest also] at parents
        exact free ⟨other, otherKnown, file, known, Ne.symm differ, conversation.symm, name.symm,
          also, .inl parents⟩
      · rw [detached_of_not_within forest within, detached_of_not_within forest also] at parents
        exact uniqueFileNames_iff.mp filed.names file known other otherKnown differ
          ⟨conversation, parents, name⟩

variable {folderId : Uuid}

theorem rows_commitDelete (filed : state.Filed) (done : state.commitDelete folderId = some state') :
    ¬ state.NamesCollide folderId ∧ state'.objects = state.objects ∧
      state'.files.rows = state.files.rows.map (state.detached folderId) ∧
      ∀ folder, folder ∈ state'.folders.rows ↔
        folder ∈ state.folders.rows ∧ ¬ Above state.parentOf folderId folder.id := by
  unfold commitDelete at done
  simp only at done
  split at done
  · rename_i unique
    cases done
    refine ⟨(uniqueFileNames_detached_iff filed folderId).mp unique, rfl, rfl, fun folder => ?_⟩
    rw [Table.mem_filter, ← inside_eq_true_iff filed.forest]
    exact and_congr_right fun _ => decide_eq_true_iff
  · cases done

theorem namesCollide_of_commitDelete (filed : state.Filed)
    (refused : state.commitDelete folderId = none) : state.NamesCollide folderId := by
  unfold commitDelete at refused
  simp only at refused
  split at refused
  · cases refused
  · rename_i taken
    by_contra free
    exact taken ((uniqueFileNames_detached_iff filed folderId).mpr free)

theorem not_within_of_commitDelete (filed : state.Filed)
    (done : state.commitDelete folderId = some state')
    (exactly : ∀ file, file ∈ state'.files.rows ↔ file ∈ state.files.rows ∧ ¬ state.Within folderId file) :
    ∀ file ∈ state.files.rows, ¬ state.Within folderId file := by
  obtain ⟨_, _, files, _⟩ := rows_commitDelete filed done
  intro file known within
  have left : state.detached folderId file ∈ state'.files.rows := by
    rw [files]
    exact List.mem_map_of_mem known
  obtain ⟨old, without⟩ := (exactly _).mp left
  rw [detached_of_within filed.forest within] at old without
  have same := state.files.eq_of_key_eq old known rfl
  exact without (same ▸ within)

theorem deletedExactly_of_not_within (filed : state.Filed)
    (done : state.commitDelete folderId = some state')
    (without : ∀ file ∈ state.files.rows, ¬ state.Within folderId file) :
    DeletedExactly state state' folderId := by
  obtain ⟨_, objects, files, folders⟩ := rows_commitDelete filed done
  have same : state'.files.rows = state.files.rows := by
    rw [files]
    refine (List.map_congr_left fun file known => ?_).trans (List.map_id' state.files.rows)
    exact detached_of_not_within filed.forest (without file known)
  refine ⟨folders, fun file => ?_, fun file _ key _ => ?_⟩
  · rw [same]
    exact ⟨fun known => ⟨known, without file known⟩, fun known => known.1⟩
  · rw [objects]
    exact id

theorem checkDelete_recursive (granted : state.requireConversation request = .ok ())
    (owned : state.ownedFolder request folderId = .ok folder) :
    state.checkDelete request folderId true = .ok folder := by
  unfold checkDelete
  rw [granted, owned]
  show (ensure _ _ >>= fun _ => Except.ok folder) = Except.ok folder
  rw [bind_eq_ok_iff]
  exact ⟨(), ensure_eq_ok_iff.mpr fun refused => Bool.noConfusion refused.2, rfl⟩

theorem checkDelete_refused
    (refused : ¬ ∃ folder, state.requireConversation request = .ok () ∧
      state.ownedFolder request folderId = .ok folder) (recursive : Bool) :
    ∃ error, state.checkDelete request folderId recursive = .error error := by
  cases checked : state.checkDelete request folderId recursive with
  | error error => exact ⟨error, rfl⟩
  | ok folder =>
    obtain ⟨_, granted, rest⟩ := bind_eq_ok_iff.mp checked
    obtain ⟨folder, owned, _⟩ := bind_eq_ok_iff.mp rest
    exact absurd ⟨folder, granted, owned⟩ refused

/-- A recursive deletion is exact and atomic exactly when it is refused, when no file is below the
folder, or when names collide and no object is deleted. -/
theorem recursive_deletion_exact_iff (parseUuid : String → Option Uuid)
    (undeleted : List ObjectKey) (filed : state.Filed) (request : LibraryRequest)
    (folderId : Uuid) :
    state.ExactlyDeleted folderId
        (deleteWorkspaceFolder parseUuid undeleted state request folderId true) ↔
      ((∃ folder, state.requireConversation request = .ok () ∧
          state.ownedFolder request folderId = .ok folder) →
        (∀ file ∈ state.files.rows, ¬ state.Within folderId file) ∨
          (state.NamesCollide folderId ∧ state.NothingStored undeleted folderId)) := by
  by_cases granted : ∃ folder, state.requireConversation request = .ok () ∧
      state.ownedFolder request folderId = .ok folder
  · rw [forall_prop_of_true granted]
    obtain ⟨folder, granted, owned⟩ := granted
    obtain ⟨known, rfl, own⟩ := mem_of_ownedFolder owned
    let files := state.subtreeFiles request folder.id
    let emptied := state.deleteObjects undeleted files
    have filedEmptied : emptied.Filed :=
      ⟨forest_of_folders filed.forest rfl, filed.folders, filed.files, filed.names⟩
    have spared : emptied = state ↔ state.NothingStored undeleted folder.id := by
      rw [deleteObjects_eq_self_iff]
      constructor
      · intro all file member within
        exact all file ((mem_subtreeFiles_iff filed known own).mpr ⟨member, within⟩)
      · intro nothing file member
        obtain ⟨listed, within⟩ := (mem_subtreeFiles_iff filed known own).mp member
        exact nothing file listed within
    have result : deleteWorkspaceFolder parseUuid undeleted state request folder.id true =
        emptied.committed none (emptied.commitDelete folder.id) := by
      unfold deleteWorkspaceFolder check
      simp only [checkDelete_recursive granted owned]
      rfl
    rw [result]
    cases done : emptied.commitDelete folder.id with
    | none =>
      have refused : emptied.NamesCollide folder.id :=
        namesCollide_of_commitDelete filedEmptied done
      have collide : state.NamesCollide folder.id := refused
      obtain ⟨file, member, _, _, _, _, _, within, _⟩ := id collide
      show emptied = state ↔ _
      rw [spared]
      constructor
      · exact fun nothing => .inr ⟨collide, nothing⟩
      · rintro (without | ⟨_, nothing⟩)
        · exact absurd within (without file member)
        · exact nothing
    | some state' =>
      have free := (rows_commitDelete filedEmptied done).1
      show DeletedExactly state state' folder.id ↔ _
      constructor
      · intro exactly
        have without : ∀ file ∈ emptied.files.rows, ¬ emptied.Within folder.id file :=
          not_within_of_commitDelete filedEmptied done exactly.files
        exact .inl without
      · rintro (without | ⟨collide, _⟩)
        · have same : emptied = state := spared.mpr fun file member within =>
            absurd within (without file member)
          rw [same] at done
          exact deletedExactly_of_not_within filed done without
        · exact absurd collide free
  · rw [forall_prop_of_false granted]
    obtain ⟨error, refused⟩ := checkDelete_refused granted true
    have result : deleteWorkspaceFolder parseUuid undeleted state request folderId true =
        (state, .raised (some error)) := by
      unfold deleteWorkspaceFolder check
      simp only [refused]
      rfl
    rw [result]
    exact iff_of_true rfl trivial

def planKey : ObjectKey := objectKey 1 1 "plan.pdf"

/-- Folder `old` in folder `notes`, and a file in the given folder. -/
def notesTree (parentFolderId : Option Uuid) : FolderState Unit where
  conversations := FolderSystem.ownConversations
  folders := ⟨[⟨1, 1, 1, 1, none, "notes"⟩, ⟨2, 1, 1, 1, some 1, "old"⟩], by decide⟩
  files := .single ⟨1, 1, 1, 1, parentFolderId, "plan.pdf", "application/pdf", "", "upload", 1,
    some planKey, some "c", 1, true⟩
  objects key := if key = planKey then some () else none

/-- The folders are deleted when the file is at the root. -/
theorem empty_folders_deleted :
    (notesTree none).ExactlyDeleted 1
      (deleteWorkspaceFolder FolderSystem.parseLetter [] (notesTree none)
        FolderSystem.ownRequest 1 true) := by
  have filed : (notesTree none).Filed :=
    ⟨forest_of_climb (by decide) (by decide), by decide, by decide, by decide⟩
  refine (recursive_deletion_exact_iff _ _ filed _ _).mpr fun _ => .inl ?_
  rintro file member ⟨id, parent, _⟩
  rw [List.mem_singleton.mp member] at parent
  cases parent

/-- A file below the deleted folder moves to the root, and its object is gone. -/
theorem file_outlives_folder :
    (notesTree (some 2)).Filed ∧
      ¬ (notesTree (some 2)).ExactlyDeleted 1
        (deleteWorkspaceFolder FolderSystem.parseLetter [] (notesTree (some 2))
          FolderSystem.ownRequest 1 true) := by
  refine ⟨⟨forest_of_climb (by decide) (by decide), by decide, by decide, by decide⟩, ?_⟩
  intro exactly
  let result := deleteWorkspaceFolder FolderSystem.parseLetter [] (notesTree (some 2))
    FolderSystem.ownRequest 1 true
  have returned : result = (result.1, .returned) := by rfl
  have deleted : (notesTree (some 2)).ExactlyDeleted 1 result := exactly
  rw [returned] at deleted
  have parents : result.1.files.rows.map WorkspaceFile.parentFolderId = [none] := by
    decide +kernel
  have listed : none ∈ result.1.files.rows.map WorkspaceFile.parentFolderId := by
    rw [parents]
    exact List.mem_singleton_self none
  obtain ⟨file, member, atRoot⟩ := List.mem_map.mp listed
  have old := ((DeletedExactly.files deleted file).mp member).1
  rw [List.mem_singleton.mp old] at atRoot
  cases atRoot

end FolderState

end AverQel.Library
