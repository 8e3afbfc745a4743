/- digest: The folders of the Library as a forest, and the moves that keep them one. -/
import AverQel.Library.Folders

namespace AverQel.Library

open Foundation Forests Interleaving
open Foundation.Transition AverQel.System

variable {Bytes : Type} {parseUuid : String → Option Uuid}

namespace FolderState

/-- Every parent is a folder, every climb ends at the root, and so do the walk of an update and the
path of a file. -/
structure Forest (state : FolderState Bytes) : Prop where
  linked : ∀ folder ∈ state.folders.rows, ∀ parentId ∈ folder.parentFolderId,
    (state.folders.find? parentId).isSome
  rooted : ∀ folder ∈ state.folders.rows, Rooted state.parentOf folder.id
  walks : ∀ request folderId, ∀ folder ∈ state.folders.rows,
    (state.walkAncestors request folderId state.walkFuel folder).isSome
  paths : ∀ file : WorkspaceFile,
    (state.pathParts 256 file.parentFolderId [] [file.name]).isSome

variable {state state' : FolderState Bytes}

variable {folder : LibraryFolder}

theorem parentOf_of_mem (member : folder ∈ state.folders.rows) :
    state.parentOf folder.id = folder.parentFolderId := by
  unfold parentOf
  rw [Table.find?_eq_some_iff.mpr ⟨member, rfl⟩]
  rfl

theorem parentOf_eq_some {id parentId : Uuid} (link : state.parentOf id = some parentId) :
    ∃ folder ∈ state.folders.rows, folder.id = id ∧ folder.parentFolderId = some parentId := by
  obtain ⟨folder, found, parent⟩ := Option.bind_eq_some_iff.mp link
  obtain ⟨member, same⟩ := Table.find?_eq_some_iff.mp found
  exact ⟨folder, member, same, parent⟩

theorem parentOf_of_find?_none {id : Uuid} (absent : state.folders.find? id = none) :
    state.parentOf id = none := by
  unfold parentOf
  rw [absent]
  rfl

theorem rooted_all (rooted : ∀ folder ∈ state.folders.rows, Rooted state.parentOf folder.id)
    (id : Uuid) : Rooted state.parentOf id := by
  cases found : state.folders.find? id with
  | none => exact rooted_of_root (parentOf_of_find?_none found)
  | some folder =>
    obtain ⟨member, same⟩ := Table.find?_eq_some_iff.mp found
    rw [← same]
    exact rooted folder member

theorem known_of_above (linked : ∀ folder ∈ state.folders.rows, ∀ parentId ∈ folder.parentFolderId,
    (state.folders.find? parentId).isSome) {a b : Uuid} (above : Above state.parentOf a b)
    (known : (state.folders.find? b).isSome) : (state.folders.find? a).isSome := by
  obtain ⟨n, met⟩ := above
  induction n generalizing b with
  | zero =>
    cases met
    exact known
  | succ n ih =>
    obtain ⟨parentId, link, rest⟩ := Option.bind_eq_some_iff.mp met
    obtain ⟨folder, member, _, parent⟩ := parentOf_eq_some link
    exact ih (linked folder member parentId parent) rest

theorem climb_walkFuel {id : Uuid} (rooted : Rooted state.parentOf id) :
    climb state.parentOf state.walkFuel id = none := by
  have short := climb_length rooted (state.folders.rows.map LibraryFolder.id)
    fun b _ linked => by
      cases link : state.parentOf b with
      | none => exact absurd link linked
      | some =>
        obtain ⟨folder, member, same, _⟩ := parentOf_eq_some link
        exact List.mem_map.mpr ⟨folder, member, same⟩
  rwa [List.length_map] at short

theorem mem_of_ownedFolder {request : LibraryRequest} {id : Uuid}
    (owned : state.ownedFolder request id = .ok folder) :
    folder ∈ state.folders.rows ∧ folder.id = id ∧ folder.ownedBy request = true := by
  unfold ownedFolder at owned
  split at owned
  · cases owned
  · rename_i row kept
    cases owned
    obtain ⟨found, own⟩ := Option.filter_eq_some_iff.mp kept
    obtain ⟨member, same⟩ := Table.find?_eq_some_iff.mp found
    exact ⟨member, same, own⟩

theorem isSome_walkAncestors {request : LibraryRequest} {folderId : Uuid} {fuel : Nat}
    (member : folder ∈ state.folders.rows) (ended : climb state.parentOf fuel folder.id = none) :
    (state.walkAncestors request folderId fuel folder).isSome := by
  induction fuel generalizing folder with
  | zero => cases ended
  | succ fuel ih =>
    unfold walkAncestors
    split
    · rfl
    · rename_i parentId link
      rw [climb_of_parent ((parentOf_of_mem member).trans link)] at ended
      split
      · rfl
      · split
        · rfl
        · rename_i next owned
          obtain ⟨known, same, _⟩ := mem_of_ownedFolder owned
          exact ih known (same ▸ ended)

theorem isSome_pathParts {fuel : Nat} {current : Option Uuid} {visited : List Uuid}
    {parts : List String} (bounded : parts.length ≤ 256) (enough : 256 < fuel + parts.length) :
    (state.pathParts fuel current visited parts).isSome := by
  induction fuel generalizing current visited parts with
  | zero => omega
  | succ fuel ih =>
    cases current with
    | none => rfl
    | some id =>
      unfold pathParts
      split
      · rfl
      · rename_i more
        have room : parts.length < 256 := by
          push Not at more
          exact more.2
        split
        · rfl
        · rename_i folder _
          have longer : (parts ++ [folder.name]).length = parts.length + 1 :=
            List.length_append
          apply ih <;> omega

theorem forest_of_rooted
    (linked : ∀ folder ∈ state.folders.rows, ∀ parentId ∈ folder.parentFolderId,
      (state.folders.find? parentId).isSome)
    (rooted : ∀ id, Rooted state.parentOf id) : state.Forest where
  linked := linked
  rooted folder _ := rooted folder.id
  walks request folderId folder member :=
    isSome_walkAncestors member (climb_walkFuel (rooted folder.id))
  paths _ := isSome_pathParts (Nat.succ_le_succ (Nat.zero_le 255)) (Nat.lt_succ_self 256)

theorem forest_of_climb
    (linked : ∀ folder ∈ state.folders.rows, ∀ parentId ∈ folder.parentFolderId,
      (state.folders.find? parentId).isSome)
    (ended : ∀ folder ∈ state.folders.rows, climb state.parentOf state.walkFuel folder.id = none) :
    state.Forest :=
  forest_of_rooted linked (rooted_all fun folder member => ⟨_, ended folder member⟩)

theorem not_inside_of_parent (forest : state.Forest) {folderId id parentId : Uuid}
    (link : state.parentOf id = some parentId) (outside : state.inside folderId id = false) :
    state.inside folderId parentId = false := by
  cases held : state.inside folderId parentId with
  | false => rfl
  | true =>
    obtain ⟨n, short, met⟩ := List.any_eq_true.mp held
    have met : climb state.parentOf n parentId = some folderId := of_decide_eq_true met
    have shorter : n + 1 < state.walkFuel := by
      by_contra long
      have ended := climb_walkFuel (rooted_all forest.rooted id)
      have past := climb_mono ended (Nat.le_of_not_lt long)
      rw [climb_of_parent link, met] at past
      cases past
    have inside : state.inside folderId id = true :=
      List.any_eq_true.mpr ⟨n + 1, List.mem_range.mpr shorter,
        decide_eq_true ((climb_of_parent link n).trans met)⟩
    rw [outside] at inside
    cases inside

theorem forest_commitDelete {folderId : Uuid} (forest : state.Forest)
    (done : state.commitDelete folderId = some state') : state'.Forest := by
  have rows : ∀ folder, folder ∈ state'.folders.rows ↔
      folder ∈ state.folders.rows ∧ state.inside folderId folder.id = false := by
    intro folder
    unfold commitDelete at done
    simp only at done
    split at done
    · cases done
      simp [Table.mem_filter]
    · cases done
  apply forest_of_rooted
  · intro folder member parentId parent
    obtain ⟨known, outside⟩ := (rows folder).mp member
    have link := (parentOf_of_mem known).trans parent
    obtain ⟨above, found⟩ := Option.isSome_iff_exists.mp (forest.linked folder known parentId parent)
    obtain ⟨aboveKnown, same⟩ := Table.find?_eq_some_iff.mp found
    have kept := (rows above).mpr ⟨aboveKnown, same ▸ not_inside_of_parent forest link outside⟩
    exact Option.isSome_of_eq_some (Table.find?_eq_some_iff.mpr ⟨kept, same⟩)
  · intro id
    have cut : ∀ a, state'.parentOf a = state.parentOf a ∨ state'.parentOf a = none := by
      intro a
      cases link : state'.parentOf a with
      | none => exact .inr rfl
      | some =>
        left
        obtain ⟨folder, member, same, parent⟩ := parentOf_eq_some link
        rw [← same, parentOf_of_mem ((rows folder).mp member).1, parent]
    exact rooted_of_cut cut (rooted_all forest.rooted id)

theorem forest_insertFolder {row : LibraryFolder} (forest : state.Forest)
    (done : state.insertFolder row = some state') : state'.Forest := by
  unfold insertFolder at done
  split at done
  · rename_i admitted
    obtain ⟨folders, inserted, rfl⟩ := Option.map_eq_some_iff.mp done
    have admitted := (of_decide_eq_true admitted).1
    have links : (FolderState.parentOf { state with folders := folders }) =
        Function.update state.parentOf row.id row.parentFolderId := by
      funext id
      unfold parentOf
      rw [Table.find?_of_insert? inserted]
      by_cases same : id = row.id
      · rw [if_pos same, same, Function.update_self, Option.bind_some]
      · rw [if_neg same, Function.update_of_ne same]
    apply forest_of_rooted
    · intro folder member parentId parent
      show (folders.find? parentId).isSome
      rw [Table.find?_of_insert? inserted]
      split
      · rfl
      · rcases (Table.mem_of_insert? inserted).mp member with known | rfl
        · exact forest.linked folder known parentId parent
        · exact admitted parentId parent
    · rw [links]
      refine rooted_update_of_not_above (rooted_all forest.rooted) fun parentId parent above => ?_
      have taken := known_of_above forest.linked above (admitted parentId parent)
      obtain ⟨other, found⟩ := Option.isSome_iff_exists.mp taken
      obtain ⟨member, same⟩ := Table.find?_eq_some_iff.mp found
      exact Table.fresh_of_insert? inserted member same
  · cases done

def newParent (read row : LibraryFolder) (parentId : Option Uuid) : Option Uuid :=
  if parentId = read.parentFolderId then row.parentFolderId else parentId

theorem commitUpdate_eq_some {read : LibraryFolder} {changes : FolderChanges}
    {parentId : Option Uuid} (done : state.commitUpdate read (updated read changes parentId) =
      some state') :
    ∃ row, state.folders.find? read.id = some row ∧
      state.admits (LibraryFolder.flush read (updated read changes parentId) row) = true ∧
      (∀ id, (state'.folders.find? id).isSome = (state.folders.find? id).isSome) ∧
      state'.parentOf = Function.update state.parentOf read.id (newParent read row parentId) := by
  unfold commitUpdate at done
  split at done
  · cases done
  rename_i row found
  split at done
  · rename_i admitted
    cases done
    refine ⟨row, found, admitted, fun id => ?_, ?_⟩
    · rw [Table.find?_modify]
      split
      · exact Option.isSome_map
      · rfl
    · funext id
      unfold parentOf
      rw [Table.find?_modify]
      by_cases same : id = read.id
      · rw [if_pos same, same, found, Function.update_self]
        rfl
      · rw [if_neg same, Function.update_of_ne same]
  · cases done

theorem forest_commitUpdate_iff {read : LibraryFolder} {changes : FolderChanges}
    {parentId : Option Uuid} (forest : state.Forest)
    (done : state.commitUpdate read (updated read changes parentId) = some state') :
    state'.Forest ↔ (parentId ≠ read.parentFolderId →
      ∀ p ∈ parentId, ¬ Above state.parentOf read.id p) := by
  obtain ⟨row, found, admitted, known, links⟩ := commitUpdate_eq_some done
  obtain ⟨member, same⟩ := Table.find?_eq_some_iff.mp found
  have rooted := rooted_all forest.rooted
  have moves : (∀ id, Rooted state'.parentOf id) ↔
      (parentId ≠ read.parentFolderId → ∀ p ∈ parentId, ¬ Above state.parentOf read.id p) := by
    rw [links, rooted_update_iff rooted]
    unfold newParent
    split
    · rename_i unchanged
      refine iff_of_true (fun p parent => ?_) (fun changed => absurd unchanged changed)
      have link : state.parentOf read.id = some p := by
        rw [← same, parentOf_of_mem member]
        exact parent
      exact (rooted read.id).not_above_parent link
    · rename_i changed
      exact ⟨fun apart _ => apart, fun apart => apart changed⟩
  rw [← moves]
  refine ⟨fun after => rooted_all after.rooted, fun after => forest_of_rooted ?_ after⟩
  intro folder here p parent
  rw [known]
  have link := (parentOf_of_mem here).trans parent
  rw [links] at link
  by_cases moved : folder.id = read.id
  · rw [moved, Function.update_self] at link
    exact (of_decide_eq_true admitted).1 p link
  · rw [Function.update_of_ne moved] at link
    obtain ⟨old, listed, _, above⟩ := parentOf_eq_some link
    exact forest.linked old listed p above

theorem forest_of_folders (forest : state.Forest) (same : state'.folders = state.folders) :
    state'.Forest := by
  have links : state'.parentOf = state.parentOf := by
    funext id
    unfold parentOf
    rw [same]
  apply forest_of_rooted
  · rw [same]
    exact forest.linked
  · rw [links]
    exact rooted_all forest.rooted

theorem folders_check (undeleted : List ObjectKey) (call : FolderCall) :
    (state.check parseUuid undeleted call).1.folders = state.folders := by
  cases call with
  | create | update =>
    unfold check
    simp only
    split <;> rfl
  | delete request folderId recursive =>
    unfold check
    simp only
    split
    · rfl
    · cases recursive <;> rfl

def takesUpdate (state : FolderState Bytes) (read written : LibraryFolder) : Bool :=
  (state.folders.find? read.id).any fun row => state.admits (LibraryFolder.flush read written row)

theorem isSome_commitUpdate (read written : LibraryFolder) :
    (state.commitUpdate read written).isSome = state.takesUpdate read written := by
  unfold commitUpdate takesUpdate
  cases state.folders.find? read.id with
  | none => rfl
  | some row =>
    show Option.isSome (if _ then _ else _) = state.admits _
    cases state.admits (LibraryFolder.flush read written row) <;> rfl

def MovesApart (state : FolderState Bytes) : FolderPoint → Prop
  | .updating read changes parentId =>
    state.takesUpdate read (updated read changes parentId) = true →
      parentId ≠ read.parentFolderId → ∀ p ∈ parentId, ¬ Above state.parentOf read.id p
  | _ => True

theorem forest_next_iff (forest : state.Forest) (undeleted : List ObjectKey)
    (point : FolderPoint) :
    (state.next parseUuid undeleted point).1.Forest ↔ state.MovesApart point := by
  cases point with
  | called call => exact iff_of_true (forest_of_folders forest (folders_check undeleted call)) trivial
  | creating row =>
    refine iff_of_true ?_ trivial
    unfold next
    simp only
    cases done : state.insertFolder row with
    | none => exact forest
    | some => exact forest_insertFolder forest done
  | updating read changes parentId =>
    unfold next MovesApart
    simp only
    rw [← isSome_commitUpdate]
    cases done : state.commitUpdate read (updated read changes parentId) with
    | none => exact iff_of_true forest fun committed => absurd committed Bool.false_ne_true
    | some =>
      rw [Option.isSome_some]
      exact (forest_commitUpdate_iff forest done).trans ⟨fun apart _ => apart, fun apart => apart rfl⟩
  | deleting folder =>
    refine iff_of_true ?_ trivial
    unfold next
    simp only
    cases done : state.commitDelete folder.id with
    | none => exact forest
    | some => exact forest_commitDelete forest done
  | returned | raised => exact iff_of_true forest trivial

def updateOf : FolderPoint → Option (Uuid × FolderChanges)
  | .called (.update _ folderId changes) => some (folderId, changes)
  | .updating read changes _ => some (read.id, changes)
  | _ => none

def ParentsKept (before after : FolderState Bytes) (point : FolderPoint) : Prop :=
  ∀ update ∈ updateOf point, ∀ id, after.parentOf id ≠ before.parentOf id →
    id = update.1 ∧ update.2.parentFolderId ≠ none

def StaysInPlace (state : FolderState Bytes) : FolderPoint → Prop
  | .updating read changes parentId =>
    state.takesUpdate read (updated read changes parentId) = true →
      changes.parentFolderId = none → parentId ≠ read.parentFolderId →
        state.parentOf read.id = parentId
  | _ => True

theorem parentsKept_of_parentOf {point : FolderPoint} (same : state'.parentOf = state.parentOf) :
    ParentsKept state state' point :=
  fun _ _ id moved => absurd (congrFun same id) moved

theorem parentsKept_next_iff (undeleted : List ObjectKey) (point : FolderPoint) :
    ParentsKept state (state.next parseUuid undeleted point).1 point ↔
      state.StaysInPlace point := by
  cases point with
  | called call =>
    refine iff_of_true (parentsKept_of_parentOf ?_) trivial
    funext id
    unfold parentOf
    rw [next, folders_check undeleted call]
  | updating read changes parentId =>
    unfold next StaysInPlace
    simp only
    rw [← isSome_commitUpdate]
    cases done : state.commitUpdate read (updated read changes parentId) with
    | none =>
      exact iff_of_true (parentsKept_of_parentOf rfl) fun committed =>
        absurd committed Bool.false_ne_true
    | some state' =>
      obtain ⟨row, found, _, _, links⟩ := commitUpdate_eq_some done
      obtain ⟨member, same⟩ := Table.find?_eq_some_iff.mp found
      have stored : state.parentOf read.id = row.parentFolderId := by
        rw [← same]
        exact parentOf_of_mem member
      constructor
      · intro kept _ bare changed
        by_contra apart
        refine (kept _ rfl read.id ?_).2 bare
        show state'.parentOf read.id ≠ state.parentOf read.id
        rw [links, Function.update_self, newParent, if_neg changed]
        exact Ne.symm apart
      · rintro stays _ ⟨⟩ id moved
        have moved : state'.parentOf id ≠ state.parentOf id := moved
        rw [links] at moved
        have own : id = read.id := by
          by_contra other
          exact moved (Function.update_of_ne other _ _)
        refine ⟨own, fun bare => moved ?_⟩
        rw [own, Function.update_self, newParent]
        split
        · exact stored.symm
        · rename_i changed
          exact (stays rfl bare changed).symm
  | creating | deleting | returned | raised =>
    exact iff_of_true (fun _ update => by cases update) trivial

end FolderState

namespace FolderSystem

open FolderState

def ParentsKept (parseUuid : String → Option Uuid) (s : FolderSystem Bytes)
    (turn : Nat × List ObjectKey) : Prop :=
  ∀ point ∈ s.calls[turn.1]?,
    FolderState.ParentsKept s.shared (step parseUuid s turn).shared point

def Careful (s : FolderSystem Bytes) (turn : Nat × List ObjectKey) : Prop :=
  ∀ point ∈ s.calls[turn.1]?, s.shared.MovesApart point ∧ s.shared.StaysInPlace point

variable {s : FolderSystem Bytes} {turn : Nat × List ObjectKey}

theorem step_of_point {point : FolderPoint} (here : s.calls[turn.1]? = some point) :
    (step parseUuid s turn).shared = (s.shared.next parseUuid turn.2 point).1 := by
  unfold step
  rw [advance_of_free _ _ here (blocked_of_lockFree s _ _)]

theorem forest_step_iff (forest : s.shared.Forest) (turn : Nat × List ObjectKey) :
    (step parseUuid s turn).shared.Forest ↔
      ∀ point ∈ s.calls[turn.1]?, s.shared.MovesApart point := by
  cases here : s.calls[turn.1]? with
  | none =>
    unfold step
    rw [advance_of_none _ _ here]
    exact iff_of_true forest fun _ absent => by cases absent
  | some point =>
    rw [step_of_point here, forest_next_iff forest]
    exact ⟨fun apart other same => Option.some.inj same ▸ apart, fun all => all point rfl⟩

theorem parentsKept_iff (s : FolderSystem Bytes) (turn : Nat × List ObjectKey) :
    s.ParentsKept parseUuid turn ↔ ∀ point ∈ s.calls[turn.1]?, s.shared.StaysInPlace point := by
  refine forall_congr' fun point => forall_congr' fun here => ?_
  rw [step_of_point here]
  exact parentsKept_next_iff turn.2 point

/-- The folders stay a forest and updates keep parents exactly in the runs whose updates are
careful. -/
theorem folders_form_forest_iff (parseUuid : String → Option Uuid)
    (conversations : List Conversation) (files : Table WorkspaceFile WorkspaceFile.id)
    (objects : ObjectStore Bytes) (calls : List FolderCall) (turns : List (Nat × List ObjectKey)) :
    ((∀ s ∈ trace (step parseUuid) (start conversations files objects calls) turns,
        s.shared.Forest) ∧
      Guarded (ParentsKept parseUuid) (step parseUuid) (start conversations files objects calls)
        turns) ↔
    Guarded Careful (step parseUuid) (start conversations files objects calls) turns := by
  let first := start conversations files objects calls
  have empty : first.shared.Forest :=
    forest_of_rooted (fun _ member => by cases member) fun id => rooted_of_root rfl
  have stays : (∀ s ∈ trace (step parseUuid) first turns, s.shared.Forest) ↔
      Guarded (fun (s : FolderSystem Bytes) turn => ∀ point ∈ s.calls[turn.1]?,
        s.shared.MovesApart point) (step parseUuid) first turns :=
    forall_trace_iff_guarded (I := fun _ => True) (fun _ _ _ => trivial)
      (fun s turn _ forest => forest_step_iff forest turn) trivial empty
  have keeps : Guarded (ParentsKept parseUuid) (step parseUuid) first turns ↔
      Guarded (fun (s : FolderSystem Bytes) turn => ∀ point ∈ s.calls[turn.1]?,
        s.shared.StaysInPlace point) (step parseUuid) first turns :=
    guarded_iff_of_guarded (I := fun _ => True) (fun _ _ _ _ => trivial)
      (fun s turn _ _ => parentsKept_iff s turn) trivial (guarded_true _ first turns)
  rw [stays, keeps, ← guarded_and]
  refine guarded_iff_of_guarded (I := fun _ => True) (fun _ _ _ _ => trivial)
    (fun s turn _ _ => ?_) trivial (guarded_true (step parseUuid) first turns)
  constructor
  · rintro ⟨apart, inPlace⟩ point here
    exact ⟨apart point here, inPlace point here⟩
  · intro careful
    exact ⟨fun point here => (careful point here).1, fun point here => (careful point here).2⟩

def ownRequest : LibraryRequest := ⟨1, 1, 1, true⟩

def ownConversations : List Conversation := [⟨1, 1, 1, "deepspace"⟩]

/-- `a` stands for folder 1, and every other text for folder 2. -/
def parseLetter (text : String) : Option Uuid := some (if text = "a" then 1 else 2)

/-- Folders `a` and `b`; both moves are checked before either of them is committed. -/
def crossedMoves : FolderSystem Unit × List (Nat × List ObjectKey) :=
  (start ownConversations .empty (fun _ => none)
    [.create ownRequest 1 "a" none, .create ownRequest 2 "b" none,
      .update ownRequest 1 ⟨none, some (some "b")⟩, .update ownRequest 2 ⟨none, some (some "a")⟩],
    [0, 0, 1, 1, 2, 3, 2, 3].map fun i => (i, []))

/-- Folder `b` is created in folder `a`, and its name is changed. -/
def renamedChild : FolderSystem Unit × List (Nat × List ObjectKey) :=
  (start ownConversations .empty (fun _ => none)
    [.create ownRequest 1 "a" none, .create ownRequest 2 "b" (some "a"),
      .update ownRequest 2 ⟨some "c", none⟩],
    [0, 0, 1, 1, 2, 2].map fun i => (i, []))

/-- Two crossed moves leave a cycle, and a change of name moves a folder to the root. -/
theorem crossed_moves_make_cycle :
    (¬ ∀ s ∈ trace (step parseLetter) crossedMoves.1 crossedMoves.2, s.shared.Forest) ∧
      ¬ Guarded (ParentsKept parseLetter) (step parseLetter) renamedChild.1 renamedChild.2 := by
  constructor
  · intro forests
    have forest := forests _ (run_mem_trace _ _ _)
    have back : climb (run (step parseLetter) crossedMoves.1 crossedMoves.2).shared.parentOf 2 1 =
        some 1 := by decide +kernel
    exact not_rooted_of_return back (rooted_all forest.rooted 1)
  · intro kept
    have last := ((guarded_append (step parseLetter) renamedChild.1
      ([0, 0, 1, 1, 2].map fun i => (i, [])) [(2, [])]).mp kept).2.1
    have here : (run (step parseLetter) renamedChild.1
        ([0, 0, 1, 1, 2].map fun i => (i, []))).calls[2]? =
        some (.updating ⟨2, 1, 1, 1, some 1, "b"⟩ ⟨some "c", none⟩ none) := by rfl
    exact (last _ here (2, ⟨some "c", none⟩) rfl 2 (by decide +kernel)).2 rfl

end FolderSystem

end AverQel.Library
