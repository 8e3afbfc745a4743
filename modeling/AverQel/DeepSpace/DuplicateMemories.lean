/- digest: The cleanup of duplicate memories: which rows it groups, keeps, rewrites and deletes. -/
import AverQel.DeepSpace.Memories
import AverQel.Foundation.Ranking
import AverQel.System.TextAdmission
import Mathlib.Data.String.Basic

namespace AverQel.DeepSpace.Duplicates

open Foundation
open Providers (Json Fields)
open AverQel.System (setField)

structure MemoryRow extends AgentMemory where
  importanceScore : ℚ
  tags : List String
  metadata : Fields

abbrev MemoryRows := Table MemoryRow fun row => row.id

structure MetadataTexts where
  ofId : Uuid → List Char
  isoformat : Time → List Char

variable (lib : TextLibrary) (texts : MetadataTexts) (t : MemoryRows) (tenantId userId : Uuid)
  (now : Time)

/-- `_dedupe_key` -/
def dedupeKey (row : MemoryRow) : String :=
  match Text.nonempty row.contentHash with
  | some contentHash => contentHash
  | none => lib.sha256
    ("\n".intercalate [lib.lower (Text.strip row.key), Text.strip row.value, row.scope.text])

/-- `list_all_memories` -/
def listAllMemories : List MemoryRow := t.rows.filter fun row =>
  row.tenantId = tenantId ∧ row.accessible userId none ∧ row.status ≠ .archived

/-- The rows that the cleanup reads: "session" and "global" ones of every user. -/
def cleanupRows : List MemoryRow := t.rows.filter fun row =>
  row.tenantId = tenantId ∧ (row.userId = userId ∨ row.scope = .session ∨ row.scope = .global)

def groupOf (rows : List MemoryRow) (row : MemoryRow) : List MemoryRow :=
  rows.filter fun other => dedupeKey lib other = dedupeKey lib row

def groups (rows : List MemoryRow) : List (List MemoryRow) :=
  (firstBy (dedupeKey lib) rows).map (groupOf lib rows)

def rank (row : MemoryRow) : Nat ×ₗ ℚ ×ₗ Nat ×ₗ Time ×ₗ Time :=
  toLex (row.scope.priority, toLex (row.importanceScore, toLex (row.accessCount,
    toLex (row.updatedAt, row.createdAt))))

def updateFields (fields more : Fields) : Fields :=
  more.foldl (fun fields entry => setField entry.1 entry.2 fields) fields

/-- What is written into the kept row of a group. -/
def merged (keeper : MemoryRow) (duplicates : List MemoryRow) : MemoryRow :=
  let tags := (duplicates.flatMap MemoryRow.tags ++ keeper.tags).filter fun tag => tag ≠ ""
  let combined := duplicates.foldl (fun fields row => updateFields fields row.metadata)
    keeper.metadata
  { keeper with
    tags := ascending (fun tag => tag) (firstBy (fun tag => tag) tags)
    metadata := updateFields combined
      [("duplicate_group_count", .number (toString (duplicates.length + 1))),
        ("duplicate_memory_ids", .array (duplicates.map fun row => .string (texts.ofId row.id))),
        ("deduped_at", .string (texts.isoformat now))]
    importanceScore := duplicates.foldl (fun score row => max score row.importanceScore)
      keeper.importanceScore
    updatedAt := now }

/-- The session and the counters of the loop. -/
structure Cleanup where
  deleted : List Uuid
  updated : List MemoryRow
  (duplicateGroups keptCount : Nat)

def Cleanup.start : Cleanup := ⟨[], [], 0, 0⟩

def Cleanup.touched (state : Cleanup) : List Uuid :=
  state.deleted ++ state.updated.map fun row => row.id

/-- One group of the loop. -/
def Cleanup.next (state : Cleanup) (group : List MemoryRow) : Cleanup :=
  if group.length < 2 then { state with keptCount := state.keptCount + group.length }
  else
    match descending rank group with
    | [] => state
    | keeper :: duplicates =>
      { deleted := state.deleted ++ duplicates.map fun row => row.id
        updated := state.updated ++ [merged texts now keeper duplicates]
        duplicateGroups := state.duplicateGroups + 1
        keptCount := state.keptCount + 1 }

def cleanup : Cleanup :=
  if listAllMemories t tenantId userId = [] then .start
  else (groups lib (cleanupRows t tenantId userId)).foldl (Cleanup.next texts now) .start

def Cleanup.written (state : Cleanup) (row : MemoryRow) : MemoryRow :=
  (state.updated.find? fun other => other.id = row.id).getD row

theorem Cleanup.id_written (state : Cleanup) (row : MemoryRow) :
    (state.written row).id = row.id := by
  rw [written]
  cases found : state.updated.find? fun other => other.id = row.id with
  | none => rfl
  | some other =>
    have hit : decide (other.id = row.id) = true := by simpa using List.find?_some found
    exact of_decide_eq_true hit

def Cleanup.commit (state : Cleanup) (t : MemoryRows) : MemoryRows :=
  if state.deleted = [] then t
  else
    (t.filter fun row => row.id ∉ state.deleted).mapRows state.written state.id_written

structure CleanupReport where
  (memoryCount duplicateGroups removedCount keptCount : Nat)

/-- `cleanup_duplicate_memories` -/
def cleanupDuplicateMemories : MemoryRows × CleanupReport :=
  let state := cleanup lib texts t tenantId userId now
  (state.commit t,
    if listAllMemories t tenantId userId = [] then ⟨0, 0, 0, 0⟩
    else ⟨(cleanupRows t tenantId userId).length, state.duplicateGroups, state.deleted.length,
      state.keptCount⟩)

/-- A memory that says for the user what the other one said. -/
structure Replaces (userId : Uuid) (a b : MemoryRow) : Prop where
  tenant : b.tenantId = a.tenantId
  active : b.status = .active
  accessible : b.accessible userId none = true
  key : b.key = a.key
  value : b.value = a.value
  scope : b.scope = a.scope

/-- The cleanup deletes and updates only memories of the user and global ones, and for every active
memory of the user an active one that says the same is there afterwards. -/
structure Harmless (lib : TextLibrary) (texts : MetadataTexts) (t : MemoryRows)
    (tenantId userId : Uuid) (now : Time) : Prop where
  own : ∀ row ∈ t.rows, row.id ∈ (cleanup lib texts t tenantId userId now).touched →
    row.userId = userId ∨ row.scope = .global
  kept : ∀ a ∈ t.rows, a.tenantId = tenantId → a.status = .active →
    a.accessible userId none = true →
      ∃ b ∈ (cleanupDuplicateMemories lib texts t tenantId userId now).1.rows, Replaces userId a b

/-- The memories with a common key are the user's or global, and some memory that says the same
comes first among those with its key. -/
structure Collapsible (lib : TextLibrary) (t : MemoryRows) (tenantId userId : Uuid) : Prop where
  own : ∀ a ∈ cleanupRows t tenantId userId, ∀ b ∈ cleanupRows t tenantId userId, a.id ≠ b.id →
    dedupeKey lib a = dedupeKey lib b → a.userId = userId ∨ a.scope = .global
  first : ∀ a ∈ t.rows, a.tenantId = tenantId → a.status = .active →
    a.accessible userId none = true → ∃ b ∈ t.rows, Replaces userId a b ∧
      maxBy rank (groupOf lib (cleanupRows t tenantId userId) b) = some b

variable {lib : TextLibrary} {texts : MetadataTexts} {t : MemoryRows} {tenantId userId : Uuid}
  {now : Time} {group : List MemoryRow}

theorem mem_cleanupRows {row : MemoryRow} : row ∈ cleanupRows t tenantId userId ↔
    row ∈ t.rows ∧ row.tenantId = tenantId ∧
      (row.userId = userId ∨ row.scope = .session ∨ row.scope = .global) := by
  rw [cleanupRows, List.mem_filter, decide_eq_true_iff]

theorem mem_groupOf {rows : List MemoryRow} {row other : MemoryRow} :
    other ∈ groupOf lib rows row ↔ other ∈ rows ∧ dedupeKey lib other = dedupeKey lib row := by
  rw [groupOf, List.mem_filter, decide_eq_true_iff]

def deletedFrom (group : List MemoryRow) : List MemoryRow := (descending rank group).tail

def updatedIn (texts : MetadataTexts) (now : Time) (group : List MemoryRow) : List MemoryRow :=
  match descending rank group with
  | keeper :: duplicate :: duplicates => [merged texts now keeper (duplicate :: duplicates)]
  | _ => []

theorem next_eq (texts : MetadataTexts) (now : Time) (state : Cleanup) (group : List MemoryRow) :
    (state.next texts now group).deleted =
        state.deleted ++ (deletedFrom group).map (fun row => row.id) ∧
      (state.next texts now group).updated = state.updated ++ updatedIn texts now group := by
  have same : (descending rank group).length = group.length := (perm_descending rank group).length_eq
  unfold Cleanup.next deletedFrom updatedIn
  cases sorted : descending rank group with
  | nil =>
    rw [sorted, List.length_nil] at same
    rw [if_pos (by omega)]
    exact ⟨(List.append_nil _).symm, (List.append_nil _).symm⟩
  | cons keeper rest =>
    rw [sorted, List.length_cons] at same
    cases rest with
    | nil =>
      rw [List.length_nil] at same
      rw [if_pos (by omega)]
      exact ⟨(List.append_nil _).symm, (List.append_nil _).symm⟩
    | cons =>
      rw [List.length_cons] at same
      rw [if_neg (by omega)]
      exact ⟨rfl, rfl⟩

theorem foldl_next (found : List (List MemoryRow)) (state : Cleanup) :
    (found.foldl (Cleanup.next texts now) state).deleted =
        state.deleted ++ (found.flatMap deletedFrom).map (fun row => row.id) ∧
      (found.foldl (Cleanup.next texts now) state).updated =
        state.updated ++ found.flatMap (updatedIn texts now) := by
  induction found generalizing state with
  | nil => exact ⟨(List.append_nil _).symm, (List.append_nil _).symm⟩
  | cons group found ih =>
    obtain ⟨deleted, updated⟩ := next_eq texts now state group
    rw [List.foldl_cons, (ih _).1, (ih _).2, deleted, updated, List.flatMap_cons, List.flatMap_cons,
      List.map_append, List.append_assoc, List.append_assoc]
    exact ⟨rfl, rfl⟩

theorem mem_deletedFrom (distinct : group.Nodup) {row : MemoryRow} :
    row ∈ deletedFrom group ↔ row ∈ group ∧ maxBy rank group ≠ some row := by
  have order := perm_descending rank group
  have first := head?_descending rank group
  rw [deletedFrom]
  cases sorted : descending rank group with
  | nil =>
    rw [sorted] at order
    rw [← order.nil_eq]
    exact iff_of_false List.not_mem_nil fun wrong => List.not_mem_nil wrong.1
  | cons =>
    rw [sorted] at order first
    have apart := (List.nodup_cons.mp (order.nodup_iff.mpr distinct)).1
    rw [← first, ← order.mem_iff, List.tail_cons, List.mem_cons, List.head?_cons]
    constructor
    · intro later
      refine ⟨.inr later, fun same => ?_⟩
      rw [Option.some.inj same] at apart
      exact apart later
    · rintro ⟨same | later, other⟩
      · exact absurd (congrArg some same.symm) other
      · exact later

theorem mem_touchedIn (texts : MetadataTexts) (now : Time) {id : Uuid} :
    id ∈ (deletedFrom group).map (fun row => row.id) ++
        (updatedIn texts now group).map (fun row => row.id) ↔
      2 ≤ group.length ∧ ∃ row ∈ group, row.id = id := by
  have order := perm_descending rank group
  have same := order.length_eq
  have rows : (∃ row ∈ group, row.id = id) ↔ id ∈ (descending rank group).map (fun row => row.id) :=
    List.mem_map.symm.trans (order.map _).mem_iff.symm
  rw [rows]
  unfold deletedFrom updatedIn
  cases sorted : descending rank group with
  | nil => exact iff_of_false List.not_mem_nil fun wrong => List.not_mem_nil wrong.2
  | cons keeper rest =>
    rw [sorted, List.length_cons] at same
    cases rest with
    | nil =>
      rw [List.length_nil] at same
      refine iff_of_false List.not_mem_nil fun wrong => ?_
      have several := wrong.1
      omega
    | cons =>
      rw [List.length_cons] at same
      have several : 2 ≤ group.length := by omega
      rw [List.tail_cons, List.mem_append, and_iff_right several, List.map_cons (a := keeper),
        List.mem_cons]
      exact or_comm.trans (or_congr_left List.mem_singleton)

theorem eq_merged_of_mem_updatedIn {row : MemoryRow} (member : row ∈ updatedIn texts now group) :
    deletedFrom group ≠ [] ∧
      ∃ keeper ∈ group, ∃ duplicates, row = merged texts now keeper duplicates := by
  have order := perm_descending rank group
  unfold deletedFrom
  unfold updatedIn at member
  cases sorted : descending rank group with
  | nil =>
    rw [sorted] at member
    cases member
  | cons keeper rest =>
    rw [sorted] at member order
    cases rest with
    | nil => cases member
    | cons =>
      exact ⟨List.cons_ne_nil _ _, keeper, order.mem_iff.mp List.mem_cons_self, _,
        List.mem_singleton.mp member⟩

variable {rows : List MemoryRow}

theorem groupOf_congr {a b : MemoryRow} (same : dedupeKey lib a = dedupeKey lib b) :
    groupOf lib rows a = groupOf lib rows b := by
  unfold groupOf
  rw [same]

theorem groupOf_mem_groups {row : MemoryRow} (member : row ∈ rows) :
    groupOf lib rows row ∈ groups lib rows := by
  obtain ⟨first, found, same⟩ := exists_mem_firstBy (dedupeKey lib) member
  exact List.mem_map.mpr ⟨first, found, groupOf_congr same⟩

theorem eq_groupOf {group : List MemoryRow} (found : group ∈ groups lib rows) {row : MemoryRow}
    (member : row ∈ group) : row ∈ rows ∧ group = groupOf lib rows row := by
  obtain ⟨first, _, rfl⟩ := List.mem_map.mp found
  obtain ⟨inside, same⟩ := mem_groupOf.mp member
  exact ⟨inside, groupOf_congr same.symm⟩

theorem two_le_length_groupOf {row : MemoryRow} (distinct : rows.Nodup) (member : row ∈ rows) :
    2 ≤ (groupOf lib rows row).length ↔
      ∃ other ∈ rows, other ≠ row ∧ dedupeKey lib other = dedupeKey lib row := by
  have inside : row ∈ groupOf lib rows row := mem_groupOf.mpr ⟨member, rfl⟩
  have apart : (groupOf lib rows row).Nodup := distinct.filter _
  constructor
  · intro several
    have known (other : MemoryRow) (together : other ∈ groupOf lib rows row)
        (different : other ≠ row) :
        ∃ other ∈ rows, other ≠ row ∧ dedupeKey lib other = dedupeKey lib row :=
      ⟨other, (mem_groupOf.mp together).1, different, (mem_groupOf.mp together).2⟩
    cases shape : groupOf lib rows row with
    | nil =>
      rw [shape] at inside
      cases inside
    | cons first rest =>
      cases rest with
      | nil =>
        rw [shape, List.length_singleton] at several
        omega
      | cons second =>
        rw [shape] at apart known
        by_cases here : first = row
        · refine known second (List.mem_cons_of_mem _ List.mem_cons_self) fun same => ?_
          rw [here, same] at apart
          exact (List.nodup_cons.mp apart).1 List.mem_cons_self
        · exact known first List.mem_cons_self here
  · rintro ⟨other, known, different, same⟩
    have together : other ∈ groupOf lib rows row := mem_groupOf.mpr ⟨known, same⟩
    have pair : [row, other].Subperm (groupOf lib rows row) := by
      refine List.Nodup.subperm (by simpa using different.symm) ?_
      intro a found
      rcases List.mem_pair.mp found with rfl | rfl
      · exact inside
      · exact together
    exact pair.length_le

theorem nodup_cleanupRows : (cleanupRows t tenantId userId).Nodup :=
  (List.Nodup.of_map _ t.keys_nodup).filter _

theorem cleanup_of_nil (nothing : listAllMemories t tenantId userId = []) :
    cleanup lib texts t tenantId userId now = .start :=
  if_pos nothing

theorem cleanup_of_ne_nil (something : listAllMemories t tenantId userId ≠ []) :
    (cleanup lib texts t tenantId userId now).deleted =
        ((groups lib (cleanupRows t tenantId userId)).flatMap deletedFrom).map (fun row => row.id) ∧
      (cleanup lib texts t tenantId userId now).updated =
        (groups lib (cleanupRows t tenantId userId)).flatMap (updatedIn texts now) := by
  rw [cleanup, if_neg something]
  exact foldl_next _ .start

theorem exists_group_iff {P : List MemoryRow → MemoryRow → Prop} {row : MemoryRow}
    (member : row ∈ t.rows) :
    (∃ group ∈ groups lib (cleanupRows t tenantId userId),
        ∃ other ∈ group, P group other ∧ other.id = row.id) ↔
      row ∈ cleanupRows t tenantId userId ∧
        P (groupOf lib (cleanupRows t tenantId userId) row) row := by
  constructor
  · rintro ⟨group, found, other, inside, holds, same⟩
    obtain ⟨known, rfl⟩ := eq_groupOf found inside
    obtain rfl := t.eq_of_key_eq (mem_cleanupRows.mp known).1 member same
    exact ⟨known, holds⟩
  · rintro ⟨known, holds⟩
    exact ⟨_, groupOf_mem_groups known, row, mem_groupOf.mpr ⟨known, rfl⟩, holds, rfl⟩

theorem id_mem_deleted (something : listAllMemories t tenantId userId ≠ []) {row : MemoryRow}
    (member : row ∈ t.rows) :
    row.id ∈ (cleanup lib texts t tenantId userId now).deleted ↔
      row ∈ cleanupRows t tenantId userId ∧
        maxBy rank (groupOf lib (cleanupRows t tenantId userId) row) ≠ some row := by
  rw [(cleanup_of_ne_nil something).1, List.mem_map,
    ← exists_group_iff (P := fun group other => maxBy rank group ≠ some other) member]
  constructor
  · rintro ⟨other, found, same⟩
    obtain ⟨group, known, inside⟩ := List.mem_flatMap.mp found
    obtain ⟨first, _, rfl⟩ := List.mem_map.mp known
    obtain ⟨together, last⟩ := (mem_deletedFrom (nodup_cleanupRows.filter _)).mp inside
    exact ⟨_, known, other, together, last, same⟩
  · rintro ⟨group, known, other, together, last, same⟩
    obtain ⟨first, _, rfl⟩ := List.mem_map.mp known
    have inside := (mem_deletedFrom (nodup_cleanupRows.filter _)).mpr ⟨together, last⟩
    exact ⟨other, List.mem_flatMap.mpr ⟨_, known, inside⟩, same⟩

theorem id_mem_touched (something : listAllMemories t tenantId userId ≠ []) {row : MemoryRow}
    (member : row ∈ t.rows) :
    row.id ∈ (cleanup lib texts t tenantId userId now).touched ↔
      row ∈ cleanupRows t tenantId userId ∧
        ∃ other ∈ cleanupRows t tenantId userId, other ≠ row ∧
          dedupeKey lib other = dedupeKey lib row := by
  have groupwise :
      row.id ∈ (cleanup lib texts t tenantId userId now).touched ↔
        ∃ group ∈ groups lib (cleanupRows t tenantId userId),
          ∃ other ∈ group, 2 ≤ group.length ∧ other.id = row.id := by
    rw [Cleanup.touched, (cleanup_of_ne_nil something).1, (cleanup_of_ne_nil something).2,
      List.map_flatMap, List.map_flatMap, List.mem_append, List.mem_flatMap, List.mem_flatMap]
    constructor
    · rintro (⟨group, known, inside⟩ | ⟨group, known, inside⟩)
      · obtain ⟨several, other, together, same⟩ := (mem_touchedIn texts now).mp
          (List.mem_append_left ((updatedIn texts now group).map fun row => row.id) inside)
        exact ⟨group, known, other, together, several, same⟩
      · obtain ⟨several, other, together, same⟩ := (mem_touchedIn texts now).mp
          (List.mem_append_right ((deletedFrom group).map fun row => row.id) inside)
        exact ⟨group, known, other, together, several, same⟩
    · rintro ⟨group, known, other, together, several, same⟩
      have inside := (mem_touchedIn texts now).mpr ⟨several, other, together, same⟩
      exact (List.mem_append.mp inside).imp (fun here => ⟨group, known, here⟩)
        (fun here => ⟨group, known, here⟩)
  rw [groupwise, exists_group_iff (P := fun group _ => 2 ≤ group.length) member]
  exact and_congr_right fun known => two_le_length_groupOf nodup_cleanupRows known

theorem written_kept {row : MemoryRow} (member : row ∈ t.rows) :
    ∃ tags metadata score time,
      (cleanup lib texts t tenantId userId now).written row =
        { row with tags := tags, metadata := metadata, importanceScore := score,
                   updatedAt := time } := by
  rw [Cleanup.written]
  cases found : (cleanup lib texts t tenantId userId now).updated.find?
      fun other => other.id = row.id with
  | none => exact ⟨row.tags, row.metadata, row.importanceScore, row.updatedAt, rfl⟩
  | some other =>
    have same : other.id = row.id := by simpa using List.find?_some found
    have changed := List.mem_of_find?_eq_some found
    have something : listAllMemories t tenantId userId ≠ [] := by
      intro nothing
      rw [cleanup_of_nil nothing] at changed
      cases changed
    rw [(cleanup_of_ne_nil something).2] at changed
    obtain ⟨group, known, inside⟩ := List.mem_flatMap.mp changed
    obtain ⟨_, keeper, together, duplicates, rfl⟩ := eq_merged_of_mem_updatedIn inside
    have stored := (mem_cleanupRows.mp (eq_groupOf known together).1).1
    rw [t.eq_of_key_eq stored member same]
    exact ⟨_, _, _, _, rfl⟩

theorem updated_of_deleted (none_ : (cleanup lib texts t tenantId userId now).deleted = []) :
    (cleanup lib texts t tenantId userId now).updated = [] := by
  by_cases nothing : listAllMemories t tenantId userId = []
  · rw [cleanup_of_nil nothing]
    rfl
  · rw [(cleanup_of_ne_nil nothing).1, List.map_eq_nil_iff, List.flatMap_eq_nil_iff] at none_
    rw [(cleanup_of_ne_nil nothing).2, List.flatMap_eq_nil_iff]
    intro group known
    refine List.eq_nil_iff_forall_not_mem.mpr fun row inside => ?_
    exact (eq_merged_of_mem_updatedIn inside).1 (none_ group known)

theorem mem_cleanupDuplicateMemories {row : MemoryRow} :
    row ∈ (cleanupDuplicateMemories lib texts t tenantId userId now).1.rows ↔
      ∃ a ∈ t.rows, a.id ∉ (cleanup lib texts t tenantId userId now).deleted ∧
        (cleanup lib texts t tenantId userId now).written a = row := by
  change row ∈ ((cleanup lib texts t tenantId userId now).commit t).rows ↔ _
  rw [Cleanup.commit]
  by_cases nothing : (cleanup lib texts t tenantId userId now).deleted = []
  · rw [if_pos nothing]
    have same (a : MemoryRow) : (cleanup lib texts t tenantId userId now).written a = a := by
      rw [Cleanup.written, updated_of_deleted nothing]
      rfl
    constructor
    · intro member
      refine ⟨row, member, ?_, same row⟩
      rw [nothing]
      exact List.not_mem_nil
    · rintro ⟨a, member, _, rfl⟩
      rw [same]
      exact member
  · rw [if_neg nothing, Table.mem_mapRows]
    constructor
    · rintro ⟨a, kept, rfl⟩
      obtain ⟨member, spared⟩ := Table.mem_filter.mp kept
      exact ⟨a, member, of_decide_eq_true spared, rfl⟩
    · rintro ⟨a, member, spared, rfl⟩
      exact ⟨a, Table.mem_filter.mpr ⟨member, decide_eq_true spared⟩, rfl⟩

variable {a b : MemoryRow}

theorem replaces_written (member : b ∈ t.rows) :
    Replaces userId a ((cleanup lib texts t tenantId userId now).written b) ↔
      Replaces userId a b := by
  obtain ⟨tags, metadata, score, time, same⟩ := written_kept member
  rw [same]
  exact ⟨fun ⟨tenant, active, accessible, key, value, scope⟩ =>
      ⟨tenant, active, accessible, key, value, scope⟩,
    fun ⟨tenant, active, accessible, key, value, scope⟩ =>
      ⟨tenant, active, accessible, key, value, scope⟩⟩

theorem own_or_shared (accessible : b.accessible userId none = true) :
    b.userId = userId ∨ b.scope = .session ∨ b.scope = .global := by
  rcases of_decide_eq_true accessible with ⟨own, _⟩ | shared
  · exact .inl own
  · exact .inr (.inr shared)

theorem spared_iff (something : listAllMemories t tenantId userId ≠ []) (member : b ∈ t.rows)
    (tenant : a.tenantId = tenantId) (replaces : Replaces userId a b) :
    b.id ∉ (cleanup lib texts t tenantId userId now).deleted ↔
      maxBy rank (groupOf lib (cleanupRows t tenantId userId) b) = some b := by
  have inside : b ∈ cleanupRows t tenantId userId :=
    mem_cleanupRows.mpr ⟨member, replaces.tenant.trans tenant, own_or_shared replaces.accessible⟩
  rw [id_mem_deleted something member, and_iff_right inside, not_not]

theorem harmless_of_nil (nothing : listAllMemories t tenantId userId = []) :
    Harmless lib texts t tenantId userId now := by
  refine ⟨?_, ?_⟩
  · intro row _ touched
    rw [cleanup_of_nil nothing] at touched
    cases touched
  · intro a member tenant active accessible
    have listed : a ∈ listAllMemories t tenantId userId := by
      refine List.mem_filter.mpr ⟨member, decide_eq_true ⟨tenant, accessible, ?_⟩⟩
      rw [active]
      exact MemoryStatus.noConfusion
    rw [nothing] at listed
    cases listed

theorem harmless_iff_of_ne_nil (something : listAllMemories t tenantId userId ≠ []) :
    Harmless lib texts t tenantId userId now ↔ Collapsible lib t tenantId userId := by
  constructor
  · rintro ⟨own, kept⟩
    refine ⟨?_, ?_⟩
    · intro a known b other apart same
      have member := (mem_cleanupRows.mp known).1
      refine own a member ((id_mem_touched something member).mpr ⟨known, b, other, ?_, same.symm⟩)
      rintro rfl
      exact apart rfl
    · intro a member tenant active accessible
      obtain ⟨row, left, replaces⟩ := kept a member tenant active accessible
      obtain ⟨b, stored, spared, rfl⟩ := mem_cleanupDuplicateMemories.mp left
      have same := (replaces_written stored).mp replaces
      exact ⟨b, stored, same, (spared_iff something stored tenant same).mp spared⟩
  · rintro ⟨own, first⟩
    refine ⟨?_, ?_⟩
    · intro a member touched
      obtain ⟨known, b, other, different, same⟩ := (id_mem_touched something member).mp touched
      refine own a known b other (fun equal => different ?_) same.symm
      exact t.eq_of_key_eq (mem_cleanupRows.mp other).1 member equal.symm
    · intro a member tenant active accessible
      obtain ⟨b, stored, replaces, leads⟩ := first a member tenant active accessible
      exact ⟨_, mem_cleanupDuplicateMemories.mpr ⟨b, stored,
        (spared_iff something stored tenant replaces).mpr leads, rfl⟩,
        (replaces_written stored).mpr replaces⟩

/-- When the cleanup of a user's duplicates takes nothing from anybody. -/
theorem cleanupDuplicateMemories_harmless_iff (lib : TextLibrary) (texts : MetadataTexts)
    (t : MemoryRows) (tenantId userId : Uuid) (now : Time) :
    Harmless lib texts t tenantId userId now ↔
      (listAllMemories t tenantId userId ≠ [] → Collapsible lib t tenantId userId) := by
  by_cases nothing : listAllMemories t tenantId userId = []
  · exact iff_of_true (harmless_of_nil nothing) fun something => absurd nothing something
  · rw [harmless_iff_of_ne_nil nothing]
    exact ⟨fun collapsible _ => collapsible, fun collapsible => collapsible nothing⟩

/-- "My editor is Helix." of a conversation of this user. -/
def editorRow (id userId : Uuid) : MemoryRow where
  id := id
  tenantId := 1
  userId := userId
  key := "fact_editor"
  value := "My editor is Helix."
  contentHash := none
  status := .active
  source := none
  conversationId := some "80"
  expiresAt := none
  accessCount := 0
  lastAccessedAt := none
  scope := .session
  createdAt := 0
  updatedAt := 0
  importanceScore := 1 / 2
  tags := []
  metadata := []

def twoUsers : MemoryRows := ⟨[editorRow 8001 2, editorRow 8002 3], by decide⟩

def plainTexts : MetadataTexts := ⟨fun id => (toString id).toList, fun time => (toString time).toList⟩

theorem touched_twoUsers :
    8002 ∈ (cleanup .plain plainTexts twoUsers 1 2 0).touched := by
  decide +kernel

/-- The cleanup of the one user deletes the memory of the other one. -/
theorem not_harmless_twoUsers : ¬Harmless .plain plainTexts twoUsers 1 2 0 := by
  intro harmless
  have member : editorRow 8002 3 ∈ twoUsers.rows := List.mem_cons_of_mem _ List.mem_cons_self
  rcases harmless.own _ member touched_twoUsers with own | shared
  · exact absurd own (by decide)
  · exact absurd shared (by decide)

end AverQel.DeepSpace.Duplicates
