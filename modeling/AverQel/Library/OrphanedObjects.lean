/- digest: The objects that only deleted rows refer to, and the deletions that leave none behind. -/
import AverQel.Library.Deletions

namespace AverQel.Library

open Foundation AverQel.System

variable {Bytes : Type}

namespace DeletionState

def Refers (state : DeletionState Bytes) (key : ObjectKey) : Prop :=
  (∃ file ∈ state.lib.files.rows, file.storageKey = some key) ∨
    (∃ v ∈ state.lib.versions.rows, v.storageKey = some key) ∨
      ∃ artifact ∈ state.media.rows, artifact.storageKey = key

def Strands (before after : DeletionState Bytes) (key : ObjectKey) : Prop :=
  (before.lib.objects key).isSome ∧ before.Refers key ∧ ¬ after.Refers key

def Queued (state : DeletionState Bytes) (key : ObjectKey) : Prop :=
  ∃ job ∈ state.jobs, job.objectKey = key ∧ job.status = "pending"

def Settled (state : DeletionState Bytes) (key : ObjectKey) : Prop :=
  state.lib.objects key = none ∨ state.Queued key

def NoOrphan (before after : DeletionState Bytes) : Prop :=
  ∀ key, Strands before after key → after.Settled key

variable (outcome : Nat → DeleteOutcome)

/-- The deletion deletes or queues every object that it strands. A conversation needs a call of the
store for the object that is not refused, the endpoint and the rolled back publication need a
successful call for the only object that they delete, and the tool must strand none. -/
def Careful (parseUuid : String → Option Uuid) (state : DeletionState Bytes) : DeletionCall → Prop
  | .conversation tenantId userId conversationId kind =>
    ∀ key, Strands state
        (state.withoutConversations (selects tenantId userId [conversationId] kind)) key →
      state.Queued key ∨
        ∃ n, (state.artifactKeys tenantId userId [conversationId])[n]? = some key ∧
          outcome n ≠ .refused
  | .conversations tenantId userId conversationIds kind =>
    ∀ key, Strands state
        (state.withoutConversations (selects tenantId userId conversationIds kind)) key →
      state.Queued key ∨
        ∃ n, (state.artifactKeys tenantId userId conversationIds)[n]? = some key ∧
          outcome n ≠ .refused
  | .file request fileId =>
    ∀ file ∈ (state.checkDeleteFile request fileId).toOption,
      (∀ error, file.storageKey = none ∨ outcome 0 ≠ .raised error) →
        ∀ key, Strands state (state.withoutFile file.id) key →
          state.Queued key ∨ (file.storageKey = some key ∧ outcome 0 = .deleted)
  | .toolFile request fileId =>
    ∀ file ∈ (state.checkToolDelete request parseUuid fileId).toOption,
      ∀ key, Strands state (state.withoutFile file.id) key → state.Queued key
  | .publication fileId cause =>
    ∀ record ∈ state.lib.files.find? fileId,
      ∀ key, Strands state (state.withoutFile fileId) key →
        state.Queued key ∨
          (record.storageKey = some key ∧ cause.withdraws = true ∧ outcome 0 = .deleted)

variable {outcome} {state : DeletionState Bytes}

variable {tenantId userId : Uuid}

theorem settled_withoutFile (fileId : Uuid) (key : ObjectKey) :
    (state.withoutFile fileId).Settled key ↔ state.Settled key := Iff.rfl

theorem delete_eq_none_iff (objects : ObjectStore Bytes) (key other : ObjectKey) :
    objects.delete other key = none ↔ key = other ∨ objects key = none := by
  by_cases same : key = other
  · rw [same]
    exact iff_of_true (Function.update_self _ _ _) (.inl rfl)
  · rw [ObjectStore.delete_of_ne objects same]
    exact (or_iff_right same).symm

theorem settled_cleanupKey (answer : DeleteOutcome) (key other : ObjectKey) :
    (state.cleanupKey tenantId userId answer other).Settled key ↔
      state.Settled key ∨ (key = other ∧ answer ≠ .refused) := by
  cases answer with
  | deleted =>
    show state.lib.objects.delete other key = none ∨ state.Queued key ↔ _
    rw [delete_eq_none_iff]
    simp [Settled, or_assoc, or_comm, or_left_comm]
  | refused =>
    show state.Settled key ↔ _
    simp
  | raised =>
    show state.lib.objects key = none ∨ (∃ job ∈ state.jobs ++ [_], _) ↔ _
    simp only [List.mem_append, List.mem_singleton, or_and_right, exists_or, exists_eq_left]
    simp [Settled, Queued, or_assoc, eq_comm]

theorem settled_cleanupKeys (n : Nat) (keys : List ObjectKey) (key : ObjectKey) :
    (cleanupKeys outcome tenantId userId n keys state).Settled key ↔
      state.Settled key ∨ ∃ i, keys[i]? = some key ∧ outcome (n + i) ≠ .refused := by
  induction keys generalizing n state with
  | nil => simp [cleanupKeys]
  | cons first rest ih =>
    rw [cleanupKeys, ih, settled_cleanupKey, or_assoc]
    refine or_congr_right ?_
    constructor
    · rintro (⟨rfl, answered⟩ | ⟨i, found, answered⟩)
      · exact ⟨0, rfl, answered⟩
      · refine ⟨i + 1, found, ?_⟩
        rwa [Nat.add_right_comm] at answered
    · rintro ⟨i, found, answered⟩
      cases i with
      | zero => exact .inl ⟨(Option.some.inj found).symm, answered⟩
      | succ i =>
        refine .inr ⟨i, found, ?_⟩
        rwa [Nat.add_right_comm]

theorem rows_cleanupKeys (n : Nat) (keys : List ObjectKey) :
    ∃ objects jobs, cleanupKeys outcome tenantId userId n keys state =
      { state.withObjects objects with jobs := jobs } := by
  induction keys generalizing n state with
  | nil => exact ⟨state.lib.objects, state.jobs, rfl⟩
  | cons first rest ih =>
    obtain ⟨objects, jobs, rows⟩ := @ih (state.cleanupKey tenantId userId (outcome n) first) (n + 1)
    rw [cleanupKeys, rows]
    cases answer : outcome n <;> exact ⟨objects, jobs, rfl⟩

theorem noOrphan_self (state : DeletionState Bytes) : NoOrphan state state :=
  fun _ strands => absurd strands.2.1 strands.2.2

theorem settled_iff_of_strands {after : DeletionState Bytes} {key : ObjectKey}
    (strands : Strands state after key) : state.Settled key ↔ state.Queued key := by
  refine or_iff_right fun gone => ?_
  have stored := strands.1
  rw [gone] at stored
  cases stored

variable {kind : String}

theorem noOrphan_deleteConversations_iff {conversationIds : List Uuid}
    (some_ : conversationIds ≠ []) :
    NoOrphan state
        (state.deleteConversations outcome tenantId userId conversationIds kind).1 ↔
      ∀ key, Strands state
          (state.withoutConversations (selects tenantId userId conversationIds kind)) key →
        state.Queued key ∨
          ∃ n, (state.artifactKeys tenantId userId conversationIds)[n]? = some key ∧
            outcome n ≠ .refused := by
  unfold deleteConversations cleanupConversationArtifacts
  rw [if_neg some_]
  refine forall_congr' fun key => ?_
  let keys := state.artifactKeys tenantId userId conversationIds
  have settled : (cleanupKeys outcome tenantId userId 0 keys state).Settled key ↔
      state.Settled key ∨ ∃ i, keys[i]? = some key ∧ outcome (0 + i) ≠ .refused :=
    settled_cleanupKeys 0 keys key
  obtain ⟨objects, jobs, rows⟩ : ∃ objects jobs,
      cleanupKeys outcome tenantId userId 0 keys state =
        { state.withObjects objects with jobs := jobs } := rows_cleanupKeys 0 keys
  rw [rows] at settled
  show (Strands state ((cleanupKeys outcome tenantId userId 0 keys state).withoutConversations _) key →
    ((cleanupKeys outcome tenantId userId 0 keys state).withoutConversations _).Settled key) ↔ _
  rw [rows]
  show (Strands state (state.withoutConversations _) key →
    ({ state.withObjects objects with jobs := jobs } : DeletionState Bytes).Settled key) ↔ _
  rw [settled]
  refine forall_congr' fun strands => ?_
  rw [settled_iff_of_strands strands]
  simp only [Nat.zero_add, keys]

theorem refers_of_none {key : ObjectKey} (refers : state.Refers key) :
    (state.withoutConversations (selects tenantId userId [] kind)).Refers key := by
  have nothing : ∀ c : Conversation, selects tenantId userId [] kind c = false := fun c =>
    decide_eq_false fun selected => List.not_mem_nil selected.2.1
  have ids : state.lib.conversations.filter (selects tenantId userId [] kind) = [] :=
    List.filter_eq_nil_iff.mpr fun c _ => by rw [nothing c]; exact Bool.false_ne_true
  unfold withoutConversations
  simp only [ids, List.map_nil, List.not_mem_nil, decide_false, List.filter_false, not_false_eq_true,
    and_self, decide_true]
  rcases refers with ⟨file, known, own⟩ | ⟨v, known, own⟩ | ⟨artifact, known, own⟩
  · exact .inl ⟨file, Table.mem_filter.mpr ⟨known, rfl⟩, own⟩
  · exact .inr (.inl ⟨v, Table.mem_filter.mpr ⟨known, rfl⟩, own⟩)
  · exact .inr (.inr ⟨artifact, Table.mem_filter.mpr ⟨known, rfl⟩, own⟩)

theorem noOrphan_bulkDeleteConversations_iff {conversationIds : List Uuid} :
    NoOrphan state
        (state.bulkDeleteConversations outcome tenantId userId conversationIds kind).1 ↔
      ∀ key, Strands state
          (state.withoutConversations (selects tenantId userId conversationIds kind)) key →
        state.Queued key ∨
          ∃ n, (state.artifactKeys tenantId userId conversationIds)[n]? = some key ∧
            outcome n ≠ .refused := by
  unfold bulkDeleteConversations
  split
  · rename_i empty
    rw [empty]
    exact iff_of_true (noOrphan_self state) fun key strands =>
      absurd (refers_of_none strands.2.1) strands.2.2
  · rename_i some_
    exact noOrphan_deleteConversations_iff some_

theorem settled_deleteObject (key own : ObjectKey) (answer : DeleteOutcome) :
    (state.withObjects (deleteObject state.lib.objects own false answer).1).Settled key ↔
      state.Settled key ∨ (key = own ∧ answer = .deleted) := by
  cases answer with
  | deleted =>
    show state.lib.objects.delete own key = none ∨ state.Queued key ↔ _
    rw [delete_eq_none_iff]
    simp [Settled, or_assoc, or_comm, or_left_comm]
  | refused | raised =>
    show state.Settled key ↔ _
    simp

theorem noOrphan_withoutFile_iff (fileId : Uuid) :
    NoOrphan state (state.withoutFile fileId) ↔
      ∀ key, Strands state (state.withoutFile fileId) key → state.Queued key := by
  refine forall_congr' fun key => forall_congr' fun strands => ?_
  rw [settled_withoutFile]
  exact settled_iff_of_strands strands

theorem noOrphan_deleteObject_iff (fileId : Uuid) (own : ObjectKey) (answer : DeleteOutcome) :
    NoOrphan state ((state.withObjects
        (deleteObject state.lib.objects own false answer).1).withoutFile fileId) ↔
      ∀ key, Strands state (state.withoutFile fileId) key →
        state.Queued key ∨ (some own = some key ∧ answer = .deleted) := by
  refine forall_congr' fun key => forall_congr' fun strands => ?_
  have strands : Strands state (state.withoutFile fileId) key := strands
  rw [settled_withoutFile, settled_deleteObject, settled_iff_of_strands strands, Option.some_inj,
    eq_comm]

theorem forall_toOption {ε α : Type} {a : α} {P : α → Prop} :
    (∀ b ∈ (Except.ok a : Except ε α).toOption, P b) ↔ P a :=
  ⟨fun all => all a rfl, fun holds b same => by cases same; exact holds⟩

theorem noOrphan_deleteWorkspaceFile_iff {request : LibraryRequest} {fileId : Uuid} :
    NoOrphan state (state.deleteWorkspaceFile outcome request fileId).state ↔
      ∀ file ∈ (state.checkDeleteFile request fileId).toOption,
        (∀ error, file.storageKey = none ∨ outcome 0 ≠ .raised error) →
          ∀ key, Strands state (state.withoutFile file.id) key →
            state.Queued key ∨ (file.storageKey = some key ∧ outcome 0 = .deleted) := by
  unfold deleteWorkspaceFile
  cases checked : state.checkDeleteFile request fileId with
  | error => exact iff_of_true (noOrphan_self state) fun file found => by cases found
  | ok file =>
    rw [forall_toOption]
    simp only
    cases stored : file.storageKey with
    | none =>
      rw [forall_prop_of_true fun _ => .inl rfl]
      refine (noOrphan_withoutFile_iff file.id).trans (forall_congr' fun key => ?_)
      refine forall_congr' fun _ => (or_iff_left ?_).symm
      rintro ⟨own, _⟩
      cases own
    | some own =>
      have result : NoOrphan state ((state.withObjects
          (deleteObject state.lib.objects own false (outcome 0)).1).withoutFile file.id) ↔ _ :=
        noOrphan_deleteObject_iff file.id own (outcome 0)
      cases answer : outcome 0 with
      | deleted | refused =>
        rw [forall_prop_of_true fun _ => .inr (fun raised => by cases raised)]
        rw [answer] at result
        exact result
      | raised error =>
        refine iff_of_true (noOrphan_self state) fun calm => ?_
        exact absurd rfl ((calm error).resolve_left (Option.some_ne_none own))

theorem noOrphan_rollBackPublication_iff {fileId : Uuid} {cause : RollbackCause} :
    NoOrphan state (state.rollBackPublication outcome fileId cause) ↔
      ∀ record ∈ state.lib.files.find? fileId,
        ∀ key, Strands state (state.withoutFile fileId) key →
          state.Queued key ∨
            (record.storageKey = some key ∧ cause.withdraws = true ∧ outcome 0 = .deleted) := by
  unfold rollBackPublication
  cases found : state.lib.files.find? fileId with
  | none => exact iff_of_true (noOrphan_self state) fun record absent => by cases absent
  | some record =>
    simp only [Option.mem_some_iff, forall_eq']
    cases stored : record.storageKey with
    | none =>
      refine (noOrphan_withoutFile_iff fileId).trans (forall_congr' fun key => ?_)
      refine forall_congr' fun _ => (or_iff_left ?_).symm
      rintro ⟨own, _⟩
      cases own
    | some own =>
      cases withdrawn : cause.withdraws with
      | true =>
        simp only [if_true, true_and]
        exact noOrphan_deleteObject_iff fileId own (outcome 0)
      | false =>
        simp only [Bool.false_eq_true, if_false, false_and, and_false, or_false]
        exact noOrphan_withoutFile_iff fileId

/-- A deletion leaves no orphaned object exactly when it deletes or queues all that it strands. -/
theorem deletion_leaves_no_orphan_iff (parseUuid : String → Option Uuid)
    (outcome : Nat → DeleteOutcome) (state : DeletionState Bytes) (call : DeletionCall) :
    NoOrphan state (state.delete parseUuid outcome call) ↔
      Careful outcome parseUuid state call := by
  cases call with
  | conversation tenantId userId conversationId =>
    exact noOrphan_deleteConversations_iff (List.cons_ne_nil conversationId [])
  | conversations =>
    exact noOrphan_bulkDeleteConversations_iff
  | file => exact noOrphan_deleteWorkspaceFile_iff
  | toolFile request fileId =>
    unfold delete toolDeleteWorkspaceFile Careful
    simp only
    cases checked : state.checkToolDelete request parseUuid fileId with
    | error => exact iff_of_true (noOrphan_self state) fun file absent => by cases absent
    | ok file =>
      rw [forall_toOption]
      exact noOrphan_withoutFile_iff file.id
  | publication => exact noOrphan_rollBackPublication_iff

def firstKey : ObjectKey := objectKey 1 7 "plan.pdf"
def secondKey : ObjectKey := objectKey 1 8 "plan.pdf"

/-- A binary file with two versions; both objects are stored. -/
def revisedFile : DeletionState Unit where
  lib := {
    conversations := [⟨1, 1, 1, "deepspace"⟩]
    folders := []
    files := .single ⟨1, 1, 1, 1, none, "plan.pdf", "application/pdf", "", "user", 1, some secondKey,
      some "d", 2, true⟩
    versions := ⟨[⟨1, 1, 1, 1, 1, "plan.pdf", "application/pdf", none, some firstKey, "c", 1⟩,
      ⟨1, 1, 1, 1, 2, "plan.pdf", "application/pdf", none, some secondKey, "d", 1⟩], by decide⟩
    objects := fun key => if key = firstKey ∨ key = secondKey then some () else none }
  media := .empty
  jobs := []

def ownRequest : LibraryRequest := ⟨1, 1, 1, true⟩

/-- A refused deletion queues no job, the endpoint forgets the first version, and the tool of the
agent deletes no object. -/
theorem deletions_leave_orphans :
    ¬ NoOrphan revisedFile (revisedFile.delete (fun _ => some 1) (fun _ => .refused)
        (.conversation 1 1 1 "deepspace")) ∧
      ¬ NoOrphan revisedFile (revisedFile.delete (fun _ => some 1) (fun _ => .deleted)
        (.file ownRequest 1)) ∧
      ¬ NoOrphan revisedFile (revisedFile.delete (fun _ => some 1) (fun _ => .deleted)
        (.toolFile ownRequest "1")) := by
  have unqueued : ∀ {after : DeletionState Unit}, after.jobs = [] →
      (after.lib.objects firstKey).isSome → ¬ after.Settled firstKey := by
    rintro after none_ stored (gone | ⟨job, member, _⟩)
    · rw [gone] at stored
      cases stored
    · rw [none_] at member
      cases member
  have unreferred : ∀ {after : DeletionState Unit}, after.lib.files.rows = [] →
      after.lib.versions.rows = [] → after.media.rows = [] → Strands revisedFile after firstKey := by
    intro after files versions media
    refine ⟨by decide, .inr (.inl ⟨_, List.mem_cons_self, rfl⟩), ?_⟩
    rintro (⟨_, member, _⟩ | ⟨_, member, _⟩ | ⟨_, member, _⟩)
    · rw [files] at member
      cases member
    · rw [versions] at member
      cases member
    · rw [media] at member
      cases member
  refine ⟨fun kept => ?_, fun kept => ?_, fun kept => ?_⟩ <;>
    exact unqueued (by rfl) (by decide +kernel) (kept firstKey (unreferred (by rfl) (by rfl) (by rfl)))

end DeletionState

end AverQel.Library
