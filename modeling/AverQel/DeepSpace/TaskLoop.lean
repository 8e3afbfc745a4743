/- digest: The task ledger of a conversation: plan replacement, marking and checking of tasks. -/
import AverQel.Foundation.DepthFirst
import AverQel.Foundation.Ranking
import AverQel.System.TextAdmission
import Mathlib.Data.Prod.Lex

namespace AverQel.DeepSpace

open Foundation
open Providers (Json Fields)
open AverQel.System (TaskText maxTasks jsonStrings lookup_setField plannedMetadata requestedIdMap
  setField)

inductive TaskStatus where
  | pending
  | inProgress
  | completed
  | blocked
  | failed
  | deleted
deriving DecidableEq, Repr

/-- `TASK_STATUSES` -/
def TaskStatus.known? (text : String) : Option TaskStatus :=
  if text = "pending" then some .pending
  else if text = "in_progress" then some .inProgress
  else if text = "completed" then some .completed
  else if text = "blocked" then some .blocked
  else if text = "failed" then some .failed
  else none

def TaskStatus.needsDependencies : TaskStatus → Bool
  | inProgress | completed => true
  | _ => false

/-- What `list(metadata.get(name) or [])` holds. -/
def metadataList (name : String) (metadata : Fields) : List String :=
  match metadata.lookup name with
  | some (.array items) => items.filterMap fun item =>
    match item with
    | .string text => some (String.ofList text)
    | _ => none
  | _ => []

structure AgentTodo extends TaskText where
  status : TaskStatus
  priority : Nat
  createdAt : Time

namespace AgentTodo

def dependencies (task : AgentTodo) : List String := metadataList "dependencies" task.metadata

def evidence (task : AgentTodo) : List String := metadataList "evidence" task.metadata

/-- The new status, and the evidence behind what the task has, ten items at most. -/
def mark (status : TaskStatus) (evidence : String) (task : AgentTodo) : AgentTodo :=
  let items := task.evidence ++ [Text.truncate 1000 (Text.strip evidence)]
  { task with
    status := status
    metadata :=
      if Text.strip evidence = "" then task.metadata
      else setField "evidence" (jsonStrings (items.drop (items.length - 10))) task.metadata }

@[simp] theorem mark_id (status : TaskStatus) (evidence : String) (task : AgentTodo) :
    (task.mark status evidence).id = task.id := by
  simp only [mark]

end AgentTodo

/-- One task of a `replace_tasks` call. -/
structure TaskRequest extends System.PlannedTask where
  status : String

namespace TaskRequest

def storedStatus (raw : TaskRequest) : TaskStatus := (TaskStatus.known? raw.status).getD .pending

def checkedId (raw : TaskRequest) : String := Text.strip raw.id

def checkedDependencies (raw : TaskRequest) : List String :=
  (raw.dependencies.map Text.strip).filter fun item => item ≠ ""

def keptDependencies (raw : TaskRequest) : List String :=
  (raw.dependencies.filter fun item => Text.strip item ≠ "").take maxTasks

/-- Write the request into a row, at its position in the plan. -/
def write (resolve : String → Option String) (raw : TaskRequest) (index : Nat) (task : AgentTodo) :
    AgentTodo :=
  { task with
    content := System.PlannedTask.bounded raw.content
    activeForm := raw.storedActiveForm
    metadata := plannedMetadata resolve raw.toPlannedTask task.metadata
    status := raw.storedStatus
    priority := index + 1 }

@[simp] theorem write_id (resolve : String → Option String) (raw : TaskRequest) (index : Nat)
    (task : AgentTodo) : (raw.write resolve index task).id = task.id := by
  simp only [write]

def blankRow (id : String) (now : Time) : AgentTodo := ⟨⟨id, "", "", []⟩, .pending, 0, now⟩

end TaskRequest

/-- The `ValueError`s of the ledger, with the tasks they name; `conflict` is a new id that is
taken. -/
inductive LedgerError where
  | tooManyTasks
  | needsId (position : Nat)
  | needsSuccessCriteria (taskId : String)
  | needsVerification (taskId : String)
  | repeatedId
  | unknownDependencies (taskId : String) (unknown : List String)
  | selfDependency (taskId : String)
  | cycle
  | duplicatedId
  | capacity
  | emptyTask
  | conflict
  | invalidStatus
  | taskNotFound
  | incompleteDependencies (incomplete : List String)
  | evidenceRequired
deriving DecidableEq, Repr

/-- What a task of a longer plan lacks. -/
def shapeError (entry : TaskRequest × Nat) : Option LedgerError :=
  let raw := entry.1
  if raw.checkedId = "" then some (.needsId (entry.2 + 1))
  else if Text.strip (raw.successCriteria.getD "") = "" then
    some (.needsSuccessCriteria raw.checkedId)
  else if Text.strip (raw.verification.getD "") = "" then some (.needsVerification raw.checkedId)
  else none

def linkError (known : List String) (raw : TaskRequest) : Option LedgerError :=
  let unknown := raw.checkedDependencies.filter fun item => item ∉ known
  if unknown ≠ [] then some (.unknownDependencies raw.checkedId (unknown.take 5))
  else if raw.checkedId ∈ raw.checkedDependencies then some (.selfDependency raw.checkedId)
  else none

/-- `dependencies_by_task`: the dependencies of a task inside its plan. -/
def dependenciesByTask (plan : List TaskRequest) (taskId : String) : List String :=
  ((plan.find? fun raw => raw.checkedId = taskId).elim [] TaskRequest.checkedDependencies).filter
    fun item => item ∈ plan.map TaskRequest.checkedId

/-- `_validate_plan_shape`: a plan of one task is not checked. -/
def validatePlanShape (existingIds : List String) (plan : List TaskRequest) :
    Except LedgerError Unit :=
  let requestedIds := plan.map TaskRequest.checkedId
  if plan.length ≤ 1 then .ok ()
  else
    match plan.zipIdx.findSome? shapeError with
    | some error => .error error
    | none =>
      if ¬ requestedIds.Nodup then .error .repeatedId
      else
        match plan.findSome? (linkError (requestedIds ++ existingIds)) with
        | some error => .error error
        | none =>
          if (DepthFirst.visitAll (dependenciesByTask plan) requestedIds).isSome then .ok ()
          else .error .cycle

theorem dependenciesByTask_closed (plan : List TaskRequest) :
    ∀ a ∈ plan.map TaskRequest.checkedId, ∀ b ∈ dependenciesByTask plan a,
      b ∈ plan.map TaskRequest.checkedId := by
  intro a _ b edge
  exact of_decide_eq_true (List.mem_filter.mp edge).2

theorem validatePlanShape_eq_ok_iff {existingIds : List String} {plan : List TaskRequest}
    (longer : 1 < plan.length) : validatePlanShape existingIds plan = .ok () ↔
      (∀ entry ∈ plan.zipIdx, shapeError entry = none) ∧
        (plan.map TaskRequest.checkedId).Nodup ∧
        (∀ raw ∈ plan, linkError (plan.map TaskRequest.checkedId ++ existingIds) raw = none) ∧
        DepthFirst.Acyclic (dependenciesByTask plan) (plan.map TaskRequest.checkedId) := by
  rw [← DepthFirst.visitAll_isSome_iff (dependenciesByTask_closed plan)]
  simp only [validatePlanShape, if_neg (Nat.not_le.mpr longer)]
  cases shape : plan.zipIdx.findSome? shapeError with
  | some =>
    obtain ⟨entry, member, found⟩ := List.exists_of_findSome?_eq_some shape
    refine ⟨fun accepted => (by cases accepted), ?_⟩
    rintro ⟨complete, _⟩
    rw [complete entry member] at found
    cases found
  | none =>
    have complete := List.findSome?_eq_none_iff.mp shape
    by_cases apart : (plan.map TaskRequest.checkedId).Nodup
    · simp only [apart, not_true_eq_false, if_false]
      cases links : plan.findSome? (linkError (plan.map TaskRequest.checkedId ++ existingIds)) with
      | some =>
        obtain ⟨raw, member, found⟩ := List.exists_of_findSome?_eq_some links
        refine ⟨fun accepted => (by cases accepted), ?_⟩
        rintro ⟨_, _, linked, _⟩
        rw [linked raw member] at found
        cases found
      | none =>
        have linked := List.findSome?_eq_none_iff.mp links
        split_ifs with acyclic
        · exact ⟨fun _ => ⟨complete, trivial, linked, acyclic⟩, fun _ => rfl⟩
        · exact ⟨fun accepted => (by cases accepted),
            fun visited => absurd visited.2.2.2 acyclic⟩
    · simp [apart]

structure TaskLedger where
  tasks : Table AgentTodo fun task => task.id

/-- What `check_tasks` answers. -/
structure TaskCheck where
  complete : Bool
  (taskCount completedCount remainingCount blockedCount : Nat)
  dependencyIssues : List (String × List String)
  tasks : List AgentTodo

namespace TaskLedger

def empty : TaskLedger := ⟨Table.empty⟩

variable (s : TaskLedger)

/-- `_tasks`: the tasks that are not deleted, in plan order. -/
def listed : List AgentTodo :=
  ascending (fun task => toLex (task.priority, task.createdAt))
    (s.tasks.rows.filter fun task => task.status ≠ .deleted)

def task? (taskId : String) : Option AgentTodo := s.listed.find? fun task => task.id = taskId

def isCompleted (taskId : String) : Bool :=
  (s.task? taskId).any fun task => task.status = .completed

def incomplete (task : AgentTodo) : List String :=
  task.dependencies.filter fun dependency => !s.isCompleted dependency

variable (newIds : Nat → String) (plan : List TaskRequest)

/-- `requested_id_map` -/
def resolve : String → Option String :=
  requestedIdMap (s.listed.map AgentTodo.toTaskText) newIds (plan.map TaskRequest.toPlannedTask)

def updated? (raw : TaskRequest) : Option AgentTodo :=
  if raw.requestedId = "" then none else s.task? raw.requestedId

def replacedRow (row : AgentTodo) : AgentTodo :=
  if row.status = .deleted then row
  else
    match plan.zipIdx.find? fun entry => entry.1.requestedId = row.id ∧ row.id ≠ "" with
    | some entry => entry.1.write (s.resolve newIds plan) entry.2 row
    | none => { row with status := .deleted }

theorem replacedRow_id (row : AgentTodo) : (s.replacedRow newIds plan row).id = row.id := by
  simp only [replacedRow]
  split_ifs
  · rfl
  · split <;> simp

def addedRows (now : Time) : List AgentTodo :=
  (plan.zipIdx.filter fun entry => (s.updated? entry.1).isNone).map fun entry =>
    entry.1.write (s.resolve newIds plan) entry.2 (TaskRequest.blankRow (newIds entry.2) now)

/-- `replace_tasks`; `fits` is the answer of the storage quota, and `newIds` are the UUIDs made
for the requests. -/
def replaceTasks (fits : Bool) (now : Time) : Except LedgerError TaskLedger :=
  if maxTasks < plan.length then .error .tooManyTasks
  else
    match validatePlanShape (s.listed.map fun task => task.id) plan with
    | .error error => .error error
    | .ok () =>
      if ¬ ((plan.map fun raw => raw.requestedId).filter fun id => id ≠ "").Nodup then
        .error .duplicatedId
      else if !fits then .error .capacity
      else if plan.any fun raw => System.PlannedTask.bounded raw.content = "" then .error .emptyTask
      else
        match (s.addedRows newIds plan now).foldlM Table.insert?
          (s.tasks.mapRows (s.replacedRow newIds plan) (s.replacedRow_id newIds plan)) with
        | none => .error .conflict
        | some tasks => .ok ⟨tasks⟩

/-- `mark_task`; a missing evidence is empty. -/
def markTask (taskId status evidence : String) : Except LedgerError TaskLedger :=
  match TaskStatus.known? status with
  | none => .error .invalidStatus
  | some status =>
    match s.task? taskId with
    | none => .error .taskNotFound
    | some task =>
      if status.needsDependencies ∧ s.incomplete task ≠ [] then
        .error (.incompleteDependencies ((s.incomplete task).take 5))
      else if status = .completed ∧ evidence = "" ∧ task.evidence = [] then
        .error .evidenceRequired
      else
        .ok ⟨s.tasks.modify taskId (AgentTodo.mark status evidence)
          (AgentTodo.mark_id status evidence)⟩

/-- `check_tasks` -/
def checkTasks : TaskCheck where
  complete := !s.listed.isEmpty &&
    (s.listed.countP fun task => task.status = .completed) == s.listed.length
  taskCount := s.listed.length
  completedCount := s.listed.countP fun task => task.status = .completed
  remainingCount := s.listed.countP fun task => task.status ≠ .completed
  blockedCount := s.listed.countP fun task => task.status = .blocked ∨ task.status = .failed
  dependencyIssues :=
    (s.listed.map fun task => (task.id, s.incomplete task)).filter fun issue => issue.2 ≠ []
  tasks := s.listed

end TaskLedger

inductive LedgerCall where
  | replaceTasks (newIds : Nat → String) (plan : List TaskRequest) (fits : Bool) (now : Time)
  | markTask (taskId status evidence : String)

namespace TaskLedger

def call (s : TaskLedger) : LedgerCall → Except LedgerError TaskLedger
  | .replaceTasks newIds plan fits now => s.replaceTasks newIds plan fits now
  | .markTask taskId status evidence => s.markTask taskId status evidence

def step (s : TaskLedger) (call : LedgerCall) : TaskLedger := (s.call call).toOption.getD s

end TaskLedger

theorem metadataList_setField (name other : String) (value : Json) (metadata : Fields)
    (apart : other ≠ name) :
    metadataList other (setField name value metadata) = metadataList other metadata := by
  simp only [metadataList, lookup_setField, if_neg apart]

theorem metadataList_jsonStrings (name : String) (texts : List String) (metadata : Fields) :
    metadataList name (setField name (jsonStrings texts) metadata) = texts := by
  simp [metadataList, lookup_setField, jsonStrings, List.filterMap_map]

variable (resolve : String → Option String) (raw : TaskRequest) (index : Nat) (task : AgentTodo)

theorem TaskRequest.write_dependencies : (raw.write resolve index task).dependencies =
    raw.keptDependencies.map fun item => (resolve item).getD item := by
  simp only [TaskRequest.write, AgentTodo.dependencies, plannedMetadata, keptDependencies]
  cases raw.evidence <;> cases raw.verification <;> cases raw.successCriteria <;>
    simp [metadataList_setField, metadataList_jsonStrings, List.map_take]

theorem TaskRequest.write_evidence : (raw.write resolve index task).evidence =
    raw.evidence.elim task.evidence fun items => (items.take 10).map (Text.truncate 1000) := by
  simp only [TaskRequest.write, AgentTodo.evidence, plannedMetadata]
  cases raw.evidence <;> cases raw.verification <;> cases raw.successCriteria <;>
    simp [metadataList_setField, metadataList_jsonStrings]

variable (status : TaskStatus) (evidence : String)

@[simp] theorem AgentTodo.mark_dependencies :
    (task.mark status evidence).dependencies = task.dependencies := by
  simp only [AgentTodo.mark, AgentTodo.dependencies]
  split_ifs
  · rfl
  · exact metadataList_setField _ _ _ _ (by decide)

theorem AgentTodo.mark_evidence_ne_nil : (task.mark status evidence).evidence ≠ [] ↔
    Text.strip evidence ≠ "" ∨ task.evidence ≠ [] := by
  simp only [AgentTodo.mark, AgentTodo.evidence]
  by_cases blank : Text.strip evidence = ""
  · simp [blank]
  · simp only [if_neg blank, metadataList_jsonStrings]
    simp only [ne_eq, blank, not_false_eq_true, true_or, iff_true, List.drop_eq_nil_iff,
      List.length_append, List.length_singleton]
    omega

namespace TaskLedger

variable {s : TaskLedger} {task other : AgentTodo} {taskId : String}

theorem mem_listed : task ∈ s.listed ↔ task ∈ s.tasks.rows ∧ task.status ≠ .deleted := by
  simp [listed]

theorem eq_of_listed (member : task ∈ s.listed) (member' : other ∈ s.listed)
    (same : task.id = other.id) : task = other :=
  s.tasks.eq_of_key_eq (mem_listed.mp member).1 (mem_listed.mp member').1 same

theorem task?_eq_some_iff : s.task? taskId = some task ↔ task ∈ s.listed ∧ task.id = taskId := by
  constructor
  · intro found
    exact ⟨List.mem_of_find?_eq_some found, by simpa using List.find?_some found⟩
  · rintro ⟨member, rfl⟩
    cases found : s.task? task.id with
    | none =>
      have missing := List.find?_eq_none.mp found task member
      simp at missing
    | some row =>
      have same : row.id = task.id := by simpa using List.find?_some found
      rw [eq_of_listed (List.mem_of_find?_eq_some found) member same]

theorem isCompleted_iff :
    s.isCompleted taskId ↔ ∃ task ∈ s.listed, task.id = taskId ∧ task.status = .completed := by
  simp only [isCompleted, Option.any_eq_true, task?_eq_some_iff, decide_eq_true_eq, and_assoc]

theorem incomplete_eq_nil_iff :
    s.incomplete task = [] ↔ ∀ dependency ∈ task.dependencies, s.isCompleted dependency := by
  simp [incomplete]

variable {s' : TaskLedger} {newIds : Nat → String} {plan : List TaskRequest} {fits : Bool}
  {now : Time}

def written (s : TaskLedger) (newIds : Nat → String) (plan : List TaskRequest) (now : Time)
    (entry : TaskRequest × Nat) : AgentTodo :=
  entry.1.write (s.resolve newIds plan) entry.2
    ((s.updated? entry.1).getD (TaskRequest.blankRow (newIds entry.2) now))

def Apart (plan : List TaskRequest) : Prop :=
  ((plan.map fun raw => raw.requestedId).filter fun id => id ≠ "").Nodup

theorem entry_unique (apart : Apart plan) {entry entry' : TaskRequest × Nat}
    (member : entry ∈ plan.zipIdx) (member' : entry' ∈ plan.zipIdx)
    (same : entry.1.requestedId = entry'.1.requestedId) (given : entry.1.requestedId ≠ "") :
    entry = entry' := by
  have mapped : ((plan.map fun raw => raw.requestedId).filter fun id => id ≠ "") =
      (plan.zipIdx.filter fun entry => entry.1.requestedId ≠ "").map
        fun entry => entry.1.requestedId := by
    conv_lhs => rw [← List.zipIdx_map_fst 0 plan]
    rw [List.map_map, List.filter_map]
    rfl
  rw [Apart, mapped] at apart
  have given' : entry'.1.requestedId ≠ "" := by
    rw [← same]
    exact given
  exact List.inj_on_of_nodup_map apart (List.mem_filter.mpr ⟨member, by simpa using given⟩)
    (List.mem_filter.mpr ⟨member', by simpa using given'⟩) same

/-- What a plan that is accepted has passed, and the rows it leaves. -/
structure Replaced (s : TaskLedger) (newIds : Nat → String) (plan : List TaskRequest) (now : Time)
    (s' : TaskLedger) : Prop where
  shape : validatePlanShape (s.listed.map fun task => task.id) plan = .ok ()
  apart : Apart plan
  rows : s'.tasks.rows =
    s.tasks.rows.map (s.replacedRow newIds plan) ++ s.addedRows newIds plan now

theorem replaced_of_replaceTasks (done : s.replaceTasks newIds plan fits now = .ok s') :
    Replaced s newIds plan now s' := by
  simp only [replaceTasks] at done
  by_cases tooMany : maxTasks < plan.length
  · simp [tooMany] at done
  rw [if_neg tooMany] at done
  cases shape : validatePlanShape (s.listed.map fun task => task.id) plan with
  | error => simp [shape] at done
  | ok =>
    simp only [shape] at done
    split_ifs at done with apart _ _
    cases inserted : (s.addedRows newIds plan now).foldlM Table.insert?
        (s.tasks.mapRows (s.replacedRow newIds plan) (s.replacedRow_id newIds plan)) with
    | none => simp [inserted] at done
    | some tasks =>
      rw [inserted] at done
      obtain rfl := Except.ok.inj done
      exact ⟨shape, apart, Table.rows_of_foldlM_insert? inserted⟩

theorem updated?_eq_some_iff {raw : TaskRequest} {task : AgentTodo} :
    s.updated? raw = some task ↔
      raw.requestedId ≠ "" ∧ task ∈ s.listed ∧ task.id = raw.requestedId := by
  rw [updated?]
  split_ifs with missing
  · simp [missing]
  · simp [task?_eq_some_iff, missing]

theorem storedStatus_ne_deleted (raw : TaskRequest) : raw.storedStatus ≠ .deleted := by
  simp only [TaskRequest.storedStatus, TaskStatus.known?]
  split_ifs <;> simp

theorem mem_listed_of_replaced (replaced : Replaced s newIds plan now s') {task : AgentTodo} :
    task ∈ s'.listed ↔ ∃ entry ∈ plan.zipIdx, s.written newIds plan now entry = task := by
  rw [mem_listed, replaced.rows, List.mem_append]
  constructor
  · rintro ⟨old | new, live⟩
    · obtain ⟨row, member, rfl⟩ := List.mem_map.mp old
      simp only [replacedRow] at live ⊢
      split_ifs at live ⊢ with gone
      · exact absurd gone live
      · cases found : plan.zipIdx.find?
            fun entry => entry.1.requestedId = row.id ∧ row.id ≠ "" with
        | none =>
          simp only [found] at live
          exact absurd rfl live
        | some entry =>
          have here : entry.1.requestedId = row.id ∧ row.id ≠ "" := by
            simpa using List.find?_some found
          have base : s.updated? entry.1 = some row := updated?_eq_some_iff.mpr
            ⟨here.1 ▸ here.2, mem_listed.mpr ⟨member, gone⟩, here.1.symm⟩
          exact ⟨entry, List.mem_of_find?_eq_some found, by rw [written, base, Option.getD_some]⟩
    · obtain ⟨entry, member, rfl⟩ := List.mem_map.mp new
      obtain ⟨here, none_⟩ := List.mem_filter.mp member
      exact ⟨entry, here, by rw [written, Option.isNone_iff_eq_none.mp none_, Option.getD_none]⟩
  · rintro ⟨entry, member, rfl⟩
    refine ⟨?_, storedStatus_ne_deleted entry.1⟩
    cases base : s.updated? entry.1 with
    | none =>
      right
      refine List.mem_map.mpr ⟨entry, List.mem_filter.mpr ⟨member, by simp [base]⟩, ?_⟩
      rw [written, base, Option.getD_none]
    | some row =>
      left
      obtain ⟨given, listed, same⟩ := updated?_eq_some_iff.mp base
      obtain ⟨stored, live⟩ := mem_listed.mp listed
      refine List.mem_map.mpr ⟨row, stored, ?_⟩
      simp only [replacedRow, if_neg live]
      cases found : plan.zipIdx.find?
          fun entry => entry.1.requestedId = row.id ∧ row.id ≠ "" with
      | none =>
        have missing := List.find?_eq_none.mp found entry member
        simp [same, given] at missing
      | some entry' =>
        have here : entry'.1.requestedId = row.id ∧ row.id ≠ "" := by
          simpa using List.find?_some found
        have unique := entry_unique replaced.apart member (List.mem_of_find?_eq_some found)
          (same.symm.trans here.1.symm) given
        subst unique
        rw [written, base, Option.getD_some]

theorem resolve_requestedId (apart : Apart plan) {raw : TaskRequest} {index : Nat}
    (member : (raw, index) ∈ plan.zipIdx) (given : raw.requestedId ≠ "") :
    s.resolve newIds plan raw.requestedId = some (s.written newIds plan now (raw, index)).id := by
  have first : (plan.zipIdx.find? fun other =>
      other.1.requestedId = raw.requestedId ∧ raw.requestedId ≠ "") = some (raw, index) := by
    cases found : plan.zipIdx.find? fun other =>
        other.1.requestedId = raw.requestedId ∧ raw.requestedId ≠ "" with
    | none =>
      have missing := List.find?_eq_none.mp found (raw, index) member
      simp [given] at missing
    | some other =>
      have hit : other.1.requestedId = raw.requestedId ∧ raw.requestedId ≠ "" := by
        simpa using List.find?_some found
      rw [entry_unique apart member (List.mem_of_find?_eq_some found) hit.1.symm given]
  simp only [resolve, requestedIdMap, List.zipIdx_map, List.find?_map, Function.comp_def,
    Prod.map_fst, first, Option.map_some, Prod.map_snd, id, List.any_map]
  congr 1
  rw [written, TaskRequest.write_id]
  cases base : s.updated? raw with
  | none =>
    have unlisted : ¬ s.listed.any fun task => task.id = raw.requestedId := by
      intro listed
      obtain ⟨task, here, same⟩ := List.any_eq_true.mp listed
      have found := updated?_eq_some_iff.mpr ⟨given, here, by simpa using same⟩
      rw [base] at found
      cases found
    rw [if_neg unlisted]
    rfl
  | some row =>
    obtain ⟨_, here, same⟩ := updated?_eq_some_iff.mp base
    have listed : s.listed.any fun task => task.id = raw.requestedId :=
      List.any_eq_true.mpr ⟨row, here, by simpa using same⟩
    rw [if_pos listed, Option.getD_some, same]

theorem written_id_injective (replaced : Replaced s newIds plan now s')
    {entry entry' : TaskRequest × Nat} (member : entry ∈ plan.zipIdx)
    (member' : entry' ∈ plan.zipIdx)
    (same : (s.written newIds plan now entry).id = (s.written newIds plan now entry').id) :
    entry = entry' := by
  have here := (mem_listed_of_replaced replaced).mpr ⟨entry, member, rfl⟩
  have here' := (mem_listed_of_replaced replaced).mpr ⟨entry', member', rfl⟩
  have rows := eq_of_listed here here' same
  have places : (s.written newIds plan now entry).priority =
      (s.written newIds plan now entry').priority := congrArg AgentTodo.priority rows
  have index : entry.2 = entry'.2 := by
    simp only [written, TaskRequest.write] at places
    omega
  rw [List.mem_zipIdx_iff_getElem?] at member member'
  rw [index, member'] at member
  exact Prod.ext (Option.some.inj member).symm index

variable {s s' : TaskLedger} {taskId status evidence : String}

theorem markTask_eq_ok (done : s.markTask taskId status evidence = .ok s') :
    ∃ known task, TaskStatus.known? status = some known ∧ task ∈ s.listed ∧ task.id = taskId ∧
      (known.needsDependencies → s.incomplete task = []) ∧
      (known = .completed → evidence ≠ "" ∨ task.evidence ≠ []) ∧
      s'.tasks = s.tasks.modify taskId (AgentTodo.mark known evidence)
        (AgentTodo.mark_id known evidence) := by
  simp only [markTask] at done
  cases known : TaskStatus.known? status with
  | none => simp [known] at done
  | some new =>
    cases found : s.task? taskId with
    | none => simp [known, found] at done
    | some task =>
      simp only [known, found] at done
      split_ifs at done with waits lacks
      obtain ⟨member, same⟩ := task?_eq_some_iff.mp found
      obtain rfl := Except.ok.inj done
      refine ⟨new, task, rfl, member, same, ?_, ?_, rfl⟩
      · intro needs
        by_contra some_
        exact waits ⟨needs, some_⟩
      · intro completes
        by_contra none_
        push Not at none_
        exact lacks ⟨completes, none_.1, none_.2⟩

theorem known_ne_deleted {text : String} {known : TaskStatus}
    (parsed : TaskStatus.known? text = some known) : known ≠ .deleted := by
  simp only [TaskStatus.known?] at parsed
  split_ifs at parsed <;> obtain rfl := Option.some.inj parsed <;> decide

theorem mem_listed_of_mark {known : TaskStatus} (live : known ≠ .deleted) {row : AgentTodo}
    (here : row ∈ s.listed) (same : row.id = taskId)
    (tasks : s'.tasks = s.tasks.modify taskId (AgentTodo.mark known evidence)
      (AgentTodo.mark_id known evidence))
    {task : AgentTodo} :
    task ∈ s'.listed ↔ ∃ old ∈ s.listed,
      (if old.id = taskId then old.mark known evidence else old) = task := by
  rw [mem_listed, tasks]
  constructor
  · rintro ⟨changed, still⟩
    obtain ⟨old, member, rfl⟩ := List.mem_map.mp changed
    refine ⟨old, ?_, rfl⟩
    split_ifs at still with hit
    · have unique := s.tasks.eq_of_key_eq member (mem_listed.mp here).1 (hit.trans same.symm)
      rw [unique]
      exact here
    · exact mem_listed.mpr ⟨member, still⟩
  · rintro ⟨old, member, rfl⟩
    obtain ⟨stored, still⟩ := mem_listed.mp member
    refine ⟨List.mem_map.mpr ⟨old, stored, rfl⟩, ?_⟩
    split_ifs
    · exact live
    · exact still

end TaskLedger

end AverQel.DeepSpace
