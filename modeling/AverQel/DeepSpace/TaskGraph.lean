/- digest: The dependency graph of the task ledger, and what keeps it executable. -/
import AverQel.DeepSpace.TaskLoop
import AverQel.Foundation.Transition

namespace AverQel.DeepSpace

open Foundation
open Foundation.Transition (Guarded invariant_of_guarded run run_mem_trace trace)
open Relation (ReflTransGen TransGen)

namespace TaskLedger

def dependenciesOf (s : TaskLedger) (taskId : String) : List String :=
  (s.task? taskId).elim [] AgentTodo.dependencies

structure Executable (s : TaskLedger) : Prop where
  live : ∀ task ∈ s.listed, ∀ dependency ∈ task.dependencies,
    ∃ other ∈ s.listed, other.id = dependency
  acyclic : DepthFirst.Acyclic s.dependenciesOf (s.listed.map fun task => task.id)

def canStart (s : TaskLedger) (taskId : String) : Bool :=
  (s.markTask taskId "in_progress" "").toOption.isSome

def NeverStuck (s : TaskLedger) : Prop :=
  ∀ task ∈ s.listed, task.status ≠ .completed → ∃ ready ∈ s.listed,
    ReflTransGen (DepthFirst.Edge s.dependenciesOf) task.id ready.id ∧
      (∀ dependency ∈ ready.dependencies, s.isCompleted dependency) ∧
      (ready.status = .pending ∧ s.canStart ready.id ∨ ready.status = .inProgress ∨
        ready.status = .blocked ∨ ready.status = .failed)

variable {s s' : TaskLedger}

theorem edge_iff {a b : String} : DepthFirst.Edge s.dependenciesOf a b ↔
    ∃ task ∈ s.listed, task.id = a ∧ b ∈ task.dependencies := by
  simp only [DepthFirst.Edge, dependenciesOf]
  constructor
  · intro edge
    cases found : s.task? a with
    | none => simp [found] at edge
    | some task =>
      rw [found] at edge
      obtain ⟨member, same⟩ := task?_eq_some_iff.mp found
      exact ⟨task, member, same, edge⟩
  · rintro ⟨task, member, same, dependency⟩
    rw [task?_eq_some_iff.mpr ⟨member, same⟩]
    exact dependency

theorem canStart_iff {taskId : String} :
    s.canStart taskId ↔ ∃ task ∈ s.listed, task.id = taskId ∧ s.incomplete task = [] := by
  simp only [canStart, markTask, TaskStatus.known?]
  cases found : s.task? taskId with
  | none =>
    have missing : ¬ ∃ task ∈ s.listed, task.id = taskId ∧ s.incomplete task = [] := by
      rintro ⟨task, member, same, _⟩
      rw [task?_eq_some_iff.mpr ⟨member, same⟩] at found
      cases found
    simp [Except.toOption, missing]
  | some task =>
    obtain ⟨member, same⟩ := task?_eq_some_iff.mp found
    have only : (∃ task ∈ s.listed, task.id = taskId ∧ s.incomplete task = []) ↔
        s.incomplete task = [] := by
      constructor
      · rintro ⟨other, there, same', free⟩
        rwa [eq_of_listed member there (same.trans same'.symm)]
      · intro free
        exact ⟨task, member, same, free⟩
    rw [only]
    by_cases free : s.incomplete task = []
    · simp [Except.toOption, TaskStatus.needsDependencies, free]
    · simp [Except.toOption, TaskStatus.needsDependencies, free]

theorem Executable.neverStuck (executable : s.Executable) : s.NeverStuck := by
  intro task member unfinished
  have closed : ∀ a ∈ s.listed.map (fun task => task.id), ∀ b ∈ s.dependenciesOf a,
      b ∈ s.listed.map fun task => task.id := by
    intro a _ b edge
    obtain ⟨row, here, _, dependency⟩ := edge_iff.mp edge
    obtain ⟨other, there, same⟩ := executable.live row here b dependency
    exact List.mem_map.mpr ⟨other, there, same⟩
  have waits : ¬ s.isCompleted task.id := by
    intro completed
    obtain ⟨row, here, same, done⟩ := isCompleted_iff.mp completed
    rw [eq_of_listed here member same] at done
    exact unfinished done
  obtain ⟨last, known, path, open_, below⟩ := executable.acyclic.exists_last closed
    (fun id => ¬ s.isCompleted id) (List.mem_map.mpr ⟨task, member, rfl⟩) waits
  obtain ⟨ready, here, rfl⟩ := List.mem_map.mp known
  have free : ∀ dependency ∈ ready.dependencies, s.isCompleted dependency := by
    intro dependency stored
    exact not_not.mp (below dependency (edge_iff.mpr ⟨ready, here, rfl, stored⟩))
  refine ⟨ready, here, path, free, ?_⟩
  have live := (mem_listed.mp here).2
  cases status : ready.status with
  | pending => exact .inl ⟨rfl, canStart_iff.mpr ⟨ready, here, rfl, incomplete_eq_nil_iff.mpr free⟩⟩
  | inProgress => exact .inr (.inl rfl)
  | completed => exact absurd (isCompleted_iff.mpr ⟨ready, here, rfl, status⟩) open_
  | blocked => exact .inr (.inr (.inl rfl))
  | failed => exact .inr (.inr (.inr rfl))
  | deleted => exact absurd status live

end TaskLedger

def LinksInside (plan : List TaskRequest) : Prop :=
  (plan.length ≤ 1 → ∀ raw ∈ plan, raw.keptDependencies = []) ∧
    (1 < plan.length → ∀ raw ∈ plan, ∀ item ∈ raw.keptDependencies,
      ∃ target ∈ plan, target.requestedId = item ∧ target.checkedId = Text.strip item)

def LedgerCall.LinksInside : LedgerCall → Prop
  | replaceTasks _ plan _ _ => DeepSpace.LinksInside plan
  | markTask _ _ _ => True

instance (plan : List TaskRequest) : Decidable (LinksInside plan) :=
  inferInstanceAs (Decidable (_ ∧ _))

instance : DecidablePred LedgerCall.LinksInside
  | .replaceTasks _ plan _ _ => inferInstanceAs (Decidable (DeepSpace.LinksInside plan))
  | .markTask _ _ _ => .isTrue trivial

variable {plan : List TaskRequest}

theorem mem_keptDependencies {raw : TaskRequest} {item : String}
    (kept : item ∈ raw.keptDependencies) : item ∈ raw.dependencies ∧ Text.strip item ≠ "" := by
  obtain ⟨given, text⟩ := List.mem_filter.mp (List.mem_of_mem_take kept)
  exact ⟨given, of_decide_eq_true text⟩

theorem ne_empty_of_strip {item : String} (text : Text.strip item ≠ "") : item ≠ "" := by
  rintro rfl
  exact text (by decide)

theorem find?_checkedId (distinct : (plan.map TaskRequest.checkedId).Nodup) {raw : TaskRequest}
    (member : raw ∈ plan) :
    (plan.find? fun other => other.checkedId = raw.checkedId) = some raw := by
  cases search : plan.find? fun other => other.checkedId = raw.checkedId with
  | none =>
    have missing := List.find?_eq_none.mp search raw member
    simp at missing
  | some other =>
    have same : other.checkedId = raw.checkedId := by simpa using List.find?_some search
    rw [List.inj_on_of_nodup_map distinct (List.mem_of_find?_eq_some search) member same]

theorem checked_edge (distinct : (plan.map TaskRequest.checkedId).Nodup) {raw target : TaskRequest}
    (member : raw ∈ plan) (there : target ∈ plan) {item : String}
    (kept : item ∈ raw.keptDependencies) (named : target.checkedId = Text.strip item) :
    DepthFirst.Edge (dependenciesByTask plan) raw.checkedId target.checkedId := by
  obtain ⟨given, text⟩ := mem_keptDependencies kept
  have found := find?_checkedId distinct member
  rw [DepthFirst.Edge, dependenciesByTask, found]
  refine List.mem_filter.mpr ⟨List.mem_filter.mpr ⟨?_, ?_⟩, ?_⟩
  · rw [named]
    exact List.mem_map.mpr ⟨item, given, rfl⟩
  · rw [named]
    exact decide_eq_true text
  · exact decide_eq_true (List.mem_map.mpr ⟨target, there, rfl⟩)

def DependsOn (plan : List TaskRequest) (a b : String) : Prop :=
  ∃ raw ∈ plan, raw.checkedId = a ∧ b ∈ raw.checkedDependencies ∧
    b ∈ plan.map TaskRequest.checkedId

variable {existingIds : List String}

theorem edge_dependenciesByTask_iff (distinct : (plan.map TaskRequest.checkedId).Nodup)
    {a b : String} : DepthFirst.Edge (dependenciesByTask plan) a b ↔ DependsOn plan a b := by
  rw [DepthFirst.Edge, dependenciesByTask, List.mem_filter, decide_eq_true_iff]
  constructor
  · rintro ⟨named, inside⟩
    cases found : plan.find? fun raw => raw.checkedId = a with
    | none =>
      rw [found] at named
      cases named
    | some raw =>
      rw [found] at named
      have same : raw.checkedId = a := by simpa using List.find?_some found
      exact ⟨raw, List.mem_of_find?_eq_some found, same, named, inside⟩
  · rintro ⟨raw, member, rfl, named, inside⟩
    rw [find?_checkedId distinct member]
    exact ⟨named, inside⟩

theorem acyclic_dependenciesByTask_iff (distinct : (plan.map TaskRequest.checkedId).Nodup) :
    DepthFirst.Acyclic (dependenciesByTask plan) (plan.map TaskRequest.checkedId) ↔
      ∀ a, ¬TransGen (DependsOn plan) a a := by
  have same : DepthFirst.Edge (dependenciesByTask plan) = DependsOn plan := by
    ext a b
    exact edge_dependenciesByTask_iff distinct
  rw [DepthFirst.Acyclic, same]
  constructor
  · intro acyclic a cycle
    -- a node of a cycle is a task of the plan
    obtain ⟨_, ⟨raw, member, named, _⟩, _⟩ := TransGen.head'_iff.mp cycle
    exact acyclic a (List.mem_map.mpr ⟨raw, member, named⟩) cycle
  · intro acyclic a _
    exact acyclic a

theorem linkError_eq_none_iff {known : List String} {raw : TaskRequest} :
    linkError known raw = none ↔
      (∀ item ∈ raw.checkedDependencies, item ∈ known) ∧
        raw.checkedId ∉ raw.checkedDependencies := by
  have unknown : (raw.checkedDependencies.filter fun item => item ∉ known) = [] ↔
      ∀ item ∈ raw.checkedDependencies, item ∈ known := by
    simp only [List.filter_eq_nil_iff, decide_not, Bool.not_eq_true', decide_eq_false_iff_not,
      not_not]
  rw [← unknown]
  simp only [linkError]
  split_ifs with missing itself
  · exact ⟨fun linked => (by cases linked), fun both => absurd both.1 missing⟩
  · exact ⟨fun linked => (by cases linked), fun both => absurd itself both.2⟩
  · exact iff_of_true rfl ⟨not_not.mp missing, itself⟩

theorem shapeError_eq_none {raw : TaskRequest} (named : raw.checkedId ≠ "")
    (criteria : Text.strip (raw.successCriteria.getD "") ≠ "")
    (verified : Text.strip (raw.verification.getD "") ≠ "") (index : Nat) :
    shapeError (raw, index) = none := by
  simp only [shapeError, if_neg named, if_neg criteria, if_neg verified]

/-- A longer plan of complete tasks with their own ids is accepted exactly when every dependency is
known, no task depends on itself, and the links inside the plan have no cycle. -/
theorem validatePlanShape_iff_acyclic (existingIds : List String) (longer : 2 ≤ plan.length)
    (named : ∀ raw ∈ plan, raw.checkedId ≠ "")
    (distinct : (plan.map TaskRequest.checkedId).Nodup)
    (criteria : ∀ raw ∈ plan, Text.strip (raw.successCriteria.getD "") ≠ "")
    (verified : ∀ raw ∈ plan, Text.strip (raw.verification.getD "") ≠ "") :
    validatePlanShape existingIds plan = .ok () ↔
      (∀ raw ∈ plan, ∀ item ∈ raw.checkedDependencies,
        item ∈ plan.map TaskRequest.checkedId ∨ item ∈ existingIds) ∧
      (∀ raw ∈ plan, raw.checkedId ∉ raw.checkedDependencies) ∧
      ∀ a, ¬TransGen (DependsOn plan) a a := by
  have complete : ∀ entry ∈ plan.zipIdx, shapeError entry = none := by
    rintro ⟨raw, index⟩ member
    have request := List.fst_mem_of_mem_zipIdx member
    exact shapeError_eq_none (named raw request) (criteria raw request) (verified raw request) index
  rw [validatePlanShape_eq_ok_iff longer, acyclic_dependenciesByTask_iff distinct]
  simp only [linkError_eq_none_iff, List.mem_append]
  constructor
  · rintro ⟨_, _, linked, acyclic⟩
    exact ⟨fun raw member => (linked raw member).1, fun raw member => (linked raw member).2, acyclic⟩
  · rintro ⟨known, apart, acyclic⟩
    exact ⟨complete, distinct, fun raw member => ⟨known raw member, apart raw member⟩, acyclic⟩

def waitingTask (taskId dependency : String) : TaskRequest :=
  ⟨⟨taskId, "Step", "", [dependency], some "It is done", some "Look at it", none⟩, "pending"⟩

/-- Two tasks that wait for each other. -/
theorem not_validatePlanShape_mutual :
    validatePlanShape ["kept"] [waitingTask "a" "b", waitingTask "b" "a"] ≠ .ok () := by
  intro accepted
  obtain ⟨_, _, acyclic⟩ := (validatePlanShape_iff_acyclic ["kept"] (by decide) (by decide)
    (by decide) (by decide) (by decide)).mp accepted
  have forth : DependsOn [waitingTask "a" "b", waitingTask "b" "a"] "a" "b" :=
    ⟨_, List.mem_cons_self, by decide, by decide, by decide⟩
  have back : DependsOn [waitingTask "a" "b", waitingTask "b" "a"] "b" "a" :=
    ⟨_, List.mem_cons_of_mem _ List.mem_cons_self, by decide, by decide, by decide⟩
  exact acyclic "a" (.tail (.single forth) back)

namespace TaskLedger

variable {s s' : TaskLedger} {newIds : Nat → String} {plan : List TaskRequest} {now : Time}

theorem dependency_of_written (apart : Apart plan) (inside : LinksInside plan)
    {entry : TaskRequest × Nat} (member : entry ∈ plan.zipIdx) {dependency : String}
    (stored : dependency ∈ (s.written newIds plan now entry).dependencies) :
    1 < plan.length ∧ ∃ item ∈ entry.1.keptDependencies, ∃ target ∈ plan.zipIdx,
      target.1.checkedId = Text.strip item ∧
        (s.written newIds plan now target).id = dependency := by
  rw [written, TaskRequest.write_dependencies] at stored
  obtain ⟨item, kept, rfl⟩ := List.mem_map.mp stored
  have request := List.fst_mem_of_mem_zipIdx member
  have longer : 1 < plan.length := by
    by_contra short
    rw [inside.1 (by omega) entry.1 request] at kept
    cases kept
  obtain ⟨target, there, rfl, named⟩ := inside.2 longer entry.1 request item kept
  obtain ⟨index, place⟩ := List.mem_iff_getElem?.mp there
  have listed : (target, index) ∈ plan.zipIdx := List.mk_mem_zipIdx_iff_getElem?.mpr place
  have given := ne_empty_of_strip (mem_keptDependencies kept).2
  refine ⟨longer, _, kept, (target, index), listed, named, ?_⟩
  have row : s.resolve newIds plan target.requestedId =
      some (s.written newIds plan now (target, index)).id := resolve_requestedId apart listed given
  rw [row, Option.getD_some]

theorem executable_of_replaced (replaced : Replaced s newIds plan now s')
    (inside : LinksInside plan) : s'.Executable := by
  have edges : ∀ {a b : String}, DepthFirst.Edge s'.dependenciesOf a b →
      1 < plan.length ∧ ∃ entry ∈ plan.zipIdx, (s.written newIds plan now entry).id = a ∧
        ∃ item ∈ entry.1.keptDependencies, ∃ target ∈ plan.zipIdx,
          target.1.checkedId = Text.strip item ∧
            (s.written newIds plan now target).id = b := by
    intro a b edge
    obtain ⟨task, member, same, stored⟩ := edge_iff.mp edge
    obtain ⟨entry, here, rfl⟩ := (mem_listed_of_replaced replaced).mp member
    obtain ⟨longer, rest⟩ := dependency_of_written replaced.apart inside here stored
    exact ⟨longer, entry, here, same, rest⟩
  constructor
  · intro task member dependency stored
    obtain ⟨_, _, _, _, _, _, target, there, _, same⟩ :=
      edges (edge_iff.mpr ⟨task, member, rfl, stored⟩)
    exact ⟨_, (mem_listed_of_replaced replaced).mpr ⟨target, there, rfl⟩, same⟩
  · by_cases longer : 1 < plan.length
    · obtain ⟨_, distinct, _, acyclic⟩ := (validatePlanShape_eq_ok_iff longer).mp replaced.shape
      -- every row goes back to the task of the plan that wrote it
      let origin : String → String := fun id =>
        ((plan.zipIdx.find? fun entry => (s.written newIds plan now entry).id = id).map
          fun entry => entry.1.checkedId).getD ""
      have origin_written : ∀ entry ∈ plan.zipIdx,
          origin (s.written newIds plan now entry).id = entry.1.checkedId := by
        intro entry member
        cases found : plan.zipIdx.find? fun other =>
            (s.written newIds plan now other).id = (s.written newIds plan now entry).id with
        | none =>
          have missing := List.find?_eq_none.mp found entry member
          simp at missing
        | some other =>
          have same : (s.written newIds plan now other).id =
              (s.written newIds plan now entry).id := by simpa using List.find?_some found
          have unique := written_id_injective replaced (List.mem_of_find?_eq_some found) member same
          simp only [origin, found, Option.map_some, Option.getD_some, unique]
      refine acyclic.comap origin ?_ ?_
      · intro id known
        obtain ⟨task, member, rfl⟩ := List.mem_map.mp known
        obtain ⟨entry, here, rfl⟩ := (mem_listed_of_replaced replaced).mp member
        rw [origin_written entry here]
        exact List.mem_map.mpr ⟨entry.1, List.fst_mem_of_mem_zipIdx here, rfl⟩
      · intro a b edge
        obtain ⟨_, entry, here, rfl, item, kept, target, there, named, rfl⟩ := edges edge
        rw [origin_written entry here, origin_written target there]
        exact checked_edge distinct (List.fst_mem_of_mem_zipIdx here)
          (List.fst_mem_of_mem_zipIdx there) kept named
    · intro id _ cycle
      obtain ⟨_, edge, _⟩ := TransGen.head'_iff.mp cycle
      exact longer (edges edge).1

theorem executable_of_markTask {taskId status evidence : String} (executable : s.Executable)
    (done : s.markTask taskId status evidence = .ok s') : s'.Executable := by
  obtain ⟨known, row, parsed, here, same, _, _, tasks⟩ := markTask_eq_ok done
  have listed : ∀ {task : AgentTodo}, task ∈ s'.listed ↔ ∃ old ∈ s.listed,
      (if old.id = taskId then old.mark known evidence else old) = task :=
    mem_listed_of_mark (known_ne_deleted parsed) here same tasks
  have keeps : ∀ old : AgentTodo,
      (if old.id = taskId then old.mark known evidence else old).id = old.id ∧
        (if old.id = taskId then old.mark known evidence else old).dependencies =
          old.dependencies := by
    intro old
    split_ifs
    · exact ⟨AgentTodo.mark_id known evidence old, AgentTodo.mark_dependencies old known evidence⟩
    · exact ⟨rfl, rfl⟩
  constructor
  · intro task member dependency stored
    obtain ⟨old, before, rfl⟩ := listed.mp member
    rw [(keeps old).2] at stored
    obtain ⟨other, there, found⟩ := executable.live old before dependency stored
    exact ⟨_, listed.mpr ⟨other, there, rfl⟩, (keeps other).1.trans found⟩
  · refine executable.acyclic.comap id ?_ ?_
    · intro taskId known
      obtain ⟨task, member, rfl⟩ := List.mem_map.mp known
      obtain ⟨old, before, rfl⟩ := listed.mp member
      exact List.mem_map.mpr ⟨old, before, (keeps old).1.symm⟩
    · intro a b edge
      obtain ⟨task, member, found, stored⟩ := edge_iff.mp edge
      obtain ⟨old, before, rfl⟩ := listed.mp member
      rw [(keeps old).2] at stored
      exact edge_iff.mpr ⟨old, before, (keeps old).1.symm.trans found, stored⟩

theorem executable_step {call : LedgerCall} (executable : s.Executable)
    (inside : call.LinksInside) : (s.step call).Executable := by
  cases outcome : s.call call with
  | error =>
    rw [step, outcome]
    exact executable
  | ok =>
    rw [step, outcome]
    cases call with
    | replaceTasks =>
      exact executable_of_replaced (replaced_of_replaceTasks outcome) inside
    | markTask => exact executable_of_markTask executable outcome

theorem executable_empty : empty.Executable where
  live := by
    intro task member
    cases (mem_listed.mp member).1
  acyclic := by
    intro id member
    obtain ⟨task, listed, _⟩ := List.mem_map.mp member
    cases (mem_listed.mp listed).1

/-- In every run of the ledger whose plans name their dependencies exactly, the graph of the live
tasks stays executable and strands no task. -/
theorem executable_of_linksInside (calls : List LedgerCall)
    (guarded : Guarded (fun _ call => call.LinksInside) step empty calls) :
    ∀ s ∈ trace step empty calls, s.Executable ∧ s.NeverStuck := by
  intro s member
  have executable := invariant_of_guarded (fun s call held inside => executable_step held inside)
    executable_empty guarded s member
  exact ⟨executable, executable.neverStuck⟩

/-- Two steps; the second one names the first by `dependency`. -/
def twoSteps (dependency : String) : List LedgerCall :=
  let research : TaskRequest :=
    ⟨⟨"a", "Research", "", [], some "Notes exist", some "Read the notes", none⟩, "pending"⟩
  let write : TaskRequest :=
    ⟨⟨"b", "Write", "", [dependency], some "A report exists", some "Read the report", none⟩,
      "pending"⟩
  let newIds := fun index =>
    if index = 0 then "0c7e6d0a-55be-4f0b-9a53-6d1f0d9a7b01"
    else "0c7e6d0a-55be-4f0b-9a53-6d1f0d9a7b02"
  [.replaceTasks newIds [research, write] true 0,
    .markTask "0c7e6d0a-55be-4f0b-9a53-6d1f0d9a7b01" "completed" "Notes saved"]

theorem exact_dependency_kept :
    Guarded (fun _ call => call.LinksInside) step empty (twoSteps "a") ∧
      ∀ s ∈ trace step empty (twoSteps "a"), s.Executable ∧ s.NeverStuck :=
  ⟨by decide +kernel, executable_of_linksInside (twoSteps "a") (by decide +kernel)⟩

/-- A blank behind the name passes the plan check and leaves a link to no task. -/
theorem padded_dependency_strands :
    ¬ ∀ calls : List LedgerCall, ∀ s ∈ trace step empty calls, s.Executable ∧ s.NeverStuck := by
  intro always
  obtain ⟨executable, _⟩ := always (twoSteps "a ") _ (run_mem_trace step empty (twoSteps "a "))
  have dangling : ∃ task ∈ (run step empty (twoSteps "a ")).listed,
      task.status = .pending ∧ ∃ dependency ∈ task.dependencies,
        ∀ other ∈ (run step empty (twoSteps "a ")).listed, other.id ≠ dependency := by
    decide +kernel
  obtain ⟨task, member, _, dependency, stored, missing⟩ := dangling
  obtain ⟨other, there, same⟩ := executable.live task member dependency stored
  exact missing other there same

end TaskLedger

end AverQel.DeepSpace
