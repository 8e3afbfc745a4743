/- digest: Started and completed tasks have completed dependencies and evidence. -/
import AverQel.DeepSpace.TaskLoop
import AverQel.Foundation.Transition

namespace AverQel.DeepSpace

open Foundation Transition

namespace TaskLedger

/-- Progress is earned: what is started or completed has its dependencies completed, what is
completed has evidence, and a complete ledger has no dependency issue. -/
structure Earned (s : TaskLedger) : Prop where
  ready : ∀ task ∈ s.listed, task.status.needsDependencies →
    ∀ dependency ∈ task.dependencies, s.isCompleted dependency
  evidenced : ∀ task ∈ s.listed, task.status = .completed → task.evidence ≠ []
  checked : s.checkTasks.complete → s.checkTasks.dependencyIssues = []

variable (s : TaskLedger) (newIds : Nat → String) (plan : List TaskRequest)

def rowId (entry : TaskRequest × Nat) : String :=
  ((s.updated? entry.1).map fun task => task.id).getD (newIds entry.2)

/-- The dependencies of what the plan gives as started or completed are tasks that the plan gives
as completed, and what it gives as completed comes with evidence or has some. -/
def EarnedPlan : Prop :=
  ∀ entry ∈ plan.zipIdx,
    (entry.1.storedStatus.needsDependencies → ∀ item ∈ entry.1.keptDependencies,
      ∃ target ∈ plan.zipIdx, target.1.storedStatus = .completed ∧
        s.rowId newIds target = (s.resolve newIds plan item).getD item) ∧
    (entry.1.storedStatus = .completed →
      entry.1.evidence.elim (∃ task ∈ s.updated? entry.1, task.evidence ≠ [])
        fun items => items ≠ [])

def EarnedMark (taskId status evidence : String) : Prop :=
  ∀ new ∈ TaskStatus.known? status, ∀ task ∈ s.task? taskId,
    (new = .completed → Text.strip evidence ≠ "" ∨ task.evidence ≠ []) ∧
    (task.status = .completed → new ≠ .completed → ∀ other ∈ s.listed,
      taskId ∈ other.dependencies →
        (if other.id = taskId then new else other.status).needsDependencies = false)

def EarnedCall : LedgerCall → Prop
  | .replaceTasks newIds plan _ _ => s.EarnedPlan newIds plan
  | .markTask taskId status evidence => s.EarnedMark taskId status evidence

def Succeeds (call : LedgerCall) : Prop := (s.call call).toOption.isSome

instance (call : LedgerCall) : Decidable (s.Succeeds call) := by
  delta Succeeds
  infer_instance

variable {s s' : TaskLedger} {newIds : Nat → String} {plan : List TaskRequest} {now : Time}

theorem checked_of_ready (ready : ∀ task ∈ s.listed, task.status.needsDependencies →
    ∀ dependency ∈ task.dependencies, s.isCompleted dependency) :
    s.checkTasks.complete → s.checkTasks.dependencyIssues = [] := by
  intro complete
  have all : ∀ task ∈ s.listed, task.status = .completed := by
    have counted : (s.listed.countP fun task => task.status = .completed) = s.listed.length := by
      have both := complete
      simp only [checkTasks, Bool.and_eq_true, beq_iff_eq] at both
      exact both.2
    intro task member
    exact of_decide_eq_true (List.countP_eq_length.mp counted task member)
  apply List.filter_eq_nil_iff.mpr
  intro issue member
  obtain ⟨task, listed, rfl⟩ := List.mem_map.mp member
  have free : s.incomplete task = [] := by
    apply incomplete_eq_nil_iff.mpr
    apply ready task listed
    rw [all task listed]
    rfl
  simp [free]

theorem earned_iff : s.Earned ↔
    (∀ task ∈ s.listed, task.status.needsDependencies →
      ∀ dependency ∈ task.dependencies, s.isCompleted dependency) ∧
    ∀ task ∈ s.listed, task.status = .completed → task.evidence ≠ [] := by
  constructor
  · intro earned
    exact ⟨earned.ready, earned.evidenced⟩
  · rintro ⟨ready, evidenced⟩
    exact ⟨ready, evidenced, checked_of_ready ready⟩

theorem written_id (entry : TaskRequest × Nat) :
    (s.written newIds plan now entry).id = s.rowId newIds entry := by
  rw [written, TaskRequest.write_id, rowId]
  cases s.updated? entry.1 <;> rfl

theorem written_evidence_ne_nil (entry : TaskRequest × Nat) :
    (s.written newIds plan now entry).evidence ≠ [] ↔
      entry.1.evidence.elim (∃ task ∈ s.updated? entry.1, task.evidence ≠ [])
        fun items => items ≠ [] := by
  rw [written, TaskRequest.write_evidence]
  cases entry.1.evidence with
  | some => simp
  | none =>
    cases s.updated? entry.1 with
    | some => simp
    | none => simp [TaskRequest.blankRow, AgentTodo.evidence, metadataList]

theorem isCompleted_of_replaced (replaced : Replaced s newIds plan now s') {taskId : String} :
    s'.isCompleted taskId ↔ ∃ target ∈ plan.zipIdx,
      target.1.storedStatus = .completed ∧ s.rowId newIds target = taskId := by
  rw [isCompleted_iff]
  constructor
  · rintro ⟨task, member, rfl, status⟩
    obtain ⟨target, here, rfl⟩ := (mem_listed_of_replaced replaced).mp member
    exact ⟨target, here, status, (written_id target).symm⟩
  · rintro ⟨target, here, status, rfl⟩
    exact ⟨_, (mem_listed_of_replaced replaced).mpr ⟨target, here, rfl⟩, written_id target, status⟩

theorem earned_of_replaced_iff (replaced : Replaced s newIds plan now s') :
    s'.Earned ↔ s.EarnedPlan newIds plan := by
  have listed : ∀ {task : AgentTodo}, task ∈ s'.listed ↔
      ∃ entry ∈ plan.zipIdx, s.written newIds plan now entry = task :=
    mem_listed_of_replaced replaced
  rw [earned_iff]
  constructor
  · rintro ⟨ready, evidenced⟩ entry member
    have row := listed.mpr ⟨entry, member, rfl⟩
    constructor
    · intro needs item kept
      have stored : (s.resolve newIds plan item).getD item ∈
          (s.written newIds plan now entry).dependencies := by
        rw [written, TaskRequest.write_dependencies]
        exact List.mem_map.mpr ⟨item, kept, rfl⟩
      exact (isCompleted_of_replaced replaced).mp (ready _ row needs _ stored)
    · intro completed
      exact (written_evidence_ne_nil entry).mp (evidenced _ row completed)
  · intro earned
    constructor
    · intro task member needs dependency stored
      obtain ⟨entry, here, rfl⟩ := listed.mp member
      rw [written, TaskRequest.write_dependencies] at stored
      obtain ⟨item, kept, rfl⟩ := List.mem_map.mp stored
      exact (isCompleted_of_replaced replaced).mpr ((earned entry here).1 needs item kept)
    · intro task member completed
      obtain ⟨entry, here, rfl⟩ := listed.mp member
      exact (written_evidence_ne_nil entry).mpr ((earned entry here).2 completed)

variable {taskId status evidence : String}

/-- Marking keeps earned progress exactly when its evidence counts and nothing rests on a task it
reopens. -/
theorem earned_of_markTask_iff (before : s.Earned)
    (done : s.markTask taskId status evidence = .ok s') :
    s'.Earned ↔ s.EarnedMark taskId status evidence := by
  obtain ⟨new, row, parsed, here, same, free, _, tasks⟩ := markTask_eq_ok done
  have found : s.task? taskId = some row := task?_eq_some_iff.mpr ⟨here, same⟩
  have only : ∀ {task : AgentTodo}, task ∈ s.listed → task.id = taskId → task = row := by
    intro task member same'
    exact eq_of_listed member here (same'.trans same.symm)
  have listed : ∀ {task : AgentTodo}, task ∈ s'.listed ↔ ∃ old ∈ s.listed,
      (if old.id = taskId then old.mark new evidence else old) = task :=
    mem_listed_of_mark (known_ne_deleted parsed) here same tasks
  have completed : ∀ {id : String},
      s'.isCompleted id ↔ if id = taskId then new = .completed else s.isCompleted id := by
    intro id
    rw [isCompleted_iff]
    by_cases hit : id = taskId
    · rw [if_pos hit]
      constructor
      · rintro ⟨task, member, id', status'⟩
        obtain ⟨old, member', rfl⟩ := listed.mp member
        split_ifs at id' status' with marked
        · exact status'
        · exact absurd (id'.trans hit) marked
      · intro status'
        refine ⟨row.mark new evidence, listed.mpr ⟨row, here, if_pos same⟩, ?_, status'⟩
        rw [AgentTodo.mark_id, same, hit]
    · rw [if_neg hit, isCompleted_iff]
      constructor
      · rintro ⟨task, member, id', status'⟩
        obtain ⟨old, member', rfl⟩ := listed.mp member
        split_ifs at id' status' with marked
        · rw [AgentTodo.mark_id, marked] at id'
          exact absurd id'.symm hit
        · exact ⟨old, member', id', status'⟩
      · rintro ⟨task, member, id', status'⟩
        have other : task.id ≠ taskId := fun marked => hit (id'.symm.trans marked)
        exact ⟨task, listed.mpr ⟨task, member, if_neg other⟩, id', status'⟩
  rw [earned_iff]
  constructor
  · rintro ⟨ready, evidenced⟩ new' known' task known
    obtain rfl : new = new' := Option.some.inj (parsed.symm.trans known')
    obtain rfl : row = task := Option.some.inj (found.symm.trans known)
    constructor
    · intro completes
      have shown := evidenced _ (listed.mpr ⟨row, here, if_pos same⟩) completes
      exact (AgentTodo.mark_evidence_ne_nil row new evidence).mp shown
    · intro _ reopened other member rests
      by_contra needs
      have needs' : (if other.id = taskId then new else other.status).needsDependencies = true := by
        simpa using needs
      have after := listed.mpr ⟨other, member, rfl⟩
      have done' : s'.isCompleted taskId := by
        apply ready _ after
        · split_ifs at needs' ⊢ <;> exact needs'
        · split_ifs
          · rw [AgentTodo.mark_dependencies]
            exact rests
          · exact rests
      rw [completed, if_pos rfl] at done'
      exact reopened done'
  · intro earned
    obtain ⟨shows, reopens⟩ := earned new parsed row found
    -- a completed dependency stays completed unless it is the task that is reopened
    have kept : ∀ other ∈ s.listed,
        (if other.id = taskId then new else other.status).needsDependencies →
        ∀ dependency ∈ other.dependencies, s.isCompleted dependency →
          s'.isCompleted dependency := by
      intro other member needs dependency stored done'
      rw [completed]
      split_ifs with hit
      · subst hit
        by_contra reopened
        obtain ⟨task, member', same', was⟩ := isCompleted_iff.mp done'
        rw [only member' same'] at was
        have idle := reopens was reopened other member stored
        rw [needs] at idle
        cases idle
      · exact done'
    constructor
    · intro task member needs dependency stored
      obtain ⟨old, member', rfl⟩ := listed.mp member
      by_cases hit : old.id = taskId
      · rw [if_pos hit] at needs stored
        rw [AgentTodo.mark_dependencies] at stored
        have needs' : new.needsDependencies = true := needs
        refine kept old member' (by rwa [if_pos hit]) dependency stored ?_
        rw [only member' hit] at stored
        exact incomplete_eq_nil_iff.mp (free needs') dependency stored
      · rw [if_neg hit] at needs stored
        exact kept old member' (by rwa [if_neg hit]) dependency stored
          (before.ready old member' needs dependency stored)
    · intro task member finished
      obtain ⟨old, member', rfl⟩ := listed.mp member
      by_cases hit : old.id = taskId
      · rw [if_pos hit] at finished ⊢
        apply (AgentTodo.mark_evidence_ne_nil old new evidence).mpr
        rw [only member' hit]
        exact shows finished
      · rw [if_neg hit] at finished ⊢
        exact before.evidenced old member' finished

/-- In a run of successful calls progress is earned throughout exactly when every call claims
only earned progress. -/
theorem earned_iff_guarded (calls : List LedgerCall) (start : s.Earned)
    (succeed : Guarded Succeeds step s calls) :
    (∀ t ∈ trace step s calls, t.Earned) ↔ Guarded EarnedCall step s calls := by
  refine forall_trace_iff_guarded_of_guarded (I := fun _ => True) (fun _ _ _ _ => trivial) ?_
    trivial start succeed
  intro t call _ succeeds earned
  obtain ⟨next, done⟩ := Option.isSome_iff_exists.mp succeeds
  have outcome : t.call call = .ok next := by
    cases result : t.call call with
    | error => simp [result, Except.toOption] at done
    | ok =>
      rw [result] at done
      rw [Option.some.inj done]
  rw [step, outcome]
  cases call with
  | replaceTasks =>
    exact earned_of_replaced_iff (replaced_of_replaceTasks outcome)
  | markTask => exact earned_of_markTask_iff earned outcome

theorem earned_empty : empty.Earned := by
  apply earned_iff.mpr
  constructor
  · intro task member
    cases (mem_listed.mp member).1
  · intro task member
    cases (mem_listed.mp member).1

def oneTask (status evidence : String) : List LedgerCall :=
  [.replaceTasks (fun _ => "0c7e6d0a-55be-4f0b-9a53-6d1f0d9a7b01")
      [⟨⟨"", "Write the report", "", [], none, none, none⟩, status⟩] true 0,
    .markTask "0c7e6d0a-55be-4f0b-9a53-6d1f0d9a7b01" "completed" evidence]

theorem one_task_earned :
    (∀ t ∈ trace step empty (oneTask "pending" "Report saved"), t.Earned) ↔
      Guarded EarnedCall step empty (oneTask "pending" "Report saved") :=
  earned_iff_guarded (oneTask "pending" "Report saved") earned_empty (by decide +kernel)

/-- A plan may give a task as completed, without any evidence. -/
theorem planned_completion_unearned :
    ¬ ∀ calls : List LedgerCall, Guarded Succeeds step empty calls →
      ∀ t ∈ trace step empty calls, t.Earned := by
  intro always
  let calls := (oneTask "completed" "").take 1
  have earned := always calls (by decide +kernel) _ (run_mem_trace step empty calls)
  have bare : ∃ task ∈ (run step empty calls).listed,
      task.status = .completed ∧ task.evidence = [] := by decide +kernel
  obtain ⟨task, member, completed, none_⟩ := bare
  exact earned.evidenced task member completed none_

end TaskLedger

end AverQel.DeepSpace
