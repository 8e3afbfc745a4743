/- digest: Which run an approval or a question is looked up on. -/
import AverQel.DeepSpace.Operations

namespace AverQel.DeepSpace

open Foundation

def RunStatus.mayAskApproval (s : RunStatus) : Bool :=
  s = .awaitingApproval || s = .running || s = .blocked

def asksFor (approvalId : String) (run : AgentRun) : Bool :=
  match run.checkpoint.pendingApproval with
  | some pending => pending.approvalId = approvalId
  | none => false

def asksQuestion (questionId : String) (run : AgentRun) : Bool :=
  run.checkpoint.pendingUserQuestion.any (fun pending => pending.questionId = questionId)

namespace Conversation

variable {approvalId : String}

theorem getRunForApproval_spec {c : Conversation} {run : AgentRun}
    (found : c.getRunForApproval approvalId = some run) :
    run ∈ c.runs.rows ∧ run.status.mayAskApproval ∧ asksFor approvalId run := by
  have listed := List.mem_of_mem_take (List.mem_of_find?_eq_some found)
  obtain ⟨sorted, status⟩ := List.mem_filter.mp listed
  exact ⟨(List.mem_insertionSort _).mp sorted, status, List.find?_some found⟩

theorem getRunForApproval_of_newest {c : Conversation} {run : AgentRun}
    (member : run ∈ c.runs.rows) (status : run.status.mayAskApproval)
    (asks : asksFor approvalId run)
    (newest : ∀ other ∈ c.runs.rows, other ≠ run → other.updatedAt < run.updatedAt) :
    c.getRunForApproval approvalId = some run := by
  have sorted : c.runsByUpdate.Pairwise (fun a b => b.updatedAt ≤ a.updatedAt) :=
    List.pairwise_insertionSort (fun a b : AgentRun => b.updatedAt ≤ a.updatedAt) _
  have candidates := sorted.filter (fun run =>
    run.status = .awaitingApproval || run.status = .running || run.status = .blocked)
  have listed : run ∈ c.runsByUpdate.filter (fun run =>
      run.status = .awaitingApproval || run.status = .running || run.status = .blocked) :=
    List.mem_filter.mpr ⟨(List.mem_insertionSort _).mpr member, status⟩
  unfold getRunForApproval
  cases order : c.runsByUpdate.filter (fun run =>
      run.status = .awaitingApproval || run.status = .running || run.status = .blocked) with
  | nil =>
    rw [order] at listed
    exact absurd listed List.not_mem_nil
  | cons head rest =>
    rw [order] at listed candidates
    have isFirst : head = run := by
      by_contra other
      have later := (List.mem_cons.mp listed).resolve_left (fun same => other same.symm)
      have below := (List.pairwise_cons.mp candidates).1 run later
      have headListed : head ∈ c.runsByUpdate.filter (fun run =>
          run.status = .awaitingApproval || run.status = .running || run.status = .blocked) := by
        rw [order]
        exact List.mem_cons_self
      have headMember := (List.mem_insertionSort _).mp (List.mem_filter.mp headListed).1
      have above := newest head headMember other
      exact absurd below (Int.not_le.mpr above)
    subst isFirst
    change List.find? (asksFor approvalId) (List.take 25 (head :: rest)) = some head
    rw [List.take_succ_cons, List.find?_cons_of_pos asks]

theorem find?_modifyRun {c : Conversation} {runId : Uuid} {row : AgentRun}
    {f : AgentRun → AgentRun} {hf : ∀ run, (f run).id = run.id}
    (stored : c.runs.find? runId = some row) :
    (c.modifyRun runId f hf).runs.find? runId = some (f row) := by
  unfold modifyRun
  rw [Table.find?_modify, if_pos rfl, stored]
  rfl

theorem getRunForApproval_modifyRun {c : Conversation} {runId : Uuid} {row : AgentRun}
    {f : AgentRun → AgentRun} {hf : ∀ run, (f run).id = run.id} {now : Time}
    (stored : c.runs.find? runId = some row) (bound : ∀ row ∈ c.runs.rows, row.updatedAt < now)
    (stamped : (f row).updatedAt = now) (status : (f row).status.mayAskApproval)
    (asks : asksFor approvalId (f row)) :
    (c.modifyRun runId f hf).getRunForApproval approvalId = some (f row) := by
  have here : (c.modifyRun runId f hf).runs.find? runId = some (f row) := find?_modifyRun stored
  obtain ⟨member, _⟩ := Table.find?_eq_some_iff.mp here
  refine getRunForApproval_of_newest member status asks ?_
  intro other otherMember distinct
  obtain ⟨old, oldMember, changed⟩ := List.mem_map.mp otherMember
  by_cases same : old.id = runId
  · rw [if_pos same] at changed
    have sameRow : old = row :=
      Option.some.inj ((Table.find?_eq_some_iff.mpr ⟨oldMember, same⟩).symm.trans stored)
    rw [sameRow] at changed
    exact absurd changed.symm distinct
  · rw [if_neg same] at changed
    rw [← changed, stamped]
    exact bound old oldMember

theorem questionClaim_spec {questionId : String} {runs : List AgentRun} {found : AgentRun}
    (claimed : questionClaim questionId runs = some (found, true)) :
    found ∈ runs ∧ found.status = .awaitingUser ∧ asksQuestion questionId found := by
  induction runs with
  | nil => cases claimed
  | cons run rest ih =>
    have later (tail : questionClaim questionId rest = some (found, true)) :
        found ∈ run :: rest ∧ found.status = .awaitingUser ∧ asksQuestion questionId found := by
      obtain ⟨member, status, asks⟩ := ih tail
      exact ⟨List.mem_cons_of_mem run member, status, asks⟩
    unfold questionClaim at claimed
    split at claimed
    · exact later claimed
    · rename_i pending here
      split at claimed
      · exact later claimed
      · rename_i named
        split at claimed
        · cases claimed
        · split at claimed
          · exact later claimed
          · rename_i waiting
            cases claimed
            refine ⟨List.mem_cons_self, by simpa using waiting, ?_⟩
            unfold asksQuestion
            rw [here]
            simpa using named

end Conversation

end AverQel.DeepSpace
