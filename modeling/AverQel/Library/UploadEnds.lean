/- digest: How an upload session ends: the commits that undo a cancellation or a completion. -/
import AverQel.Library.UploadSessions

namespace AverQel.Library

open Foundation Transition

def UploadStatus.Ended (status : UploadStatus) : Prop := status = .cancelled ∨ status = .completed

def UploadPoint.Reads : UploadPoint → Prop
  | .cancelling copy => ¬ copy.status.Ended
  | .delaying copy | .unqueueing copy => copy.status = .queued
  | _ => True

namespace UploadHistory

variable {h h' : UploadHistory} {turn : UploadTurn} {p : UploadPoint}

structure EndsOnce (h : UploadHistory) : Prop where
  cancelled : ∀ files ∈ h.cancelled, h.row.status = .cancelled ∧ h.files = files
  completed : ∀ fileId ∈ h.completed, h.row.status = .completed ∧ h.row.fileId = fileId
  once : h.files.length ≤ 1

def SparesEnd (h : UploadHistory) : UploadPoint → Prop
  | .recording copy _ => copy.status ≠ .uploading → ¬ h.row.status.Ended
  | .queueing copy => copy.status ≠ .queued → ¬ h.row.status.Ended
  | .unqueueing _ => ¬ h.row.status.Ended
  | .cancelling _ => h.row.status ≠ .completed
  | _ => True

structure Settled (h : UploadHistory) : Prop where
  cancelled : h.row.status = .cancelled → h.cancelled ≠ none
  completed : h.row.status = .completed → h.completed ≠ none
  files : h.completed = none → h.files = []

/-- What a step can do to the end of a session, and when it spares that end. -/
inductive EndStep (h h' : UploadHistory) (spares : Prop) : Prop where
  | keeps (status : h'.row.status = h.row.status) (fileId : h'.row.fileId = h.row.fileId)
      (files : h'.files = h.files) (cancelled : h'.cancelled = h.cancelled)
      (completed : h'.completed = h.completed) (always : spares)
  | opens (status : ¬ h'.row.status.Ended)
      (files : h'.files = h.files) (cancelled : h'.cancelled = h.cancelled)
      (completed : h'.completed = h.completed) (exact_ : spares ↔ ¬ h.row.status.Ended)
  | cancels (status : h'.row.status = .cancelled) (files : h'.files = h.files)
      (cancelled : h'.cancelled = some (h.cancelled.getD h.files))
      (completed : h'.completed = h.completed) (exact_ : spares ↔ h.row.status ≠ .completed)
  | publishes (fileId : Uuid) (payload : List UInt8) (open_ : ¬ h.row.status.Ended)
      (same : h' = h.publish fileId payload) (always : spares)

variable {spares : Prop}

theorem ended_iff (settled : h.Settled) (once : h.EndsOnce) :
    h.row.status.Ended ↔ h.cancelled ≠ none ∨ h.completed ≠ none := by
  constructor
  · rintro (cancelled | completed)
    · exact .inl (settled.cancelled cancelled)
    · exact .inr (settled.completed completed)
  · rintro (cancelled | completed)
    · obtain ⟨files, known⟩ := Option.ne_none_iff_exists'.mp cancelled
      exact .inl (once.cancelled files known).1
    · obtain ⟨fileId, known⟩ := Option.ne_none_iff_exists'.mp completed
      exact .inr (once.completed fileId known).1

theorem completed_iff (settled : h.Settled) (once : h.EndsOnce) :
    h.row.status = .completed ↔ h.completed ≠ none := by
  refine ⟨settled.completed, fun completed => ?_⟩
  obtain ⟨fileId, known⟩ := Option.ne_none_iff_exists'.mp completed
  exact (once.completed fileId known).1

theorem settled_of_endStep (settled : h.Settled) (ends : EndStep h h' spares) : h'.Settled := by
  cases ends with
  | keeps status fileId files cancelled completed =>
    constructor
    · rw [status, cancelled]
      exact settled.cancelled
    · rw [status, completed]
      exact settled.completed
    · rw [completed, files]
      exact settled.files
  | opens status files cancelled completed =>
    refine ⟨fun is => (status (.inl is)).elim, fun is => (status (.inr is)).elim, ?_⟩
    rw [completed, files]
    exact settled.files
  | cancels status files cancelled completed =>
    refine ⟨fun _ => ?_, fun is => ?_, ?_⟩
    · rw [cancelled]
      exact Option.some_ne_none _
    · rw [status] at is
      cases is
    · rw [completed, files]
      exact settled.files
  | publishes fileId payload open_ same =>
    subst same
    refine ⟨fun is => ?_, fun _ => Option.some_ne_none _, fun none_ => ?_⟩
    · cases is
    · cases none_

theorem endsOnce_iff_of_endStep (settled : h.Settled) (once : h.EndsOnce)
    (ends : EndStep h h' spares) : h'.EndsOnce ↔ spares := by
  cases ends with
  | keeps status fileId files cancelled completed always =>
    refine iff_of_true ⟨?_, ?_, ?_⟩ always
    · rw [cancelled, status, files]
      exact once.cancelled
    · rw [completed, status, fileId]
      exact once.completed
    · rw [files]
      exact once.once
  | opens status files cancelled completed exact_ =>
    rw [exact_, ended_iff settled once]
    constructor
    · rintro after (isCancelled | isCompleted)
      · obtain ⟨before, known⟩ := Option.ne_none_iff_exists'.mp isCancelled
        exact status (.inl (after.cancelled before (cancelled.trans known)).1)
      · obtain ⟨fileId, known⟩ := Option.ne_none_iff_exists'.mp isCompleted
        exact status (.inr (after.completed fileId (completed.trans known)).1)
    · intro free
      refine ⟨fun before known => ?_, fun fileId known => ?_, files ▸ once.once⟩
      · have recorded : h.cancelled = some before := cancelled.symm.trans known
        exact (free (.inl (Option.ne_none_iff_exists'.mpr ⟨before, recorded⟩))).elim
      · have recorded : h.completed = some fileId := completed.symm.trans known
        exact (free (.inr (Option.ne_none_iff_exists'.mpr ⟨fileId, recorded⟩))).elim
  | cancels status files cancelled completed exact_ =>
    rw [exact_, ne_eq, completed_iff settled once]
    constructor
    · intro after isCompleted
      obtain ⟨fileId, known⟩ := Option.ne_none_iff_exists'.mp isCompleted
      have still := (after.completed fileId (completed.trans known)).1
      rw [status] at still
      cases still
    · intro free
      refine ⟨fun before known => ⟨status, ?_⟩, fun fileId known => ?_, files ▸ once.once⟩
      · rw [files]
        have recorded : h.cancelled.getD h.files = before := Option.some.inj (cancelled.symm.trans known)
        cases earlier : h.cancelled with
        | none => rwa [earlier] at recorded
        | some first =>
          rw [earlier] at recorded
          exact ((once.cancelled first earlier).2).trans recorded
      · have recorded : h.completed = some fileId := completed.symm.trans known
        exact (free (Option.ne_none_iff_exists'.mpr ⟨fileId, recorded⟩)).elim
  | publishes fileId payload open_ same always =>
    subst same
    rw [ended_iff settled once, not_or, not_not, not_not] at open_
    have none_yet := settled.files open_.2
    refine iff_of_true ⟨fun before known => ?_, fun other known => ⟨rfl, ?_⟩, ?_⟩ always
    · cases open_.1.symm.trans known
    · have first : h.completed.getD (some fileId) = other := Option.some.inj known
      rw [open_.2] at first
      exact first
    · show (h.files ++ [(fileId, payload)]).length ≤ 1
      rw [none_yet]
      exact le_refl 1

theorem status_commit (read written : LibraryUpload) : (h.commit read written).row.status =
    if written.status = read.status then h.row.status else written.status := rfl

theorem fileId_commit (read written : LibraryUpload) (same : written.fileId = read.fileId) :
    (h.commit read written).row.fileId = h.row.fileId := if_pos same

theorem endStep_commit (read written : LibraryUpload) (fileId : written.fileId = read.fileId)
    (status : ¬ written.status.Ended) (acknowledged : List Nat) :
    EndStep h { h.commit read written with acknowledged := acknowledged }
      (read.status ≠ written.status → ¬ h.row.status.Ended) := by
  have writes := status_commit (h := h) read written
  by_cases same : written.status = read.status
  · rw [if_pos same] at writes
    exact .keeps writes (fileId_commit read written fileId) rfl rfl rfl
      fun differ => absurd same.symm differ
  · rw [if_neg same] at writes
    have changed : read.status ≠ written.status := fun back => same back.symm
    refine .opens ?_ rfl rfl rfl ⟨fun spared => spared changed, fun open_ _ => open_⟩
    show ¬ (h.commit read written).row.status.Ended
    rw [writes]
    exact status

theorem EndStep.same {spares : Prop} (always : spares) : EndStep h h spares :=
  .keeps rfl rfl rfl rfl rfl always

theorem endStep_claim : EndStep h h.claim.1 True := by
  unfold claim
  split
  · exact .same trivial
  · exact .same trivial
  · rename_i notCancelled notCompleted
    refine .opens ?_ rfl rfl rfl (iff_of_true trivial ?_)
    · rintro (is | is) <;> cases is
    · rintro (is | is)
      · exact notCancelled is
      · exact notCompleted is

/-- What a step of one call does to the end of the session. -/
theorem endStep_next (reads : p.Reads) : EndStep h (next turn h p).1 (h.SparesEnd p) := by
  cases p with
  | chunkCalled | completeCalled =>
    simp only [next]
    split <;> exact .same trivial
  | receiving =>
    simp only [next]
    split
    · exact .same trivial
    split
    · exact .same trivial
    · exact .keeps rfl rfl rfl rfl rfl trivial
  | recording copy index =>
    have open_ : ¬ (copy.recorded index).status.Ended := by rintro (is | is) <;> cases is
    exact endStep_commit copy (copy.recorded index) rfl open_ _
  | queueing copy =>
    have open_ : ¬ copy.queued.status.Ended := by rintro (is | is) <;> cases is
    exact endStep_commit copy copy.queued rfl open_ h.acknowledged
  | delaying =>
    simp only [next]
    split
    · exact .same trivial
    · exact .keeps rfl rfl rfl rfl rfl trivial
  | unqueueing copy =>
    have isQueued : copy.status = .queued := reads
    have open_ : ¬ copy.unqueued.status.Ended := by rintro (is | is) <;> cases is
    have writes := status_commit (h := h) copy copy.unqueued
    rw [if_neg (by rw [isQueued]; exact fun is => by cases is)] at writes
    refine .opens ?_ rfl rfl rfl Iff.rfl
    show ¬ (h.commit copy copy.unqueued).row.status.Ended
    rw [writes]
    exact open_
  | cancelCalled | enqueueing | returned | raised => exact .same trivial
  | cancelling copy =>
    have open_ : ¬ copy.status.Ended := reads
    have writes := status_commit (h := h) copy copy.withdrawn
    rw [if_neg (fun is => open_ (.inl is.symm))] at writes
    exact .cancels writes rfl rfl rfl Iff.rfl
  | finalizeCalled =>
    simp only [next]
    split
    · exact .same trivial
    split
    · exact .same trivial
    · exact endStep_claim
  | assembling =>
    simp only [next]
    split
    · exact .same trivial
    split <;> exact .same trivial
  | naming =>
    simp only [next]
    split
    · exact .same trivial
    split
    · exact .same trivial
    · exact .keeps (if_pos rfl) (if_pos rfl) rfl rfl rfl trivial
  | publishing copy payload =>
    simp only [next]
    split
    · exact .same trivial
    split
    · exact .same trivial
    · rename_i open_
      exact .publishes turn.fileId payload open_ rfl trivial
  | exhausting =>
    simp only [next]
    split
    · exact .same trivial
    split
    · exact .same trivial
    · rename_i open_
      refine .opens ?_ rfl rfl rfl (iff_of_true trivial open_)
      rintro (is | is) <;> cases is
  | cleaning =>
    simp only [next]
    split
    · exact .keeps rfl rfl rfl rfl rfl trivial
    · exact .same trivial

theorem reads_handled (turn : UploadTurn) : (handled turn).Reads := by
  rw [handled]
  split <;> trivial

theorem reads_next (reads : p.Reads) : (next turn h p).2.Reads := by
  cases p with
  | chunkCalled | cleaning =>
    simp only [next]
    split <;> trivial
  | receiving | exhausting =>
    simp only [next]
    split
    · trivial
    split <;> trivial
  | recording | unqueueing | cancelling | returned | raised => trivial
  | completeCalled =>
    simp only [next]
    split
    · trivial
    show UploadPoint.Reads (if _ then _ else _)
    split <;> trivial
  | queueing => exact rfl
  | delaying =>
    simp only [next]
    split
    · exact reads
    · trivial
  | cancelCalled =>
    show UploadPoint.Reads (if _ then _ else _)
    split
    · trivial
    · rename_i open_
      rintro (is | is) <;> exact open_ (by simp [is])
  | finalizeCalled =>
    simp only [next]
    split
    · trivial
    split
    · exact reads_handled turn
    · rw [claim]
      split <;> trivial
  | assembling =>
    simp only [next]
    split
    · exact reads_handled turn
    split
    · exact reads_handled turn
    show UploadPoint.Reads (if _ then _ else _)
    split <;> trivial
  | naming | publishing =>
    simp only [next]
    split
    · exact reads_handled turn
    split <;> trivial
  | enqueueing =>
    show UploadPoint.Reads (if _ then _ else _)
    split
    · exact reads_handled turn
    · trivial

end UploadHistory

namespace UploadSystem

def SparesEndTurn (s : UploadSystem) (turn : Nat × UploadTurn) : Prop :=
  ∀ p ∈ s.calls[turn.1]?, s.shared.SparesEnd p

structure Orderly (s : UploadSystem) : Prop where
  settled : s.shared.Settled
  reads : ∀ p ∈ s.calls, p.Reads

variable {s : UploadSystem} {turn : Nat × UploadTurn}

theorem orderly_step (orderly : s.Orderly) : (s.step turn).Orderly := by
  cases here : s.calls[turn.1]? with
  | none =>
    rw [step, Interleaving.advance_of_none _ _ here]
    exact orderly
  | some p =>
    have reads := orderly.reads p (List.mem_of_getElem? here)
    rw [step_of_some here]
    refine ⟨UploadHistory.settled_of_endStep orderly.settled (UploadHistory.endStep_next reads), ?_⟩
    intro other member
    rcases List.mem_or_eq_of_mem_set member with old | rfl
    · exact orderly.reads other old
    · exact UploadHistory.reads_next reads

theorem endsOnce_step_iff (orderly : s.Orderly) (once : s.shared.EndsOnce) :
    (s.step turn).shared.EndsOnce ↔ s.SparesEndTurn turn := by
  cases here : s.calls[turn.1]? with
  | none =>
    rw [step, Interleaving.advance_of_none _ _ here]
    refine iff_of_true once fun p at_ => ?_
    rw [here] at at_
    cases at_
  | some p =>
    have reads := orderly.reads p (List.mem_of_getElem? here)
    rw [step_of_some here, SparesEndTurn, here,
      UploadHistory.endsOnce_iff_of_endStep orderly.settled once (UploadHistory.endStep_next reads)]
    constructor
    · rintro spares _ ⟨⟩
      exact spares
    · intro all
      exact all p rfl

theorem orderly_start (filename : String) (renameOnConflict : Bool) (sizeBytes : Nat)
    (calls : List UploadCall) :
    (start (newUpload filename renameOnConflict sizeBytes) calls).Orderly := by
  refine ⟨⟨fun is => ?_, fun is => ?_, fun _ => rfl⟩, fun p member => ?_⟩
  · cases is
  · cases is
  · obtain ⟨call, _, rfl⟩ := List.mem_map.mp member
    cases call <;> trivial

/-- The states of a run end the session once exactly when every commit spares its end. -/
theorem upload_ends_once_iff (filename : String) (renameOnConflict : Bool) (sizeBytes : Nat)
    (calls : List UploadCall) (turns : List (Nat × UploadTurn)) :
    (∀ s ∈ trace step (start (newUpload filename renameOnConflict sizeBytes) calls) turns,
        s.shared.EndsOnce) ↔
      Guarded SparesEndTurn step (start (newUpload filename renameOnConflict sizeBytes) calls)
        turns := by
  refine forall_trace_iff_guarded (fun s turn orderly => orderly_step orderly)
    (fun s turn orderly once => endsOnce_step_iff orderly once)
    (orderly_start filename renameOnConflict sizeBytes calls) ⟨?_, ?_, ?_⟩
  · rintro _ ⟨⟩
  · rintro _ ⟨⟩
  · exact Nat.zero_le 1

/-- A session of one byte and a chunk, a complete, a cancel and a worker call. `complete` reads the
row before `cancel` commits and commits after it; the worker joins the chunk before it is deleted. -/
def overtakenCancel : UploadSystem × List (Nat × UploadTurn) :=
  (start (newUpload "note.md" false 1) [.chunk ⟨0, some (some 1), [65]⟩, .complete, .cancel, .finalize],
    [0, 0, 0, 1, 2, 2, 1, 1, 3, 3, 3].map fun i => (i, quietTurn))

/-- A file is published after the cancellation was committed. -/
theorem complete_overtakes_cancel :
    ∃ s ∈ trace step overtakenCancel.1 overtakenCancel.2,
      s.shared.cancelled = some [] ∧ s.shared.files = [(7, [65])] ∧ ¬ s.shared.EndsOnce := by
  have last : (run step overtakenCancel.1 overtakenCancel.2).shared.cancelled = some [] ∧
      (run step overtakenCancel.1 overtakenCancel.2).shared.files = [(7, [65])] := by
    decide +kernel
  refine ⟨_, run_mem_trace _ _ _, last.1, last.2, fun once => ?_⟩
  have none_ := (once.cancelled [] last.1).2
  rw [last.2] at none_
  cases none_

end UploadSystem

end AverQel.Library
