/- digest: Whether a fan-out whose database has failed leaves a frame that nobody finishes. -/
import AverQel.DeepSpace.DurablePrefix

namespace AverQel.DeepSpace

open Foundation
open Foundation.Transition

/-- The producer goes on with a `put` on the durable queue. -/
def Producer.puts : Producer → Bool
  | putting _ | closing => true
  | idle | joining _ | placing _ | stopping | closingLive | stoppingLive | closed => false

/-- The producer waits in a `join` of the durable queue. -/
def Producer.joins : Producer → Bool
  | joining _ | closing => true
  | idle | putting _ | placing _ | stopping | closingLive | stoppingLive | closed => false

/-- The producer has no `join` of the durable queue before it. -/
def Producer.leaves : Producer → Bool
  | stopping | closingLive | stoppingLive | closed => true
  | idle | putting _ | joining _ | placing _ | closing => false

/-- The task that makes a move. -/
inductive Party where
  | producer
  | persist
  | publish
  deriving DecidableEq, Repr

def FanoutStep.party : FanoutStep → Party
  | submit .. | close | resume => .producer
  | take | flush | commit _ | done | fail => .persist
  | takeLive | publish _ | failLive => .publish

namespace Fanout

def Settled (s : Fanout) : Prop := s.persist = .failed → s.durable.unfinished = 0

/-- No `put` comes through after the persist loop has failed. -/
def NoLatePut (s : Fanout) (move : FanoutStep) : Prop :=
  s.persist = .failed → move = .resume → s.producer.puts = false

def NoLateFrame (s : Fanout) (move : FanoutStep) : Prop :=
  s.persist = .failed → move = .resume → ∀ event, s.producer ≠ .putting event

def Covered (s : Fanout) : Prop := s.durable.items.length ≤ s.durable.unfinished

instance (s : Fanout) : Decidable s.Settled := inferInstanceAs (Decidable (_ → _))

instance (s : Fanout) (move : FanoutStep) : Decidable (s.NoLatePut move) :=
  inferInstanceAs (Decidable (_ → _))

section Frames

variable {s : Fanout} {event : PendingRunEvent}

/-- What a task leaves to the others. -/
structure PartyFrame (party : Party) (s s' : Fanout) : Prop where
  producer : party ≠ .producer → s'.producer = s.producer
  persist : party ≠ .persist → s'.persist = s.persist
  durable : party = .publish → s'.durable = s.durable

theorem frame_step (s : Fanout) (move : FanoutStep) : PartyFrame move.party s (s.step move) := by
  cases move with
  | _ =>
    simp only [step, submit, resume, offerDurable, afterPut, offerLive, take, flush, commit, done,
      fail, takeLive, publishEvent, failLive]
    repeat' split
    all_goals constructor <;> intro own <;> first | rfl | exact absurd rfl own | cases own

theorem step_eq_self_of_failed (failed : s.persist = .failed) {move : FanoutStep}
    (own : move.party = .persist) : s.step move = s := by
  cases move with
  | take => simp only [step, take, failed]
  | flush => simp only [step, flush, failed]
  | commit => simp only [step, commit, failed]
  | done => simp only [step, done, failed]
  | fail => simp only [step, fail, failed]
  | _ => cases own

/-- After the failure only a `put` of the producer changes the durable queue. -/
theorem step_of_failed (failed : s.persist = .failed) (move : FanoutStep) :
    (s.step move).persist = .failed ∧
      ((s.step move).durable = s.durable ∨
        move = .resume ∧ s.producer.puts = true ∧
          ∃ item, (s.step move).durable = s.durable.put item) := by
  cases own : move.party with
  | persist =>
    rw [step_eq_self_of_failed failed own]
    exact ⟨failed, .inl rfl⟩
  | publish =>
    have frame := frame_step s move
    rw [own] at frame
    exact ⟨(frame.persist Party.noConfusion).trans failed, .inl (frame.durable rfl)⟩
  | producer =>
    refine ⟨((frame_step s move).persist (by simp [own])).trans failed, ?_⟩
    cases move with
    | submit =>
      simp only [step, submit]
      rw [if_pos failed]
      split <;> exact .inl rfl
    | close =>
      simp only [step]
      split <;> exact .inl rfl
    | resume =>
      simp only [step, resume]
      cases here : s.producer with
      | putting event =>
        simp only [offerDurable, afterPut]
        rw [if_pos failed]
        split
        · exact .inl rfl
        · exact .inr ⟨trivial, rfl, some event, rfl⟩
      | joining =>
        dsimp only
        rw [if_pos failed]
        split <;> exact .inl rfl
      | placing event =>
        dsimp only [offerLive]
        split <;> exact .inl rfl
      | closing =>
        dsimp only
        split
        · exact .inr ⟨trivial, rfl, none, rfl⟩
        · exact .inl rfl
      | stopping | closingLive | stoppingLive =>
        dsimp only
        split <;> exact .inl rfl
      | idle | closed => exact .inl rfl
    | _ => cases own

/-- A `put` that comes through leaves something unfinished. -/
theorem unfinished_resume (failed : s.persist = .failed) (covered : s.Covered)
    (settled : s.durable.unfinished = 0) (puts : s.producer.puts = true) :
    (s.step .resume).durable.unfinished = 1 := by
  have waiting : s.durable.items.length = 0 := Nat.le_zero.mp (settled ▸ covered)
  simp only [step, resume]
  cases here : s.producer with
  | putting =>
    have room : s.durable.isFull queueSize = false := by
      simp [AsyncQueue.isFull, waiting, queueSize]
    simp only [offerDurable, room, afterPut, Bool.false_eq_true, if_false]
    rw [if_pos failed]
    show s.durable.unfinished + 1 = 1
    omega
  | closing =>
    have joined : s.durable.joined = true := decide_eq_true settled
    simp only [joined, if_true]
    show s.durable.unfinished + 1 = 1
    omega
  | _ =>
    rw [here] at puts
    cases puts

variable {base : RunLog}

theorem unfinished_fail {initial : Nat} {committed : List PendingRunEvent}
    (ordered : s.Ordered base initial committed) (working : s.persist ≠ .failed)
    (failed : s.fail.persist = .failed) : s.fail.durable.unfinished = 0 := by
  have balanced := ordered.stored.balanced working
  have marked {batch : List PendingRunEvent} (here : s.persist.batch = batch) :
      (s.durable.taskDone batch.length).drain.unfinished = 0 := by
    rw [here] at balanced
    have none_taken : (s.durable.taskDone batch.length).Balanced 0 :=
      AsyncQueue.Balanced.taskDone (by rwa [Nat.zero_add])
    exact none_taken.unfinished_drain
  unfold fail at failed ⊢
  split at failed
  · rename_i batch stops writing
    exact marked (by rw [writing]; rfl)
  · rename_i batch stops written
    exact marked (by rw [written]; rfl)
  · exact absurd failed working

theorem eq_fail_of_failed (working : s.persist ≠ .failed) {move : FanoutStep}
    (failed : (s.step move).persist = .failed) : move = .fail := by
  by_contra other
  by_cases own : move.party = .persist
  · cases move with
    | fail => exact other rfl
    | take | flush | commit | done =>
      simp only [step, take, flush, commit, done] at failed
      repeat' split at failed
      all_goals first | cases failed | exact working failed
    | _ => cases own
  · exact working (((frame_step s move).persist own).symm.trans failed)

theorem covered_step {initial : Nat}
    (kept : (∃ committed, s.Ordered base initial committed) ∧ (s.persist = .failed → s.Covered))
    (move : FanoutStep) (failed : (s.step move).persist = .failed) : (s.step move).Covered := by
  by_cases before : s.persist = .failed
  · have covered := kept.2 before
    rcases (step_of_failed before move).2 with same | ⟨_, _, item, late⟩
    · unfold Covered at covered ⊢
      rw [same]
      exact covered
    · unfold Covered at covered ⊢
      rw [late]
      show (s.durable.items ++ [item]).length ≤ s.durable.unfinished + 1
      rw [List.length_append, List.length_singleton]
      omega
  · obtain rfl := eq_fail_of_failed before failed
    have drained : s.fail.durable.items = [] := by
      cases here : s.persist with
      | writing batch stops | written batch stops =>
        simp only [fail, here]
        rfl
      | failed => exact absurd here before
      | _ =>
        simp only [step, fail, here] at failed
        cases failed
    unfold Covered
    show s.fail.durable.items.length ≤ _
    rw [drained]
    exact Nat.zero_le _

/-- One move keeps a failed queue finished exactly if no `put` comes through. -/
theorem settled_step_iff {initial : Nat}
    (kept : (∃ committed, s.Ordered base initial committed) ∧ (s.persist = .failed → s.Covered))
    (settled : s.Settled) (move : FanoutStep) : (s.step move).Settled ↔ s.NoLatePut move := by
  by_cases before : s.persist = .failed
  · have finished := settled before
    obtain ⟨failed, durable⟩ := step_of_failed before move
    constructor
    · rintro later - rfl
      by_contra puts
      have one := unfinished_resume before (kept.2 before) finished (eq_true_of_ne_false puts)
      have none_left := later failed
      omega
    · intro quiet _
      rcases durable with same | ⟨resumed, puts, _⟩
      · rw [same]
        exact finished
      · rw [quiet before resumed] at puts
        cases puts
  · constructor
    · intro _ failed
      exact absurd failed before
    · intro _ failed
      obtain ⟨committed, ordered⟩ := kept.1
      obtain rfl := eq_fail_of_failed before failed
      exact unfinished_fail ordered before failed

/-- No move takes the producer back before the last await of `close` on the durable queue. -/
theorem leaves_step (left : s.producer.leaves = true) (move : FanoutStep) :
    (s.step move).producer.leaves = true := by
  have busy : s.producer ≠ .idle := by
    intro idle
    rw [idle] at left
    cases left
  by_cases own : move.party = .producer
  · cases move with
    | submit | close =>
      simp only [step]
      rwa [if_neg busy]
    | resume =>
      simp only [step, resume]
      cases here : s.producer with
      | stopping | closingLive | stoppingLive =>
        dsimp only
        split
        · rfl
        · exact left
      | closed => exact left
      | _ =>
        rw [here] at left
        cases left
    | _ => cases own
  · rw [(frame_step s move).producer own]
    exact left

/-- After a failure only the sentinel of `close` is left unfinished, and no `join` behind it. -/
def Joinable (s : Fanout) : Prop :=
  s.persist = .failed → s.durable.unfinished = 0 ∨ s.producer.leaves = true

theorem joinable_step {initial : Nat}
    (kept : (∃ committed, s.Ordered base initial committed) ∧ s.Joinable) (move : FanoutStep)
    (quiet : s.NoLateFrame move) : (s.step move).Joinable := by
  intro failed
  by_cases before : s.persist = .failed
  · rcases kept.2 before with finished | left
    · rcases (step_of_failed before move).2 with same | ⟨rfl, puts, _, _⟩
      · rw [same]
        exact .inl finished
      · cases here : s.producer with
        | putting event => exact absurd here (quiet before rfl event)
        | closing =>
          have joined : s.durable.joined = true := decide_eq_true finished
          refine .inr ?_
          simp only [step, resume, here, joined, if_true]
          rfl
        | _ =>
          rw [here] at puts
          cases puts
    · exact .inr (leaves_step left move)
  · obtain ⟨committed, ordered⟩ := kept.1
    obtain rfl := eq_fail_of_failed before failed
    exact .inl (unfinished_fail ordered before failed)

end Frames

section Runs

variable (base : RunLog) (initialSequence : Int) (moves : List FanoutStep)

/-- In every fan-out the queue of a failed persist loop is and stays finished exactly if no `put`
comes through after the failure; and if only the sentinel of `close` does, every `join` still
returns. -/
theorem settled_iff_no_late_put :
    ((∀ s ∈ trace step (start base initialSequence) moves, s.Settled) ↔
      Guarded NoLatePut step (start base initialSequence) moves) ∧
    (Guarded NoLateFrame step (start base initialSequence) moves →
      ∀ s ∈ trace step (start base initialSequence) moves,
        s.persist = .failed → s.producer.joins = true → s.durable.joined = true) := by
  have begins := ordered_start base initialSequence
  have ordered (s : Fanout) (move : FanoutStep)
      (kept : ∃ committed, s.Ordered base (max 0 initialSequence).toNat committed) :
      ∃ committed, (s.step move).Ordered base (max 0 initialSequence).toNat committed := by
    obtain ⟨committed, ordered⟩ := kept
    exact ordered_step ordered move
  have working : (start base initialSequence).persist ≠ .failed := PersistLoop.noConfusion
  constructor
  · refine forall_trace_iff_guarded
      (I := fun s : Fanout => (∃ committed, s.Ordered base (max 0 initialSequence).toNat committed)
        ∧ (s.persist = .failed → s.Covered))
      (fun s move kept => ⟨ordered s move kept.1, covered_step kept move⟩)
      (fun s move kept settled => settled_step_iff kept settled move)
      ⟨⟨[], begins⟩, ?_⟩ ?_
    · intro failed
      exact absurd failed working
    · intro failed
      exact absurd failed working
  · intro quiet s member failed joins
    have kept := invariant_of_guarded
      (I := fun s : Fanout => (∃ committed, s.Ordered base (max 0 initialSequence).toNat committed)
        ∧ s.Joinable)
      (fun s move kept quiet => ⟨ordered s move kept.1, joinable_step kept move quiet⟩)
      ⟨⟨[], begins⟩, fun failed => absurd failed working⟩ quiet s member
    refine decide_eq_true ((kept.2 failed).resolve_right fun left => ?_)
    cases here : s.producer <;> simp [here, Producer.joins, Producer.leaves] at joins left

end Runs

variable {s : Fanout}

/-- `close` waits in its first `join` for a frame that nobody takes. -/
def Hangs (s : Fanout) : Prop :=
  s.persist = .failed ∧ s.durable.unfinished = 1 ∧ s.producer = .closing

theorem hangs_step (hangs : s.Hangs) (move : FanoutStep) : (s.step move).Hangs := by
  obtain ⟨failed, unfinished, closing⟩ := hangs
  have waits : s.durable.joined = false := decide_eq_false (by omega)
  cases own : move.party with
  | persist =>
    rw [step_eq_self_of_failed failed own]
    exact ⟨failed, unfinished, closing⟩
  | publish =>
    have frame := frame_step s move
    rw [own] at frame
    exact ⟨(frame.persist Party.noConfusion).trans failed,
      (congrArg AsyncQueue.unfinished (frame.durable rfl)).trans unfinished,
      (frame.producer Party.noConfusion).trans closing⟩
  | producer =>
    cases move with
    | submit | close =>
      simp only [step, closing]
      exact ⟨failed, unfinished, closing⟩
    | resume =>
      simp only [step, resume, closing, waits]
      exact ⟨failed, unfinished, closing⟩
    | _ => cases own

def tokenFrame : String := "data: x"

def fillOne : List FanoutStep := [.submit tokenFrame none, .takeLive, .publish true]

def fill : Nat → List FanoutStep
  | 0 => [.submit tokenFrame none, .take, .flush, .takeLive, .publish true]
  | count + 1 => fill count ++ fillOne

/-- The queue holds `count` frames, one frame is being written, and the live queue is empty. -/
structure Filled (count : Nat) (s : Fanout) : Prop where
  writing : ∃ event, s.persist = .writing [event] false
  waiting : s.publish = .waiting
  idle : s.producer = .idle
  live : s.live = ⟨[], 0⟩
  queued : s.durable.items.length = count
  unfinished : s.durable.unfinished = count + 1

theorem filled_fillOne {count : Nat} (filled : s.Filled count) (room : count < queueSize) :
    (run step s fillOne).Filled (count + 1) := by
  obtain ⟨⟨event, writing⟩, waiting, idle, live, queued, unfinished⟩ := filled
  have progress (sequence : Nat) :
      (PendingRunEvent.mk sequence tokenFrame none).isTerminal = false := by
    show isTerminalEvent (eventNameFromFrame tokenFrame) = false
    decide +kernel
  have notFull : ¬512 ≤ s.durable.items.length := by
    unfold queueSize at room
    omega
  have submitted : s.step (.submit tokenFrame none) =
      { s with
        nextSequence := s.nextSequence + 1
        submitted := s.submitted ++ [⟨s.nextSequence, tokenFrame, none⟩]
        durable := s.durable.put (some ⟨s.nextSequence, tokenFrame, none⟩)
        live := ⟨[some ⟨s.nextSequence, tokenFrame, none⟩], 1⟩
        placed := s.placed ++ [⟨s.nextSequence, tokenFrame, none⟩] } := by
    simp [step, submit, offerDurable, afterPut, offerLive, writing, notFull, progress, live,
      queueSize, AsyncQueue.isFull, AsyncQueue.put, idle]
  show (run step (s.step (.submit tokenFrame none)) [.takeLive, .publish true]).Filled (count + 1)
  rw [submitted]
  simp only [run, step, takeLive, waiting, publishEvent]
  refine ⟨⟨event, writing⟩, rfl, idle, rfl, ?_, ?_⟩
  · show (s.durable.items ++ [_]).length = count + 1
    rw [List.length_append, List.length_singleton, queued]
  · show s.durable.unfinished + 1 = count + 1 + 1
    rw [unfinished]

theorem filled_fill {count : Nat} (room : count ≤ queueSize) :
    (run step (start .empty 0) (fill count)).Filled count := by
  induction count with
  | zero =>
    refine ⟨⟨⟨1, tokenFrame, none⟩, ?_⟩, ?_, ?_, ?_, ?_, ?_⟩ <;> decide +kernel
  | succ count ih =>
    rw [fill, run_append]
    exact filled_fillOne (ih (by omega)) room

/-- The batch fails while the producer waits at the full queue; its `put` comes through after the
drain. -/
def fallBehind : List FanoutStep := [.submit tokenFrame none, .fail, .resume, .close]

theorem hangs_fallBehind (filled : s.Filled queueSize) : (run step s fallBehind).Hangs := by
  obtain ⟨⟨event, writing⟩, waiting, idle, live, queued, unfinished⟩ := filled
  have unfinished : s.durable.unfinished - 1 - 512 = 0 := by
    rw [unfinished]
    rfl
  simp [Hangs, fallBehind, run, step, submit, offerDurable, afterPut, resume, fail, writing, idle,
    queued, queueSize, unfinished, AsyncQueue.isFull, AsyncQueue.put, AsyncQueue.taskDone,
    AsyncQueue.drain]

/-- A frame whose `put` waited at the full queue when its batch failed is left unfinished, and
`close` never comes back. -/
theorem late_frame_hangs_close :
    (¬∀ (base : RunLog) (initialSequence : Int) (moves : List FanoutStep),
      ∀ s ∈ trace step (start base initialSequence) moves, s.Settled) ∧
    ∃ moves, ∀ more, (run step (start .empty 0) (moves ++ more)).Hangs := by
  have hangs : (run step (start .empty 0) (fill queueSize ++ fallBehind)).Hangs := by
    rw [run_append]
    exact hangs_fallBehind (filled_fill (Nat.le_refl _))
  constructor
  · intro settled
    have finished := settled .empty 0 _ _ (run_mem_trace step _ _) hangs.1
    have one := hangs.2.1
    omega
  · refine ⟨fill queueSize ++ fallBehind, fun more => ?_⟩
    rw [run_append]
    exact invariant_of_keeps (I := Hangs) (fun _ move hangs => hangs_step hangs move) hangs more _
      (run_mem_trace step _ _)

end Fanout

end AverQel.DeepSpace
