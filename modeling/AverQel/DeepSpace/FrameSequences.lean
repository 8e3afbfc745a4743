/- digest: When the frames appended behind a fan-out reuse the sequence of a frame it published. -/
import AverQel.DeepSpace.DurablePrefix

namespace AverQel.DeepSpace

open Foundation Transition

namespace RunLog

variable {log log' : RunLog}

theorem latestSequence_eq (log : RunLog) :
    log.latestSequence = (log.shown.map Prod.fst).foldl max 0 := by
  unfold latestSequence shown
  rw [List.map_map]
  rfl

variable {frame : String}

theorem le_latestSequence {sequence : Nat} (stored : (sequence, frame) ∈ log.shown) :
    sequence ≤ log.latestSequence := by
  rw [latestSequence_eq]
  exact (le_foldl_max _ 0).2 sequence (List.mem_map_of_mem stored)

theorem frame_unique {sequence : Nat} {frame frame' : String}
    (one : (sequence, frame) ∈ log.shown) (other : (sequence, frame') ∈ log.shown) :
    frame = frame' := by
  obtain ⟨row, member, shown⟩ := List.mem_map.mp one
  obtain ⟨row', member', shown'⟩ := List.mem_map.mp other
  obtain ⟨rfl, rfl⟩ := Prod.mk.inj shown
  obtain ⟨same, rfl⟩ := Prod.mk.inj shown'
  rw [log.eq_of_key_eq member' member same]

/-- `append_event` fails only at the storage quota. -/
theorem appendEvent_fits (frame : String) (runId : Option Uuid) (log : RunLog) :
    ∃ log', log.appendEvent frame runId true = some log' := by
  have fresh : (log.nextEvent frame runId).sequence ∉
      (link [log.nextEvent frame runId] log).rows.map PendingRunEvent.sequence := by
    intro taken
    obtain ⟨row, member, same⟩ := List.mem_map.mp taken
    have stored : row.shown ∈ (link [log.nextEvent frame runId] log).shown :=
      List.mem_map_of_mem member
    rw [shown_link] at stored
    have below := le_latestSequence stored
    have next : row.sequence = log.latestSequence + 1 := same
    omega
  obtain ⟨log', inserted, _⟩ := Table.insert?_of_fresh fresh
  refine ⟨log', ?_⟩
  simp only [appendEvent, appendEventBatch, if_true, addAll]
  rw [inserted]
  rfl

theorem shown_appendEvent {runId : Option Uuid} {fits : Bool}
    (appended : log.appendEvent frame runId fits = some log') :
    log'.shown = log.shown ++ [(log.latestSequence + 1, frame)] :=
  shown_appendEventBatch appended

theorem latestSequence_appendEvent {runId : Option Uuid} {fits : Bool}
    (appended : log.appendEvent frame runId fits = some log') :
    log'.latestSequence = log.latestSequence + 1 := by
  rw [latestSequence_eq log', shown_appendEvent appended, List.map_append, List.foldl_append,
    ← latestSequence_eq]
  exact Nat.max_eq_right (Nat.le_succ _)

end RunLog

/-- One call of `append_event`, with the answer of the storage quota and of Redis. -/
structure AppendCall where
  frame : String
  runId : Option Uuid
  (fits delivered : Bool)
  deriving DecidableEq, Repr

def admitted (calls : List AppendCall) : List String :=
  (calls.filter AppendCall.fits).map AppendCall.frame

structure EventStream where
  log : RunLog
  published : List PendingRunEvent

namespace EventStream

/-- `append_event` -/
def appendEvent (stream : EventStream) (call : AppendCall) : EventStream :=
  match stream.log.appendEvent call.frame call.runId call.fits with
  | none => stream
  | some log =>
    { log := log
      published :=
        if call.delivered then stream.published ++ [stream.log.nextEvent call.frame call.runId]
        else stream.published }

def Exposed (stream : EventStream) (sequence : Nat) (frame : String) : Prop :=
  (sequence, frame) ∈ stream.log.shown ∨
    (sequence, frame) ∈ stream.published.map PendingRunEvent.shown

def OneFrame (stream : EventStream) : Prop :=
  ∀ sequence frame frame', stream.Exposed sequence frame → stream.Exposed sequence frame' →
    frame = frame'

def NoReuse (stream : EventStream) (frames : List String) : Prop :=
  ∀ event ∈ stream.published, ∀ k frame, frames[k]? = some frame →
    event.sequence = stream.log.latestSequence + 1 + k → frame = event.frame

variable {stream : EventStream}

theorem appendEvent_cases (stream : EventStream) (call : AppendCall) :
    (call.fits = false ∧ stream.appendEvent call = stream) ∨
      (call.fits = true ∧ (stream.appendEvent call).log.shown =
          stream.log.shown ++ [(stream.log.latestSequence + 1, call.frame)] ∧
        (stream.appendEvent call).log.latestSequence = stream.log.latestSequence + 1 ∧
        stream.published ⊆ (stream.appendEvent call).published ∧
        ∀ event ∈ (stream.appendEvent call).published, event ∈ stream.published ∨
          event.shown ∈ (stream.appendEvent call).log.shown) := by
  cases fits : call.fits with
  | false =>
    refine .inl ⟨rfl, ?_⟩
    simp only [appendEvent, fits]
    rfl
  | true =>
    obtain ⟨log, appended⟩ := RunLog.appendEvent_fits call.frame call.runId stream.log
    have shown := RunLog.shown_appendEvent appended
    refine .inr ⟨rfl, ?_⟩
    simp only [appendEvent, fits, appended]
    refine ⟨shown, RunLog.latestSequence_appendEvent appended, ?_, ?_⟩
    · split
      · exact List.subset_append_left _ _
      · exact List.Subset.refl _
    · intro event member
      split at member
      · rcases List.mem_append.mp member with old | new
        · exact .inl old
        · rw [List.mem_singleton.mp new, shown]
          exact .inr (List.mem_append_right _ (List.mem_singleton_self _))
      · exact .inl member

theorem mem_shown_run (stream : EventStream) (calls : List AppendCall) (sequence : Nat)
    (frame : String) :
    (sequence, frame) ∈ (run appendEvent stream calls).log.shown ↔
      (sequence, frame) ∈ stream.log.shown ∨
        ∃ k, (admitted calls)[k]? = some frame ∧
          sequence = stream.log.latestSequence + 1 + k := by
  induction calls generalizing stream with
  | nil => simp [run, admitted]
  | cons call rest ih =>
    rw [run, ih]
    rcases stream.appendEvent_cases call with ⟨fits, same⟩ | ⟨fits, shown, latest, _⟩
    · have skipped : admitted (call :: rest) = admitted rest := by simp [admitted, fits]
      rw [same, skipped]
    · have added : admitted (call :: rest) = call.frame :: admitted rest := by
        simp [admitted, fits]
      rw [shown, latest, added, List.mem_append, List.mem_singleton, or_assoc]
      refine or_congr_right ?_
      constructor
      · rintro (new | ⟨k, here, order⟩)
        · obtain ⟨rfl, rfl⟩ := Prod.mk.inj new
          exact ⟨0, rfl, rfl⟩
        · exact ⟨k + 1, here, by omega⟩
      · rintro ⟨k, here, order⟩
        cases k with
        | zero => exact .inl (by rw [order, ← Option.some.inj here])
        | succ k => exact .inr ⟨k, here, by omega⟩

theorem published_run (stream : EventStream) (calls : List AppendCall) :
    stream.published ⊆ (run appendEvent stream calls).published ∧
      ∀ event ∈ (run appendEvent stream calls).published, event ∈ stream.published ∨
        event.shown ∈ (run appendEvent stream calls).log.shown := by
  induction calls generalizing stream with
  | nil => exact ⟨List.Subset.refl _, fun _ member => .inl member⟩
  | cons call rest ih =>
    obtain ⟨kept, stored⟩ := ih (stream.appendEvent call)
    rw [run]
    rcases stream.appendEvent_cases call with ⟨_, same⟩ | ⟨_, _, _, more, first⟩
    · rw [same] at kept stored ⊢
      exact ⟨kept, stored⟩
    · refine ⟨List.Subset.trans more kept, fun event member => ?_⟩
      rcases stored event member with old | new
      · refine (first event old).imp_right fun shown => ?_
        exact (mem_shown_run _ rest _ _).mpr (.inl shown)
      · exact .inr new

theorem oneFrame_run_iff (clean : stream.OneFrame) (calls : List AppendCall) :
    (run appendEvent stream calls).OneFrame ↔ stream.NoReuse (admitted calls) := by
  obtain ⟨kept, stored⟩ := published_run stream calls
  constructor
  · intro one event member k frame here order
    have appended : (event.sequence, frame) ∈ (run appendEvent stream calls).log.shown :=
      (mem_shown_run stream calls _ _).mpr (.inr ⟨k, here, order⟩)
    exact one event.sequence frame event.frame (.inl appended)
      (.inr (List.mem_map_of_mem (kept member)))
  · intro fresh
    have behind {event : PendingRunEvent} (member : event ∈ stream.published) {frame : String}
        (shown : (event.sequence, frame) ∈ (run appendEvent stream calls).log.shown) :
        frame = event.frame := by
      rcases (mem_shown_run stream calls _ _).mp shown with old | ⟨k, here, order⟩
      · exact clean event.sequence frame event.frame (.inl old)
          (.inr (List.mem_map_of_mem member))
      · exact fresh event member k frame here order
    -- What the calls publish is stored, so only the frames published before them are left.
    have sorted {sequence : Nat} {frame : String}
        (exposed : (run appendEvent stream calls).Exposed sequence frame) :
        (sequence, frame) ∈ (run appendEvent stream calls).log.shown ∨
          ∃ event ∈ stream.published, event.shown = (sequence, frame) := by
      rcases exposed with shown | published
      · exact .inl shown
      · obtain ⟨event, member, same⟩ := List.mem_map.mp published
        rcases stored event member with old | shown
        · exact .inr ⟨event, old, same⟩
        · exact .inl (same ▸ shown)
    intro sequence frame frame' one other
    rcases sorted one with shown | ⟨event, member, same⟩
    · rcases sorted other with shown' | ⟨event', member', same'⟩
      · exact RunLog.frame_unique shown shown'
      · obtain ⟨rfl, rfl⟩ := Prod.mk.inj same'
        exact behind member' shown
    · obtain ⟨rfl, rfl⟩ := Prod.mk.inj same
      rcases sorted other with shown' | ⟨event', member', same'⟩
      · exact (behind member shown').symm
      · obtain ⟨order, rfl⟩ := Prod.mk.inj same'
        refine clean event.sequence event.frame event'.frame
          (.inr (List.mem_map_of_mem member)) (.inr ?_)
        rw [← order]
        exact List.mem_map_of_mem member'

end EventStream

namespace Fanout

open EventStream (appendEvent)

def stream (s : Fanout) : EventStream := ⟨s.log, s.published⟩

variable {base : RunLog} {initial : Nat} {committed : List PendingRunEvent} {s : Fanout}

theorem frame_of_sequence (ordered : s.Ordered base initial committed)
    {event other : PendingRunEvent} (member : event ∈ s.submitted) (also : other ∈ s.submitted)
    (same : event.sequence = other.sequence) : event.frame = other.frame := by
  have distinct : (s.submitted.map PendingRunEvent.sequence).Nodup := by
    rw [ordered.stored.numbered]
    exact List.nodup_range'
  rw [List.inj_on_of_nodup_map distinct member also same]

theorem lt_sequence (ordered : s.Ordered base initial committed) {event : PendingRunEvent}
    (member : event ∈ s.submitted) : initial < event.sequence := by
  have number : event.sequence ∈ s.submitted.map PendingRunEvent.sequence :=
    List.mem_map_of_mem member
  rw [ordered.stored.numbered, List.mem_range'_1] at number
  omega

theorem oneFrame_of_ordered (ordered : s.Ordered base initial committed)
    (behind : base.latestSequence ≤ initial) : s.stream.OneFrame := by
  have stored := ordered.stored
  -- A frame is one of the log's first ones, or one that was submitted.
  have sorted {sequence : Nat} {frame : String} (exposed : s.stream.Exposed sequence frame) :
      (sequence, frame) ∈ base.shown ∧ sequence ≤ initial ∨
        ∃ event ∈ s.submitted, event.shown = (sequence, frame) := by
    rcases exposed with shown | published
    · have shown : (sequence, frame) ∈ s.log.shown := shown
      rw [stored.shown] at shown
      rcases List.mem_append.mp shown with old | new
      · have latest := RunLog.le_latestSequence old
        exact .inl ⟨old, by omega⟩
      · obtain ⟨event, member, same⟩ := List.mem_map.mp new
        exact .inr ⟨event, stored.ahead.subset member, same⟩
    · obtain ⟨event, member, same⟩ := List.mem_map.mp published
      exact .inr ⟨event, stored.placed event (stored.live event (.inl member)), same⟩
  intro sequence frame frame' one other
  rcases sorted one with ⟨old, early⟩ | ⟨event, member, same⟩
  · rcases sorted other with ⟨old', _⟩ | ⟨event', member', same'⟩
    · exact RunLog.frame_unique old old'
    · obtain ⟨rfl, rfl⟩ := Prod.mk.inj same'
      have late := lt_sequence ordered member'
      omega
  · obtain ⟨rfl, rfl⟩ := Prod.mk.inj same
    rcases sorted other with ⟨_, early⟩ | ⟨event', member', same'⟩
    · have late := lt_sequence ordered member
      omega
    · obtain ⟨order, rfl⟩ := Prod.mk.inj same'
      exact frame_of_sequence ordered member member' order.symm

/-- After every fan-out that starts at the end of its log, and any calls of `append_event` behind
it, no two frames are exposed under one sequence exactly if no admitted call takes the sequence of
a different frame that was published and never stored. -/
theorem one_frame_iff_no_reuse (base : RunLog) (moves : List FanoutStep)
    (calls : List AppendCall) :
    (run appendEvent (run step (start base base.latestSequence) moves).stream calls).OneFrame ↔
      (run step (start base base.latestSequence) moves).stream.NoReuse (admitted calls) := by
  obtain ⟨committed, ordered⟩ :=
    ordered_trace base base.latestSequence moves _ (run_mem_trace step _ moves)
  have behind : base.latestSequence ≤ (max 0 (base.latestSequence : Int)).toNat := by omega
  exact EventStream.oneFrame_run_iff (oneFrame_of_ordered ordered behind) calls

def loseToken : List FanoutStep :=
  [.submit "data: x" none, .takeLive, .publish true, .take, .flush, .fail]

def failureFrame : AppendCall where
  frame := "event: error"
  runId := none
  fits := true
  delivered := true

/-- The closing frame of a failed run gets the sequence of a token that subscribers have seen. -/
theorem failure_frame_reuses_sequence :
    ¬∀ (base : RunLog) (moves : List FanoutStep) (calls : List AppendCall),
      (run appendEvent (run step (start base base.latestSequence) moves).stream calls).OneFrame := by
  intro one
  have same := one .empty loseToken [failureFrame] 1 "data: x" "event: error"
    (.inr (by decide +kernel)) (.inl (by decide +kernel))
  simp at same

end Fanout

end AverQel.DeepSpace
