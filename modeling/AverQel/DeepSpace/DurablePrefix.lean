/- digest: The committed events of a fan-out are the first ones submitted, and a last frame waits
   for them. -/
import Mathlib.Data.List.ReduceOption
import AverQel.DeepSpace.RunEvents

namespace AverQel.DeepSpace

open Foundation
open Foundation.Transition

def Flushed (committed : List PendingRunEvent) (event : PendingRunEvent) : Prop :=
  ∃ front, front ++ [event] <+: committed

theorem Flushed.mono {committed committed' : List PendingRunEvent} {event : PendingRunEvent}
    (flushed : Flushed committed event) (more : committed <+: committed') :
    Flushed committed' event := by
  obtain ⟨front, leads⟩ := flushed
  exact ⟨front, leads.trans more⟩

namespace Producer

def blocked : Producer → List PendingRunEvent
  | putting event => [event]
  | idle | joining _ | placing _ | closing | stopping | closingLive | stoppingLive | closed => []

def current : Producer → Option PendingRunEvent
  | putting event | joining event | placing event => some event
  | idle | closing | stopping | closingLive | stoppingLive | closed => none

end Producer

namespace Fanout

/-- Where the submitted events are: committed, in the batch, in the queue or held back. -/
structure Stored (base : RunLog) (initial : Nat) (committed blocked : List PendingRunEvent)
    (s : Fanout) : Prop where
  numbered : s.submitted.map PendingRunEvent.sequence =
    List.range' (initial + 1) s.submitted.length
  next : s.nextSequence = initial + 1 + s.submitted.length
  shown : s.log.shown = base.shown ++ committed.map PendingRunEvent.shown
  ahead : committed <+: s.submitted
  order : s.persist ≠ .failed →
    s.submitted = committed ++ s.persist.unwritten ++ s.durable.items.reduceOption ++ blocked
  balanced : s.persist ≠ .failed → s.durable.Balanced s.persist.batch.length
  placed : ∀ event ∈ s.placed, event ∈ s.submitted
  flushed : ∀ event ∈ s.placed, event.isTerminal → Flushed committed event
  live : ∀ event, event ∈ s.published ∨ s.publish = .publishing event ∨
    some event ∈ s.live.items → event ∈ s.placed

/-- The events, and the event of the call in which the producer stands. -/
structure Ordered (base : RunLog) (initial : Nat) (committed : List PendingRunEvent)
    (s : Fanout) : Prop where
  stored : s.Stored base initial committed s.producer.blocked
  last : ∀ event, s.producer.current = some event → s.submitted.getLast? = some event
  placing : ∀ event, s.producer = .placing event → event.isTerminal → Flushed committed event

variable {base : RunLog} {initial : Nat} {committed blocked : List PendingRunEvent} {s : Fanout}
  {event : PendingRunEvent}

theorem Stored.producer (stored : s.Stored base initial committed blocked) (producer : Producer) :
    { s with producer := producer }.Stored base initial committed blocked :=
  { stored with }

theorem Ordered.of_stored {producer : Producer} (stored : s.Stored base initial committed [])
    (free : producer.blocked = []) (silent : producer.current = none) :
    { s with producer := producer }.Ordered base initial committed := by
  refine ⟨?_, ?_, ?_⟩
  · rw [free]
    exact stored.producer producer
  · intro event held
    rw [silent] at held
    cases held
  · rintro event rfl
    cases silent

theorem ordered_offerLive (stored : s.Stored base initial committed [])
    (last : s.submitted.getLast? = some event)
    (flushed : event.isTerminal → Flushed committed event) :
    (s.offerLive event).Ordered base initial committed := by
  unfold offerLive
  split
  · refine ⟨stored.producer _, ?_, ?_⟩
    · rintro other held
      cases held
      exact last
    · rintro other held
      cases held
      exact flushed
  · have member : event ∈ s.submitted := List.mem_of_getLast? last
    refine ⟨{ stored with placed := ?_, flushed := ?_, live := ?_ }, ?_, ?_⟩
    · intro other placed
      rcases List.mem_append.mp placed with old | new
      · exact stored.placed other old
      · rw [List.mem_singleton.mp new]
        exact member
    · intro other placed
      rcases List.mem_append.mp placed with old | new
      · exact stored.flushed other old
      · rw [List.mem_singleton.mp new]
        exact flushed
    · intro other seen
      have already (old : other ∈ s.published ∨ s.publish = .publishing other ∨
          some other ∈ s.live.items) : other ∈ s.placed ++ [event] :=
        List.mem_append_left _ (stored.live other old)
      rcases seen with published | publishing | waiting
      · exact already (.inl published)
      · exact already (.inr (.inl publishing))
      · rcases List.mem_append.mp waiting with old | new
        · exact already (.inr (.inr old))
        · cases List.mem_singleton.mp new
          exact List.mem_append_right _ (List.mem_singleton_self _)
    · intro other held
      cases held
    · intro other held
      cases held

theorem ordered_afterPut (stored : s.Stored base initial committed [])
    (last : s.submitted.getLast? = some event) :
    (s.afterPut event).Ordered base initial committed := by
  unfold afterPut
  split
  · exact .of_stored stored rfl rfl
  · split
    · refine ⟨stored.producer _, ?_, ?_⟩
      · rintro other held
        cases held
        exact last
      · rintro other held
        cases held
    · rename_i progress
      exact ordered_offerLive stored last fun terminal => absurd terminal progress

theorem ordered_offerDurable (stored : s.Stored base initial committed [event])
    (last : s.submitted.getLast? = some event) :
    (s.offerDurable event).Ordered base initial committed := by
  unfold offerDurable
  split
  · refine ⟨stored.producer _, ?_, ?_⟩
    · rintro other held
      cases held
      exact last
    · rintro other held
      cases held
  · refine ordered_afterPut { stored with order := ?_, balanced := ?_ } last
    · intro working
      rw [stored.order working, AsyncQueue.put, List.reduceOption_append]
      simp
    · intro working
      exact (stored.balanced working).put _

theorem ordered_submit (ordered : s.Ordered base initial committed) (idle : s.producer = .idle)
    (frame : String) (runId : Option Uuid) :
    (s.submit frame runId).Ordered base initial committed := by
  have stored := ordered.stored
  rw [idle] at stored
  unfold submit
  split
  · exact ordered
  · refine ordered_offerDurable ⟨?_, ?_, stored.shown, ?_, ?_, stored.balanced, ?_,
      stored.flushed, stored.live⟩ List.getLast?_concat
    · rw [List.map_append, stored.numbered, List.length_append, List.length_singleton,
        List.range'_concat, List.map_singleton, stored.next]
      simp
    · have next := stored.next
      show s.nextSequence + 1 = initial + 1 + (s.submitted ++ [_]).length
      rw [List.length_append, List.length_singleton]
      omega
    · exact stored.ahead.trans (List.prefix_append _ _)
    · intro working
      rw [stored.order working]
      simp [Producer.blocked]
    · intro other placed
      exact List.mem_append_left _ (stored.placed other placed)

theorem committed_of_joined (stored : s.Stored base initial committed [])
    (working : s.persist ≠ .failed) (joined : s.durable.joined = true) :
    s.submitted = committed := by
  obtain ⟨empty, none_taken⟩ := (stored.balanced working).joined_iff.mp joined
  have unwritten : s.persist.unwritten = [] := by
    have batch := List.length_eq_zero_iff.mp none_taken
    cases persist : s.persist with
    | collecting | writing =>
      rw [persist] at batch
      exact batch
    | _ => rfl
  rw [stored.order working, unwritten, empty]
  simp

theorem ordered_resume (ordered : s.Ordered base initial committed) :
    s.resume.Ordered base initial committed := by
  have stored := ordered.stored
  unfold resume
  cases here : s.producer with
  | putting event =>
    rw [here] at stored
    exact ordered_offerDurable stored (ordered.last event (by rw [here]; rfl))
  | joining event =>
    rw [here] at stored
    have last := ordered.last event (by rw [here]; rfl)
    dsimp only
    split
    · rename_i joined
      split
      · exact .of_stored stored rfl rfl
      · rename_i working
        have all := committed_of_joined stored working joined
        refine ordered_offerLive stored last fun _ => ?_
        obtain ⟨front, whole⟩ := List.getLast?_eq_some_iff.mp last
        rw [all] at whole
        exact ⟨front, whole ▸ List.prefix_rfl⟩
    · exact ordered
  | placing event =>
    rw [here] at stored
    exact ordered_offerLive stored (ordered.last event (by rw [here]; rfl))
      (ordered.placing event here)
  | closing =>
    rw [here] at stored
    dsimp only
    split
    · refine .of_stored (s := { s with durable := s.durable.put none })
        { stored with order := ?_, balanced := ?_ } rfl rfl
      · intro working
        rw [stored.order working, AsyncQueue.put, List.reduceOption_append]
        simp [Producer.blocked]
      · intro working
        exact (stored.balanced working).put _
    · exact ordered
  | stopping | stoppingLive =>
    rw [here] at stored
    dsimp only
    split
    · exact .of_stored stored rfl rfl
    · exact ordered
  | closingLive =>
    rw [here] at stored
    dsimp only
    split
    · refine .of_stored (s := { s with live := s.live.put none }) { stored with live := ?_ } rfl rfl
      intro event seen
      refine stored.live event ?_
      rcases seen with published | publishing | waiting
      · exact .inl published
      · exact .inr (.inl publishing)
      · rcases List.mem_append.mp waiting with old | new
        · exact .inr (.inr old)
        · cases List.mem_singleton.mp new
    · exact ordered
  | idle | closed => exact ordered

theorem Ordered.of_loop {s' : Fanout} {committed' : List PendingRunEvent}
    (ordered : s.Ordered base initial committed) (producer : s'.producer = s.producer)
    (submitted : s'.submitted = s.submitted) (more : committed <+: committed')
    (stored : s'.Stored base initial committed' s.producer.blocked) :
    s'.Ordered base initial committed' := by
  refine ⟨?_, ?_, ?_⟩
  · rw [producer]
    exact stored
  · intro event held
    rw [producer] at held
    rw [submitted]
    exact ordered.last event held
  · intro event held terminal
    rw [producer] at held
    exact (ordered.placing event held terminal).mono more

theorem reduceOption_cons {items later : List (Option PendingRunEvent)}
    {head : Option PendingRunEvent} (here : items = head :: later) :
    items.reduceOption = head.toList ++ later.reduceOption := by
  rw [here]
  cases head with
  | none => exact List.reduceOption_cons_of_none later
  | some event => exact List.reduceOption_cons_of_some event later

theorem ordered_collect (ordered : s.Ordered base initial committed)
    {later : List (Option PendingRunEvent)} (working : s.persist ≠ .failed)
    (collects : s.persist.unwritten = s.persist.batch)
    (items : s.durable.items = some event :: later) :
    { s with
      durable := s.durable.rest
      persist := .collecting (s.persist.batch ++ [event]) }.Ordered base initial committed := by
  have stored := ordered.stored
  refine ordered.of_loop rfl rfl List.prefix_rfl { stored with order := ?_, balanced := ?_ }
  · intro _
    rw [stored.order working, reduceOption_cons items, collects]
    simp [PersistLoop.unwritten, AsyncQueue.rest, items]
  · intro _
    have balanced := (stored.balanced working).rest items
    rwa [← List.length_singleton (a := event), ← List.length_append] at balanced

theorem ordered_stop (ordered : s.Ordered base initial committed)
    {later : List (Option PendingRunEvent)} {persist : PersistLoop} (working : s.persist ≠ .failed)
    (unwritten : persist.unwritten = s.persist.unwritten) (batch : persist.batch = s.persist.batch)
    (items : s.durable.items = none :: later) :
    { s with durable := s.durable.rest.taskDone 1, persist := persist }.Ordered base initial
      committed := by
  have stored := ordered.stored
  refine ordered.of_loop rfl rfl List.prefix_rfl { stored with order := ?_, balanced := ?_ }
  · intro _
    rw [stored.order working, reduceOption_cons items, unwritten]
    simp [AsyncQueue.rest, AsyncQueue.taskDone, items]
  · intro _
    rw [batch]
    exact ((stored.balanced working).rest items).taskDone

theorem ordered_take (ordered : s.Ordered base initial committed) :
    s.take.Ordered base initial committed := by
  unfold take
  split
  · rename_i event later waiting items
    have collected := ordered_collect ordered (by rw [waiting]; simp) (by rw [waiting]; rfl) items
    rw [waiting] at collected
    exact collected
  · rename_i later waiting items
    exact ordered_stop ordered (by rw [waiting]; simp) (by rw [waiting]; rfl)
      (by rw [waiting]; rfl) items
  · rename_i batch event later collecting items
    split
    · have collected := ordered_collect ordered (by rw [collecting]; simp)
        (by rw [collecting]; rfl) items
      rw [collecting] at collected
      exact collected
    · exact ordered
  · rename_i batch later collecting items
    split
    · exact ordered_stop ordered (by rw [collecting]; simp) (by rw [collecting]; rfl)
        (by rw [collecting]; rfl) items
    · exact ordered
  · exact ordered

theorem ordered_flush (ordered : s.Ordered base initial committed) :
    s.flush.Ordered base initial committed := by
  have stored := ordered.stored
  unfold flush
  split
  · rename_i batch collecting
    have working : s.persist ≠ .failed := by
      rw [collecting]
      simp
    refine ordered.of_loop rfl rfl List.prefix_rfl { stored with order := ?_, balanced := ?_ }
    · intro _
      have order := stored.order working
      rw [collecting] at order
      exact order
    · intro _
      have balanced := stored.balanced working
      rw [collecting] at balanced
      exact balanced
  · exact ordered

theorem ordered_commit (ordered : s.Ordered base initial committed) (fits : Bool) :
    ∃ committed', (s.commit fits).Ordered base initial committed' := by
  have stored := ordered.stored
  unfold commit
  split
  · rename_i batch stops writing
    have working : s.persist ≠ .failed := by
      rw [writing]
      simp
    have order := stored.order working
    rw [writing] at order
    split
    · rename_i log appended
      have more : committed <+: committed ++ batch := List.prefix_append committed batch
      refine ⟨committed ++ batch, ordered.of_loop rfl rfl more ⟨stored.numbered, stored.next, ?_,
        ?_, ?_, ?_, stored.placed, ?_, stored.live⟩⟩
      · rw [RunLog.shown_appendEventBatch appended, stored.shown, List.map_append,
          List.append_assoc]
      · rw [order, List.append_assoc]
        exact List.prefix_append _ _
      · intro _
        rw [order]
        simp [PersistLoop.unwritten]
      · intro _
        have balanced := stored.balanced working
        rw [writing] at balanced
        exact balanced
      · intro event placed terminal
        exact (stored.flushed event placed terminal).mono more
    · exact ⟨committed, ordered⟩
  · exact ⟨committed, ordered⟩

theorem ordered_done (ordered : s.Ordered base initial committed) :
    s.done.Ordered base initial committed := by
  have stored := ordered.stored
  unfold done
  split
  · rename_i batch stops written
    have working : s.persist ≠ .failed := by
      rw [written]
      simp
    refine ordered.of_loop rfl rfl List.prefix_rfl { stored with order := ?_, balanced := ?_ }
    · intro _
      have order := stored.order working
      rw [written] at order
      rw [order]
      cases stops <;> rfl
    · intro _
      have balanced := stored.balanced working
      rw [written] at balanced
      have marked : (s.durable.taskDone batch.length).Balanced 0 :=
        AsyncQueue.Balanced.taskDone (by rwa [Nat.zero_add])
      cases stops <;> exact marked
  · exact ordered

theorem ordered_fail (ordered : s.Ordered base initial committed) :
    s.fail.Ordered base initial committed := by
  have stored := ordered.stored
  have failed (durable : AsyncQueue (Option PendingRunEvent)) :
      { s with durable := durable, persist := .failed }.Ordered base initial committed :=
    ordered.of_loop rfl rfl List.prefix_rfl { stored with
      order := fun working => absurd rfl working
      balanced := fun working => absurd rfl working }
  unfold fail
  split
  · exact failed _
  · exact failed _
  · exact ordered

theorem ordered_live (ordered : s.Ordered base initial committed) {publish : PublishLoop}
    {live : AsyncQueue (Option PendingRunEvent)} {published : List PendingRunEvent}
    (seen : ∀ event, event ∈ published ∨ publish = .publishing event ∨ some event ∈ live.items →
      event ∈ s.published ∨ s.publish = .publishing event ∨ some event ∈ s.live.items) :
    { s with publish := publish, live := live, published := published }.Ordered base initial
      committed := by
  have stored := ordered.stored
  exact ordered.of_loop rfl rfl List.prefix_rfl
    { stored with live := fun event now => stored.live event (seen event now) }

theorem ordered_takeLive (ordered : s.Ordered base initial committed) :
    s.takeLive.Ordered base initial committed := by
  unfold takeLive
  split
  · rename_i head later waiting items
    refine ordered_live ordered fun event seen => ?_
    rcases seen with published | publishing | queued
    · exact .inl published
    · cases publishing
      rw [items]
      exact .inr (.inr List.mem_cons_self)
    · exact .inr (.inr (List.mem_of_mem_tail queued))
  · refine ordered_live ordered fun event seen => ?_
    rcases seen with published | publishing | queued
    · exact .inl published
    · cases publishing
    · exact .inr (.inr (List.mem_of_mem_tail queued))
  · exact ordered

theorem ordered_publishEvent (ordered : s.Ordered base initial committed) (delivered : Bool) :
    (s.publishEvent delivered).Ordered base initial committed := by
  unfold publishEvent
  split
  · rename_i event publishing
    refine ordered_live ordered fun other seen => ?_
    rcases seen with published | publishingNow | queued
    · split at published
      · rcases List.mem_append.mp published with old | new
        · exact .inl old
        · rw [List.mem_singleton.mp new]
          exact .inr (.inl publishing)
      · exact .inl published
    · cases publishingNow
    · exact .inr (.inr queued)
  · exact ordered

theorem ordered_failLive (ordered : s.Ordered base initial committed) :
    s.failLive.Ordered base initial committed := by
  unfold failLive
  split
  · refine ordered_live ordered fun event seen => ?_
    rcases seen with published | publishing | queued
    · exact .inl published
    · cases publishing
    · cases queued
  · exact ordered

theorem ordered_step (ordered : s.Ordered base initial committed) (move : FanoutStep) :
    ∃ committed', (s.step move).Ordered base initial committed' := by
  cases move with
  | submit frame runId =>
    refine ⟨committed, ?_⟩
    simp only [step]
    split
    · rename_i idle
      exact ordered_submit ordered idle frame runId
    · exact ordered
  | close =>
    refine ⟨committed, ?_⟩
    simp only [step]
    split
    · rename_i idle
      have stored := ordered.stored
      rw [idle] at stored
      exact .of_stored stored rfl rfl
    · exact ordered
  | resume => exact ⟨committed, ordered_resume ordered⟩
  | take => exact ⟨committed, ordered_take ordered⟩
  | flush => exact ⟨committed, ordered_flush ordered⟩
  | commit fits => exact ordered_commit ordered fits
  | done => exact ⟨committed, ordered_done ordered⟩
  | fail => exact ⟨committed, ordered_fail ordered⟩
  | takeLive => exact ⟨committed, ordered_takeLive ordered⟩
  | publish delivered => exact ⟨committed, ordered_publishEvent ordered delivered⟩
  | failLive => exact ⟨committed, ordered_failLive ordered⟩

theorem ordered_start (base : RunLog) (initialSequence : Int) :
    (start base initialSequence).Ordered base (max 0 initialSequence).toNat [] := by
  refine ⟨⟨rfl, rfl, (List.append_nil _).symm, List.prefix_rfl, fun _ => rfl,
    fun _ => AsyncQueue.balanced_empty, ?_, ?_, ?_⟩, ?_, ?_⟩
  · intro event placed
    cases placed
  · intro event placed
    cases placed
  · rintro event (published | publishing | queued)
    · cases published
    · cases publishing
    · cases queued
  · intro event held
    cases held
  · intro event held
    cases held

theorem ordered_trace (base : RunLog) (initialSequence : Int) (moves : List FanoutStep) :
    ∀ t ∈ trace step (start base initialSequence) moves,
      ∃ committed, t.Ordered base (max 0 initialSequence).toNat committed :=
  invariant_of_keeps
    (I := fun t : Fanout => ∃ committed, t.Ordered base (max 0 initialSequence).toNat committed)
    (fun _ move kept => by
      obtain ⟨committed, ordered⟩ := kept
      exact ordered_step ordered move)
    ⟨[], ordered_start base initialSequence⟩ moves

/-- The submitted events carry the next sequences, the log shows the first of them behind what it
showed before, and a last frame on the live queue is in the log with everything before it. -/
structure DurablePrefix (base : RunLog) (initial : Nat) (s : Fanout) : Prop where
  numbered : s.submitted.map PendingRunEvent.sequence =
    List.range' (initial + 1) s.submitted.length
  committed : ∃ k ≤ s.submitted.length,
    s.log.shown = base.shown ++ (s.submitted.take k).map PendingRunEvent.shown
  terminal : ∀ event ∈ s.placed, event.isTerminal → event ∈ s.submitted ∧
    ∀ earlier ∈ s.submitted, earlier.sequence ≤ event.sequence →
      earlier.shown ∈ s.log.shown

theorem mem_of_sequence_le
    (numbered : s.submitted.map PendingRunEvent.sequence =
      List.range' (initial + 1) s.submitted.length)
    {front : List PendingRunEvent} {event earlier : PendingRunEvent}
    (leads : front ++ [event] <+: s.submitted) (member : earlier ∈ s.submitted)
    (order : earlier.sequence ≤ event.sequence) : earlier ∈ front ++ [event] := by
  obtain ⟨tail, whole⟩ := leads
  rw [← whole] at member
  refine (List.mem_append.mp member).resolve_right fun later => ?_
  have increasing : (s.submitted.map PendingRunEvent.sequence).Pairwise (· < ·) := by
    rw [numbered]
    exact List.pairwise_lt_range'
  rw [← whole, List.map_append] at increasing
  have below := (List.pairwise_append.mp increasing).2.2 event.sequence
    (List.mem_map_of_mem (List.mem_append_right _ (List.mem_singleton_self _)))
    earlier.sequence (List.mem_map_of_mem later)
  omega

theorem durablePrefix_of_ordered (ordered : s.Ordered base initial committed) :
    s.DurablePrefix base initial := by
  have stored := ordered.stored
  refine ⟨stored.numbered, ⟨committed.length, stored.ahead.length_le, ?_⟩, ?_⟩
  · rw [stored.shown, ← List.prefix_iff_eq_take.mp stored.ahead]
  · intro event placed terminal
    refine ⟨stored.placed event placed, fun earlier member order => ?_⟩
    obtain ⟨front, leads⟩ := stored.flushed event placed terminal
    have within := mem_of_sequence_le stored.numbered (leads.trans stored.ahead) member order
    rw [stored.shown]
    exact List.mem_append_right _ (List.mem_map_of_mem (leads.subset within))

/-- In every state of every fan-out, whatever the order of the three tasks, the batches and the
errors of the database, the committed events are the first submitted ones, and a last frame on
the live queue is committed with everything before it. -/
theorem durable_log_is_prefix (base : RunLog) (initialSequence : Int) (moves : List FanoutStep) :
    ∀ s ∈ trace step (start base initialSequence) moves,
      s.DurablePrefix base (max 0 initialSequence).toNat := by
  intro s member
  obtain ⟨committed, ordered⟩ := ordered_trace base initialSequence moves s member
  exact durablePrefix_of_ordered ordered

def finishStream : List FanoutStep :=
  [ .submit "data: x" none, .take, .flush, .commit true, .done, .submit "event: done" none, .take,
    .flush, .commit true, .done, .resume, .takeLive, .publish true ]

theorem last_frame_follows_token :
    (run step (start .empty 0) finishStream).placed.map PendingRunEvent.shown =
        [(1, "data: x"), (2, "event: done")] ∧
      (run step (start .empty 0) finishStream).DurablePrefix .empty 0 :=
  ⟨by decide +kernel, durable_log_is_prefix .empty 0 finishStream _ (run_mem_trace step _ _)⟩

end Fanout

end AverQel.DeepSpace
