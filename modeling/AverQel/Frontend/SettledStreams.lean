/- digest: When no version of a thread is left streaming after its stream has ended. -/
import AverQel.Frontend.StreamTargets

namespace AverQel.Frontend

open Foundation.Text (nonempty)
open Foundation.Transition

namespace QueryThreadState

variable {env : ThreadEnvironment} {s : QueryThreadState}

def Settled (s : QueryThreadState) : Prop :=
  s.isStreaming = false → ∀ message ∈ s.messages,
    message.view.status ≠ .streaming ∧
      ∀ version ∈ message.versions, version.view.status ≠ .streaming

instance (s : QueryThreadState) : Decidable s.Settled := by
  delta Settled
  infer_instance

def StreamsOnly (s : QueryThreadState) (settles : String → String → Prop) : Prop :=
  ∀ message ∈ s.messages, ∀ version ∈ message.versions,
    version.view.status = .streaming → settles message.id version.id

/-- An action that ends the stream settles or removes every streaming version, and text arrives
only during a stream. -/
def SettlesStreams (s : QueryThreadState) : QueryThreadAction → Prop
  | .loadHistory conversationId messages => s.currentConversationId = some conversationId →
    s.StreamsOnly fun messageId _ => messageId ∈ messages.map fun message => message.id
  | .deleteMessageLocal messageId => s.activeAssistantId = some messageId →
    s.StreamsOnly fun streaming _ => streaming = messageId
  | .streamInterrupted => s.StreamsOnly fun messageId versionId =>
    s.droppedVersion = some (messageId, versionId) ∨ s.stoppedVersion = some (messageId, versionId)
  | .streamFinished => s.StreamsOnly fun _ _ => False
  | .streamFailed _ => s.StreamsOnly fun messageId versionId =>
    s.writtenVersion (nonempty s.activeAssistantId) = some (messageId, versionId)
  | .streamEvent (.error failure) _ _ => s.StreamsOnly fun messageId versionId =>
    s.writtenVersion (s.resolveTargetAssistantId (.error failure)) = some (messageId, versionId)
  | .streamEvent .done _ _ => s.StreamsOnly fun messageId versionId =>
    s.writtenVersion (s.resolveTargetAssistantId .done) = some (messageId, versionId)
  | .streamEvent (.thinking added) _ _ =>
    s.isStreaming = true ∨ s.writtenVersion (s.resolveTargetAssistantId (.thinking added)) = none
  | .streamEvent (.delta added) _ _ =>
    s.isStreaming = true ∨ s.writtenVersion (s.resolveTargetAssistantId (.delta added)) = none
  | _ => True

def Quiet (s : QueryThreadState) : Prop :=
  ∀ message ∈ s.messages, ∀ version ∈ message.versions, version.view.status ≠ .streaming

theorem quiet_iff_versionsOf : s.Quiet ↔
    ∀ messageId, ∀ version ∈ s.versionsOf messageId, version.view.status ≠ .streaming := by
  constructor
  · intro quiet messageId version member
    obtain ⟨message, held, _, there⟩ := mem_versionsOf.mp member
    exact quiet message held version there
  · intro quiet message held version there
    exact quiet message.id version (mem_versionsOf.mpr ⟨message, held, rfl, there⟩)

theorem streamsOnly_iff_versionsOf {settles : String → String → Prop} :
    s.StreamsOnly settles ↔ ∀ messageId, ∀ version ∈ s.versionsOf messageId,
      version.view.status = .streaming → settles messageId version.id := by
  constructor
  · intro only messageId version member
    obtain ⟨message, held, rfl, there⟩ := mem_versionsOf.mp member
    exact only message held version there
  · intro only message held version there
    exact only message.id version (mem_versionsOf.mpr ⟨message, held, rfl, there⟩)

theorem settled_iff_quiet (consistent : s.Consistent) :
    s.Settled ↔ (s.isStreaming = false → s.Quiet) := by
  refine forall_congr' fun _ => ⟨?_, ?_⟩
  · intro settled message member
    exact (settled message member).2
  · intro quiet message member
    obtain ⟨version, there, _, shown⟩ := (consistent.messages message member).active
    refine ⟨?_, quiet message member⟩
    rw [shown]
    exact quiet message member version there

theorem isStreaming_updateMessage (messageId : String)
    (updater : QueryThreadMessage → QueryThreadMessage) :
    (s.updateMessage messageId updater).isStreaming = s.isStreaming := by
  rw [updateMessage]
  cases s.messageIndex messageId with
  | none => rfl
  | some index =>
    simp only
    cases s.messages[index]? <;> rfl

theorem isStreaming_route (target : Option String) (event : QueryStreamEvent) :
    (s.route env target event).isStreaming = s.isStreaming := by
  cases target with
  | none => rfl
  | some messageId => exact isStreaming_updateMessage messageId _

theorem quiet_updateMessage (consistent : s.Consistent) (quiet : s.Quiet) {messageId : String}
    {updater : QueryThreadMessage → QueryThreadMessage}
    (each : ∀ message ∈ s.messages, ∀ version ∈ (updater message).versions,
      version ∈ message.versions ∨ version.view.status ≠ .streaming) :
    (s.updateMessage messageId updater).Quiet := by
  intro message member version there
  obtain ⟨old, held, rfl⟩ := (mem_updateMessage consistent).mp member
  split_ifs at there
  · rcases each old held version there with kept | ready
    · exact quiet old held version kept
    · exact ready
  · exact quiet old held version there

variable {target : Option String}

theorem quiet_route (consistent : s.Consistent) (quiet : s.Quiet) {event : QueryStreamEvent}
    (status : ∀ view : VersionView, (event.update env view).status = view.status) :
    (s.route env target event).Quiet := by
  rw [quiet_iff_versionsOf] at quiet ⊢
  intro messageId version member
  obtain ⟨old, held, rfl⟩ := (mem_versionsOf_route consistent).mp member
  split_ifs
  · rw [status]
    exact quiet messageId old held
  · exact quiet messageId old held

theorem quiet_route_iff (consistent : s.Consistent) {event : QueryStreamEvent}
    (settles : ∀ view : VersionView, (event.update env view).status ≠ .streaming) :
    (s.route env target event).Quiet ↔ s.StreamsOnly fun messageId versionId =>
      s.writtenVersion target = some (messageId, versionId) := by
  rw [quiet_iff_versionsOf, streamsOnly_iff_versionsOf]
  refine forall_congr' fun messageId => ?_
  simp only [mem_versionsOf_route consistent]
  constructor
  · intro quiet version member streaming
    by_contra other
    exact quiet version ⟨version, member, if_neg other⟩ streaming
  · rintro only version ⟨old, member, rfl⟩
    split_ifs with written
    · exact settles old.view
    · exact fun streaming => written (only old member streaming)

theorem quiet_route_iff_of_streams (consistent : s.Consistent) (quiet : s.Quiet)
    {event : QueryStreamEvent}
    (streams : ∀ view : VersionView, (event.update env view).status = .streaming) :
    (s.route env target event).Quiet ↔ s.writtenVersion target = none := by
  rw [quiet_iff_versionsOf] at quiet ⊢
  simp only [mem_versionsOf_route consistent]
  constructor
  · intro still
    cases written : s.writtenVersion target with
    | none => rfl
    | some found =>
      obtain ⟨version, member, same⟩ := exists_of_writtenVersion consistent written
      have named : s.writtenVersion target = some (found.1, version.id) := by rw [written, same]
      exact absurd (streams version.view) (still found.1 _ ⟨version, member, if_pos named⟩)
  · rintro idle messageId version ⟨old, member, rfl⟩
    rw [idle, if_neg (by simp)]
    exact quiet messageId old member

theorem quiet_streamInterrupted_iff (consistent : s.Consistent) :
    (s.streamInterrupted env).Quiet ↔ s.StreamsOnly fun messageId versionId =>
      s.droppedVersion = some (messageId, versionId) ∨
        s.stoppedVersion = some (messageId, versionId) := by
  rw [quiet_iff_versionsOf, streamsOnly_iff_versionsOf]
  refine forall_congr' fun messageId => ?_
  simp only [mem_versionsOf_streamInterrupted consistent]
  constructor
  · intro quiet version member streaming
    by_contra other
    rw [not_or] at other
    exact quiet version ⟨version, member, other.1, if_neg other.2⟩ streaming
  · rintro only version ⟨old, member, kept, rfl⟩
    split_ifs with stopped
    · simp [settleView]
    · intro streaming
      exact (only old member streaming).elim kept stopped

theorem ready_fromHistoryMessage (message : QueryHistoryMessage) :
    ∀ version ∈ (fromHistoryMessage env message).versions, version.view.status ≠ .streaming := by
  have versions : (fromHistoryMessage env message).versions = historyVersions env message := by
    simp only [fromHistoryMessage]
    cases activeHistoryVersion message (historyVersions env message) <;> rfl
  have ready : ∀ version ∈ historyVersions env message, version.view.status = .ready := by
    intro version member
    rw [historyVersions] at member
    split_ifs at member
    · rw [List.mem_singleton.mp member]
      rfl
    · obtain ⟨stored, _, rfl⟩ := List.mem_map.mp member
      rfl
  intro version member
  rw [versions] at member
  rw [ready version member]
  simp

theorem quiet_loadHistory_iff (consistent : s.Consistent) (conversationId : String)
    (messages : List QueryHistoryMessage) :
    (s.loadHistory env conversationId messages).Quiet ↔
      (s.currentConversationId = some conversationId →
        s.StreamsOnly fun messageId _ => messageId ∈ messages.map fun message => message.id) := by
  have ids : (messages.map (fromHistoryMessage env)).map (fun message => message.id) =
      messages.map fun message => message.id := by
    rw [List.map_map]
    exact List.map_congr_left fun message _ => fromHistoryMessage_id env message
  constructor
  · intro quiet same message member version there streaming
    by_contra unset
    refine quiet message ?_ version there streaming
    apply mem_merge_of_not_mem
    · rw [if_pos same]
      exact consistent.distinct
    · rw [if_pos same]
      exact member
    · rw [ids]
      exact unset
  · intro only message member version there streaming
    rcases mem_merge member with ⟨old, unset⟩ | new
    · rw [ids] at unset
      split_ifs at old with same
      · exact unset (only same message old version there streaming)
      · cases old
    · obtain ⟨stored, _, rfl⟩ := List.mem_map.mp new
      exact ready_fromHistoryMessage stored version there streaming

theorem quiet_prependHistory (quiet : s.Quiet) (conversationId : String)
    (messages : List QueryHistoryMessage) :
    (s.prependHistory env conversationId messages).Quiet := by
  rw [prependHistory]
  split_ifs
  · exact quiet
  · intro message member version there
    rcases mem_merge member with ⟨older, _⟩ | old
    · obtain ⟨stored, _, rfl⟩ := List.mem_map.mp older
      exact ready_fromHistoryMessage stored version there
    · exact quiet message old version there

theorem isStreaming_prependHistory (conversationId : String)
    (messages : List QueryHistoryMessage) :
    (s.prependHistory env conversationId messages).isStreaming = s.isStreaming := by
  rw [prependHistory]
  split_ifs <;> rfl

theorem quiet_deleteMessageLocal_iff (messageId : String) :
    (s.deleteMessageLocal messageId).Quiet ↔
      s.StreamsOnly fun streaming _ => streaming = messageId := by
  have remaining : ∀ message, message ∈ (s.deleteMessageLocal messageId).messages ↔
      message ∈ s.messages ∧ message.id ≠ messageId := by
    intro message
    simp [deleteMessageLocal, withMessages]
  constructor
  · intro quiet message member version there streaming
    by_contra other
    exact quiet message ((remaining message).mpr ⟨member, other⟩) version there streaming
  · intro only message member version there streaming
    obtain ⟨held, other⟩ := (remaining message).mp member
    exact other (only message held version there streaming)

theorem idle_quiet_updateMessage (consistent : s.Consistent)
    (quiet : s.isStreaming = false → s.Quiet) {messageId : String}
    {updater : QueryThreadMessage → QueryThreadMessage}
    (each : ∀ message ∈ s.messages, ∀ version ∈ (updater message).versions,
      version ∈ message.versions ∨ version.view.status ≠ .streaming) :
    (s.updateMessage messageId updater).isStreaming = false →
      (s.updateMessage messageId updater).Quiet := by
  intro idle
  rw [isStreaming_updateMessage] at idle
  exact quiet_updateMessage consistent (quiet idle) each

theorem idle_quiet_route (consistent : s.Consistent) (quiet : s.isStreaming = false → s.Quiet)
    {event : QueryStreamEvent}
    (status : ∀ view : VersionView, (event.update env view).status = view.status) :
    (s.route env target event).isStreaming = false → (s.route env target event).Quiet := by
  intro idle
  rw [isStreaming_route] at idle
  exact quiet_route consistent (quiet idle) status

theorem idle_quiet_route_iff (consistent : s.Consistent) (quiet : s.isStreaming = false → s.Quiet)
    {event : QueryStreamEvent}
    (streams : ∀ view : VersionView, (event.update env view).status = .streaming) :
    ((s.route env target event).isStreaming = false → (s.route env target event).Quiet) ↔
      s.isStreaming = true ∨ s.writtenVersion target = none := by
  rw [isStreaming_route]
  cases streaming : s.isStreaming with
  | true => simp
  | false =>
    rw [← quiet_route_iff_of_streams consistent (quiet streaming) streams]
    simp

theorem ended_quiet_route_iff (consistent : s.Consistent) (idle : s.isStreaming = false)
    {event : QueryStreamEvent}
    (settles : ∀ view : VersionView, (event.update env view).status ≠ .streaming) :
    ((s.route env target event).isStreaming = false → (s.route env target event).Quiet) ↔
      s.StreamsOnly fun messageId versionId =>
        s.writtenVersion target = some (messageId, versionId) := by
  rw [isStreaming_route, ← quiet_route_iff consistent settles]
  exact ⟨fun quiet => quiet idle, fun quiet _ => quiet⟩

theorem settled_streamEvent_iff (consistent : s.Consistent)
    (quiet : s.isStreaming = false → s.Quiet) (event : QueryStreamEvent) (newId now : String) :
    ((s.streamEvent env event newId now).isStreaming = false →
      (s.streamEvent env event newId now).Quiet) ↔
        s.SettlesStreams (.streamEvent event newId now) := by
  cases event with
  | start =>
    refine iff_of_true ?_ trivial
    intro idle
    simp only [streamEvent] at idle
    split_ifs at idle
    · cases idle
    · rw [isStreaming_updateMessage] at idle
      cases idle
  | metaInfo conversationId messageId confidence traceId cached modelName =>
    refine iff_of_true ?_ trivial
    simp only [streamEvent]
    split
    · exact quiet
    · rename_i target _
      have grounded : (s.grounded conversationId target modelName).Consistent :=
        consistent.congr rfl rfl
      exact idle_quiet_route grounded quiet fun _ => rfl
  | thinking | delta => exact idle_quiet_route_iff consistent quiet fun _ => rfl
  | error failure =>
    have ended : (s.ended (some failure)).Consistent := consistent.congr rfl rfl
    exact ended_quiet_route_iff ended rfl fun view => by simp [QueryStreamEvent.update, failView]
  | done =>
    have stopped : s.stopped.Consistent := consistent.congr rfl rfl
    exact ended_quiet_route_iff stopped rfl fun view => by
      simp [QueryStreamEvent.update, settleView]
  | metrics | replace | citation | block | status | files | output | trace | followups =>
    exact iff_of_true (idle_quiet_route consistent quiet fun _ => rfl) trivial

/-- What one action needs to keep a settled thread settled. -/
theorem settled_step_iff (consistent : s.Consistent) {action : QueryThreadAction}
    (wellFormed : s.WellFormed action) (settled : s.Settled) :
    (s.step env action).Settled ↔ s.SettlesStreams action := by
  have quiet := (settled_iff_quiet consistent).mp settled
  rw [settled_iff_quiet (consistent_step consistent wellFormed)]
  cases action with
  | loadHistory conversationId messages =>
    show (false = false → (s.loadHistory env conversationId messages).Quiet) ↔ _
    rw [quiet_loadHistory_iff consistent]
    exact forall_prop_of_true rfl
  | prependHistory conversationId messages =>
    refine iff_of_true (fun idle => ?_) trivial
    rw [show (s.step env (.prependHistory conversationId messages)).isStreaming = s.isStreaming
      from isStreaming_prependHistory conversationId messages] at idle
    exact quiet_prependHistory (quiet idle) conversationId messages
  | resetThread =>
    refine iff_of_true (fun _ message member => ?_) trivial
    cases member
  | submitQuery =>
    refine iff_of_true (fun idle => ?_) trivial
    cases idle
  | startRegenerate =>
    refine iff_of_true (fun idle => ?_) trivial
    simp only [step, startRegenerate, isStreaming_updateMessage] at idle
    cases idle
  | startEdit | cancelEdit | updateEditDraft =>
    refine iff_of_true (idle_quiet_updateMessage consistent quiet ?_) trivial
    exact fun _ _ _ there => .inl there
  | commitUserEdit =>
    refine iff_of_true (idle_quiet_updateMessage consistent quiet ?_) trivial
    intro message _ version there
    rcases List.mem_append.mp there with old | new
    · exact .inl old
    · rw [List.mem_singleton.mp new]
      exact .inr (by simp)
  | activateVersion messageId versionId =>
    refine iff_of_true (idle_quiet_updateMessage consistent quiet ?_) trivial
    intro message _ version there
    rw [activateVersionById] at there
    cases found : message.versions.find? fun version => version.id = versionId with
    | none | some =>
      rw [found] at there
      exact .inl there
  | deleteMessageLocal messageId =>
    by_cases active : s.activeAssistantId = some messageId
    · have idle : (s.step env (.deleteMessageLocal messageId)).isStreaming = false := if_pos active
      rw [idle]
      simp only [SettlesStreams, active, forall_const]
      exact quiet_deleteMessageLocal_iff messageId
    · refine iff_of_true (fun idle => ?_) fun same => absurd same active
      have still : s.isStreaming = false := (if_neg active).symm.trans idle
      apply (quiet_deleteMessageLocal_iff messageId).mpr
      intro message member version there streaming
      exact absurd streaming (quiet still message member version there)
  | streamInterrupted =>
    have idle : (s.streamInterrupted env).isStreaming = false := by
      rw [streamInterrupted]
      cases nonempty s.activeAssistantId with
      | none => rfl
      | some messageId => exact isStreaming_updateMessage messageId _
    show ((s.streamInterrupted env).isStreaming = false → (s.streamInterrupted env).Quiet) ↔ _
    rw [quiet_streamInterrupted_iff consistent]
    exact forall_prop_of_true idle
  | streamEvent event newId now => exact settled_streamEvent_iff consistent quiet event newId now
  | streamFinished =>
    show (false = false → s.Quiet) ↔ _
    exact forall_prop_of_true rfl
  | streamFailed failure =>
    have ended : (s.ended (some failure)).Consistent := consistent.congr rfl rfl
    have failed : s.streamFailed failure = (s.ended (some failure)).route env
        (nonempty s.activeAssistantId) (.error failure) := streamFailed_eq failure
    simp only [step, failed]
    exact ended_quiet_route_iff ended rfl fun view => by simp [QueryStreamEvent.update, failView]

/-- In every run no version is left streaming without a stream exactly when every action that ends
a stream settles or removes all the streaming versions it finds. -/
theorem settled_throughout_iff (env : ThreadEnvironment) (actions : List QueryThreadAction)
    (wellFormed : Guarded WellFormed (step env) initialQueryThreadState actions) :
    (∀ s ∈ trace (step env) initialQueryThreadState actions, s.Settled) ↔
      Guarded SettlesStreams (step env) initialQueryThreadState actions := by
  have start : initialQueryThreadState.Settled := by
    intro _ message member
    cases member
  exact forall_trace_iff_guarded_of_guarded
    (fun _ _ consistent fits => consistent_step consistent fits)
    (fun _ _ consistent fits settled => settled_step_iff consistent fits settled)
    consistent_initial start wellFormed

theorem secondAnswer_settled_iff :
    (∀ s ∈ trace (step plainText) initialQueryThreadState secondAnswer, s.Settled) ↔
      Guarded SettlesStreams (step plainText) initialQueryThreadState secondAnswer :=
  settled_throughout_iff plainText secondAnswer (by decide +kernel)

def stoppedEarly : List QueryThreadAction :=
  [.submitQuery "Which city?" "u-1" "user" "a-1" "assistant" "09:00", .streamInterrupted]

theorem stoppedEarly_left_streaming :
    Guarded WellFormed (step plainText) initialQueryThreadState stoppedEarly ∧
      (run (step plainText) initialQueryThreadState stoppedEarly).isStreaming = false ∧
      (run (step plainText) initialQueryThreadState stoppedEarly).messages.map
        (fun message => message.view.status) = [.ready, .streaming] ∧
      ¬∀ s ∈ trace (step plainText) initialQueryThreadState stoppedEarly, s.Settled := by
  decide +kernel

end QueryThreadState

end AverQel.Frontend
