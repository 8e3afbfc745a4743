/- digest: When the writes of a generation leave the versions that were finished before it. -/
import AverQel.Frontend.StreamTargets

namespace AverQel.Frontend

open Foundation.Text (nonempty)
open Foundation.Transition

def QueryThreadState.finishedVersions (s : QueryThreadState) : List (String × String) :=
  (s.messages.filter fun message => message.role = .assistant).flatMap fun message =>
    (message.versions.filter fun version =>
      version.view.status = .ready ∧ version.view.content ≠ "").map fun version =>
        (message.id, version.id)

structure ThreadHistory where
  thread : QueryThreadState
  (finished earlier : List (String × String))

def initialThreadHistory : ThreadHistory := ⟨initialQueryThreadState, [], []⟩

namespace QueryThreadAction

def startsGeneration : QueryThreadAction → Bool
  | .startRegenerate _ _ _ | .streamEvent (.start _ _ _) _ _ => true
  | _ => false

def writesVersion : QueryThreadAction → Bool
  | .streamEvent (.thinking _) _ _ | .streamEvent (.delta _) _ _ | .streamEvent (.replace _ _) _ _
  | .streamEvent (.citation _) _ _ | .streamEvent (.block _ _) _ _ | .streamEvent (.error _) _ _
  | .streamEvent .done _ _ | .streamInterrupted | .streamFailed _ => true
  | _ => false

end QueryThreadAction

namespace ThreadHistory

variable {env : ThreadEnvironment} {h : ThreadHistory}

def step (env : ThreadEnvironment) (h : ThreadHistory) (action : QueryThreadAction) :
    ThreadHistory :=
  let thread := h.thread.step env action
  { thread := thread
    finished := h.finished ++ thread.finishedVersions
    earlier := if action.startsGeneration then h.finished else h.earlier }

def Undamaged (env : ThreadEnvironment) (h : ThreadHistory) (action : QueryThreadAction) : Prop :=
  action.writesVersion = true → ∀ finished ∈ h.earlier,
    ∀ version ∈ h.thread.versionsOf finished.1, version.id = finished.2 →
      ∃ kept ∈ (h.thread.step env action).versionsOf finished.1,
        kept.id = version.id ∧ kept.view.content = version.view.content

/-- New text is not written to a version that was finished before the generation, and an
interruption does not drop one. -/
def Spares (h : ThreadHistory) : QueryThreadAction → Prop
  | .streamEvent (.delta added) _ _ =>
    ∀ written ∈ h.thread.writtenVersion (h.thread.resolveTargetAssistantId (.delta added)),
      written ∉ h.earlier
  | .streamEvent (.replace content structured) _ _ =>
    ∀ written ∈ h.thread.writtenVersion
      (h.thread.resolveTargetAssistantId (.replace content structured)), written ∉ h.earlier
  | .streamInterrupted => ∀ dropped ∈ h.thread.droppedVersion, dropped ∉ h.earlier
  | _ => True

instance (h : ThreadHistory) : (action : QueryThreadAction) → Decidable (h.Spares action)
  | .streamEvent (.delta _) _ _ | .streamEvent (.replace _ _) _ _ | .streamInterrupted =>
    by dsimp only [Spares]; infer_instance
  | .loadHistory .. | .prependHistory .. | .resetThread | .submitQuery .. | .startRegenerate ..
  | .startEdit _ | .cancelEdit _ | .updateEditDraft .. | .commitUserEdit .. | .activateVersion ..
  | .deleteMessageLocal _ | .streamFinished | .streamFailed _ | .streamEvent (.start _ _ _) _ _
  | .streamEvent (.metaInfo _ _ _ _ _ _) _ _ | .streamEvent .metrics _ _
  | .streamEvent (.thinking _) _ _ | .streamEvent (.citation _) _ _
  | .streamEvent (.block _ _) _ _ | .streamEvent (.status _ _ _) _ _
  | .streamEvent (.files _) _ _ | .streamEvent (.output _) _ _ | .streamEvent (.trace _) _ _
  | .streamEvent (.followups _) _ _ | .streamEvent (.error _) _ _ | .streamEvent .done _ _ =>
    .isTrue trivial

instance (action : QueryThreadAction) : Decidable (Undamaged env h action) := by
  delta Undamaged
  infer_instance

theorem exists_kept_route {s : QueryThreadState} (consistent : s.Consistent)
    {target : Option String} {event : QueryStreamEvent} {messageId : String}
    {version : QueryThreadMessageVersion} (member : version ∈ s.versionsOf messageId)
    (content : s.writtenVersion target = some (messageId, version.id) →
      (event.update env version.view).content = version.view.content) :
    ∃ kept ∈ (s.route env target event).versionsOf messageId,
      kept.id = version.id ∧ kept.view.content = version.view.content := by
  refine ⟨_, (QueryThreadState.mem_versionsOf_route consistent).mpr ⟨version, member, rfl⟩, ?_⟩
  split_ifs with written
  · exact ⟨rfl, content written⟩
  · exact ⟨rfl, rfl⟩

theorem undamaged_of_spares (consistent : h.thread.Consistent) {action : QueryThreadAction}
    (spares : h.Spares action) : Undamaged env h action := by
  intro writes finished earlier version member same
  have listed : (finished.1, version.id) ∈ h.earlier := by
    rw [same]
    exact earlier
  cases action with
  | streamEvent event =>
    cases event with
    | thinking | citation | block => exact exists_kept_route consistent member fun _ => rfl
    | delta | replace =>
      exact exists_kept_route consistent member fun written => absurd listed (spares _ written)
    | error failure =>
      have ended : (h.thread.ended (some failure)).Consistent := consistent.congr rfl rfl
      exact exists_kept_route ended member fun _ => rfl
    | done =>
      have stopped : h.thread.stopped.Consistent := consistent.congr rfl rfl
      exact exists_kept_route stopped member fun _ => rfl
    | start | metaInfo | metrics | status | files | output | trace | followups => cases writes
  | streamInterrupted =>
    refine ⟨_, (QueryThreadState.mem_versionsOf_streamInterrupted consistent).mpr
      ⟨version, member, fun dropped => spares _ dropped listed, rfl⟩, ?_⟩
    split_ifs
    · exact ⟨rfl, rfl⟩
    · exact ⟨rfl, rfl⟩
  | streamFailed failure =>
    have ended : (h.thread.ended (some failure)).Consistent := consistent.congr rfl rfl
    have failed : h.thread.streamFailed failure = (h.thread.ended (some failure)).route env
        (nonempty h.thread.activeAssistantId) (.error failure) :=
      QueryThreadState.streamFailed_eq failure
    simp only [QueryThreadState.step, failed]
    exact exists_kept_route ended member fun _ => rfl
  | loadHistory | prependHistory | resetThread | submitQuery | startRegenerate | startEdit
  | cancelEdit | updateEditDraft | commitUserEdit | activateVersion | deleteMessageLocal
  | streamFinished => cases writes

/-- When every write of a run spares the versions that were finished before its generation, no
write changes the content of one or removes it, whichever versions the user activates. -/
theorem finished_versions_undamaged (env : ThreadEnvironment) (actions : List QueryThreadAction)
    (wellFormed : Guarded (fun h action => h.thread.WellFormed action) (step env)
      initialThreadHistory actions)
    (spares : Guarded Spares (step env) initialThreadHistory actions) :
    Guarded (Undamaged env) (step env) initialThreadHistory actions := by
  have keep : ∀ (h : ThreadHistory) action, h.thread.Consistent → h.thread.WellFormed action →
      (h.step env action).thread.Consistent := by
    intro h action consistent fits
    exact QueryThreadState.consistent_step consistent fits
  exact guarded_mono_of_guarded keep
    (fun _ _ consistent _ fits => undamaged_of_spares consistent fits)
    QueryThreadState.consistent_initial wellFormed spares

def comparedAnswers : List QueryThreadAction :=
  [.submitQuery "Which city?" "u-1" "user" "a-1" "assistant" "09:00",
    .streamEvent (.delta "Rome") "" "09:01", .streamEvent .done "" "09:02",
    .startRegenerate "assistant" "a-2" "09:03", .streamEvent (.delta "Oslo") "" "09:04",
    .activateVersion "assistant" "a-1", .streamEvent (.thinking "Checking") "" "09:05",
    .streamInterrupted]

theorem comparedAnswers_undamaged :
    Guarded (Undamaged QueryThreadState.plainText) (step QueryThreadState.plainText)
      initialThreadHistory comparedAnswers :=
  finished_versions_undamaged QueryThreadState.plainText comparedAnswers (by decide +kernel)
    (by decide +kernel)

def mixedAnswers : List QueryThreadAction :=
  [.submitQuery "Which city?" "u-1" "user" "a-1" "assistant" "09:00",
    .streamEvent (.delta "Rome") "" "09:01", .streamEvent .done "" "09:02",
    .startRegenerate "assistant" "a-2" "09:03", .activateVersion "assistant" "a-1",
    .streamEvent (.delta "Oslo") "" "09:04"]

theorem mixedAnswers_damaged :
    Guarded (fun h action => h.thread.WellFormed action) (step QueryThreadState.plainText)
        initialThreadHistory mixedAnswers ∧
      ¬Guarded (Undamaged QueryThreadState.plainText) (step QueryThreadState.plainText)
        initialThreadHistory mixedAnswers ∧
      ((run (step QueryThreadState.plainText) initialThreadHistory mixedAnswers).thread.versionsOf
        "assistant").map (fun version => version.view.content) = ["RomeOslo", ""] := by
  decide +kernel

end ThreadHistory

end AverQel.Frontend
