/- digest: Which version an event writes, which one an interruption drops, and the others. -/
import AverQel.Frontend.ThreadConsistency

namespace AverQel.Frontend

open Foundation.Text (nonempty)

namespace QueryThreadMessage

variable {env : ThreadEnvironment} {message : QueryThreadMessage}

def droppedId (message : QueryThreadMessage) : Option String :=
  if trim message.view.content.toList = [] ∧ 1 < message.versions.length then
    message.versions.getLast?.map fun version => version.id
  else none

def stoppedId (message : QueryThreadMessage) : Option String :=
  if trim message.view.content.toList = [] then none else message.updatedId

theorem Consistent.shownContent (consistent : message.Consistent) :
    ((message.versions.find? fun version => some version.id = message.activeVersionId).map
      fun version => version.view.content).getD message.view.content = message.view.content := by
  obtain ⟨version, member, named, shown⟩ := consistent.active
  cases found : message.versions.find? fun version => some version.id = message.activeVersionId with
  | none => rfl
  | some other =>
    have same : some other.id = message.activeVersionId := by simpa using List.find?_some found
    have one : other.id = version.id := Option.some.inj (same.trans named)
    have equal := consistent.version_unique (List.mem_of_find?_eq_some found) member one
    rw [equal, shown]
    rfl

theorem mem_versions_updateActiveVersion (consistent : message.Consistent)
    {updater : VersionView → VersionView} (version : QueryThreadMessageVersion) :
    version ∈ (message.updateActiveVersion updater).versions ↔
      ∃ old ∈ message.versions,
        (if message.updatedId = some old.id then { old with view := updater old.view }
          else old) = version := by
  rw [versions_updateActiveVersion consistent]
  exact List.mem_map

theorem mem_versions_interrupted (consistent : message.Consistent)
    (version : QueryThreadMessageVersion) :
    version ∈ (QueryThreadState.interrupted env message).versions ↔
      ∃ old ∈ message.versions, message.droppedId ≠ some old.id ∧
        (if message.stoppedId = some old.id then
          { old with view := settleView env "Stopped" old.view } else old) = version := by
  simp only [QueryThreadState.interrupted, consistent.shownContent, droppedId, stoppedId]
  by_cases blank : trim message.view.content.toList = []
  · by_cases longer : 1 < message.versions.length
    · obtain ⟨rest, last, split⟩ := List.eq_nil_or_concat message.versions |>.resolve_left
        (List.ne_nil_of_length_pos (by omega))
      rw [List.concat_eq_append] at split
      have kept : rest ≠ [] := by
        rintro rfl
        simp [split] at longer
      obtain ⟨fallback, shown⟩ := Option.ne_none_iff_exists'.mp
        (fun missing => kept (List.getLast?_eq_none_iff.mp missing))
      have apart : ∀ old ∈ rest, old.id ≠ last.id := by
        have distinct := consistent.distinct
        rw [split, List.map_append, List.nodup_append] at distinct
        intro old member
        exact distinct.2.2 old.id (List.mem_map_of_mem member) last.id (by simp)
      rw [split] at longer
      simp only [blank, split, longer, List.dropLast_concat, shown, List.getLast?_concat, if_true,
        and_self, Option.map_some, reduceCtorEq, if_false]
      show version ∈ rest ↔ ∃ old ∈ rest ++ [last], some last.id ≠ some old.id ∧ old = version
      constructor
      · intro member
        have other : some last.id ≠ some version.id := fun same =>
          apart version member (Option.some.inj same).symm
        exact ⟨version, List.mem_append_left _ member, other, rfl⟩
      · rintro ⟨old, member, other, rfl⟩
        rcases List.mem_append.mp member with early | final
        · exact early
        · rw [List.mem_singleton.mp final] at other
          exact absurd rfl other
    · simp [blank, longer]
  · simp [blank, mem_versions_updateActiveVersion consistent]

end QueryThreadMessage

namespace QueryThreadState

variable {env : ThreadEnvironment} {s : QueryThreadState}

def versionsOf (s : QueryThreadState) (messageId : String) : List QueryThreadMessageVersion :=
  (s.messages.filter fun message => message.id = messageId).flatMap fun message =>
    message.versions

def versionAt (s : QueryThreadState) (target : Option String)
    (select : QueryThreadMessage → Option String) : Option (String × String) :=
  (target.bind fun messageId => s.messages.find? fun message => message.id = messageId).bind
    fun message => (select message).map fun id => (message.id, id)

def writtenVersion (s : QueryThreadState) (target : Option String) : Option (String × String) :=
  s.versionAt target QueryThreadMessage.updatedId

def droppedVersion (s : QueryThreadState) : Option (String × String) :=
  s.versionAt (nonempty s.activeAssistantId) QueryThreadMessage.droppedId

def stoppedVersion (s : QueryThreadState) : Option (String × String) :=
  s.versionAt (nonempty s.activeAssistantId) QueryThreadMessage.stoppedId

variable {version : QueryThreadMessageVersion} {messageId : String}

theorem mem_versionsOf :
    version ∈ s.versionsOf messageId ↔
      ∃ message ∈ s.messages, message.id = messageId ∧ version ∈ message.versions := by
  simp [versionsOf, and_assoc]

variable {target : Option String}

theorem versionAt_eq_some_iff (consistent : s.Consistent)
    {select : QueryThreadMessage → Option String} {messageId versionId : String} :
    s.versionAt target select = some (messageId, versionId) ↔ target = some messageId ∧
      ∃ message ∈ s.messages, message.id = messageId ∧ select message = some versionId := by
  simp only [versionAt, Option.bind_eq_some_iff, Option.map_eq_some_iff]
  constructor
  · rintro ⟨message, ⟨target, rfl, found⟩, id, selected, pair⟩
    obtain ⟨rfl, rfl⟩ := Prod.mk.inj pair
    have same : message.id = target := by simpa using List.find?_some found
    exact ⟨by rw [same], message, List.mem_of_find?_eq_some found, rfl, selected⟩
  · rintro ⟨rfl, message, member, rfl, selected⟩
    refine ⟨message, ⟨message.id, rfl, ?_⟩, versionId, selected, rfl⟩
    cases found : s.messages.find? fun other => other.id = message.id with
    | none =>
      have missing := List.find?_eq_none.mp found message member
      simp at missing
    | some other =>
      have same : other.id = message.id := by simpa using List.find?_some found
      rw [consistent.message_unique (List.mem_of_find?_eq_some found) member same]

theorem exists_of_writtenVersion (consistent : s.Consistent) {messageId versionId : String}
    (written : s.writtenVersion target = some (messageId, versionId)) :
    ∃ version ∈ s.versionsOf messageId, version.id = versionId := by
  obtain ⟨_, message, member, named, updated⟩ := (versionAt_eq_some_iff consistent).mp written
  obtain ⟨version, there, same, _⟩ := (consistent.messages message member).updatedId_eq updated
  exact ⟨version, mem_versionsOf.mpr ⟨message, member, named, there⟩, same⟩

theorem mem_versionsOf_updateMessage (consistent : s.Consistent) {target messageId : String}
    {updater : QueryThreadMessage → QueryThreadMessage}
    {dropped changed : QueryThreadMessage → Option String} {show_ : VersionView → VersionView}
    (keeps : ∀ message ∈ s.messages, (updater message).id = message.id)
    (each : ∀ message ∈ s.messages, ∀ version, version ∈ (updater message).versions ↔
      ∃ old ∈ message.versions, dropped message ≠ some old.id ∧
        (if changed message = some old.id then { old with view := show_ old.view } else old) =
          version) :
    version ∈ (s.updateMessage target updater).versionsOf messageId ↔
      ∃ old ∈ s.versionsOf messageId,
        s.versionAt (some target) dropped ≠ some (messageId, old.id) ∧
          (if s.versionAt (some target) changed = some (messageId, old.id) then
            { old with view := show_ old.view } else old) = version := by
  have selected : ∀ message ∈ s.messages, ∀ select : QueryThreadMessage → Option String,
      ∀ id, (s.versionAt (some target) select = some (message.id, id) ↔
        message.id = target ∧ select message = some id) := by
    intro message member select id
    rw [versionAt_eq_some_iff consistent, Option.some.injEq, eq_comm]
    refine and_congr_right fun _ => ⟨?_, fun chosen => ⟨message, member, rfl, chosen⟩⟩
    rintro ⟨other, there, same, chosen⟩
    rwa [consistent.message_unique member there same.symm]
  have local_ : ∀ message ∈ s.messages, ∀ version,
      (version ∈ (if message.id = target then updater message else message).versions ↔
        ∃ old ∈ message.versions,
          s.versionAt (some target) dropped ≠ some (message.id, old.id) ∧
            (if s.versionAt (some target) changed = some (message.id, old.id) then
              { old with view := show_ old.view } else old) = version) := by
    intro message member version
    by_cases here : message.id = target
    · simp only [ne_eq, selected message member, and_iff_right here, if_pos here]
      exact each message member version
    · simp only [ne_eq, selected message member, here, false_and, if_false, not_false_eq_true,
        true_and]
      exact ⟨fun there => ⟨version, there, rfl⟩, fun ⟨_, there, same⟩ => same ▸ there⟩
  have named : ∀ message ∈ s.messages,
      (if message.id = target then updater message else message).id = message.id := by
    intro message member
    split_ifs
    · exact keeps message member
    · rfl
  rw [mem_versionsOf]
  constructor
  · rintro ⟨_, member, rfl, there⟩
    obtain ⟨message, held, rfl⟩ := (mem_updateMessage consistent).mp member
    obtain ⟨old, owned, changes⟩ := (local_ message held version).mp there
    rw [named message held]
    exact ⟨old, mem_versionsOf.mpr ⟨message, held, rfl, owned⟩, changes⟩
  · rintro ⟨old, owned, changes⟩
    obtain ⟨message, held, rfl, there⟩ := mem_versionsOf.mp owned
    refine ⟨_, (mem_updateMessage consistent).mpr ⟨message, held, rfl⟩, named message held, ?_⟩
    exact (local_ message held version).mpr ⟨old, there, changes⟩

theorem mem_versionsOf_updateView (consistent : s.Consistent) {target messageId : String}
    {updater : VersionView → VersionView} :
    version ∈ (s.updateMessage target fun message =>
        message.updateActiveVersion updater).versionsOf messageId ↔
      ∃ old ∈ s.versionsOf messageId,
        (if s.writtenVersion (some target) = some (messageId, old.id) then
          { old with view := updater old.view } else old) = version := by
  have none_ : s.versionAt (some target) (fun _ => none) = none := by simp [versionAt]
  have changes : version ∈ (s.updateMessage target fun message =>
        message.updateActiveVersion updater).versionsOf messageId ↔
      ∃ old ∈ s.versionsOf messageId,
        s.versionAt (some target) (fun _ => none) ≠ some (messageId, old.id) ∧
          (if s.writtenVersion (some target) = some (messageId, old.id) then
            { old with view := updater old.view } else old) = version := by
    apply mem_versionsOf_updateMessage consistent
    · intro message member
      exact (updateActiveVersion_id (consistent.messages message member) updater).1
    · intro message member version
      rw [QueryThreadMessage.mem_versions_updateActiveVersion (consistent.messages message member)]
      simp
  rw [changes, none_]
  simp only [ne_eq, reduceCtorEq, not_false_eq_true, true_and]

theorem mem_versionsOf_route (consistent : s.Consistent) {event : QueryStreamEvent} :
    version ∈ (s.route env target event).versionsOf messageId ↔
      ∃ old ∈ s.versionsOf messageId,
        (if s.writtenVersion target = some (messageId, old.id) then
          { old with view := event.update env old.view } else old) = version := by
  cases target with
  | none => simp [route, writtenVersion, versionAt]
  | some => exact mem_versionsOf_updateView consistent

theorem streamFailed_eq (failure : StreamError) : s.streamFailed failure =
    (s.ended (some failure)).route env (nonempty s.activeAssistantId) (.error failure) := by
  rw [streamFailed]
  cases nonempty s.activeAssistantId <;> rfl

theorem mem_versionsOf_streamInterrupted (consistent : s.Consistent) :
    version ∈ (s.streamInterrupted env).versionsOf messageId ↔
      ∃ old ∈ s.versionsOf messageId, s.droppedVersion ≠ some (messageId, old.id) ∧
        (if s.stoppedVersion = some (messageId, old.id) then
          { old with view := settleView env "Stopped" old.view } else old) = version := by
  rw [streamInterrupted, droppedVersion, stoppedVersion]
  cases nonempty s.activeAssistantId with
  | none => simp [versionAt, versionsOf, ended]
  | some =>
    have ended : (s.ended none).Consistent := consistent.congr rfl rfl
    apply mem_versionsOf_updateMessage ended
    · intro message member
      exact interrupted_id env (ended.messages message member)
    · intro message member version
      exact QueryThreadMessage.mem_versions_interrupted (ended.messages message member) version

end QueryThreadState

end AverQel.Frontend
