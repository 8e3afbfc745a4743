/- digest: The index and the versions of a thread agree with its messages after every action. -/
import AverQel.Frontend.QueryThreadReducer
import AverQel.Foundation.Transition

namespace AverQel.Frontend

open Foundation (position_unique set_eq_map)
open Foundation.Text (nonempty)
open Foundation.Transition

/-- The message shows one of its versions, which have distinct ids, and counts them. -/
structure QueryThreadMessage.Consistent (message : QueryThreadMessage) : Prop where
  distinct : (message.versions.map fun version => version.id).Nodup
  active : ∃ version ∈ message.versions,
    message.activeVersionId = some version.id ∧ message.view = version.view
  count : message.versionCount = message.versions.length

/-- The index maps each id to its position, ids are distinct, and every message is consistent. -/
structure QueryThreadState.Consistent (s : QueryThreadState) : Prop where
  index : ∀ (id : String) (i : Nat), s.messageIndex id = some i ↔
    ∃ message, s.messages[i]? = some message ∧ message.id = id
  distinct : (s.messages.map fun message => message.id).Nodup
  messages : ∀ message ∈ s.messages, message.Consistent

def QueryThreadState.ids (s : QueryThreadState) : List String :=
  s.messages.flatMap fun message => message.id :: message.versions.map fun version => version.id

/-- The new ids of the action are fresh, and the versions of a history message have distinct
ids. -/
def QueryThreadState.WellFormed (s : QueryThreadState) : QueryThreadAction → Prop
  | .loadHistory _ messages | .prependHistory _ messages =>
    ∀ message ∈ messages, (message.versions.map fun version => version.id).Nodup
  | .submitQuery _ userVersionId userId assistantVersionId assistantId _ =>
    [userVersionId, userId, assistantVersionId, assistantId].Nodup ∧
      ∀ id ∈ [userVersionId, userId, assistantVersionId, assistantId], id ∉ s.ids
  | .startRegenerate _ newId _ | .commitUserEdit _ _ newId _
  | .streamEvent (.start _ _ _) newId _ => newId ∉ s.ids
  | _ => True

instance QueryThreadState.decidableWellFormed (s : QueryThreadState) :
    (action : QueryThreadAction) → Decidable (s.WellFormed action)
  | .loadHistory .. | .prependHistory .. | .submitQuery .. | .startRegenerate ..
  | .commitUserEdit .. | .streamEvent (.start _ _ _) _ _ =>
    by dsimp only [QueryThreadState.WellFormed]; infer_instance
  | .resetThread | .startEdit _ | .cancelEdit _ | .updateEditDraft .. | .activateVersion ..
  | .deleteMessageLocal _ | .streamInterrupted | .streamFinished | .streamFailed _
  | .streamEvent (.metaInfo _ _ _ _ _ _) _ _ | .streamEvent .metrics _ _
  | .streamEvent (.thinking _) _ _ | .streamEvent (.delta _) _ _
  | .streamEvent (.replace _ _) _ _ | .streamEvent (.citation _) _ _
  | .streamEvent (.block _ _) _ _ | .streamEvent (.status _ _ _) _ _
  | .streamEvent (.files _) _ _ | .streamEvent (.output _) _ _ | .streamEvent (.trace _) _ _
  | .streamEvent (.followups _) _ _ | .streamEvent (.error _) _ _ | .streamEvent .done _ _ =>
    .isTrue trivial

variable {message : QueryThreadMessage}

variable {version : QueryThreadMessageVersion}

theorem consistent_apply (distinct : (message.versions.map fun version => version.id).Nodup)
    (member : version ∈ message.versions) : (applyVersionToMessage message version).Consistent where
  distinct := distinct
  active := ⟨version, member, rfl, rfl⟩
  count := rfl

theorem consistent_appendVersion (consistent : message.Consistent)
    (fresh : version.id ∉ message.versions.map fun version => version.id) :
    (appendVersion message version).Consistent := by
  apply consistent_apply
  · rw [List.map_append, List.map_singleton]
    apply consistent.distinct.append (List.nodup_singleton _)
    simpa using fresh
  · exact List.mem_append_right _ (List.mem_singleton_self version)

theorem QueryThreadMessage.Consistent.version_unique (consistent : message.Consistent)
    {version other : QueryThreadMessageVersion} (member : version ∈ message.versions)
    (there : other ∈ message.versions) (same : version.id = other.id) : version = other :=
  List.inj_on_of_nodup_map consistent.distinct member there same

theorem QueryThreadMessage.Consistent.updatedId_eq (consistent : message.Consistent)
    {activeId : String} (target : message.updatedId = some activeId) :
    ∃ version ∈ message.versions, version.id = activeId ∧ message.view = version.view := by
  obtain ⟨version, member, named, shown⟩ := consistent.active
  rw [QueryThreadMessage.updatedId, named, Option.some_or] at target
  have same := (Foundation.Text.nonempty_eq_some_iff.mp target).1
  exact ⟨version, member, Option.some.inj same, shown⟩

def QueryThreadMessage.updatedVersion (message : QueryThreadMessage)
    (updater : VersionView → VersionView) (version : QueryThreadMessageVersion) :
    QueryThreadMessageVersion :=
  if message.updatedId = some version.id then { version with view := updater version.view }
  else version

theorem updatedVersion_id (updater : VersionView → VersionView)
    (version : QueryThreadMessageVersion) :
    (message.updatedVersion updater version).id = version.id := by
  simp only [QueryThreadMessage.updatedVersion]
  split_ifs <;> rfl

theorem updateActiveVersion_eq (consistent : message.Consistent)
    (updater : VersionView → VersionView) :
    (message.updatedId = none ∧ message.updateActiveVersion updater = message) ∨
      ∃ version ∈ message.versions, message.updatedId = some version.id ∧
        message.updateActiveVersion updater =
          applyVersionToMessage
            { message with
              versions := message.versions.map (message.updatedVersion updater)
              versionCount := message.versions.length }
            (message.updatedVersion updater version) := by
  cases target : message.updatedId with
  | none => exact .inl ⟨rfl, by simp only [QueryThreadMessage.updateActiveVersion, target]⟩
  | some activeId =>
    right
    obtain ⟨active, member, named, _⟩ := consistent.updatedId_eq target
    cases place : message.versions.findIdx? fun version => version.id = activeId with
    | none =>
      have missing := List.findIdx?_eq_none_iff.mp place active member
      simp [named] at missing
    | some index =>
      obtain ⟨bound, hit, _⟩ := List.findIdx?_eq_some_iff_getElem.mp place
      have at_ : message.versions[index]? = some message.versions[index] :=
        List.getElem?_eq_getElem bound
      have same : message.versions[index].id = activeId := by simpa using hit
      have written : message.versions.set index
          { message.versions[index] with view := updater message.versions[index].view } =
            message.versions.map (message.updatedVersion updater) := by
        have moved := set_eq_map (fun version : QueryThreadMessageVersion => version.id)
          consistent.distinct at_ fun version => { version with view := updater version.view }
        refine moved.trans (List.map_congr_left fun version _ => ?_)
        simp only [QueryThreadMessage.updatedVersion, target, same, Option.some.injEq, eq_comm]
      refine ⟨message.versions[index], List.getElem_mem bound, by rw [same], ?_⟩
      have changed : message.updatedVersion updater message.versions[index] =
          { message.versions[index] with view := updater message.versions[index].view } := by
        exact if_pos (by rw [target, same])
      simp only [QueryThreadMessage.updateActiveVersion, target, place, at_, List.length_set]
      rw [changed, ← written]

theorem versions_updateActiveVersion (consistent : message.Consistent)
    (updater : VersionView → VersionView) : (message.updateActiveVersion updater).versions =
      message.versions.map (message.updatedVersion updater) := by
  rcases updateActiveVersion_eq consistent updater with ⟨target, same⟩ | ⟨version, _, _, same⟩
  · rw [same]
    have idle : message.updatedVersion updater = id := by
      funext version
      simp [QueryThreadMessage.updatedVersion, target]
    rw [idle, List.map_id]
  · rw [same]
    rfl

theorem updateActiveVersion_id (consistent : message.Consistent)
    (updater : VersionView → VersionView) :
    (message.updateActiveVersion updater).id = message.id ∧
      (message.updateActiveVersion updater).role = message.role := by
  rcases updateActiveVersion_eq consistent updater with ⟨_, same⟩ | ⟨version, _, _, same⟩
  · rw [same]
    exact ⟨rfl, rfl⟩
  · rw [same]
    exact ⟨rfl, rfl⟩

theorem consistent_updateActiveVersion (consistent : message.Consistent)
    (updater : VersionView → VersionView) : (message.updateActiveVersion updater).Consistent := by
  rcases updateActiveVersion_eq consistent updater with ⟨_, same⟩ | ⟨version, member, _, same⟩
  · rw [same]
    exact consistent
  · rw [same]
    apply consistent_apply
    · have ids : ((message.versions.map (message.updatedVersion updater)).map
          fun version => version.id) = message.versions.map fun version => version.id := by
        rw [List.map_map]
        exact List.map_congr_left fun other _ => updatedVersion_id updater other
      rw [ids]
      exact consistent.distinct
    · exact List.mem_map.mpr ⟨version, member, rfl⟩

theorem consistent_activateVersionById (consistent : message.Consistent) (versionId : String) :
    (activateVersionById versionId message).Consistent := by
  rw [activateVersionById]
  cases found : message.versions.find? fun version => version.id = versionId with
  | none => exact consistent
  | some =>
    exact consistent_apply consistent.distinct (List.mem_of_find?_eq_some found)

theorem consistent_interrupted (env : ThreadEnvironment) (consistent : message.Consistent) :
    (QueryThreadState.interrupted env message).Consistent := by
  simp only [QueryThreadState.interrupted]
  split_ifs with blank longer
  · cases last : message.versions.dropLast.getLast? with
    | none => exact consistent
    | some =>
      apply consistent_apply
      · exact consistent.distinct.sublist (message.versions.dropLast_sublist.map _)
      · exact List.mem_of_getLast? last
  · exact consistent
  · exact consistent_updateActiveVersion consistent _

theorem interrupted_id (env : ThreadEnvironment) (consistent : message.Consistent) :
    (QueryThreadState.interrupted env message).id = message.id := by
  simp only [QueryThreadState.interrupted]
  split_ifs
  · cases message.versions.dropLast.getLast? <;> rfl
  · rfl
  · exact (updateActiveVersion_id consistent _).1

variable (env : ThreadEnvironment)

theorem consistent_fromHistoryMessage (message : QueryHistoryMessage)
    (distinct : (message.versions.map fun version => version.id).Nodup) :
    (fromHistoryMessage env message).Consistent := by
  have ids : ((historyVersions env message).map fun version => version.id).Nodup := by
    rw [historyVersions]
    split_ifs with bare
    · exact List.nodup_singleton _
    · rw [List.map_map]
      have sorted := List.perm_insertionSort
        (fun a b : QueryHistoryVersion => a.versionIndex ≤ b.versionIndex) message.versions
      exact (sorted.map _).nodup_iff.mpr distinct
  have shown : ∃ version ∈ historyVersions env message,
      activeHistoryVersion message (historyVersions env message) = some version := by
    cases found : activeHistoryVersion message (historyVersions env message) with
    | some version =>
      refine ⟨version, ?_, rfl⟩
      rcases Option.or_eq_some_iff.mp found with early | ⟨_, last⟩
      · rcases Option.or_eq_some_iff.mp early with byId | ⟨_, byIndex⟩
        · exact List.mem_of_find?_eq_some byId
        · exact List.mem_of_find?_eq_some byIndex
      · exact List.mem_of_getLast? last
    | none =>
      exfalso
      have last := (Option.or_eq_none_iff.mp found).2
      rw [List.getLast?_eq_none_iff, historyVersions] at last
      split_ifs at last with bare
      have lengths := congrArg List.length last
      rw [List.length_map, List.length_insertionSort, List.length_nil] at lengths
      exact bare (List.length_eq_zero_iff.mp lengths)
  obtain ⟨version, member, active⟩ := shown
  simp only [fromHistoryMessage, active, Option.elim_some]
  exact consistent_apply ids member

theorem fromHistoryMessage_id (message : QueryHistoryMessage) :
    (fromHistoryMessage env message).id = message.id := by
  simp only [fromHistoryMessage]
  cases activeHistoryVersion message (historyVersions env message) <;> rfl

variable {messages : List QueryThreadMessage}

theorem buildMessageIndex_eq_some_iff (distinct : (messages.map fun message => message.id).Nodup)
    (id : String) (i : Nat) : buildMessageIndex messages id = some i ↔
      ∃ message, messages[i]? = some message ∧ message.id = id := by
  have hits : ∀ entry, (messages.zipIdx.reverse.find? fun entry => entry.1.id = id) = some entry →
      messages[entry.2]? = some entry.1 ∧ entry.1.id = id := by
    intro entry found
    have member := List.mem_reverse.mp (List.mem_of_find?_eq_some found)
    exact ⟨List.mem_zipIdx_iff_getElem?.mp member, by simpa using List.find?_some found⟩
  rw [buildMessageIndex, Option.map_eq_some_iff]
  constructor
  · rintro ⟨entry, found, rfl⟩
    exact ⟨entry.1, hits entry found⟩
  · rintro ⟨message, at_, rfl⟩
    cases found : messages.zipIdx.reverse.find? fun entry => entry.1.id = message.id with
    | none =>
      have member : (message, i) ∈ messages.zipIdx.reverse :=
        List.mem_reverse.mpr (List.mk_mem_zipIdx_iff_getElem?.mpr at_)
      have missing := List.find?_eq_none.mp found (message, i) member
      simp at missing
    | some entry =>
      obtain ⟨there, same⟩ := hits entry found
      refine ⟨entry, rfl, ?_⟩
      exact position_unique (fun message : QueryThreadMessage => message.id) distinct there at_ same

theorem mem_setMessage {message other : QueryThreadMessage}
    (member : other ∈ setMessage messages message) :
    other ∈ messages ∧ other.id ≠ message.id ∨ other = message := by
  rw [setMessage] at member
  split_ifs at member with known
  · obtain ⟨old, there, rfl⟩ := List.mem_map.mp member
    split_ifs with same
    · exact .inr rfl
    · exact .inl ⟨there, same⟩
  · rcases List.mem_append.mp member with there | new
    · refine .inl ⟨there, fun same => known ?_⟩
      exact List.any_eq_true.mpr ⟨other, there, by simpa using same⟩
    · exact .inr (List.mem_singleton.mp new)

theorem mem_setMessage_of_ne {message other : QueryThreadMessage} (member : other ∈ messages)
    (apart : other.id ≠ message.id) : other ∈ setMessage messages message := by
  rw [setMessage]
  split_ifs
  · exact List.mem_map.mpr ⟨other, member, if_neg apart⟩
  · exact List.mem_append_left _ member

theorem mem_setMessage_self (message : QueryThreadMessage) :
    message ∈ setMessage messages message := by
  rw [setMessage]
  split_ifs with known
  · obtain ⟨other, there, same⟩ := List.any_eq_true.mp known
    exact List.mem_map.mpr ⟨other, there, if_pos (by simpa using same)⟩
  · exact List.mem_append_right _ (List.mem_singleton_self message)

theorem setMessage_nodup {message : QueryThreadMessage}
    (distinct : (messages.map fun message => message.id).Nodup) :
    ((setMessage messages message).map fun message => message.id).Nodup := by
  rw [setMessage]
  split_ifs with known
  · have same : ((messages.map fun other => if other.id = message.id then message else other).map
        fun message => message.id) = messages.map fun message => message.id := by
      rw [List.map_map]
      apply List.map_congr_left
      intro other _
      simp only [Function.comp_apply]
      split_ifs with hit
      · exact hit.symm
      · rfl
    rw [same]
    exact distinct
  · rw [List.map_append, List.map_singleton]
    apply distinct.append (List.nodup_singleton _)
    simpa using known

theorem mem_foldl_setMessage {added : List QueryThreadMessage} {message : QueryThreadMessage}
    (member : message ∈ added.foldl setMessage messages) :
    message ∈ messages ∧ message.id ∉ added.map (fun other => other.id) ∨ message ∈ added := by
  induction added generalizing messages with
  | nil => exact .inl ⟨member, List.not_mem_nil⟩
  | cons first rest ih =>
    rcases ih member with ⟨old, unset⟩ | new
    · rcases mem_setMessage old with ⟨before, apart⟩ | rfl
      · exact .inl ⟨before, by simp [apart, unset]⟩
      · exact .inr List.mem_cons_self
    · exact .inr (List.mem_cons_of_mem first new)

theorem mem_foldl_setMessage_of_not_mem {added : List QueryThreadMessage}
    {message : QueryThreadMessage} (member : message ∈ messages)
    (unset : message.id ∉ added.map fun other => other.id) :
    message ∈ added.foldl setMessage messages := by
  induction added generalizing messages with
  | nil => exact member
  | cons first rest ih =>
    rw [List.map_cons, List.mem_cons, not_or] at unset
    exact ih (mem_setMessage_of_ne member unset.1) unset.2

theorem mem_foldl_setMessage_of_mem {added : List QueryThreadMessage}
    {message : QueryThreadMessage} (distinct : (added.map fun other => other.id).Nodup)
    (member : message ∈ added) : message ∈ added.foldl setMessage messages := by
  induction added generalizing messages with
  | nil => cases member
  | cons first rest ih =>
    rw [List.map_cons, List.nodup_cons] at distinct
    rw [List.foldl_cons]
    rcases List.mem_cons.mp member with rfl | later
    · exact mem_foldl_setMessage_of_not_mem (mem_setMessage_self message) distinct.1
    · exact ih distinct.2 later

theorem foldl_setMessage_nodup {added : List QueryThreadMessage}
    (distinct : (messages.map fun message => message.id).Nodup) :
    ((added.foldl setMessage messages).map fun message => message.id).Nodup := by
  induction added generalizing messages with
  | nil => exact distinct
  | cons first rest ih => exact ih (setMessage_nodup distinct)

namespace QueryThreadState

variable {env : ThreadEnvironment} {s t : QueryThreadState}

theorem Consistent.congr (consistent : s.Consistent) (messages : t.messages = s.messages)
    (index : t.messageIndex = s.messageIndex) : t.Consistent := by
  refine ⟨?_, ?_, ?_⟩
  · rw [messages, index]
    exact consistent.index
  · rw [messages]
    exact consistent.distinct
  · rw [messages]
    exact consistent.messages

theorem Consistent.withMessages {messages : List QueryThreadMessage}
    (distinct : (messages.map fun message => message.id).Nodup)
    (all : ∀ message ∈ messages, message.Consistent) : (s.withMessages messages).Consistent where
  index := buildMessageIndex_eq_some_iff distinct
  distinct := distinct
  messages := all

theorem Consistent.message_unique (consistent : s.Consistent) {message other : QueryThreadMessage}
    (member : message ∈ s.messages) (there : other ∈ s.messages) (same : message.id = other.id) :
    message = other :=
  List.inj_on_of_nodup_map consistent.distinct member there same

theorem updateMessage_eq (consistent : s.Consistent) (messageId : String)
    (updater : QueryThreadMessage → QueryThreadMessage) :
    s.updateMessage messageId updater =
      { s with messages := s.messages.map fun message =>
          if message.id = messageId then updater message else message } := by
  cases place : s.messageIndex messageId with
  | none =>
    have absent : ∀ message ∈ s.messages, message.id ≠ messageId := by
      intro message member same
      obtain ⟨i, at_⟩ := List.mem_iff_getElem?.mp member
      have found := (consistent.index messageId i).mpr ⟨message, at_, same⟩
      rw [place] at found
      cases found
    have idle : (s.messages.map fun message =>
        if message.id = messageId then updater message else message) = s.messages := by
      refine (List.map_congr_left fun message member => ?_).trans (List.map_id s.messages)
      rw [if_neg (absent message member), id]
    rw [idle]
    simp only [updateMessage, place]
  | some i =>
    obtain ⟨message, at_, rfl⟩ := (consistent.index messageId i).mp place
    have moved := set_eq_map (fun message : QueryThreadMessage => message.id) consistent.distinct
      at_ updater
    simp only [updateMessage, place, at_, moved]

variable {updater : QueryThreadMessage → QueryThreadMessage}

theorem mem_updateMessage (consistent : s.Consistent) {messageId : String}
    {message : QueryThreadMessage} :
    message ∈ (s.updateMessage messageId updater).messages ↔
      ∃ old ∈ s.messages, (if old.id = messageId then updater old else old) = message := by
  rw [updateMessage_eq consistent]
  exact List.mem_map

theorem Consistent.updateMessage (consistent : s.Consistent) {messageId : String}
    (keeps : ∀ message ∈ s.messages, message.Consistent →
      (updater message).Consistent ∧ (updater message).id = message.id) :
    (s.updateMessage messageId updater).Consistent := by
  have ids : ∀ message ∈ s.messages,
      (if message.id = messageId then updater message else message).id = message.id := by
    intro message member
    split_ifs
    · exact (keeps message member (consistent.messages message member)).2
    · rfl
  rw [updateMessage_eq consistent]
  refine ⟨?_, ?_, ?_⟩
  · intro id i
    rw [consistent.index id i]
    simp only [List.getElem?_map]
    constructor
    · rintro ⟨message, at_, rfl⟩
      exact ⟨_, by rw [at_]; rfl, ids message (List.mem_of_getElem? at_)⟩
    · rintro ⟨message, at_, rfl⟩
      obtain ⟨old, here, rfl⟩ := Option.map_eq_some_iff.mp at_
      exact ⟨old, here, (ids old (List.mem_of_getElem? here)).symm⟩
  · have same : ((s.messages.map fun message =>
        if message.id = messageId then updater message else message).map
          fun message => message.id) = s.messages.map fun message => message.id := by
      rw [List.map_map]
      exact List.map_congr_left ids
    rw [same]
    exact consistent.distinct
  · intro message member
    obtain ⟨old, there, rfl⟩ := List.mem_map.mp member
    split_ifs
    · exact (keeps old there (consistent.messages old there)).1
    · exact consistent.messages old there

theorem mem_merge {first second : List QueryThreadMessage} {message : QueryThreadMessage}
    (member : message ∈ merge env first second) :
    message ∈ first ∧ message.id ∉ second.map (fun other => other.id) ∨ message ∈ second := by
  have sorted := List.perm_insertionSort
    (fun left right : QueryThreadMessage => env.localeLE left.createdAt right.createdAt = true)
    (second.foldl setMessage (first.foldl setMessage []))
  rcases mem_foldl_setMessage (sorted.mem_iff.mp member) with ⟨old, unset⟩ | new
  · rcases mem_foldl_setMessage old with ⟨none_, _⟩ | old
    · cases none_
    · exact .inl ⟨old, unset⟩
  · exact .inr new

theorem mem_merge_of_not_mem {first second : List QueryThreadMessage}
    (distinct : (first.map fun message => message.id).Nodup) {message : QueryThreadMessage}
    (member : message ∈ first) (unset : message.id ∉ second.map fun other => other.id) :
    message ∈ merge env first second := by
  apply (List.perm_insertionSort _ _).mem_iff.mpr
  exact mem_foldl_setMessage_of_not_mem (mem_foldl_setMessage_of_mem distinct member) unset

theorem consistent_merge {first second : List QueryThreadMessage}
    (firsts : ∀ message ∈ first, message.Consistent)
    (seconds : ∀ message ∈ second, message.Consistent) :
    ((merge env first second).map fun message => message.id).Nodup ∧
      ∀ message ∈ merge env first second, message.Consistent := by
  constructor
  · apply ((List.perm_insertionSort _ _).map _).nodup_iff.mpr
    exact foldl_setMessage_nodup (foldl_setMessage_nodup List.nodup_nil)
  · intro message member
    rcases mem_merge member with ⟨old, _⟩ | new
    · exact firsts message old
    · exact seconds message new

theorem Consistent.updateView (consistent : s.Consistent) (messageId : String)
    (updater : VersionView → VersionView) :
    (s.updateMessage messageId fun message =>
      message.updateActiveVersion updater).Consistent := by
  apply consistent.updateMessage
  intro message _ shows
  exact ⟨consistent_updateActiveVersion shows updater, (updateActiveVersion_id shows updater).1⟩

theorem Consistent.route (consistent : s.Consistent) (target : Option String)
    (event : QueryStreamEvent) : (s.route env target event).Consistent := by
  cases target with
  | none => exact consistent
  | some messageId => exact consistent.updateView messageId _

theorem not_mem_of_fresh {newId : String} (fresh : newId ∉ s.ids) {message : QueryThreadMessage}
    (member : message ∈ s.messages) :
    newId ∉ message.versions.map fun version => version.id := by
  intro used
  exact fresh (List.mem_flatMap.mpr ⟨message, member, List.mem_cons_of_mem _ used⟩)

theorem Consistent.appendAssistant (consistent : s.Consistent) {newId : String}
    (fresh : newId ∉ s.ids) (messageId sourceType now : String)
    (keep : QueryThreadMessage → Bool) :
    (s.updateMessage messageId fun message =>
      if keep message then message
      else appendAssistantVersion sourceType newId now message).Consistent := by
  apply consistent.updateMessage
  intro message member shows
  split_ifs
  · exact ⟨shows, rfl⟩
  · exact ⟨consistent_appendVersion shows (not_mem_of_fresh fresh member), rfl⟩

theorem consistent_submitQuery (consistent : s.Consistent)
    {query userVersionId userId assistantVersionId assistantId now : String}
    (distinct : [userVersionId, userId, assistantVersionId, assistantId].Nodup)
    (fresh : ∀ id ∈ [userVersionId, userId, assistantVersionId, assistantId], id ∉ s.ids) :
    (s.submitQuery query userVersionId userId assistantVersionId assistantId now).Consistent := by
  have unused : ∀ id ∈ [userId, assistantId], id ∉ s.messages.map fun message => message.id := by
    intro id known used
    obtain ⟨message, member, rfl⟩ := List.mem_map.mp used
    refine fresh message.id ?_ (List.mem_flatMap.mpr ⟨message, member, List.mem_cons_self⟩)
    simp only [List.mem_cons, List.not_mem_nil, or_false] at known ⊢
    rcases known with same | same
    · exact .inr (.inl same)
    · exact .inr (.inr (.inr same))
  have distinct' : ((s.messages ++
      [createUserMessage query userVersionId userId now,
        createAssistantPlaceholder assistantVersionId assistantId now]).map
          fun message => message.id).Nodup := by
    rw [List.map_append]
    apply consistent.distinct.append
    · have apart : userId ≠ assistantId := by
        intro same
        simp [same] at distinct
      simpa [createUserMessage, createAssistantPlaceholder] using apart
    · intro id used new
      apply unused id _ used
      simpa [createUserMessage, createAssistantPlaceholder] using new
  have all : ∀ message ∈ s.messages ++
      [createUserMessage query userVersionId userId now,
        createAssistantPlaceholder assistantVersionId assistantId now], message.Consistent := by
    intro message member
    rcases List.mem_append.mp member with old | new
    · exact consistent.messages message old
    · simp only [List.mem_cons, List.not_mem_nil, or_false] at new
      rcases new with rfl | rfl
      · exact ⟨List.nodup_singleton _, ⟨_, List.mem_singleton_self _, rfl, rfl⟩, rfl⟩
      · exact ⟨List.nodup_singleton _, ⟨_, List.mem_singleton_self _, rfl, rfl⟩, rfl⟩
  have both : (s.withMessages _).Consistent := Consistent.withMessages distinct' all
  exact both.congr rfl rfl

theorem consistent_initial : initialQueryThreadState.Consistent where
  index := by
    have none_ : (([] : List QueryThreadMessage).map fun message => message.id).Nodup :=
      List.nodup_nil
    exact buildMessageIndex_eq_some_iff none_
  distinct := List.nodup_nil
  messages := by
    intro message member
    cases member

theorem consistent_history (messages : List QueryHistoryMessage)
    (distinct : ∀ message ∈ messages, (message.versions.map fun version => version.id).Nodup) :
    ∀ message ∈ messages.map (fromHistoryMessage env), message.Consistent := by
  intro message member
  obtain ⟨stored, there, rfl⟩ := List.mem_map.mp member
  exact consistent_fromHistoryMessage env stored (distinct stored there)

theorem consistent_streamEvent (consistent : s.Consistent) {event : QueryStreamEvent}
    {newId now : String} (wellFormed : s.WellFormed (.streamEvent event newId now)) :
    (s.streamEvent env event newId now).Consistent := by
  cases event with
  | start messageId conversationId =>
    simp only [streamEvent]
    split_ifs
    · exact consistent.congr rfl rfl
    · have targeted : ((s.started conversationId).targeting messageId).Consistent :=
        consistent.congr rfl rfl
      have appended := targeted.appendAssistant wellFormed messageId "regenerate" now
        fun message => message.view.status = .streaming
      simpa using appended
  | metaInfo conversationId messageId confidence traceId cached modelName =>
    simp only [streamEvent]
    split
    · exact consistent
    · rename_i target _
      have grounded : (s.grounded conversationId target modelName).Consistent :=
        consistent.congr rfl rfl
      exact grounded.route _ _
  | error failure =>
    have ended : (s.ended (some failure)).Consistent := consistent.congr rfl rfl
    exact ended.route _ _
  | done =>
    have stopped : s.stopped.Consistent := consistent.congr rfl rfl
    exact stopped.route _ _
  | metrics | thinking | delta | replace | citation | block | status | files | output | trace
  | followups => exact consistent.route _ _

theorem consistent_step (consistent : s.Consistent) {action : QueryThreadAction}
    (wellFormed : s.WellFormed action) : (s.step env action).Consistent := by
  cases action with
  | loadHistory conversationId messages =>
    have kept : ∀ message ∈ (if s.currentConversationId = some conversationId then s.messages
        else []), message.Consistent := by
      intro message member
      split_ifs at member
      · exact consistent.messages message member
      · cases member
    obtain ⟨distinct, all⟩ := consistent_merge kept (consistent_history messages wellFormed)
    have merged : (s.withMessages _).Consistent := Consistent.withMessages distinct all
    exact merged.congr rfl rfl
  | prependHistory conversationId messages =>
    simp only [step, prependHistory]
    split_ifs
    · exact consistent
    · obtain ⟨distinct, all⟩ :=
        consistent_merge (consistent_history messages wellFormed) consistent.messages
      exact Consistent.withMessages distinct all
  | resetThread => exact consistent_initial
  | submitQuery =>
    exact consistent_submitQuery consistent wellFormed.1 wellFormed.2
  | startRegenerate assistantMessageId newId now =>
    have regenerating : (s.regenerating assistantMessageId).Consistent := consistent.congr rfl rfl
    have appended := regenerating.appendAssistant wellFormed assistantMessageId "regenerate" now
      fun _ => false
    simp only [Bool.false_eq_true, if_false] at appended
    exact appended
  | startEdit | cancelEdit | updateEditDraft =>
    exact consistent.updateMessage fun message _ shows =>
      ⟨⟨shows.distinct, shows.active, shows.count⟩, rfl⟩
  | commitUserEdit messageId content newId =>
    apply consistent.updateMessage
    intro message member shows
    have edited : ({ message with isEditing := false, draftContent := some content } :
        QueryThreadMessage).Consistent := ⟨shows.distinct, shows.active, shows.count⟩
    have fresh : newId ∉ message.versions.map fun version => version.id :=
      not_mem_of_fresh wellFormed member
    exact ⟨consistent_appendVersion edited fresh, rfl⟩
  | activateVersion messageId versionId =>
    apply consistent.updateMessage
    intro message _ shows
    refine ⟨consistent_activateVersionById shows versionId, ?_⟩
    rw [activateVersionById]
    cases message.versions.find? fun version => version.id = versionId <;> rfl
  | deleteMessageLocal messageId =>
    have distinct : ((s.messages.filter fun message => message.id ≠ messageId).map
        fun message => message.id).Nodup :=
      consistent.distinct.sublist (List.filter_sublist.map _)
    have all : ∀ message ∈ s.messages.filter fun message => message.id ≠ messageId,
        message.Consistent := by
      intro message member
      exact consistent.messages message (List.mem_filter.mp member).1
    have remaining : (s.withMessages _).Consistent := Consistent.withMessages distinct all
    exact remaining.congr rfl rfl
  | streamInterrupted =>
    simp only [step, streamInterrupted]
    have ended : (s.ended none).Consistent := consistent.congr rfl rfl
    cases nonempty s.activeAssistantId with
    | none => exact ended
    | some =>
      apply ended.updateMessage
      intro message _ shows
      exact ⟨consistent_interrupted env shows, interrupted_id env shows⟩
  | streamEvent => exact consistent_streamEvent consistent wellFormed
  | streamFinished => exact consistent.congr rfl rfl
  | streamFailed failure =>
    simp only [step, streamFailed]
    have ended : (s.ended (some failure)).Consistent := consistent.congr rfl rfl
    cases nonempty s.activeAssistantId with
    | none => exact ended
    | some messageId => exact ended.updateView messageId _

/-- In every run whose new ids are fresh and whose history payloads have distinct version ids, the
index and the versions of the thread stay consistent. -/
theorem consistent_of_wellFormed (env : ThreadEnvironment) (actions : List QueryThreadAction)
    (wellFormed : Guarded WellFormed (step env) initialQueryThreadState actions) :
    ∀ s ∈ trace (step env) initialQueryThreadState actions, s.Consistent :=
  invariant_of_guarded (fun _ _ consistent fits => consistent_step consistent fits)
    consistent_initial wellFormed

/-- An environment that displays text as it comes, as for a text without markup. -/
def plainText : ThreadEnvironment where
  normalizeMarkdown := id
  parseStructuredAnswer _ := none
  structuredAnswerToMarkdown _ := ""
  extractArtifactsFromContent _ := []
  streamedAnswer _ := none
  toText _ := ""
  toLowerCase := String.toLower
  localeLE left right := decide (left ≤ right)

def secondAnswer : List QueryThreadAction :=
  [.submitQuery "Which city?" "u-1" "user" "a-1" "assistant" "09:00",
    .streamEvent (.delta "Rome") "" "09:01", .streamEvent .done "" "09:02",
    .startRegenerate "assistant" "a-2" "09:03", .activateVersion "assistant" "a-1",
    .streamEvent (.thinking "Checking") "" "09:04", .streamInterrupted]

theorem secondAnswer_consistent :
    Guarded WellFormed (step plainText) initialQueryThreadState secondAnswer ∧
      ∀ s ∈ trace (step plainText) initialQueryThreadState secondAnswer, s.Consistent :=
  ⟨by decide +kernel, consistent_of_wellFormed plainText secondAnswer (by decide +kernel)⟩

end QueryThreadState

end AverQel.Frontend
