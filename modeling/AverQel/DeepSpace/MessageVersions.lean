/- digest: Versions of messages under edits, generations, retries and switches of the user. -/
import AverQel.DeepSpace.ChatHistory
import AverQel.Foundation.Transition

namespace AverQel.DeepSpace.Chat

open Foundation Transition

structure Generation where
  (messageId versionId : Uuid)
  deriving DecidableEq, Repr

structure VersionStore where
  messages : Table Message Message.id
  generations : List Generation

inductive RetryMode where
  /-- The run is gone: the saved prompt is sent again. -/
  | fromStart
  /-- The run goes on from its checkpoint. -/
  | resume
  deriving DecidableEq, Repr

/-- What commits a change of a message. -/
inductive VersionAction where
  | addMessage (id versionId : Uuid) (role : MessageRole) (content : List Char)
      (metadata : Metadata) (createdAt : Time)
  /-- The empty answer that a new turn starts with. -/
  | firstAnswer (id versionId : Uuid) (metadata : Metadata) (createdAt : Time)
  | createVersion (id versionId : Uuid) (content : List Char) (sourceType : String)
      (active : Bool) (metadata : Option Metadata)
  | activateVersion (id versionId : Uuid)
  | regenerate (id versionId : Uuid) (clientRequestId : Option String)
  | retry (generation : Nat) (mode : RetryMode) (clientRequestId : Option String)
      (resumeFromRequestId : String)
  | complete (generation : Nat) (content : List Char) (metadata : Metadata)
  deriving DecidableEq, Repr

/-- `regeneration_metadata` -/
def regenerationMetadata (clientRequestId : Option String) : Metadata :=
  { Metadata.empty with
    status := some "streaming"
    regenerating := true
    clientRequestId := clientRequestId
    others := [("surface", "deepspace")] }

/-- The metadata that a retry gives the message; a resumed run keeps its continuations. -/
def Message.retryMetadata (m : Message) (mode : RetryMode) (clientRequestId : Option String)
    (resumeFromRequestId : String) : Metadata :=
  let streaming : Metadata :=
    { Metadata.empty with
      status := some "streaming"
      clientRequestId := clientRequestId
      retryOfRequestId := some resumeFromRequestId
      others := [("surface", "deepspace")] }
  match mode with
  | .fromStart => { streaming with others := streaming.others ++ [("retry_mode", "from_start")] }
  | .resume =>
    { streaming with
      continuations := m.metadata.continuations
      lastTurn := m.metadata.lastTurn }

namespace VersionStore

def empty : VersionStore := ⟨.empty, []⟩

variable (s : VersionStore)

def versionTaken (versionId : Uuid) : Bool :=
  s.messages.rows.any fun m => m.versions.any fun version => version.id = versionId

def insert (m : Message) (versionId : Uuid) (started : List Generation) : VersionStore :=
  if s.versionTaken versionId then s
  else
    match s.messages.insert? m with
    | some messages => ⟨messages, s.generations ++ started⟩
    | none => s

def onMessage (id : Uuid) (f : Message → Message) (keeps : ∀ m, (f m).id = m.id) : VersionStore :=
  { s with messages := s.messages.modify id f keeps }

end VersionStore

namespace Message

variable (m : Message)

theorem id_createVersion (versionId : Uuid) (content : List Char) (sourceType : String)
    (active : Bool) (metadata : Option Metadata) :
    (m.createVersion versionId content sourceType active metadata).id = m.id := by
  unfold createVersion
  cases active <;> rfl

theorem id_activateVersion (versionId : Uuid) : (m.activateVersion versionId).id = m.id := by
  unfold activateVersion
  split <;> rfl

theorem id_complete (content : List Char) (metadata : Metadata) :
    (m.complete content metadata).id = m.id := by
  unfold complete
  cases m.role <;> rfl

theorem id_reset (metadata : Metadata) : (m.reset metadata).id = m.id := rfl

end Message

def versionStep (s : VersionStore) : VersionAction → VersionStore
  | .addMessage id versionId role content metadata createdAt =>
    s.insert (.initial id versionId role content metadata createdAt) versionId []
  | .firstAnswer id versionId metadata createdAt =>
    s.insert (.initial id versionId .assistant [] metadata createdAt) versionId [⟨id, versionId⟩]
  | .createVersion id versionId content sourceType active metadata =>
    if s.versionTaken versionId then s
    else
      s.onMessage id (fun m => m.createVersion versionId content sourceType active metadata)
        fun m => m.id_createVersion versionId content sourceType active metadata
  | .activateVersion id versionId =>
    s.onMessage id (fun m => m.activateVersion versionId) fun m => m.id_activateVersion versionId
  | .regenerate id versionId clientRequestId =>
    match s.messages.find? id with
    | none => s
    | some m =>
      if m.role ≠ .assistant ∨ s.versionTaken versionId = true then s
      else
        { s.onMessage id
            (fun m => m.createVersion versionId [] "regenerate" true
              (some (regenerationMetadata clientRequestId)))
            fun m => m.id_createVersion versionId [] "regenerate" true _ with
          generations := s.generations ++ [⟨id, versionId⟩] }
  | .retry generation mode clientRequestId resumeFromRequestId =>
    match s.generations[generation]? with
    | none => s
    | some g =>
      s.onMessage g.messageId
        (fun m => m.reset (m.retryMetadata mode clientRequestId resumeFromRequestId))
        fun m => m.id_reset _
  | .complete generation content metadata =>
    match s.generations[generation]? with
    | none => s
    | some g =>
      s.onMessage g.messageId (fun m => m.complete content metadata)
        fun m => m.id_complete content metadata

namespace Message

def Mirrors (m : Message) : Prop :=
  ∃ version, m.activeVersion = some version ∧ m.content = version.content ∧
    m.metadata = version.metadata

variable {m : Message} {version : Version}

structure WellVersioned (m : Message) : Prop where
  ids : (m.versions.map Version.id).Nodup
  indices : (m.versions.map Version.versionIndex).Nodup

theorem activeVersion_eq_some_iff (h : m.WellVersioned) :
    m.activeVersion = some version ↔
      version ∈ m.versions ∧ m.activeVersionId = some version.id := by
  unfold activeVersion
  rw [Option.bind_eq_some_iff]
  constructor
  · rintro ⟨id, active, found⟩
    have same := List.find?_some found
    obtain rfl : version.id = id := of_decide_eq_true same
    exact ⟨List.mem_of_find?_eq_some found, active⟩
  · rintro ⟨inside, active⟩
    refine ⟨version.id, active, ?_⟩
    cases found : m.versions.find? fun other => other.id = version.id with
    | none =>
      have never := List.find?_eq_none.mp found version inside
      exact absurd (decide_eq_true rfl) never
    | some other =>
      have chosen := List.find?_some found
      have same : other.id = version.id := of_decide_eq_true chosen
      rw [List.inj_on_of_nodup_map h.ids (List.mem_of_find?_eq_some found) inside same]

variable (id versionId : Uuid) (role : MessageRole) (content : List Char) (metadata : Metadata)
variable (createdAt : Time)

theorem wellVersioned_initial :
    (initial id versionId role content metadata createdAt).WellVersioned :=
  ⟨List.nodup_singleton _, List.nodup_singleton _⟩

theorem mirrors_initial : (initial id versionId role content metadata createdAt).Mirrors := by
  refine ⟨⟨versionId, 1, content, metadata, "initial"⟩, ?_, rfl, rfl⟩
  rw [activeVersion_eq_some_iff (wellVersioned_initial ..)]
  exact ⟨List.mem_singleton_self _, rfl⟩

variable {versionId : Uuid} {content : List Char} {sourceType : String} {active : Bool}
variable {metadata : Option Metadata}

theorem versions_createVersion : (m.createVersion versionId content sourceType active
    metadata).versions = m.versions ++
      [⟨versionId, m.nextIndex, content, m.nextMetadata metadata, sourceType⟩] := by
  unfold createVersion
  cases active <;> rfl

theorem wellVersioned_createVersion (h : m.WellVersioned)
    (fresh : ∀ other ∈ m.versions, other.id ≠ versionId) :
    (m.createVersion versionId content sourceType active metadata).WellVersioned := by
  constructor
  · rw [versions_createVersion, List.map_append]
    refine h.ids.append (List.nodup_singleton _) ?_
    intro id inside new
    obtain ⟨other, member, rfl⟩ := List.mem_map.mp inside
    exact fresh other member (List.mem_singleton.mp new)
  · rw [versions_createVersion, List.map_append]
    refine h.indices.append (List.nodup_singleton _) ?_
    intro index inside new
    have bound := (le_foldl_max (m.versions.map Version.versionIndex) 0).2 index inside
    have next : index = m.nextIndex := List.mem_singleton.mp new
    rw [nextIndex] at next
    omega

theorem mirrors_createVersion (h : m.WellVersioned) (mirrors : m.Mirrors)
    (fresh : ∀ other ∈ m.versions, other.id ≠ versionId) :
    (m.createVersion versionId content sourceType active metadata).Mirrors := by
  have well : (m.createVersion versionId content sourceType active metadata).WellVersioned :=
    wellVersioned_createVersion h fresh
  cases active with
  | true =>
    refine ⟨⟨versionId, m.nextIndex, content, m.nextMetadata metadata, sourceType⟩, ?_, rfl, rfl⟩
    rw [activeVersion_eq_some_iff well, versions_createVersion]
    exact ⟨List.mem_append_right _ (List.mem_singleton_self _), rfl⟩
  | false =>
    obtain ⟨version, present, text, data⟩ := mirrors
    refine ⟨version, ?_, text, data⟩
    rw [activeVersion_eq_some_iff h] at present
    rw [activeVersion_eq_some_iff well, versions_createVersion]
    exact ⟨List.mem_append_left _ present.1, present.2⟩

theorem versions_activateVersion (m : Message) (versionId : Uuid) :
    (m.activateVersion versionId).versions = m.versions := by
  unfold activateVersion
  split <;> rfl

theorem wellVersioned_activateVersion (h : m.WellVersioned) (versionId : Uuid) :
    (m.activateVersion versionId).WellVersioned := by
  constructor
  · rw [versions_activateVersion]
    exact h.ids
  · rw [versions_activateVersion]
    exact h.indices

theorem mirrors_activateVersion (h : m.WellVersioned) (mirrors : m.Mirrors) (versionId : Uuid) :
    (m.activateVersion versionId).Mirrors := by
  cases found : m.versions.find? fun other => other.id = versionId with
  | none =>
    have same : m.activateVersion versionId = m := by
      unfold activateVersion
      rw [found]
    rw [same]
    exact mirrors
  | some version =>
    have well := wellVersioned_activateVersion h versionId
    refine ⟨version, ?_, ?_, ?_⟩
    · rw [activeVersion_eq_some_iff well, versions_activateVersion]
      refine ⟨List.mem_of_find?_eq_some found, ?_⟩
      unfold activateVersion
      rw [found]
    · unfold activateVersion
      rw [found]
    · unfold activateVersion
      rw [found]

theorem content_activateVersion (h : m.WellVersioned) (inside : version ∈ m.versions) :
    (m.activateVersion version.id).content = version.content := by
  cases found : m.versions.find? fun other => other.id = version.id with
  | none =>
    have never := List.find?_eq_none.mp found version inside
    exact absurd (decide_eq_true rfl) never
  | some other =>
    have chosen := List.find?_some found
    have same : other.id = version.id := of_decide_eq_true chosen
    obtain rfl := List.inj_on_of_nodup_map h.ids (List.mem_of_find?_eq_some found) inside same
    unfold activateVersion
    rw [found]

variable {metadata : Metadata}

def completed (m : Message) (content : List Char) (metadata : Metadata) (version : Version) :
    Version :=
  if some version.id = m.activeVersionId then
    { version with content := content, metadata := metadata }
  else version

theorem completed_id : (m.completed content metadata version).id = version.id := by
  unfold completed
  split <;> rfl

theorem versions_complete (assistant : m.role = .assistant) :
    (m.complete content metadata).versions = m.versions.map (m.completed content metadata) := by
  unfold complete
  rw [assistant]
  rfl

theorem wellVersioned_complete (h : m.WellVersioned) :
    (m.complete content metadata).WellVersioned := by
  cases assistant : m.role with
  | user =>
    have same : m.complete content metadata = m := by
      unfold complete
      rw [assistant]
    rw [same]
    exact h
  | assistant =>
    have ids : Version.id ∘ m.completed content metadata = Version.id := by
      funext other
      exact completed_id
    have indices : Version.versionIndex ∘ m.completed content metadata = Version.versionIndex := by
      funext other
      unfold completed
      dsimp only [Function.comp_apply]
      split <;> rfl
    constructor
    · rw [versions_complete assistant, List.map_map, ids]
      exact h.ids
    · rw [versions_complete assistant, List.map_map, indices]
      exact h.indices

theorem mirrors_complete (h : m.WellVersioned) (mirrors : m.Mirrors) :
    (m.complete content metadata).Mirrors := by
  cases assistant : m.role with
  | user =>
    have same : m.complete content metadata = m := by
      unfold complete
      rw [assistant]
    rw [same]
    exact mirrors
  | assistant =>
    obtain ⟨version, present, _, _⟩ := mirrors
    obtain ⟨inside, active⟩ := (activeVersion_eq_some_iff h).mp present
    have filled : m.completed content metadata version =
        { version with content := content, metadata := metadata } := if_pos active.symm
    refine ⟨m.completed content metadata version, ?_, ?_, ?_⟩
    · rw [activeVersion_eq_some_iff (wellVersioned_complete h), versions_complete assistant]
      refine ⟨List.mem_map_of_mem inside, ?_⟩
      rw [completed_id]
      unfold complete
      rw [assistant]
      exact active
    · rw [filled]
      unfold complete
      rw [assistant]
    · rw [filled]
      unfold complete
      rw [assistant]

theorem mem_versions_complete_iff (h : m.WellVersioned) (assistant : m.role = .assistant)
    (inside : version ∈ m.versions) :
    version ∈ (m.complete content metadata).versions ↔
      (some version.id = m.activeVersionId →
        version.content = content ∧ version.metadata = metadata) := by
  rw [versions_complete assistant, List.mem_map]
  constructor
  · rintro ⟨other, member, same⟩ active
    have ids : other.id = version.id := by
      rw [← same]
      exact completed_id.symm
    obtain rfl := List.inj_on_of_nodup_map h.ids member inside ids
    unfold completed at same
    rw [if_pos active] at same
    rw [← same]
    exact ⟨rfl, rfl⟩
  · intro agrees
    refine ⟨version, inside, ?_⟩
    unfold completed
    split_ifs with active
    · obtain ⟨text, data⟩ := agrees active
      rw [← text, ← data]
    · rfl

theorem mirrors_reset_iff (mirrors : m.Mirrors) {metadata : Metadata} :
    (m.reset metadata).Mirrors ↔
      ∀ version ∈ m.activeVersion, version.content = [] ∧ version.metadata = metadata := by
  obtain ⟨current, present, _, _⟩ := mirrors
  have kept : (m.reset metadata).activeVersion = m.activeVersion := rfl
  constructor
  · rintro ⟨version, active, text, data⟩ other same
    rw [kept] at active
    obtain rfl := Option.some.inj (active.symm.trans same)
    exact ⟨text.symm, data.symm⟩
  · intro agrees
    obtain ⟨text, data⟩ := agrees current present
    exact ⟨current, present, text.symm, data.symm⟩

end Message

end AverQel.DeepSpace.Chat
