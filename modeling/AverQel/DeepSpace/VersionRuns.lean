/- digest: When messages mirror their active version and finished versions keep their text. -/
import AverQel.DeepSpace.MessageVersions

namespace AverQel.DeepSpace.Chat

open Foundation Transition

def Mirrored (s : VersionStore) : Prop :=
  ∀ m ∈ s.messages.rows, m.Mirrors ∧ (m.versions.map Version.versionIndex).Nodup

def MayWrite (s : VersionStore) (a : VersionAction) (messageId versionId : Uuid) : Prop :=
  ∃ generation content metadata, a = .complete generation content metadata ∧
    s.generations[generation]? = some ⟨messageId, versionId⟩

def Respects (s : VersionStore) (a : VersionAction) : Prop :=
  ∀ m ∈ s.messages.rows, ∀ version ∈ m.versions, ¬MayWrite s a m.id version.id →
    ∃ m' ∈ (versionStep s a).messages.rows, m'.id = m.id ∧ version ∈ m'.versions ∧
      (m'.activateVersion version.id).content = version.content

/-- A retry resets a message only when its active version is as the retry leaves the message. -/
def CarefulRetry (s : VersionStore) : VersionAction → Prop
  | .retry generation mode clientRequestId resumeFromRequestId =>
    ∀ g ∈ s.generations[generation]?, ∀ m ∈ s.messages.rows, m.id = g.messageId →
      ∀ version ∈ m.activeVersion, version.content = [] ∧
        version.metadata = m.retryMetadata mode clientRequestId resumeFromRequestId
  | .complete _ _ _ => True
  | .addMessage _ _ _ _ _ _ => True
  | .firstAnswer _ _ _ _ => True
  | .createVersion _ _ _ _ _ _ => True
  | .activateVersion _ _ => True
  | .regenerate _ _ _ => True

/-- A generation completes only while its version is the active one, or writes what that says. -/
def CarefulCompletion (s : VersionStore) : VersionAction → Prop
  | .complete generation content metadata =>
    ∀ g ∈ s.generations[generation]?, ∀ m ∈ s.messages.rows, m.id = g.messageId →
      m.role = .assistant → ∀ version ∈ m.activeVersion,
        version.id = g.versionId ∨ (version.content = content ∧ version.metadata = metadata)
  | .retry _ _ _ _ => True
  | .addMessage _ _ _ _ _ _ => True
  | .firstAnswer _ _ _ _ => True
  | .createVersion _ _ _ _ _ _ => True
  | .activateVersion _ _ => True
  | .regenerate _ _ _ => True

namespace VersionStore

variable {s : VersionStore} {m : Message}

/-- What a step makes of a message that is there. -/
def effect (s : VersionStore) : VersionAction → Message → Message
  | .addMessage _ _ _ _ _ _, m => m
  | .firstAnswer _ _ _ _, m => m
  | .createVersion id versionId content sourceType active metadata, m =>
    if m.id = id ∧ s.versionTaken versionId = false then
      m.createVersion versionId content sourceType active metadata
    else m
  | .activateVersion id versionId, m => if m.id = id then m.activateVersion versionId else m
  | .regenerate id versionId clientRequestId, m =>
    if m.id = id ∧ m.role = .assistant ∧ s.versionTaken versionId = false then
      m.createVersion versionId [] "regenerate" true
        (some (regenerationMetadata clientRequestId))
    else m
  | .retry generation mode clientRequestId resumeFromRequestId, m =>
    if s.generations[generation]?.map Generation.messageId = some m.id then
      m.reset (m.retryMetadata mode clientRequestId resumeFromRequestId)
    else m
  | .complete generation content metadata, m =>
    if s.generations[generation]?.map Generation.messageId = some m.id then
      m.complete content metadata
    else m

theorem rows_insert (m : Message) (versionId : Uuid) (started : List Generation) :
    (s.insert m versionId started).messages.rows = s.messages.rows ∨
      (s.insert m versionId started).messages.rows = s.messages.rows ++ [m] := by
  unfold insert
  split_ifs with taken
  · exact Or.inl rfl
  · cases inserted : s.messages.insert? m with
    | none => exact Or.inl rfl
    | some => exact Or.inr (Table.rows_of_insert? inserted)

theorem rows_onMessage (id : Uuid) (f : Message → Message) (keeps : ∀ m, (f m).id = m.id) :
    (s.onMessage id f keeps).messages.rows =
      s.messages.rows.map fun m => if m.id = id then f m else m := rfl

theorem map_effect_eq_rows {a : VersionAction} (same : ∀ m ∈ s.messages.rows, effect s a m = m) :
    s.messages.rows.map (effect s a) = s.messages.rows :=
  (List.map_congr_left same).trans (List.map_id s.messages.rows)

def Adds (s : VersionStore) (a : VersionAction) (added : List Message) : Prop :=
  (versionStep s a).messages.rows = s.messages.rows.map (effect s a) ++ added ∧
    ∀ m ∈ added, ∃ id versionId role content metadata createdAt,
      m = .initial id versionId role content metadata createdAt

theorem adds_nil {a : VersionAction}
    (mapped : (versionStep s a).messages.rows = s.messages.rows.map (effect s a)) :
    Adds s a [] :=
  ⟨mapped.trans (List.append_nil _).symm, fun _ member => absurd member List.not_mem_nil⟩

theorem adds_of_insert {a : VersionAction} (id versionId : Uuid) (role : MessageRole)
    (content : List Char) (metadata : Metadata) (createdAt : Time) (started : List Generation)
    (same : ∀ m ∈ s.messages.rows, effect s a m = m)
    (inserts : versionStep s a =
      s.insert (.initial id versionId role content metadata createdAt) versionId started) :
    ∃ added, Adds s a added := by
  have kept := map_effect_eq_rows same
  rcases rows_insert (s := s) (.initial id versionId role content metadata createdAt) versionId
    started with unchanged | more
  · refine ⟨[], adds_nil ?_⟩
    rw [inserts, unchanged, kept]
  · refine ⟨[.initial id versionId role content metadata createdAt], ?_, ?_⟩
    · rw [inserts, more, kept]
    · intro m member
      exact ⟨id, versionId, role, content, metadata, createdAt, List.mem_singleton.mp member⟩

theorem adds_regenerate (id versionId : Uuid) (clientRequestId : Option String) :
    Adds s (.regenerate id versionId clientRequestId) [] := by
  apply adds_nil
  simp only [versionStep]
  cases found : s.messages.find? id with
  | none =>
    have missing := Table.find?_eq_none_iff.mp found
    refine (map_effect_eq_rows fun m member => ?_).symm
    exact if_neg fun call => missing m member call.1
  | some =>
    have present := Table.find?_eq_some_iff.mp found
    dsimp only
    split_ifs with refused
    · refine (map_effect_eq_rows fun other member => ?_).symm
      apply if_neg
      rintro ⟨same, role, free⟩
      obtain rfl := s.messages.eq_of_key_eq member present.1 (same.trans present.2.symm)
      rcases refused with user | taken
      · exact user role
      · exact absurd (taken.symm.trans free) (by decide)
    · push Not at refused
      rw [rows_onMessage]
      refine List.map_congr_left fun other member => ?_
      simp only [effect]
      by_cases same : other.id = id
      · obtain rfl := s.messages.eq_of_key_eq member present.1 (same.trans present.2.symm)
        have free : s.versionTaken versionId = false := Bool.eq_false_iff.mpr refused.2
        rw [if_pos same, if_pos ⟨same, refused.1, free⟩]
      · rw [if_neg same, if_neg fun call => same call.1]

theorem exists_adds (s : VersionStore) (a : VersionAction) : ∃ added, Adds s a added := by
  cases a with
  | addMessage id versionId role content metadata createdAt =>
    exact adds_of_insert id versionId role content metadata createdAt [] (fun _ _ => rfl) rfl
  | firstAnswer id versionId metadata createdAt =>
    exact adds_of_insert id versionId .assistant [] metadata createdAt [⟨id, versionId⟩]
      (fun _ _ => rfl) rfl
  | createVersion =>
    refine ⟨[], adds_nil ?_⟩
    simp only [versionStep]
    split_ifs with taken
    · refine (map_effect_eq_rows fun m _ => ?_).symm
      exact if_neg fun call => absurd (taken.symm.trans call.2) (by decide)
    · rw [rows_onMessage]
      refine List.map_congr_left fun m _ => ?_
      simp only [effect, Bool.eq_false_iff.mpr taken, and_true]
  | activateVersion => exact ⟨[], adds_nil rfl⟩
  | regenerate id versionId clientRequestId =>
    exact ⟨[], adds_regenerate id versionId clientRequestId⟩
  | retry generation mode clientRequestId resumeFromRequestId
  | complete generation =>
    refine ⟨[], adds_nil ?_⟩
    simp only [versionStep]
    cases found : s.generations[generation]? with
    | none =>
      refine (map_effect_eq_rows fun m _ => ?_).symm
      simp [effect, found]
    | some =>
      refine List.map_congr_left fun m _ => ?_
      simp only [effect, found, Option.map_some, Option.some.injEq, eq_comm]

def Sound (s : VersionStore) : Prop := ∀ m ∈ s.messages.rows, m.WellVersioned

theorem ne_of_free {versionId : Uuid} (free : s.versionTaken versionId = false)
    (inside : m ∈ s.messages.rows) : ∀ version ∈ m.versions, version.id ≠ versionId := by
  intro version member same
  have taken : s.versionTaken versionId = true := by
    apply List.any_eq_true.mpr
    refine ⟨m, inside, List.any_eq_true.mpr ⟨version, member, ?_⟩⟩
    exact decide_eq_true same
  exact absurd (taken.symm.trans free) (by decide)

theorem id_effect (a : VersionAction) : (effect s a m).id = m.id := by
  cases a with
  | addMessage | firstAnswer => rfl
  | createVersion id versionId content sourceType active metadata =>
    simp only [effect]
    split_ifs
    · exact m.id_createVersion versionId content sourceType active metadata
    · rfl
  | activateVersion id versionId =>
    simp only [effect]
    split_ifs
    · exact m.id_activateVersion versionId
    · rfl
  | regenerate id versionId =>
    simp only [effect]
    split_ifs
    · exact m.id_createVersion versionId [] "regenerate" true _
    · rfl
  | retry =>
    simp only [effect]
    split_ifs <;> rfl
  | complete generation content metadata =>
    simp only [effect]
    split_ifs
    · exact m.id_complete content metadata
    · rfl

theorem wellVersioned_effect (a : VersionAction) (inside : m ∈ s.messages.rows)
    (well : m.WellVersioned) : (effect s a m).WellVersioned := by
  cases a with
  | addMessage | firstAnswer => exact well
  | createVersion =>
    simp only [effect]
    split_ifs with call
    · exact Message.wellVersioned_createVersion well (ne_of_free call.2 inside)
    · exact well
  | activateVersion id versionId =>
    simp only [effect]
    split_ifs
    · exact Message.wellVersioned_activateVersion well versionId
    · exact well
  | regenerate =>
    simp only [effect]
    split_ifs with call
    · exact Message.wellVersioned_createVersion well (ne_of_free call.2.2 inside)
    · exact well
  | retry =>
    simp only [effect]
    split_ifs
    · exact ⟨well.ids, well.indices⟩
    · exact well
  | complete =>
    simp only [effect]
    split_ifs
    · exact Message.wellVersioned_complete well
    · exact well

theorem sound_versionStep (s : VersionStore) (a : VersionAction) (sound : Sound s) :
    Sound (versionStep s a) := by
  obtain ⟨added, rows, single⟩ := exists_adds s a
  intro m member
  rw [rows] at member
  rcases List.mem_append.mp member with old | new
  · obtain ⟨before, inside, rfl⟩ := List.mem_map.mp old
    exact wellVersioned_effect a inside (sound before inside)
  · obtain ⟨id, versionId, role, content, metadata, createdAt, rfl⟩ := single m new
    exact Message.wellVersioned_initial id versionId role content metadata createdAt

theorem mirrors_effect (a : VersionAction)
    (other : ∀ generation mode clientRequestId resumeFromRequestId,
      a ≠ .retry generation mode clientRequestId resumeFromRequestId)
    (inside : m ∈ s.messages.rows) (well : m.WellVersioned) (mirrors : m.Mirrors) :
    (effect s a m).Mirrors := by
  cases a with
  | addMessage | firstAnswer => exact mirrors
  | createVersion =>
    simp only [effect]
    split_ifs with call
    · exact Message.mirrors_createVersion well mirrors (ne_of_free call.2 inside)
    · exact mirrors
  | activateVersion id versionId =>
    simp only [effect]
    split_ifs
    · exact Message.mirrors_activateVersion well mirrors versionId
    · exact mirrors
  | regenerate =>
    simp only [effect]
    split_ifs with call
    · exact Message.mirrors_createVersion well mirrors (ne_of_free call.2.2 inside)
    · exact mirrors
  | retry generation mode clientRequestId resumeFromRequestId =>
    exact absurd rfl (other generation mode clientRequestId resumeFromRequestId)
  | complete =>
    simp only [effect]
    split_ifs
    · exact Message.mirrors_complete well mirrors
    · exact mirrors

theorem mirrored_versionStep_iff_effect (a : VersionAction) (sound : Sound s) :
    Mirrored (versionStep s a) ↔ ∀ m ∈ s.messages.rows, (effect s a m).Mirrors := by
  obtain ⟨added, rows, single⟩ := exists_adds s a
  constructor
  · intro mirrored m inside
    have there : effect s a m ∈ (versionStep s a).messages.rows := by
      rw [rows]
      exact List.mem_append_left _ (List.mem_map_of_mem inside)
    exact (mirrored _ there).1
  · intro mirrors m member
    refine ⟨?_, (sound_versionStep s a sound m member).indices⟩
    rw [rows] at member
    rcases List.mem_append.mp member with old | new
    · obtain ⟨before, inside, rfl⟩ := List.mem_map.mp old
      exact mirrors before inside
    · obtain ⟨id, versionId, role, content, metadata, createdAt, rfl⟩ := single m new
      exact Message.mirrors_initial id versionId role content metadata createdAt

theorem mirrored_versionStep_iff (s : VersionStore) (a : VersionAction) (sound : Sound s)
    (mirrored : Mirrored s) : Mirrored (versionStep s a) ↔ CarefulRetry s a := by
  rw [mirrored_versionStep_iff_effect a sound]
  have kept (other : ∀ generation mode clientRequestId resumeFromRequestId,
      a ≠ .retry generation mode clientRequestId resumeFromRequestId) :
      ∀ m ∈ s.messages.rows, (effect s a m).Mirrors :=
    fun m inside => mirrors_effect a other inside (sound m inside) (mirrored m inside).1
  cases a with
  | retry =>
    simp only [CarefulRetry, Option.mem_def]
    constructor
    · intro mirrors g started m inside same
      have after := mirrors m inside
      simp only [effect, started, Option.map_some, same, if_true] at after
      exact (Message.mirrors_reset_iff (mirrored m inside).1).mp after
    · intro careful m inside
      simp only [effect]
      split_ifs with call
      · obtain ⟨g, started, same⟩ := Option.map_eq_some_iff.mp call
        rw [Message.mirrors_reset_iff (mirrored m inside).1]
        exact careful g started m inside same.symm
      · exact (mirrored m inside).1
  | addMessage | firstAnswer | createVersion | activateVersion | regenerate | complete =>
    exact iff_of_true (kept (by intros; exact VersionAction.noConfusion)) trivial

theorem respects_iff_effect (a : VersionAction) (sound : Sound s) :
    Respects s a ↔ ∀ m ∈ s.messages.rows, ∀ version ∈ m.versions,
      ¬MayWrite s a m.id version.id → version ∈ (effect s a m).versions := by
  obtain ⟨added, rows, _⟩ := exists_adds s a
  have there (m : Message) (inside : m ∈ s.messages.rows) :
      effect s a m ∈ (versionStep s a).messages.rows := by
    rw [rows]
    exact List.mem_append_left _ (List.mem_map_of_mem inside)
  constructor
  · intro respects m inside version member other
    obtain ⟨m', found, same, kept, _⟩ := respects m inside version member other
    have ids : m'.id = (effect s a m).id := same.trans (id_effect a).symm
    rwa [(versionStep s a).messages.eq_of_key_eq found (there m inside) ids] at kept
  · intro kept m inside version member other
    have remains := kept m inside version member other
    have well := wellVersioned_effect a inside (sound m inside)
    exact ⟨effect s a m, there m inside, id_effect a, remains,
      Message.content_activateVersion well remains⟩

theorem mem_versions_effect {version : Version} (a : VersionAction)
    (other : ∀ generation content metadata, a ≠ .complete generation content metadata)
    (member : version ∈ m.versions) : version ∈ (effect s a m).versions := by
  cases a with
  | addMessage | firstAnswer => exact member
  | createVersion | regenerate =>
    simp only [effect]
    split_ifs
    · rw [Message.versions_createVersion]
      exact List.mem_append_left _ member
    · exact member
  | activateVersion =>
    simp only [effect]
    split_ifs
    · rwa [Message.versions_activateVersion]
    · exact member
  | retry =>
    simp only [effect]
    split_ifs <;> exact member
  | complete generation content metadata =>
    exact absurd rfl (other generation content metadata)

theorem respects_complete_iff (generation : Nat) (content : List Char) (metadata : Metadata)
    (sound : Sound s) :
    Respects s (.complete generation content metadata) ↔
      CarefulCompletion s (.complete generation content metadata) := by
  rw [respects_iff_effect _ sound]
  simp only [CarefulCompletion, Option.mem_def]
  constructor
  · intro kept g started m inside same assistant version current
    obtain ⟨member, active⟩ := (Message.activeVersion_eq_some_iff (sound m inside)).mp current
    by_cases own : version.id = g.versionId
    · exact Or.inl own
    · right
      have other : ¬MayWrite s (.complete generation content metadata) m.id version.id := by
        rintro ⟨_, _, _, step, owner⟩
        cases step
        rw [started] at owner
        exact own (congrArg Generation.versionId (Option.some.inj owner)).symm
      have remains := kept m inside version member other
      simp only [effect, started, Option.map_some, same, if_true] at remains
      exact (Message.mem_versions_complete_iff (sound m inside) assistant member).mp remains
        active.symm
  · intro careful m inside version member other
    simp only [effect]
    split_ifs with call
    · obtain ⟨g, started, same⟩ := Option.map_eq_some_iff.mp call
      cases assistant : m.role with
      | user =>
        have left : m.complete content metadata = m := by
          unfold Message.complete
          rw [assistant]
        rwa [left]
      | assistant =>
        rw [Message.mem_versions_complete_iff (sound m inside) assistant member]
        intro active
        have current := (Message.activeVersion_eq_some_iff (sound m inside)).mpr
          ⟨member, active.symm⟩
        rcases careful g started m inside same.symm assistant version current with own | written
        · refine absurd ⟨generation, content, metadata, rfl, ?_⟩ other
          rw [started, ← same, own]
        · exact written
    · exact member

theorem respects_iff (s : VersionStore) (a : VersionAction) (sound : Sound s) :
    Respects s a ↔ CarefulCompletion s a := by
  have kept (other : ∀ generation content metadata,
      a ≠ .complete generation content metadata) : Respects s a := by
    rw [respects_iff_effect a sound]
    exact fun m _ version member _ => mem_versions_effect a other member
  cases a with
  | complete generation content metadata =>
    exact respects_complete_iff generation content metadata sound
  | addMessage | firstAnswer | createVersion | activateVersion | regenerate | retry =>
    exact iff_of_true (kept (by intros; exact VersionAction.noConfusion)) trivial

theorem sound_empty : Sound empty := fun _ member => absurd member List.not_mem_nil

theorem mirrored_empty : Mirrored empty := fun _ member => absurd member List.not_mem_nil

end VersionStore

open VersionStore

/-- In every run the versions of a message have ids and indices of their own. -/
theorem versions_apart (as : List VersionAction) :
    (run versionStep VersionStore.empty as).Sound :=
  run_of_keeps sound_versionStep sound_empty as

/-- From the empty store on, every message mirrors its active version after every commit and no
completion touches a version that its generation does not fill, exactly when every retry finds the
active version as it leaves the message, and every generation completes while its own version is
active. -/
theorem mirrored_and_respects_iff_careful (as : List VersionAction) :
    ((∀ t ∈ trace versionStep VersionStore.empty as, Mirrored t) ∧
        Guarded Respects versionStep VersionStore.empty as) ↔
      Guarded (fun s a => CarefulRetry s a ∧ CarefulCompletion s a) versionStep
        VersionStore.empty as := by
  have mirrors : (∀ t ∈ trace versionStep VersionStore.empty as, Mirrored t) ↔
      Guarded CarefulRetry versionStep VersionStore.empty as :=
    forall_trace_iff_guarded sound_versionStep mirrored_versionStep_iff sound_empty mirrored_empty
  have respects : Guarded Respects versionStep VersionStore.empty as ↔
      Guarded CarefulCompletion versionStep VersionStore.empty as :=
    guarded_iff_of_guarded (fun s a sound _ => sound_versionStep s a sound)
      (fun s a sound _ => respects_iff s a sound) sound_empty (guarded_true versionStep _ as)
  rw [mirrors, respects, guarded_and]

def streamed : Metadata := { Metadata.empty with status := some "completed" }

def switchedBack : List VersionAction :=
  [.firstAnswer 6910 6911 Metadata.empty 1,
    .complete 0 "first".toList streamed,
    .regenerate 6910 6912 none,
    .activateVersion 6910 6911]

def secondAnswer : VersionAction := .complete 1 "second".toList streamed

/-- The answer of the regeneration lands in the finished first answer. -/
theorem not_mirrored_and_respects_switchedBack :
    ¬((∀ t ∈ trace versionStep VersionStore.empty (switchedBack ++ [secondAnswer]), Mirrored t) ∧
        Guarded Respects versionStep VersionStore.empty (switchedBack ++ [secondAnswer])) := by
  rintro ⟨_, respects⟩
  obtain ⟨_, last, _⟩ := (guarded_append versionStep _ _ _).mp respects
  have lost : ∃ m ∈ (run versionStep VersionStore.empty switchedBack).messages.rows,
      ∃ version ∈ m.versions, m.id = 6910 ∧ version.id = 6911 ∧
        ∀ m' ∈ (versionStep (run versionStep VersionStore.empty switchedBack)
          secondAnswer).messages.rows, version ∉ m'.versions := by
    decide +kernel
  obtain ⟨m, inside, version, member, message, first, gone⟩ := lost
  have other : ¬MayWrite (run versionStep VersionStore.empty switchedBack) secondAnswer m.id
      version.id := by
    rw [message, first]
    rintro ⟨_, _, _, same, owner⟩
    cases same
    exact absurd owner (by decide +kernel)
  obtain ⟨m', there, _, kept, _⟩ := last m inside version member other
  exact gone m' there kept

end AverQel.DeepSpace.Chat
