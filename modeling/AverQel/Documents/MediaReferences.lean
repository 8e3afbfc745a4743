/- digest: The object keys that the rows of a space name, and what each call does to them. -/
import AverQel.Documents.Memberships

namespace AverQel.Documents

open Foundation AverQel.System

variable {Bytes : Type} {env : ConnectEnvironment Bytes}

namespace Spaces

/-- A row of the space names the object key: a message, a media record or a clean-up job. -/
inductive Refers (env : ConnectEnvironment Bytes) (s : Spaces Bytes) (collectionId : Uuid)
    (key : String) : Prop
  | message (m : CollectionChatMessage) (member : m ∈ s.messages.rows)
      (own : m.collectionId = collectionId) (named : m.mediaObjectKey = some key)
  | media (m : CollectionChatMedia) (member : m ∈ s.media.rows)
      (own : m.collectionId = collectionId) (named : env.path m.objectKey = key)
  | job (j : StorageCleanupJob) (member : j ∈ s.jobs) (own : j.collectionId = collectionId)
      (named : j.objectKey = key)

structure NothingNew (env : ConnectEnvironment Bytes) (s s' : Spaces Bytes) : Prop where
  refers : ∀ {collectionId key}, Refers env s' collectionId key → Refers env s collectionId key
  objects : ∀ {key}, (s'.objects key).isSome → (s.objects key).isSome

/-- A change outside of messages, media, jobs and objects. -/
structure SameMedia (s s' : Spaces Bytes) : Prop where
  messages : s'.messages = s.messages
  media : s'.media = s.media
  jobs : s'.jobs = s.jobs
  objects : s'.objects = s.objects

variable {s s' s'' : Spaces Bytes}

theorem Aside.sameMedia (aside : Aside s s') : SameMedia s s' :=
  ⟨aside.messages, aside.media, aside.jobs, aside.objects⟩

theorem NothingNew.refl (s : Spaces Bytes) : NothingNew env s s := ⟨id, id⟩

theorem NothingNew.trans (first : NothingNew env s s') (second : NothingNew env s' s'') :
    NothingNew env s s'' :=
  ⟨fun refers => first.refers (second.refers refers),
    fun stored => first.objects (second.objects stored)⟩

theorem nothingNew_of_rows
    (messages : ∀ m ∈ s'.messages.rows, ∀ key, m.mediaObjectKey = some key →
      Refers env s m.collectionId key)
    (media : ∀ m ∈ s'.media.rows, ∃ old ∈ s.media.rows,
      old.collectionId = m.collectionId ∧ old.objectKey = m.objectKey)
    (jobs : ∀ j ∈ s'.jobs, Refers env s j.collectionId j.objectKey)
    (objects : ∀ key, (s'.objects key).isSome → (s.objects key).isSome) : NothingNew env s s' := by
  refine ⟨?_, fun {key} => objects key⟩
  rintro collectionId key (⟨m, member, rfl, named⟩ | ⟨m, member, rfl, rfl⟩ | ⟨j, member, rfl, rfl⟩)
  · exact messages m member key named
  · obtain ⟨old, known, space, same⟩ := media m member
    exact .media old known space (by rw [same])
  · exact jobs j member

theorem refers_message {m : CollectionChatMessage} (member : m ∈ s.messages.rows) :
    ∀ key, m.mediaObjectKey = some key → Refers env s m.collectionId key :=
  fun _ named => .message m member rfl named

theorem refers_job {j : StorageCleanupJob} (member : j ∈ s.jobs) :
    Refers env s j.collectionId j.objectKey :=
  .job j member rfl rfl

theorem SameMedia.nothingNew (same : SameMedia s s') : NothingNew env s s' := by
  obtain ⟨messages, media, jobs, objects⟩ := same
  refine nothingNew_of_rows ?_ ?_ ?_ ?_
  · rw [messages]
    exact fun m member => refers_message member
  · rw [media]
    exact fun m member => ⟨m, member, rfl, rfl⟩
  · rw [jobs]
    exact fun j member => refers_job member
  · rw [objects]
    exact fun _ stored => stored

theorem publish_sameMedia (event : RoomEvent) : SameMedia s (s.publish event) :=
  ⟨rfl, rfl, rfl, rfl⟩

variable {collection : DocumentCollection}

theorem mem_queueMediaCleanup_media {mediaId : Option Uuid} {objectKey : Option String}
    {owner : Uuid} {m : CollectionChatMedia}
    (member : m ∈ (s.queueMediaCleanup collection mediaId objectKey owner).media.rows) :
    ∃ old ∈ s.media.rows, old.collectionId = m.collectionId ∧ old.objectKey = m.objectKey := by
  cases mediaId with
  | none => exact ⟨m, member, rfl, rfl⟩
  | some =>
    simp only [queueMediaCleanup] at member
    obtain ⟨old, known, result⟩ := Table.mem_modify.mp member
    refine ⟨old, known, ?_⟩
    rw [← result]
    split
    · split
      · exact ⟨rfl, rfl⟩
      · exact ⟨rfl, rfl⟩
    · exact ⟨rfl, rfl⟩

theorem mem_queueMediaCleanup_jobs {mediaId : Option Uuid} {objectKey : Option String}
    {owner : Uuid} {j : StorageCleanupJob}
    (member : j ∈ (s.queueMediaCleanup collection mediaId objectKey owner).jobs) :
    j ∈ s.jobs ∨ (j.collectionId = collection.id ∧ objectKey = some j.objectKey) := by
  simp only [queueMediaCleanup] at member
  split at member
  · exact .inl member
  · rename_i key given
    rcases List.mem_append.mp member with old | new
    · exact .inl old
    · rw [List.mem_singleton.mp new]
      exact .inr ⟨rfl, (Text.nonempty_eq_some_iff.mp given).1⟩

theorem queueMediaCleanup_nothingNew {objectKey : Option String}
    (known : ∀ key, objectKey = some key → Refers env s collection.id key) (mediaId : Option Uuid)
    (owner : Uuid) : NothingNew env s (s.queueMediaCleanup collection mediaId objectKey owner) := by
  refine nothingNew_of_rows (fun m member => refers_message member)
    (fun m member => mem_queueMediaCleanup_media member) ?_ (fun _ stored => stored)
  intro j member
  rcases mem_queueMediaCleanup_jobs member with old | ⟨space, queued⟩
  · exact refers_job old
  · rw [space]
    exact known _ queued

variable (env) in
theorem queueMessages_spec (ms : List CollectionChatMessage)
    (known : ∀ m ∈ ms, m ∈ s.messages.rows ∧ m.collectionId = collection.id) :
    (s.queueMessages collection ms).messages = s.messages ∧
      NothingNew env s (s.queueMessages collection ms) := by
  induction ms generalizing s with
  | nil => exact ⟨rfl, .refl s⟩
  | cons m rest ih =>
    obtain ⟨⟨member, own⟩, later⟩ := List.forall_mem_cons.mp known
    let queued := s.queueMediaCleanup collection m.mediaId m.mediaObjectKey m.userId
    have first : NothingNew env s queued :=
      queueMediaCleanup_nothingNew (fun key named => .message m member own named) _ _
    have still : ∀ m ∈ rest, m ∈ queued.messages.rows ∧ m.collectionId = collection.id := later
    obtain ⟨messages, second⟩ := ih still
    exact ⟨messages, first.trans second⟩

theorem messages_filter_nothingNew (p : CollectionChatMessage → Bool) :
    NothingNew env s { s with messages := s.messages.filter p } :=
  nothingNew_of_rows (fun _ member => refers_message (Table.mem_filter.mp member).1)
    (fun m member => ⟨m, member, rfl, rfl⟩) (fun _ member => refers_job member)
    (fun _ stored => stored)

theorem deleteCollectionRow_nothingNew (collectionId : Uuid) :
    NothingNew env s (s.deleteCollectionRow collectionId) :=
  nothingNew_of_rows (fun _ member => refers_message (Table.mem_filter.mp member).1)
    (fun m member => ⟨m, (Table.mem_filter.mp member).1, rfl, rfl⟩)
    (fun _ member => refers_job member) (fun _ stored => stored)

theorem attachMedia_nothingNew (registered : Option CollectionChatMedia) (messageId : Uuid) :
    NothingNew env s (s.attachMedia registered messageId) := by
  cases registered with
  | none => exact .refl s
  | some =>
    refine nothingNew_of_rows (fun m member => refers_message member) ?_
      (fun j member => refers_job member) (fun _ stored => stored)
    intro m member
    simp only [attachMedia] at member
    obtain ⟨old, known, result⟩ := Table.mem_modify.mp member
    refine ⟨old, known, ?_⟩
    rw [← result]
    split
    · exact ⟨rfl, rfl⟩
    · exact ⟨rfl, rfl⟩

theorem insertMessage_nothingNew {m : CollectionChatMessage} {sent : Spaces Bytes}
    (inserted : s.insertMessage m = some sent)
    (known : ∀ key, m.mediaObjectKey = some key → Refers env s m.collectionId key) :
    NothingNew env s sent := by
  unfold insertMessage at inserted
  split at inserted
  · obtain ⟨messages, added, rfl⟩ := Option.map_eq_some_iff.mp inserted
    refine nothingNew_of_rows ?_ (fun m member => ⟨m, member, rfl, rfl⟩)
      (fun j member => refers_job member) (fun _ stored => stored)
    intro row member
    rcases (Table.mem_of_insert? added).mp member with old | rfl
    · exact refers_message old
    · exact known
  · cases inserted

theorem insertMessage_media {m : CollectionChatMessage} {sent : Spaces Bytes}
    (inserted : s.insertMessage m = some sent) {id : Uuid} (named : m.mediaId = some id) :
    ∃ media, s.media.find? id = some media := by
  unfold insertMessage at inserted
  split at inserted
  · rename_i exist
    rw [named] at exist
    exact Option.isSome_iff_exists.mp exist.2
  · cases inserted

theorem validateRegisteredMedia_ok {userId id : Uuid} {key : String}
    {registered : Option CollectionChatMedia} {media : CollectionChatMedia}
    (checked : s.validateRegisteredMedia env collection userId (some (id, key)) = .ok registered)
    (found : s.media.find? id = some media) :
    media.collectionId = collection.id ∧ env.path media.objectKey = key := by
  simp only [validateRegisteredMedia, found] at checked
  split at checked
  · cases checked
  · rename_i fine
    simp only [not_or, not_not] at fine
    exact ⟨fine.1, fine.2.2.2.1⟩

theorem sendMessage_nothingNew {userId collectionId messageId : Uuid} {payload : ChatPayload}
    {reference : Option (Uuid × String)} {registered : Option CollectionChatMedia} {now : Time}
    {sent : Spaces Bytes} (found : s.requireCollection collectionId = .ok collection)
    (checked : s.validateRegisteredMedia env collection userId reference = .ok registered)
    (done : s.sendMessage (newMessage userId collectionId messageId payload reference now)
      registered = some sent) :
    NothingNew env s sent := by
  obtain ⟨stored, inserted, rfl⟩ := Option.map_eq_some_iff.mp done
  have first : NothingNew env s stored := by
    refine insertMessage_nothingNew inserted ?_
    intro key named
    obtain ⟨⟨id, _⟩, given, rfl⟩ := Option.map_eq_some_iff.mp named
    have media_id : (newMessage userId collectionId messageId payload reference now).mediaId =
        some id := by simp only [newMessage, given, Option.map_some]
    obtain ⟨media, located⟩ := insertMessage_media inserted media_id
    rw [given] at checked
    obtain ⟨space, same⟩ := validateRegisteredMedia_ok checked located
    refine .media media (Table.find?_eq_some_iff.mp located).1 ?_ same
    exact space.trans (requireCollection_ok found).2
  exact (first.trans (attachMedia_nothingNew registered _)).trans
    (publish_sameMedia _).nothingNew

end Spaces

def ActionResult.NothingNew (env : ConnectEnvironment Bytes) (s : Spaces Bytes) :
    ActionResult Bytes → Prop
  | .goesOn next _ => Spaces.NothingNew env s next
  | .closes => True

namespace Spaces

variable {s : Spaces Bytes} {userId collectionId : Uuid}

theorem mem_messagesOf {m : CollectionChatMessage} :
    m ∈ s.messagesOf collectionId ↔ m ∈ s.messages.rows ∧ m.collectionId = collectionId := by
  simp [messagesOf]

variable {collection : DocumentCollection}

theorem queueMessages_filter_nothingNew {ms : List CollectionChatMessage}
    (known : ∀ m ∈ ms, m ∈ s.messagesOf collection.id) (p : CollectionChatMessage → Bool) :
    let queued := s.queueMessages collection ms
    NothingNew env s { queued with messages := queued.messages.filter p } := by
  obtain ⟨_, first⟩ :=
    queueMessages_spec env ms (fun m member => mem_messagesOf.mp (known m member))
  exact first.trans (messages_filter_nothingNew p)

theorem createCollection_sameMedia (tenantId : Uuid) (description : String) :
    SameMedia s (s.createCollection tenantId userId collectionId description).state := by
  unfold createCollection
  extract_lets failed
  split
  · exact ⟨rfl, rfl, rfl, rfl⟩
  · exact ⟨rfl, rfl, rfl, rfl⟩

theorem addPermissions_sameMedia (code : String) :
    SameMedia s (s.addPermissions env userId collectionId code).state := by
  unfold addPermissions
  split
  · exact ⟨rfl, rfl, rfl, rfl⟩
  · split
    · exact ⟨rfl, rfl, rfl, rfl⟩
    · exact ⟨rfl, rfl, rfl, rfl⟩

theorem respond_sameMedia (approve : Bool) :
    SameMedia s (s.respondToCollectionInvitation userId collectionId approve).state := by
  unfold respondToCollectionInvitation
  split
  · exact ⟨rfl, rfl, rfl, rfl⟩
  · split
    · exact ⟨rfl, rfl, rfl, rfl⟩
    · split
      · split
        · exact ⟨rfl, rfl, rfl, rfl⟩
        · exact ⟨rfl, rfl, rfl, rfl⟩
      · exact ⟨rfl, rfl, rfl, rfl⟩

theorem removePermissions_nothingNew (userIds : List Uuid) :
    NothingNew env s (s.removePermissions userId collectionId userIds).state := by
  unfold removePermissions
  split
  · exact .refl s
  · rename_i removed _
    extract_lets left
    have membership : SameMedia s left := ⟨rfl, rfl, rfl, rfl⟩
    split
    · exact membership.nothingNew.trans (deleteCollectionRow_nothingNew collectionId)
    · exact membership.nothingNew

theorem deleteCollection_nothingNew :
    NothingNew env s (s.deleteCollection userId collectionId).state := by
  unfold deleteCollection
  split
  · exact .refl s
  · rename_i collection role access
    have same := (accessAs_ok access).1
    split
    · exact .refl s
    · have known : ∀ m ∈ s.messagesOf collectionId,
          m ∈ s.messages.rows ∧ m.collectionId = collection.id :=
        fun m member => same ▸ mem_messagesOf.mp member
      obtain ⟨_, first⟩ := queueMessages_spec env _ known
      exact first.trans (deleteCollectionRow_nothingNew collectionId)

theorem sweepExpired_nothingNew (collection : DocumentCollection) (now : Time) :
    NothingNew env s (s.sweepExpired collection now) := by
  unfold sweepExpired
  split
  · exact .refl s
  · extract_lets cutoff expired queued
    exact queueMessages_filter_nothingNew (fun m member => (List.mem_filter.mp member).1) _

theorem getCollectionChats_nothingNew (limit : Nat) (before : Option Time) (now : Time) :
    NothingNew env s (s.getCollectionChats userId collectionId limit before now).state := by
  unfold getCollectionChats
  split
  · exact .refl s
  · extract_lets swept
    change NothingNew env s swept
    unfold swept
    split
    · exact .refl s
    · exact sweepExpired_nothingNew _ now

theorem clearCollectionChats_nothingNew :
    NothingNew env s (s.clearCollectionChats userId collectionId).state := by
  unfold clearCollectionChats
  split
  · exact .refl s
  · rename_i collection access
    obtain ⟨_, same, _⟩ := accessGlobal_ok access
    extract_lets queued cleared
    have first : NothingNew env s cleared :=
      queueMessages_filter_nothingNew (fun m member => same ▸ member) _
    exact first.trans (publish_sameMedia _).nothingNew

theorem createCollectionChat_nothingNew (request : ConnectRequest) (messageId : Uuid)
    (payload : ChatPayload) (now : Time) :
    NothingNew env s (s.createCollectionChat env request messageId payload now).state := by
  unfold createCollectionChat
  split
  · exact .refl s
  · rename_i reference registered planned
    split
    · split
      · exact .refl s
      · exact .refl s
    · split
      · exact .refl s
      · extract_lets message
        split
        · exact .refl s
        · rename_i sent done
          simp only [planChat, bind_eq_ok_iff] at planned
          obtain ⟨_, _, collection, found, _, _, _, _, _, _, _, checked, result⟩ := planned
          cases result
          exact sendMessage_nothingNew found checked done

theorem orphanSweep_nothingNew (cutoff : Time) : NothingNew env s (s.orphanSweep env cutoff) := by
  unfold orphanSweep
  extract_lets abandoned swept
  refine nothingNew_of_rows (fun m member => refers_message member) ?_ ?_ (fun _ stored => stored)
  · intro m member
    dsimp only at member
    obtain ⟨old, known, rfl⟩ := Table.mem_mapRows.mp member
    refine ⟨old, known, ?_⟩
    split
    · exact ⟨rfl, rfl⟩
    · exact ⟨rfl, rfl⟩
  · intro j member
    rcases List.mem_append.mp member with old | new
    · exact refers_job old
    · obtain ⟨m, listed, rfl⟩ := List.mem_map.mp new
      have known : m ∈ s.media.rows :=
        (List.mem_filter.mp (mem_ascending.mp (List.mem_of_mem_take listed))).1
      exact .media m known rfl rfl

theorem runCleanup_nothingNew (jobs : Nat) : NothingNew env s (s.runCleanup env jobs) := by
  unfold runCleanup
  extract_lets due
  refine nothingNew_of_rows (fun m member => refers_message member)
    (fun m member => ⟨m, member, rfl, rfl⟩)
    (fun j member => refers_job (List.mem_of_mem_drop member)) ?_
  intro key stored
  dsimp only at stored
  split at stored
  · cases stored
  · exact stored

theorem planUpload_ok {request : ConnectRequest} {upload : MediaUpload Bytes}
    (planned : s.planUpload env request upload = .ok collection) :
    collection.id = request.collectionId := by
  simp only [planUpload, bind_eq_ok_iff] at planned
  obtain ⟨found, access, _, _, _, _, _, _, _, _, _, _, result⟩ := planned
  cases result
  exact (accessGlobal_ok access).2.1

theorem uploadCollectionChatMedia_effect {request : ConnectRequest} {upload : MediaUpload Bytes}
    (planned : s.planUpload env request upload = .ok collection) (mediaId : Uuid) (now : Time) :
    let key := objectKey collection.tenantId mediaId (Text.orDefault upload.filename "media")
    let s' := (s.uploadCollectionChatMedia env request mediaId upload now).state
    (∀ space name, Refers env s' space name →
      Refers env s space name ∨ (space = request.collectionId ∧ name = env.path key)) ∧
    ∀ other, (s'.objects other).isSome → (s.objects other).isSome ∨ other = key := by
  intro key s'
  have own := planUpload_ok planned
  have objects : s'.objects = s.objects.put key upload.payload := by
    unfold s' uploadCollectionChatMedia
    simp only [planned]
    split
    · rfl
    · rfl
  refine ⟨?_, ?_⟩
  · intro space name
    unfold s' uploadCollectionChatMedia
    simp only [planned]
    split
    · rintro (⟨m, member, owned, named⟩ | ⟨m, member, owned, named⟩ | ⟨j, member, owned, named⟩)
      · exact .inl (.message m member owned named)
      · exact .inl (.media m member owned named)
      · simp only [Attempt.state] at member
        rcases mem_queueMediaCleanup_jobs member with old | ⟨space_eq, queued⟩
        · exact .inl (.job j old owned named)
        · refine .inr ⟨owned.symm.trans (space_eq.trans own), ?_⟩
          rw [← named]
          exact (Option.some.inj queued).symm
    · rename_i media inserted
      rintro (⟨m, member, owned, named⟩ | ⟨m, member, owned, named⟩ | ⟨j, member, owned, named⟩)
      · exact .inl (.message m member owned named)
      · rcases (Table.mem_of_insert? inserted).mp member with old | new
        · exact .inl (.media m old owned named)
        · rw [new] at owned named
          exact .inr ⟨owned.symm, named.symm⟩
      · exact .inl (.job j member owned named)
  · intro other stored
    by_cases here : other = key
    · exact .inr here
    · rw [objects, ObjectStore.put_of_ne _ _ here] at stored
      exact .inl stored

variable {socket : Socket}

theorem connectSocket_sameMedia {lastEventId : Option Nat} {next : Spaces Bytes}
    {events : List RoomEvent}
    (joined : s.connectSocket env socket lastEventId = .ok (next, events)) :
    SameMedia s next := by
  unfold connectSocket at joined
  split at joined
  · cases joined
  split at joined
  · cases joined
  split at joined
  · cases joined
  split at joined
  · cases joined
  · cases joined
    exact ⟨rfl, rfl, rfl, rfl⟩

theorem disconnectSocket_sameMedia : SameMedia s (s.disconnectSocket socket) := by
  unfold disconnectSocket
  extract_lets left
  split
  · exact ⟨rfl, rfl, rfl, rfl⟩
  · exact ⟨rfl, rfl, rfl, rfl⟩

theorem postMessage_nothingNew (fits : Bool) (messageId : Uuid) (payload : ChatPayload)
    (now : Time) : (s.postMessage env socket fits messageId payload now).NothingNew env s := by
  unfold postMessage
  extract_lets content clientId sent
  split
  · exact .refl s
  split
  · trivial
  · rename_i reference registered checked
    split
    · split
      · trivial
      · exact (publish_sameMedia _).nothingNew
    · split
      · trivial
      · extract_lets message
        split
        · trivial
        · rename_i next done
          simp only [bind_eq_ok_iff] at checked
          obtain ⟨collection, found, _, _, _, valid, result⟩ := checked
          cases result
          exact sendMessage_nothingNew found valid done

theorem messages_modify_nothingNew (id : Uuid) (f : CollectionChatMessage → CollectionChatMessage)
    (hf : ∀ m, (f m).id = m.id) (space : ∀ m, (f m).collectionId = m.collectionId)
    (key : ∀ m name, (f m).mediaObjectKey = some name → m.mediaObjectKey = some name) :
    NothingNew env s { s with messages := s.messages.modify id f hf } := by
  refine nothingNew_of_rows ?_ (fun m member => ⟨m, member, rfl, rfl⟩)
    (fun j member => refers_job member) (fun _ stored => stored)
  intro m member
  dsimp only at member
  obtain ⟨old, known, result⟩ := Table.mem_modify.mp member
  split at result
  · intro name named
    rw [← result] at named ⊢
    rw [space]
    exact refers_message known name (key old name named)
  · rw [← result]
    exact refers_message known

theorem reactToMessage_nothingNew (messageId reaction : String) :
    (s.reactToMessage env socket messageId reaction).NothingNew env s := by
  unfold reactToMessage
  split
  · exact .refl s
  split
  · trivial
  split
  · exact .refl s
  · extract_lets reacted
    have first : NothingNew env s reacted :=
      messages_modify_nothingNew _ _ _ (fun _ => rfl) (fun _ _ named => named)
    exact first.trans (publish_sameMedia _).nothingNew

theorem acknowledge_nothingNew (messageId : String) :
    (s.acknowledge env socket messageId).NothingNew env s := by
  unfold acknowledge
  split
  · exact .refl s
  split
  · trivial
  split
  · exact .refl s
  · exact (publish_sameMedia _).nothingNew

theorem mem_of_findMessage {collectionId messageId : Uuid} {m : CollectionChatMessage}
    (found : s.findMessage collectionId messageId = some m) :
    m ∈ s.messages.rows ∧ m.collectionId = collectionId := by
  obtain ⟨located, own⟩ := Option.filter_eq_some_iff.mp found
  exact ⟨(Table.find?_eq_some_iff.mp located).1, by simpa using own⟩

theorem deleteMessage_nothingNew (messageId : String) :
    (s.deleteMessage env socket messageId).NothingNew env s := by
  unfold deleteMessage
  split
  · exact .refl s
  split
  · trivial
  split
  · exact .refl s
  · trivial
  · rename_i message collection found located
    obtain ⟨member, own⟩ := mem_of_findMessage found
    have same : message.collectionId = collection.id :=
      own.trans (Table.find?_eq_some_iff.mp located).2.symm
    split
    · extract_lets queued erase deleted
      have first : NothingNew env s queued :=
        queueMediaCleanup_nothingNew (fun key named => .message message member same named) _ _
      have second : NothingNew env queued deleted :=
        messages_modify_nothingNew _ _ _ (fun _ => rfl) fun _ _ named => by cases named
      exact (first.trans second).trans (publish_sameMedia _).nothingNew
    · exact .refl s

theorem markRead_nothingNew : (s.markRead socket).NothingNew env s := by
  unfold markRead
  split
  · exact .refl s
  · exact (publish_sameMedia _).nothingNew

theorem socketAction_nothingNew (fits : Bool) (messageId : Uuid) (now : Time)
    (action : SocketAction) :
    (s.socketAction env socket fits messageId now action).NothingNew env s := by
  cases action with
  | ping => exact .refl s
  | postMessage payload => exact postMessage_nothingNew fits messageId payload now
  | typing => exact (publish_sameMedia _).nothingNew
  | react id reaction => exact reactToMessage_nothingNew id reaction
  | delivered id => exact acknowledge_nothingNew id
  | delete id => exact deleteMessage_nothingNew id
  | read => exact markRead_nothingNew

theorem socketTurn_nothingNew (withinRate fits : Bool) (messageId : Uuid) (now : Time)
    (action : SocketAction) :
    NothingNew env s (s.socketTurn env socket withinRate fits messageId now action).1 := by
  have acted : (s.socketAction env socket fits messageId now action).NothingNew env s :=
    socketAction_nothingNew fits messageId now action
  unfold socketTurn
  split
  · exact disconnectSocket_sameMedia.nothingNew
  split
  · exact .refl s
  split
  · rename_i next effect result
    rw [result] at acted
    exact acted
  · exact disconnectSocket_sameMedia.nothingNew

theorem deliverNext_sameMedia (collectionId : Uuid) :
    SameMedia s (s.deliverNext collectionId).1 := by
  unfold deliverNext
  extract_lets ofRoom
  split
  · exact ⟨rfl, rfl, rfl, rfl⟩
  · exact ⟨rfl, rfl, rfl, rfl⟩

end Spaces

end AverQel.Documents
