/- digest: Which stored objects leave a space through its media endpoints. -/
import AverQel.Documents.ConnectHistory
import AverQel.Documents.MediaReferences

namespace AverQel.Documents

open Foundation Transition AverQel.System
open Spaces (Refers NothingNew)

variable {Bytes : Type}

namespace ConnectHistory

variable (env : ConnectEnvironment Bytes)

def UploadedFor (h : ConnectHistory Bytes) (collectionId : Uuid) (name : String) : Prop :=
  ∃ upload ∈ h.uploads, upload.collectionId = collectionId ∧ env.path upload.key = name

def MediaStaysInside (h : ConnectHistory Bytes) : Prop :=
  (∀ read ∈ h.reads, read ∈ h.uploads) ∧
    ∀ job ∈ h.spaces.jobs, UploadedFor env h job.collectionId job.objectKey

/-- A member who asks for a stored object of the tenant names a media id that an upload to this
very space got. -/
def OwnMediaId (h : ConnectHistory Bytes) : ConnectStep Bytes → Prop
  | .downloadMedia userId collectionId mediaId filename =>
    ∀ collection, h.spaces.collections.find? collectionId = some collection →
      (h.spaces.roleOf collectionId userId).isSome →
      (h.spaces.objects (Spaces.downloadKey collection mediaId filename)).isSome →
      ∃ upload ∈ h.uploads, upload.collectionId = collectionId ∧ upload.key.documentId = mediaId
  | _ => True

/-- The rows of a space name only keys of its own uploads, and an object under the id of an upload
is the uploaded one. -/
structure Registered (h : ConnectHistory Bytes) : Prop where
  named : ∀ {collectionId name}, Refers env h.spaces collectionId name →
    UploadedFor env h collectionId name
  uploadUsed : ∀ upload ∈ h.uploads, upload.key.documentId ∈ h.usedIds
  objectUsed : ∀ {key}, (h.spaces.objects key).isSome → key.documentId ∈ h.usedIds
  exact_key : ∀ {key}, (h.spaces.objects key).isSome →
    ∀ upload ∈ h.uploads, upload.key.documentId = key.documentId → upload.key = key

variable {env} {h : ConnectHistory Bytes}

theorem registered_start (users : List User) :
    Registered env (start users : ConnectHistory Bytes) := by
  constructor
  · rintro collectionId name (⟨_, member, _⟩ | ⟨_, member, _⟩ | ⟨_, member, _⟩)
    all_goals exact absurd member List.not_mem_nil
  · exact fun upload member => absurd member List.not_mem_nil
  · exact fun stored => absurd stored (by simp [start])
  · exact fun stored => absurd stored (by simp [start])

theorem Registered.of_nothingNew (reg : Registered env h) {h' : ConnectHistory Bytes}
    (nothing : NothingNew env h.spaces h'.spaces) (uploads : h'.uploads = h.uploads)
    (usedIds : h'.usedIds = h.usedIds) : Registered env h' := by
  constructor
  · intro collectionId name refers
    rw [UploadedFor, uploads]
    exact reg.named (nothing.refers refers)
  · rw [uploads, usedIds]
    exact reg.uploadUsed
  · intro key stored
    rw [usedIds]
    exact reg.objectUsed (nothing.objects stored)
  · intro key stored
    rw [uploads]
    exact reg.exact_key (nothing.objects stored)

theorem Registered.mediaStaysInside_iff (reg : Registered env h) :
    MediaStaysInside env h ↔ ∀ read ∈ h.reads, read ∈ h.uploads :=
  and_iff_left fun _ member => reg.named (Spaces.refers_job member)

theorem Registered.upload (reg : Registered env h) (request : ConnectRequest) (mediaId : Uuid)
    (media : Spaces.MediaUpload Bytes) (now : Time) :
    Registered env (h.uploadMedia env request mediaId media now) := by
  unfold uploadMedia
  extract_lets result
  split
  · exact reg
  rename_i fresh
  cases planned : h.spaces.planUpload env request media with
  | error =>
    have same : result.state = h.spaces := by
      unfold result Spaces.uploadCollectionChatMedia
      rw [planned]
      rfl
    simp only [same]
    exact reg
  | ok =>
    obtain ⟨named, objects⟩ := Spaces.uploadCollectionChatMedia_effect planned mediaId now
    constructor
    · intro collectionId name refers
      rcases named collectionId name refers with old | ⟨own, same⟩
      · obtain ⟨upload, member, facts⟩ := reg.named old
        exact ⟨upload, List.mem_cons_of_mem _ member, facts⟩
      · exact ⟨_, List.mem_cons_self, own.symm, same.symm⟩
    · intro upload member
      rcases List.mem_cons.mp member with rfl | old
      · exact List.mem_cons_self
      · exact List.mem_cons_of_mem _ (reg.uploadUsed upload old)
    · intro key stored
      rcases objects key stored with old | rfl
      · exact List.mem_cons_of_mem _ (reg.objectUsed old)
      · exact List.mem_cons_self
    · intro key stored upload member same
      rcases objects key stored with old | rfl
      · rcases List.mem_cons.mp member with rfl | known
        · have used := reg.objectUsed old
          rw [← same] at used
          exact absurd used fresh
        · exact reg.exact_key old upload known same
      · rcases List.mem_cons.mp member with rfl | known
        · rfl
        · have used := reg.uploadUsed upload known
          rw [same] at used
          exact absurd used fresh

variable (env) in
/-- A step that uploads, stores and reads nothing. -/
structure Quiet (h h' : ConnectHistory Bytes) : Prop where
  nothing : NothingNew env h.spaces h'.spaces
  uploads : h'.uploads = h.uploads
  reads : h'.reads = h.reads
  usedIds : h'.usedIds = h.usedIds

theorem Quiet.refl (h : ConnectHistory Bytes) : Quiet env h h := ⟨.refl _, rfl, rfl, rfl⟩

theorem quiet_call {α : Type} {userId collectionId : Uuid} {result : Attempt (Spaces Bytes) α}
    (nothing : NothingNew env h.spaces result.state) :
    Quiet env h (h.call userId collectionId result) := by
  unfold call
  split
  · exact ⟨nothing, rfl, rfl, rfl⟩
  · exact ⟨nothing, rfl, rfl, rfl⟩

theorem quiet_participateAll (collectionId : Uuid) (sockets : List Socket) :
    Quiet env h (participateAll collectionId h sockets) := by
  induction sockets generalizing h with
  | nil => exact .refl h
  | cons socket rest ih =>
    have later := ih (h := h.participate socket.userId collectionId)
    exact ⟨later.nothing, later.uploads, later.reads, later.usedIds⟩

theorem quiet_postChat (request : ConnectRequest) (messageId : Uuid) (payload : ChatPayload)
    (now : Time) : Quiet env h (h.postChat env request messageId payload now) := by
  have nothing : NothingNew env h.spaces
      (h.spaces.createCollectionChat env request messageId payload now).state :=
    Spaces.createCollectionChat_nothingNew request messageId payload now
  unfold postChat
  split
  · rename_i done
    rw [done] at nothing
    exact ⟨nothing, rfl, rfl, rfl⟩
  · exact ⟨nothing, rfl, rfl, rfl⟩

theorem quiet_connect (socket : Socket) (lastEventId : Option Nat) :
    Quiet env h (h.connect env socket lastEventId) := by
  unfold connect
  split
  · exact .refl h
  split
  · exact .refl h
  · rename_i joined
    exact ⟨(Spaces.connectSocket_sameMedia joined).nothingNew, rfl, rfl, rfl⟩
  · rename_i joined
    exact ⟨(Spaces.connectSocket_sameMedia joined).nothingNew, rfl, rfl, rfl⟩

theorem quiet_turn (socketId : Uuid) (withinRate fits : Bool) (messageId : Uuid) (now : Time)
    (action : SocketAction) :
    Quiet env h (h.turn env socketId withinRate fits messageId now action) := by
  unfold turn
  split
  · exact .refl h
  · rename_i socket _
    have nothing : NothingNew env h.spaces
        (h.spaces.socketTurn env socket withinRate fits messageId now action).1 :=
      Spaces.socketTurn_nothingNew withinRate fits messageId now action
    split
    · rename_i result
      rw [result] at nothing
      exact ⟨nothing, rfl, rfl, rfl⟩
    · rename_i result
      rw [result] at nothing
      exact ⟨nothing, rfl, rfl, rfl⟩

theorem quiet_disconnect (socketId : Uuid) :
    Quiet env h (h.disconnect socketId) := by
  unfold disconnect
  split
  · exact .refl h
  · exact ⟨Spaces.disconnectSocket_sameMedia.nothingNew, rfl, rfl, rfl⟩

theorem quiet_deliver (collectionId : Uuid) :
    Quiet env h (h.deliver collectionId) := by
  unfold deliver
  have told : Quiet env h (participateAll collectionId h (h.spaces.deliverNext collectionId).2) :=
    quiet_participateAll _ _
  exact ⟨(Spaces.deliverNext_sameMedia collectionId).nothingNew, told.uploads, told.reads,
    told.usedIds⟩

variable (env h) in
theorem step_quiet (a : ConnectStep Bytes) :
    (match a with
      | .uploadMedia .. | .downloadMedia .. | .storeObject .. => True
      | a => Quiet env h (step env h a)) := by
  cases a with
  | createCollection tenantId userId collectionId description =>
    exact ⟨(Spaces.createCollection_sameMedia tenantId description).nothingNew, rfl, rfl, rfl⟩
  | addPermissions userId collectionId code =>
    exact ⟨(Spaces.addPermissions_sameMedia code).nothingNew, rfl, rfl, rfl⟩
  | respond userId collectionId approve =>
    exact ⟨(Spaces.respond_sameMedia approve).nothingNew, rfl, rfl, rfl⟩
  | removePermissions userId collectionId userIds =>
    exact ⟨Spaces.removePermissions_nothingNew userIds, rfl, rfl, rfl⟩
  | deleteCollection =>
    exact ⟨Spaces.deleteCollection_nothingNew, rfl, rfl, rfl⟩
  | getChats userId collectionId limit before now =>
    exact quiet_call (Spaces.getCollectionChats_nothingNew limit before now)
  | postChat request messageId payload now => exact quiet_postChat request messageId payload now
  | clearChats => exact quiet_call Spaces.clearCollectionChats_nothingNew
  | updateExpiry userId collectionId days =>
    exact ⟨(Spaces.updateCollectionExpiry_aside days).sameMedia.nothingNew, rfl, rfl, rfl⟩
  | addDocuments | removeDocuments =>
    exact ⟨(Spaces.syncDocuments_aside _).sameMedia.nothingNew, rfl, rfl, rfl⟩
  | uploadMedia | downloadMedia => trivial
  | connect socket lastEventId => exact quiet_connect socket lastEventId
  | turn socketId withinRate fits messageId now action =>
    exact quiet_turn socketId withinRate fits messageId now action
  | disconnect socketId => exact quiet_disconnect socketId
  | deliver collectionId => exact quiet_deliver collectionId
  | orphanSweep cutoff => exact ⟨Spaces.orphanSweep_nothingNew cutoff, rfl, rfl, rfl⟩
  | runCleanup jobs => exact ⟨Spaces.runCleanup_nothingNew jobs, rfl, rfl, rfl⟩
  | registerDevice | revokeDevice =>
    exact ⟨Spaces.SameMedia.nothingNew ⟨rfl, rfl, rfl, rfl⟩, rfl, rfl, rfl⟩
  | block userId collectionId blockedId =>
    exact ⟨(Spaces.blockMember_aside blockedId).sameMedia.nothingNew, rfl, rfl, rfl⟩
  | unblock userId collectionId blockedId =>
    exact ⟨(Spaces.unblockMember_aside blockedId).sameMedia.nothingNew, rfl, rfl, rfl⟩
  | storeObject => trivial

theorem Registered.store (reg : Registered env h) (key : ObjectKey) (payload : Bytes) :
    Registered env (h.storeObject key payload) := by
  unfold storeObject
  split
  · exact reg
  rename_i apart
  constructor
  · rintro collectionId name
      (⟨m, member, own, named⟩ | ⟨m, member, own, named⟩ | ⟨j, member, own, named⟩)
    · exact reg.named (.message m member own named)
    · exact reg.named (.media m member own named)
    · exact reg.named (.job j member own named)
  · exact fun upload member => List.mem_cons_of_mem _ (reg.uploadUsed upload member)
  · intro other stored
    by_cases same : other = key
    · rw [same]
      exact List.mem_cons_self
    · dsimp only at stored
      rw [ObjectStore.put_of_ne _ _ same] at stored
      exact List.mem_cons_of_mem _ (reg.objectUsed stored)
  · intro other stored upload member id
    by_cases same : other = key
    · subst same
      exact absurd (List.mem_map.mpr ⟨upload, member, id⟩) apart
    · dsimp only at stored
      rw [ObjectStore.put_of_ne _ _ same] at stored
      exact reg.exact_key stored upload member id

theorem Registered.download (reg : Registered env h) (userId collectionId mediaId : Uuid)
    (filename : String) :
    Registered env (h.downloadMedia userId collectionId mediaId filename) := by
  unfold downloadMedia
  split
  · exact reg
  · exact reg.of_nothingNew (.refl _) rfl rfl

theorem registered_step (a : ConnectStep Bytes) (reg : Registered env h) :
    Registered env (step env h a) := by
  have quiet := step_quiet env h a
  cases a with
  | uploadMedia request mediaId media now => exact reg.upload request mediaId media now
  | downloadMedia userId collectionId mediaId filename =>
    exact reg.download userId collectionId mediaId filename
  | storeObject key payload => exact reg.store key payload
  | _ => exact reg.of_nothingNew quiet.nothing quiet.uploads quiet.usedIds

theorem mem_download_reads {userId collectionId mediaId : Uuid} {filename : String}
    {read : MediaUse} :
    read ∈ (h.downloadMedia userId collectionId mediaId filename).reads ↔
      read ∈ h.reads ∨
        ∃ collection, h.spaces.collections.find? collectionId = some collection ∧
          (h.spaces.roleOf collectionId userId).isSome ∧
          (h.spaces.objects (Spaces.downloadKey collection mediaId filename)).isSome ∧
          read = ⟨collectionId, Spaces.downloadKey collection mediaId filename⟩ := by
  simp only [downloadMedia, Spaces.downloadCollectionChatMedia, Spaces.accessGlobal,
    Spaces.enforceAccess]
  cases located : h.spaces.collections.find? collectionId with
  | none => simp
  | some collection =>
    cases given : h.spaces.roleOf collectionId userId with
    | none => simp
    | some =>
      cases found : h.spaces.objects (Spaces.downloadKey collection mediaId filename) with
      | none => simp [found]
      | some => simp [found, or_comm]

variable (env) in
theorem uploadMedia_reads (request : ConnectRequest) (mediaId : Uuid)
    (media : Spaces.MediaUpload Bytes) (now : Time) (reads : ∀ read ∈ h.reads, read ∈ h.uploads) :
    ∀ read ∈ (h.uploadMedia env request mediaId media now).reads,
      read ∈ (h.uploadMedia env request mediaId media now).uploads := by
  unfold uploadMedia
  extract_lets result
  split
  · exact reads
  split
  · exact reads
  · intro read member
    exact List.mem_cons_of_mem _ (reads read member)

theorem storeObject_reads (key : ObjectKey) (payload : Bytes)
    (reads : ∀ read ∈ h.reads, read ∈ h.uploads) :
    ∀ read ∈ (h.storeObject key payload).reads, read ∈ (h.storeObject key payload).uploads := by
  unfold storeObject
  split
  · exact reads
  · exact reads

theorem downloadMedia_uploads (userId collectionId mediaId : Uuid) (filename : String) :
    (h.downloadMedia userId collectionId mediaId filename).uploads = h.uploads := by
  unfold downloadMedia
  split
  · rfl
  · rfl

theorem downloadMedia_reads_iff (reg : Registered env h)
    (reads : ∀ read ∈ h.reads, read ∈ h.uploads) (userId collectionId mediaId : Uuid)
    (filename : String) :
    (∀ read ∈ (h.downloadMedia userId collectionId mediaId filename).reads, read ∈ h.uploads) ↔
      OwnMediaId h (.downloadMedia userId collectionId mediaId filename) := by
  constructor
  · intro held collection located given found
    have logged := held _ (mem_download_reads.mpr (.inr ⟨collection, located, given, found, rfl⟩))
    exact ⟨_, logged, rfl, rfl⟩
  · intro own read member
    rcases mem_download_reads.mp member with old | ⟨collection, located, given, found, rfl⟩
    · exact reads read old
    · obtain ⟨⟨space, key⟩, known, rfl, same⟩ := own collection located given found
      have exact_key : key = Spaces.downloadKey collection mediaId filename :=
        reg.exact_key found _ known same
      rw [← exact_key]
      exact known

theorem mediaStaysInside_step_iff (a : ConnectStep Bytes) (reg : Registered env h)
    (inside : MediaStaysInside env h) : MediaStaysInside env (step env h a) ↔ OwnMediaId h a := by
  have reads : ∀ read ∈ h.reads, read ∈ h.uploads := inside.1
  have quiet := step_quiet env h a
  rw [(registered_step a reg).mediaStaysInside_iff]
  cases a with
  | uploadMedia request mediaId media now =>
    exact iff_of_true (uploadMedia_reads env request mediaId media now reads) trivial
  | storeObject key payload => exact iff_of_true (storeObject_reads key payload reads) trivial
  | downloadMedia userId collectionId mediaId filename =>
    have uploads : (step env h (.downloadMedia userId collectionId mediaId filename)).uploads =
        h.uploads := downloadMedia_uploads userId collectionId mediaId filename
    rw [uploads]
    exact downloadMedia_reads_iff reg reads userId collectionId mediaId filename
  | _ =>
    refine iff_of_true ?_ trivial
    rw [quiet.reads, quiet.uploads]
    exact reads

/-- In every run the rows of a space name only keys of its own uploads. -/
theorem rows_name_own_uploads (users : List User) (steps : List (ConnectStep Bytes)) :
    Registered env (run (step env) (start users) steps) :=
  run_of_keeps (fun _ a reg => registered_step a reg) (registered_start users) steps

variable (env) in
/-- What a space reads and deletes was uploaded for it, exactly as long as nobody asks it for a
stored object whose id is not one of its uploads. -/
theorem media_stays_inside_iff (users : List User) (steps : List (ConnectStep Bytes)) :
    (∀ h ∈ Transition.trace (step env) (start users) steps, MediaStaysInside env h) ↔
      Guarded OwnMediaId (step env) (start users) steps := by
  refine forall_trace_iff_guarded (fun _ a reg => registered_step a reg)
    (fun _ a reg inside => mediaStaysInside_step_iff a reg inside) (registered_start users) ?_
  exact ⟨fun _ member => absurd member List.not_mem_nil,
    fun _ member => absurd member List.not_mem_nil⟩

instance (env : ConnectEnvironment Bytes) (h : ConnectHistory Bytes) (collectionId : Uuid)
    (name : String) : Decidable (UploadedFor env h collectionId name) :=
  inferInstanceAs (Decidable (∃ _ ∈ _, _))

instance (env : ConnectEnvironment Bytes) (h : ConnectHistory Bytes) :
    Decidable (MediaStaysInside env h) :=
  inferInstanceAs (Decidable (_ ∧ _))

/-- A document of the tenant leaves through the media endpoint of a space. -/
theorem contract_read_as_media :
    ¬ MediaStaysInside smallEnvironment
      (run (step smallEnvironment) (start twoUsers)
        [.storeObject ⟨1, 50, "contract.pdf"⟩ "salary", .createCollection 1 1 7 "team",
          .downloadMedia 1 7 50 "contract.pdf"]) := by
  decide +kernel

end ConnectHistory

end AverQel.Documents
