/- digest: Who takes part in a shared space, over every history of calls, turns and deliveries. -/
import AverQel.Documents.ConnectHistory
import AverQel.Documents.Memberships

namespace AverQel.Documents

open Foundation Transition AverQel.System
open Spaces (SameMembers KeepsMembers)

variable {Bytes : Type}

namespace Spaces

def removedUsers (s : Spaces Bytes) (userId collectionId : Uuid) (userIds : List Uuid) :
    List Uuid :=
  match s.planRemoval userId collectionId userIds with
  | .error _ => []
  | .ok removed => removed

def pending (s : Spaces Bytes) (collectionId userId : Uuid) : Prop :=
  s.roleOf collectionId userId = some .pending

end Spaces

namespace ConnectHistory

def OnlyConnected (h : ConnectHistory Bytes) : Prop :=
  ∀ p ∈ h.participations, p.role.any isConnectedRole = true

/-- No caller waits for an approval, and nobody loses the membership while a socket is open. -/
def RespectsMembership (h : ConnectHistory Bytes) : ConnectStep Bytes → Prop
  | .getChats userId collectionId _ _ _ | .clearChats userId collectionId
  | .downloadMedia userId collectionId _ _ => ¬ h.spaces.pending collectionId userId
  | .postChat request _ _ _ => ¬ h.spaces.pending request.collectionId request.userId
  | .connect socket _ => ¬ h.spaces.pending socket.collectionId socket.userId
  | .removePermissions userId collectionId userIds =>
    ∀ socket ∈ h.spaces.roomSockets collectionId,
      socket.userId ∉ h.spaces.removedUsers userId collectionId userIds
  | .deleteCollection userId collectionId =>
    h.spaces.roleOf collectionId userId = some .owner → h.spaces.roomSockets collectionId = []
  | _ => True

structure Members (h : ConnectHistory Bytes) : Prop where
  participants : OnlyConnected h
  sockets : ∀ socket ∈ h.spaces.sockets, h.spaces.connected socket.collectionId socket.userId

variable {env : ConnectEnvironment Bytes} {h : ConnectHistory Bytes}

theorem members_start (users : List User) : Members (start users : ConnectHistory Bytes) :=
  ⟨fun _ member => absurd member List.not_mem_nil, fun _ member => absurd member List.not_mem_nil⟩

variable {userId collectionId : Uuid}

theorem Members.participate (members : Members h)
    (joined : h.spaces.connected collectionId userId) :
    Members (h.participate userId collectionId) := by
  refine ⟨?_, members.sockets⟩
  intro p member
  rcases List.mem_cons.mp member with rfl | old
  · exact joined
  · exact members.participants p old

theorem Members.keeps (members : Members h) {spaces : Spaces Bytes}
    (keeps : KeepsMembers h.spaces spaces) : Members (h.withSpaces spaces) := by
  refine ⟨members.participants, ?_⟩
  intro socket member
  exact keeps.connected (members.sockets socket (keeps.sockets socket member))

theorem Members.same (members : Members h) {spaces : Spaces Bytes}
    (same : SameMembers h.spaces spaces) : Members (h.withSpaces spaces) :=
  members.keeps same.keeps

theorem Members.participateAll (members : Members h) {collectionId : Uuid} {sockets : List Socket}
    (joined : ∀ socket ∈ sockets, h.spaces.connected collectionId socket.userId) :
    Members (participateAll collectionId h sockets) := by
  induction sockets generalizing h with
  | nil => exact members
  | cons socket rest ih =>
    have first := members.participate (joined socket List.mem_cons_self)
    exact ih first fun other member => joined other (List.mem_cons_of_mem _ member)

theorem participateAll_spaces (collectionId : Uuid) (sockets : List Socket) :
    (ConnectHistory.participateAll collectionId h sockets).spaces = h.spaces := by
  induction sockets generalizing h with
  | nil => rfl
  | cons socket rest ih => exact ih

theorem Members.call (members : Members h) {α : Type} {result : Attempt (Spaces Bytes) α}
    (same : SameMembers h.spaces result.state) (approved : ¬ h.spaces.pending collectionId userId)
    (allowed : ∀ done, result = .ok done → ∃ role, h.spaces.roleOf collectionId userId = some role) :
    Members (h.call userId collectionId result) := by
  unfold ConnectHistory.call
  split
  · exact members.same same
  · rename_i next value
    obtain ⟨role, given⟩ := allowed _ rfl
    have joined := Spaces.connected_of_role given approved
    exact (members.participate joined).same same

theorem Members.connect (members : Members h) {socket : Socket} {spaces : Spaces Bytes}
    (joined : h.spaces.connected socket.collectionId socket.userId)
    (permissions : spaces.permissions = h.spaces.permissions)
    (sockets : spaces.sockets = h.spaces.sockets ++ [socket]) :
    Members (h.withSpaces spaces) := by
  have roles : ∀ collectionId userId, h.spaces.connected collectionId userId →
      spaces.connected collectionId userId := by
    intro collectionId userId known
    rw [Spaces.connected_iff, permissions, ← Spaces.connected_iff]
    exact known
  refine ⟨members.participants, ?_⟩
  intro other member
  rw [show (h.withSpaces spaces).spaces = spaces from rfl, sockets] at member
  rcases List.mem_append.mp member with old | new
  · exact roles _ _ (members.sockets other old)
  · rw [List.mem_singleton.mp new]
    exact roles _ _ joined

theorem Members.removePermissions (members : Members h) {userIds : List Uuid}
    (offline : ∀ socket ∈ h.spaces.roomSockets collectionId,
      socket.userId ∉ h.spaces.removedUsers userId collectionId userIds) :
    Members (h.withSpaces (h.spaces.removePermissions userId collectionId userIds).state) := by
  cases planned : h.spaces.planRemoval userId collectionId userIds with
  | error =>
    have same : (h.spaces.removePermissions userId collectionId userIds).state = h.spaces := by
      rw [Spaces.removePermissions, planned]
      rfl
    rw [same]
    exact members
  | ok removed =>
    have gone : h.spaces.removedUsers userId collectionId userIds = removed := by
      rw [Spaces.removedUsers, planned]
    rw [gone] at offline
    refine ⟨members.participants, ?_⟩
    intro socket member
    have known : socket ∈ h.spaces.sockets := Spaces.removePermissions_sockets userIds ▸ member
    refine Spaces.removePermissions_connected planned (members.sockets socket known) ?_
    rintro ⟨here, out⟩
    exact offline socket (List.mem_filter.mpr ⟨known, decide_eq_true here⟩) out

theorem Members.deleteCollection (members : Members h)
    (offline : h.spaces.roleOf collectionId userId = some .owner → h.spaces.roomSockets collectionId = []) :
    Members (h.withSpaces (h.spaces.deleteCollection userId collectionId).state) := by
  rcases h.spaces.deleteCollection_cases userId collectionId
    with same | ⟨owner, queued, before, result⟩
  · rw [same]
    exact members
  · have closed := offline owner
    have middle : Members (h.withSpaces queued) := members.same before
    rw [result]
    refine ⟨members.participants, ?_⟩
    intro socket member
    refine Spaces.deleteCollectionRow_connected (middle.sockets socket member) ?_
    intro here
    have listed : socket ∈ h.spaces.roomSockets collectionId :=
      List.mem_filter.mpr ⟨before.sockets socket member, decide_eq_true here⟩
    rw [closed] at listed
    exact absurd listed List.not_mem_nil

theorem members_postChat (members : Members h) {request : ConnectRequest} (messageId : Uuid)
    (payload : ChatPayload) (now : Time)
    (approved : ¬ h.spaces.pending request.collectionId request.userId) :
    Members (h.postChat env request messageId payload now) := by
  have same : SameMembers h.spaces
      (h.spaces.createCollectionChat env request messageId payload now).state :=
    Spaces.createCollectionChat_sameMembers request messageId payload now
  unfold postChat
  split
  · rename_i done
    obtain ⟨role, given⟩ := Spaces.createCollectionChat_role done
    rw [done] at same
    exact (members.participate (Spaces.connected_of_role given approved)).same same
  · exact members.same same

theorem members_download (members : Members h) (mediaId : Uuid) (filename : String)
    (approved : ¬ h.spaces.pending collectionId userId) :
    Members (h.downloadMedia userId collectionId mediaId filename) := by
  unfold downloadMedia
  split
  · exact members
  · rename_i read
    obtain ⟨role, given⟩ := Spaces.downloadCollectionChatMedia_role read
    have reader := members.participate (Spaces.connected_of_role given approved)
    exact ⟨reader.participants, reader.sockets⟩

theorem members_upload (members : Members h) (request : ConnectRequest) (mediaId : Uuid)
    (media : Spaces.MediaUpload Bytes) (now : Time) :
    Members (h.uploadMedia env request mediaId media now) := by
  have same : SameMembers h.spaces
      (h.spaces.uploadCollectionChatMedia env request mediaId media now).state :=
    Spaces.uploadCollectionChatMedia_sameMembers request mediaId media now
  have next := members.same same
  unfold uploadMedia
  extract_lets result
  split
  · exact members
  split
  · exact next
  · extract_lets key
    exact ⟨next.participants, next.sockets⟩

theorem members_connect (members : Members h) {socket : Socket} (lastEventId : Option Nat)
    (approved : ¬ h.spaces.pending socket.collectionId socket.userId) :
    Members (h.connect env socket lastEventId) := by
  unfold ConnectHistory.connect
  split
  · exact members
  split
  · exact members
  all_goals
    rename_i opened
    obtain ⟨⟨role, given⟩, permissions, sockets⟩ := Spaces.connectSocket_ok opened
    have joined := Spaces.connected_of_role given approved
  · exact members.connect joined permissions sockets
  · exact (members.participate joined).connect joined permissions sockets

theorem members_turn (members : Members h) (socketId : Uuid) (withinRate fits : Bool)
    (messageId : Uuid) (now : Time) (action : SocketAction) :
    Members (h.turn env socketId withinRate fits messageId now action) := by
  unfold turn
  split
  · exact members
  · rename_i socket found
    have joined := members.sockets socket (List.mem_of_find?_eq_some found)
    have same : SameMembers h.spaces
        (h.spaces.socketTurn env socket withinRate fits messageId now action).1 :=
      Spaces.socketTurn_sameMembers withinRate fits messageId now action
    split
    · rename_i result
      rw [result] at same
      exact (members.participate joined).same same
    · rename_i result
      rw [result] at same
      exact members.same same

theorem members_deliver (members : Members h) (collectionId : Uuid) :
    Members (h.deliver collectionId) := by
  have receivers : ∀ socket ∈ (h.spaces.deliverNext collectionId).2,
      h.spaces.connected collectionId socket.userId := by
    intro socket member
    have inRoom : socket ∈ h.spaces.roomSockets collectionId := by
      unfold Spaces.deliverNext at member
      extract_lets ofRoom at member
      split at member
      · exact absurd member List.not_mem_nil
      · exact member
    obtain ⟨known, here⟩ := List.mem_filter.mp inRoom
    have own : socket.collectionId = collectionId := of_decide_eq_true here
    rw [← own]
    exact members.sockets socket known
  have told := members.participateAll receivers
  have same := Spaces.deliverNext_sameMembers (s := h.spaces) collectionId
  unfold deliver
  exact told.same (by rw [participateAll_spaces]; exact same)

theorem members_disconnect (members : Members h) (socketId : Uuid) :
    Members (h.disconnect socketId) := by
  unfold disconnect
  split
  · exact members
  · rename_i socket _
    exact members.same (Spaces.disconnectSocket_sameMembers socket)

theorem members_storeObject (members : Members h) (key : ObjectKey) (payload : Bytes) :
    Members (h.storeObject key payload) := by
  unfold storeObject
  split
  · exact members
  · exact ⟨members.participants, members.sockets⟩

theorem members_step (a : ConnectStep Bytes) (members : Members h)
    (respects : RespectsMembership h a) :
    Members (step env h a) := by
  cases a with
  | createCollection tenantId userId collectionId description =>
    exact members.keeps (Spaces.createCollection_keepsMembers tenantId description)
  | addPermissions userId collectionId code =>
    exact members.keeps (Spaces.addPermissions_keepsMembers code)
  | respond userId collectionId approve =>
    exact members.keeps (Spaces.respond_keepsMembers approve)
  | removePermissions => exact members.removePermissions respects
  | deleteCollection => exact members.deleteCollection respects
  | getChats userId collectionId limit before now =>
    exact members.call (Spaces.getCollectionChats_sameMembers limit before now) respects
      fun _ read => Spaces.getCollectionChats_role read
  | postChat request messageId payload now =>
    exact members_postChat members messageId payload now respects
  | clearChats =>
    exact members.call Spaces.clearCollectionChats_sameMembers respects
      fun _ cleared => Spaces.clearCollectionChats_role cleared
  | updateExpiry userId collectionId days =>
    exact members.same (Spaces.updateCollectionExpiry_aside days).sameMembers
  | addDocuments | removeDocuments => exact members.same (Spaces.syncDocuments_aside _).sameMembers
  | uploadMedia request mediaId media now =>
    exact members_upload members request mediaId media now
  | downloadMedia userId collectionId mediaId filename =>
    exact members_download members mediaId filename respects
  | connect socket lastEventId => exact members_connect members lastEventId respects
  | turn socketId withinRate fits messageId now action =>
    exact members_turn members socketId withinRate fits messageId now action
  | disconnect socketId => exact members_disconnect members socketId
  | deliver collectionId => exact members_deliver members collectionId
  | orphanSweep | runCleanup | registerDevice | revokeDevice =>
    exact members.same (Spaces.sameMembers_of_eq rfl rfl)
  | block userId collectionId blockedId =>
    exact members.same (Spaces.blockMember_aside blockedId).sameMembers
  | unblock userId collectionId blockedId =>
    exact members.same (Spaces.unblockMember_aside blockedId).sameMembers
  | storeObject key payload => exact members_storeObject members key payload

instance (h : ConnectHistory Bytes) : Decidable (OnlyConnected h) :=
  inferInstanceAs (Decidable (∀ p ∈ h.participations, _))

instance (s : Spaces Bytes) (collectionId userId : Uuid) :
    Decidable (s.pending collectionId userId) :=
  inferInstanceAs (Decidable (_ = _))

instance (h : ConnectHistory Bytes) : ∀ a, Decidable (RespectsMembership h a)
  | .getChats .. | .clearChats .. | .downloadMedia .. | .postChat .. | .connect ..
  | .removePermissions .. => by dsimp only [RespectsMembership]; infer_instance
  | .deleteCollection userId collectionId =>
    decidable_of_iff (h.spaces.roleOf collectionId userId ≠ some .owner ∨
      (h.spaces.roomSockets collectionId).length = 0)
      (by rw [RespectsMembership, List.length_eq_zero_iff, imp_iff_not_or])
  | .createCollection .. | .addPermissions .. | .respond .. | .updateExpiry .. | .addDocuments ..
  | .removeDocuments .. | .uploadMedia .. | .turn .. | .disconnect .. | .deliver ..
  | .orphanSweep .. | .runCleanup .. | .registerDevice .. | .revokeDevice .. | .block ..
  | .unblock .. | .storeObject .. => .isTrue trivial

def invitation : List (ConnectStep String) :=
  [.createCollection 1 1 7 "team", .addPermissions 1 7 "BEN"]

def hello : ChatPayload := ⟨"hello", none, false, none, none, none⟩

def visit : List (ConnectStep String) :=
  invitation ++
    [.respond 2 7 true, .connect ⟨20, 1, 2, 7, "legacy"⟩ none,
      .postChat ⟨1, 1, 7, true, true⟩ 30 hello 0, .deliver 7, .deliver 7,
      .turn 20 true true 31 0 (.react "30" "up"), .getChats 2 7 50 none 1, .disconnect 20,
      .removePermissions 2 7 [2]]

end ConnectHistory

end AverQel.Documents
