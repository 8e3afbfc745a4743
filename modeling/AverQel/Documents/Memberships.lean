/- digest: Connected roles and open sockets, and what each call does to them. -/
import AverQel.Documents.CollectionSocket

namespace AverQel.Documents

open Foundation AverQel.System

variable {Bytes : Type} {env : ConnectEnvironment Bytes}

namespace Spaces

def connected (s : Spaces Bytes) (collectionId userId : Uuid) : Bool :=
  (s.roleOf collectionId userId).any isConnectedRole

structure SameMembers (s s' : Spaces Bytes) : Prop where
  permissions : s'.permissions = s.permissions
  sockets : ∀ socket ∈ s'.sockets, socket ∈ s.sockets

/-- A change of neither the members nor what they post. -/
structure Aside (s s' : Spaces Bytes) : Prop where
  permissions : s'.permissions = s.permissions
  sockets : s'.sockets = s.sockets
  messages : s'.messages = s.messages
  media : s'.media = s.media
  jobs : s'.jobs = s.jobs
  objects : s'.objects = s.objects

structure KeepsMembers (s s' : Spaces Bytes) : Prop where
  connected : ∀ {collectionId userId}, s.connected collectionId userId →
    s'.connected collectionId userId
  sockets : ∀ socket ∈ s'.sockets, socket ∈ s.sockets

variable {s s' s'' : Spaces Bytes} {collectionId userId : Uuid}

theorem connected_iff : s.connected collectionId userId ↔
    ∃ p ∈ s.permissions.rows, p.pair = (collectionId, userId) ∧ isConnectedRole p.role := by
  rw [connected, Option.any_eq_true]
  constructor
  · rintro ⟨role, given, joined⟩
    obtain ⟨p, found, rfl⟩ := Option.map_eq_some_iff.mp given
    obtain ⟨member, own⟩ := Table.find?_eq_some_iff.mp found
    exact ⟨p, member, own, joined⟩
  · rintro ⟨p, member, own, joined⟩
    have found := Table.find?_eq_some_iff.mpr ⟨member, own⟩
    exact ⟨p.role, by rw [roleOf, found]; rfl, joined⟩

theorem connected_of_role {role : AccessRole} (given : s.roleOf collectionId userId = some role)
    (approved : s.roleOf collectionId userId ≠ some .pending) :
    s.connected collectionId userId := by
  rw [given] at approved
  rw [connected, given]
  cases role with
  | pending => exact absurd rfl approved
  | _ => rfl

theorem sameMembers_of_eq (permissions : s'.permissions = s.permissions)
    (sockets : s'.sockets = s.sockets) : SameMembers s s' :=
  ⟨permissions, fun _ member => sockets ▸ member⟩

theorem Aside.refl (s : Spaces Bytes) : Aside s s := ⟨rfl, rfl, rfl, rfl, rfl, rfl⟩

theorem Aside.sameMembers (aside : Aside s s') : SameMembers s s' :=
  sameMembers_of_eq aside.permissions aside.sockets

theorem SameMembers.refl (s : Spaces Bytes) : SameMembers s s := sameMembers_of_eq rfl rfl

theorem SameMembers.trans (first : SameMembers s s') (second : SameMembers s' s'') :
    SameMembers s s'' where
  permissions := second.permissions.trans first.permissions
  sockets := fun socket member => first.sockets socket (second.sockets socket member)

theorem SameMembers.keeps (same : SameMembers s s') : KeepsMembers s s' := by
  refine ⟨?_, same.sockets⟩
  intro collectionId userId joined
  rw [connected_iff, same.permissions, ← connected_iff]
  exact joined

theorem KeepsMembers.refl (s : Spaces Bytes) : KeepsMembers s s := ⟨id, fun _ member => member⟩

theorem keepsMembers_of_rows
    (rows : ∀ p ∈ s.permissions.rows, isConnectedRole p.role →
      ∃ q ∈ s'.permissions.rows, q.pair = p.pair ∧ isConnectedRole q.role)
    (sockets : s'.sockets = s.sockets) : KeepsMembers s s' := by
  refine ⟨?_, fun socket member => sockets ▸ member⟩
  intro collectionId userId joined
  obtain ⟨p, member, own, role⟩ := connected_iff.mp joined
  obtain ⟨q, later, same, kept⟩ := rows p member role
  exact connected_iff.mpr ⟨q, later, same.trans own, kept⟩

theorem queueMessages_sameMembers (collection : DocumentCollection)
    (ms : List CollectionChatMessage) : SameMembers s (s.queueMessages collection ms) := by
  induction ms generalizing s with
  | nil => exact sameMembers_of_eq rfl rfl
  | cons m rest ih =>
    have queued : SameMembers s
        (s.queueMediaCleanup collection m.mediaId m.mediaObjectKey m.userId) :=
      sameMembers_of_eq rfl rfl
    exact queued.trans ih

theorem attachMedia_sameMembers (registered : Option CollectionChatMedia) (messageId : Uuid) :
    SameMembers s (s.attachMedia registered messageId) := by
  cases registered with
  | none | some => exact sameMembers_of_eq rfl rfl

theorem sendMessage_sameMembers {message : CollectionChatMessage}
    {registered : Option CollectionChatMedia} {sent : Spaces Bytes}
    (done : s.sendMessage message registered = some sent) : SameMembers s sent := by
  obtain ⟨stored, inserted, rfl⟩ := Option.map_eq_some_iff.mp done
  have first : SameMembers s stored := by
    unfold insertMessage at inserted
    split at inserted
    · obtain ⟨messages, _, rfl⟩ := Option.map_eq_some_iff.mp inserted
      exact sameMembers_of_eq rfl rfl
    · cases inserted
  have second := first.trans (attachMedia_sameMembers registered message.id)
  exact second.trans (sameMembers_of_eq rfl rfl)

theorem disconnectSocket_sameMembers (socket : Socket) :
    SameMembers s (s.disconnectSocket socket) := by
  have fewer : ∀ other ∈ s.sockets.filter fun other => other.id ≠ socket.id,
      other ∈ s.sockets := fun other member => (List.mem_filter.mp member).1
  unfold disconnectSocket
  extract_lets left
  split
  · exact ⟨rfl, fewer⟩
  · exact ⟨rfl, fewer⟩

theorem dropPermissions_connected {removed : List Uuid} {space user : Uuid}
    (joined : s.connected space user) (kept : ¬ (space = collectionId ∧ user ∈ removed)) :
    (s.dropPermissions collectionId removed).connected space user := by
  obtain ⟨p, member, own, role⟩ := connected_iff.mp joined
  obtain ⟨rfl, rfl⟩ := Prod.mk.inj own
  refine connected_iff.mpr ⟨p, ?_, rfl, role⟩
  exact Table.mem_filter.mpr ⟨member, decide_eq_true kept⟩

theorem dropPermissions_pending (pending : s.roleOf collectionId userId = some .pending) :
    KeepsMembers s (s.dropPermissions collectionId [userId]) := by
  refine ⟨?_, fun _ member => member⟩
  intro space user joined
  refine dropPermissions_connected joined ?_
  rintro ⟨rfl, dropped⟩
  rw [List.mem_singleton.mp dropped, connected, pending] at joined
  cases joined

theorem deleteCollectionRow_connected {space user : Uuid} (joined : s.connected space user)
    (other : space ≠ collectionId) :
    (s.deleteCollectionRow collectionId).connected space user := by
  obtain ⟨p, member, own, role⟩ := connected_iff.mp joined
  obtain ⟨rfl, rfl⟩ := Prod.mk.inj own
  exact connected_iff.mpr ⟨p, Table.mem_filter.mpr ⟨member, by simpa using other⟩, rfl, role⟩

variable {s : Spaces Bytes} {userId collectionId : Uuid}

theorem createCollection_keepsMembers (tenantId : Uuid) (description : String) :
    KeepsMembers s (s.createCollection tenantId userId collectionId description).state := by
  unfold createCollection
  extract_lets failed
  split
  · rename_i permissions _ inserted
    refine keepsMembers_of_rows ?_ rfl
    intro p member role
    exact ⟨p, (Table.mem_of_insert? inserted).mpr (.inl member), rfl, role⟩
  · exact .refl s

theorem addPermissions_keepsMembers (code : String) :
    KeepsMembers s (s.addPermissions env userId collectionId code).state := by
  unfold addPermissions
  split
  · exact .refl s
  split
  · exact .refl s
  · rename_i permissions inserted
    refine keepsMembers_of_rows ?_ rfl
    intro p member role
    exact ⟨p, (Table.mem_of_insert? inserted).mpr (.inl member), rfl, role⟩

theorem respond_keepsMembers (approve : Bool) :
    KeepsMembers s (s.respondToCollectionInvitation userId collectionId approve).state := by
  unfold respondToCollectionInvitation
  split
  · exact .refl s
  split
  · exact .refl s
  rename_i waiting
  have pending : s.roleOf collectionId userId = some .pending := not_not.mp waiting
  split
  · split
    · exact .refl s
    · extract_lets approved
      refine keepsMembers_of_rows ?_ rfl
      intro p member role
      have row : (if p.pair = (collectionId, userId) then { p with role := .member } else p) ∈
          (s.permissions.modify (collectionId, userId) (fun p => { p with role := .member })
            (fun _ => rfl)).rows := Table.mem_modify.mpr ⟨p, member, rfl⟩
      refine ⟨_, row, ?_⟩
      split
      · exact ⟨rfl, rfl⟩
      · exact ⟨rfl, role⟩
  · have dropped := dropPermissions_pending pending
    exact ⟨dropped.connected, dropped.sockets⟩

theorem removePermissions_sockets (userIds : List Uuid) :
    (s.removePermissions userId collectionId userIds).state.sockets = s.sockets := by
  unfold removePermissions
  split
  · rfl
  · extract_lets left
    split
    · rfl
    · rfl

theorem removePermissions_connected {userIds removed : List Uuid} {space user : Uuid}
    (planned : s.planRemoval userId collectionId userIds = .ok removed)
    (joined : s.connected space user) (kept : ¬ (space = collectionId ∧ user ∈ removed)) :
    (s.removePermissions userId collectionId userIds).state.connected space user := by
  let left := (s.advanceEpoch collectionId).dropPermissions collectionId removed
  have stays : left.connected space user :=
    dropPermissions_connected (s := s.advanceEpoch collectionId) joined kept
  simp only [removePermissions, planned]
  split
  · rename_i empty
    refine deleteCollectionRow_connected stays ?_
    rintro rfl
    obtain ⟨p, member, own, _⟩ := connected_iff.mp stays
    have listed : p ∈ left.permissionsOf space :=
      List.mem_filter.mpr ⟨member, decide_eq_true (Prod.mk.inj own).1⟩
    rw [empty] at listed
    exact absurd listed List.not_mem_nil
  · exact stays

variable (s userId collectionId) in
theorem deleteCollection_cases :
    (s.deleteCollection userId collectionId).state = s ∨
      s.roleOf collectionId userId = some .owner ∧
        ∃ queued, SameMembers s queued ∧
          (s.deleteCollection userId collectionId).state =
            queued.deleteCollectionRow collectionId := by
  unfold deleteCollection
  split
  · exact .inl rfl
  · rename_i collection role access
    split
    · exact .inl rfl
    · rename_i granted
      obtain ⟨_, raw, given, same⟩ := accessAs_ok access
      have owner : raw = .owner := by
        cases raw with
        | owner => rfl
        | _ =>
          rw [← same] at granted
          exact absurd (by decide) granted
      rw [owner] at given
      exact .inr ⟨given, _, queueMessages_sameMembers collection _, rfl⟩

theorem sweepExpired_sameMembers (collection : DocumentCollection) (now : Time) :
    SameMembers s (s.sweepExpired collection now) := by
  unfold sweepExpired
  split
  · exact .refl s
  · extract_lets cutoff expired queued
    have first : SameMembers s queued := queueMessages_sameMembers collection expired
    exact first.trans (sameMembers_of_eq rfl rfl)

theorem getCollectionChats_sameMembers (limit : Nat) (before : Option Time) (now : Time) :
    SameMembers s (s.getCollectionChats userId collectionId limit before now).state := by
  unfold getCollectionChats
  split
  · exact .refl s
  · extract_lets swept
    cases located : s.collections.find? collectionId with
    | none =>
      have same : swept = s := by
        unfold swept
        rw [located]
      rw [same]
      exact sameMembers_of_eq rfl rfl
    | some collection =>
      have same : swept = s.sweepExpired collection now := by
        unfold swept
        rw [located]
      rw [same]
      exact sweepExpired_sameMembers collection now

theorem clearCollectionChats_sameMembers :
    SameMembers s (s.clearCollectionChats userId collectionId).state := by
  unfold clearCollectionChats
  split
  · exact .refl s
  · rename_i collection _
    extract_lets queued cleared
    have first : SameMembers s queued := queueMessages_sameMembers collection _
    exact first.trans (sameMembers_of_eq rfl rfl)

theorem updateCollectionExpiry_aside (days : Int) :
    Aside s (s.updateCollectionExpiry userId collectionId days).state := by
  unfold updateCollectionExpiry
  split
  · exact .refl s
  split
  · exact .refl s
  split
  · exact .refl s
  · exact ⟨rfl, rfl, rfl, rfl, rfl, rfl⟩

theorem syncDocuments_aside (refusal : String) :
    Aside s (s.syncDocuments refusal userId collectionId).state := by
  unfold syncDocuments
  split
  · exact .refl s
  split
  · exact .refl s
  · exact ⟨rfl, rfl, rfl, rfl, rfl, rfl⟩

theorem createCollectionChat_sameMembers (request : ConnectRequest) (messageId : Uuid)
    (payload : ChatPayload) (now : Time) :
    SameMembers s (s.createCollectionChat env request messageId payload now).state := by
  unfold createCollectionChat
  split
  · exact .refl s
  split
  · split
    · exact .refl s
    · exact .refl s
  split
  · exact .refl s
  · extract_lets message
    split
    · exact .refl s
    · rename_i done
      exact sendMessage_sameMembers done

theorem uploadCollectionChatMedia_sameMembers (request : ConnectRequest) (mediaId : Uuid)
    (upload : MediaUpload Bytes) (now : Time) :
    SameMembers s (s.uploadCollectionChatMedia env request mediaId upload now).state := by
  unfold uploadCollectionChatMedia
  split
  · exact .refl s
  · extract_lets key stored record
    split
    · exact sameMembers_of_eq rfl rfl
    · exact sameMembers_of_eq rfl rfl

theorem blockMember_aside (blockedId : Uuid) :
    Aside s (s.blockMember userId collectionId blockedId).state := by
  unfold blockMember
  split
  · exact .refl s
  · exact ⟨rfl, rfl, rfl, rfl, rfl, rfl⟩

theorem unblockMember_aside (blockedId : Uuid) :
    Aside s (s.unblockMember userId collectionId blockedId).state := by
  unfold unblockMember
  split
  · exact .refl s
  · exact ⟨rfl, rfl, rfl, rfl, rfl, rfl⟩

theorem deliverNext_sameMembers (collectionId : Uuid) :
    SameMembers s (s.deliverNext collectionId).1 := by
  unfold deliverNext
  extract_lets ofRoom
  split
  · exact .refl s
  · exact sameMembers_of_eq rfl rfl

theorem getCollectionChats_role {limit : Nat} {before : Option Time} {now : Time}
    {done : Spaces Bytes × Paging.Page CollectionChatMessage Time}
    (read : s.getCollectionChats userId collectionId limit before now = .ok done) :
    ∃ role, s.roleOf collectionId userId = some role := by
  unfold getCollectionChats at read
  split at read
  · cases read
  · rename_i role allowed
    exact ⟨role, enforceAccess_ok allowed⟩

theorem clearCollectionChats_role {done : Spaces Bytes × Unit}
    (cleared : s.clearCollectionChats userId collectionId = .ok done) :
    ∃ role, s.roleOf collectionId userId = some role := by
  unfold clearCollectionChats at cleared
  split at cleared
  · cases cleared
  · rename_i access
    exact (accessGlobal_ok access).2.2

theorem createCollectionChat_role {request : ConnectRequest} {messageId : Uuid}
    {payload : ChatPayload} {now : Time} {done : Spaces Bytes × CollectionChatMessage × Bool}
    (posted : s.createCollectionChat env request messageId payload now = .ok done) :
    ∃ role, s.roleOf request.collectionId request.userId = some role := by
  unfold createCollectionChat at posted
  split at posted
  · cases posted
  · rename_i planned
    simp only [planChat, bind_eq_ok_iff] at planned
    obtain ⟨role, allowed, _⟩ := planned
    exact ⟨role, enforceAccess_ok allowed⟩

theorem downloadCollectionChatMedia_role {mediaId : Uuid} {filename : String}
    {done : ObjectKey × Bytes}
    (read : s.downloadCollectionChatMedia userId collectionId mediaId filename = .ok done) :
    ∃ role, s.roleOf collectionId userId = some role := by
  unfold downloadCollectionChatMedia at read
  split at read
  · cases read
  · rename_i access
    exact (accessGlobal_ok access).2.2

end Spaces

def ActionResult.SameMembers (s : Spaces Bytes) : ActionResult Bytes → Prop
  | .goesOn next _ => Spaces.SameMembers s next
  | .closes => True

namespace Spaces

variable {s : Spaces Bytes} {socket : Socket}

theorem postMessage_sameMembers (fits : Bool) (messageId : Uuid) (payload : ChatPayload)
    (now : Time) : (s.postMessage env socket fits messageId payload now).SameMembers s := by
  unfold postMessage
  extract_lets content clientId sent
  split
  · exact .refl s
  split
  · trivial
  split
  · split
    · trivial
    · exact sameMembers_of_eq rfl rfl
  split
  · trivial
  · extract_lets message
    split
    · trivial
    · rename_i done
      exact sendMessage_sameMembers done

theorem reactToMessage_sameMembers (messageId reaction : String) :
    (s.reactToMessage env socket messageId reaction).SameMembers s := by
  unfold reactToMessage
  split
  · exact .refl s
  split
  · trivial
  split
  · exact .refl s
  · exact sameMembers_of_eq rfl rfl

theorem acknowledge_sameMembers (messageId : String) :
    (s.acknowledge env socket messageId).SameMembers s := by
  unfold acknowledge
  split
  · exact .refl s
  split
  · trivial
  split
  · exact .refl s
  · exact sameMembers_of_eq rfl rfl

theorem deleteMessage_sameMembers (messageId : String) :
    (s.deleteMessage env socket messageId).SameMembers s := by
  unfold deleteMessage
  split
  · exact .refl s
  split
  · trivial
  split
  · exact .refl s
  · trivial
  · split
    · exact sameMembers_of_eq rfl rfl
    · exact .refl s

theorem socketAction_sameMembers (fits : Bool) (messageId : Uuid) (now : Time)
    (action : SocketAction) :
    (s.socketAction env socket fits messageId now action).SameMembers s := by
  cases action with
  | ping => exact sameMembers_of_eq rfl rfl
  | postMessage payload => exact postMessage_sameMembers fits messageId payload now
  | typing => exact sameMembers_of_eq rfl rfl
  | react id reaction => exact reactToMessage_sameMembers id reaction
  | delivered id => exact acknowledge_sameMembers id
  | delete id => exact deleteMessage_sameMembers id
  | read =>
    simp only [socketAction, markRead]
    split
    · exact .refl s
    · exact sameMembers_of_eq rfl rfl

theorem socketTurn_sameMembers (withinRate fits : Bool) (messageId : Uuid) (now : Time)
    (action : SocketAction) :
    SameMembers s (s.socketTurn env socket withinRate fits messageId now action).1 := by
  have acted : (s.socketAction env socket fits messageId now action).SameMembers s :=
    socketAction_sameMembers fits messageId now action
  unfold socketTurn
  split
  · exact disconnectSocket_sameMembers socket
  split
  · exact .refl s
  split
  · rename_i next effect result
    rw [result] at acted
    exact acted
  · exact disconnectSocket_sameMembers socket

theorem connectSocket_ok {next : Spaces Bytes} {lastEventId : Option Nat}
    {events : List RoomEvent}
    (joined : s.connectSocket env socket lastEventId = .ok (next, events)) :
    (∃ role, s.roleOf socket.collectionId socket.userId = some role) ∧
      next.permissions = s.permissions ∧ next.sockets = s.sockets ++ [socket] := by
  unfold connectSocket at joined
  split at joined
  · cases joined
  split at joined
  · cases joined
  rename_i role allowed
  split at joined
  · cases joined
  split at joined
  · cases joined
  · cases joined
    exact ⟨⟨role, enforceAccess_ok allowed⟩, rfl, rfl⟩

end Spaces

end AverQel.Documents
