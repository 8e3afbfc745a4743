/- digest: When sealed chat publishes and stores nothing of the texts: two runs under one mask. -/
import AverQel.SealedChat.ChatRoom
import AverQel.SealedChat.ReadableHistory
import AverQel.SealedChat.Veil

namespace AverQel.SealedChat

open Foundation Transition
open Foundation.Interleaving

/-- Requests that differ at most in the text of a message, which is of the same length. -/
inductive RoomRequest.Twin : RoomRequest → RoomRequest → Prop
  | same (request : RoomRequest) : Twin request request
  | posted (post : ChatPost) (text : String) (length : text.length = post.message.length) :
      Twin (.createChat post) (.createChat { post with message := text })
  | received (connection : Nat) (draft : Draft) (text : String)
      (length : text.length = draft.content.length) :
      Twin (.socket connection (.postMessage draft))
        (.socket connection (.postMessage { draft with content := text }))

def RoomRequest.Textless : RoomRequest → Prop
  | .createChat _ => False
  | .socket _ (.postMessage _) => False
  | _ => True

namespace RoomCall

def veil : RoomCall → RoomCall
  | .working socket call => .working socket call.veil
  | .opening row => .opening row.veil
  | call => call

def Sealing : RoomCall → Prop
  | .working socket call => socket = none ∧ call.Sealing
  | .opening row => row.Sealed
  | _ => True

def Arriving : RoomCall → Prop
  | .arriving _ => True
  | _ => False

end RoomCall

namespace Room

/-- The condition on a step of two runs. What is posted over REST takes as many bytes in both; a
post on the socket is stopped before anything is stored or published, in both alike. -/
def SaysNothing (env : ChatEnvironment) (turn : RoomInput) (room room' : Room) :
    RoomCall → RoomCall → Prop
  | .arriving (.createChat post), .arriving (.createChat post') =>
    post'.message.utf8ByteSize = post.message.utf8ByteSize
  | .arriving (.socket connection (.postMessage draft)),
      .arriving (.socket _ (.postMessage draft')) =>
    ∀ userId ∈ room.connections.lookup connection, turn.deviceActive = true →
      turn.withinRate = true →
        (room.haltPost env turn (draft.post userId).stripped).isSome = true ∧
          room'.haltPost env turn (draft'.post userId).stripped =
            room.haltPost env turn (draft.post userId).stripped
  | _, _ => True

instance (env : ChatEnvironment) (turn : RoomInput) (room room' : Room) (call call' : RoomCall) :
    Decidable (SaysNothing env turn room room' call call') := by
  unfold SaysNothing
  split <;> infer_instance

def veil (room : Room) : Room :=
  { room with space := room.space.veil, created := room.created.map ChatRow.veil }

def veilPair (after : Room × RoomCall) : Room × RoomCall := (after.1.veil, after.2.veil)

def Sealed (room : Room) : Prop :=
  room.space.chatEncryptionEnabled = true ∧ ∀ row ∈ room.created, row.Sealed

@[simp] theorem veil_veil (room : Room) : room.veil.veil = room.veil := by
  have rows : (room.created.map ChatRow.veil).map ChatRow.veil = room.created.map ChatRow.veil := by
    rw [List.map_map]
    exact List.map_congr_left fun row _ => ChatRow.veil_veil row
  simp only [veil, Space.veil_veil, rows]

variable (env : ChatEnvironment) (turn : RoomInput) (room : Room)

theorem veil_withConnections (connections : List (Nat × UuidText)) :
    ({ room.veil with connections } : Room).veil = ({ room with connections } : Room).veil :=
  congrArg (fun masked : Room => { masked with connections }) (veil_veil room)

theorem veil_withSpace {space space' : Space} (same : space'.veil = space.veil) :
    ({ room.veil with space := space' } : Room).veil =
      ({ room with space := space } : Room).veil := by
  have rows := congrArg Room.created (veil_veil room)
  show Room.mk space'.veil room.connections room.events room.veil.veil.created =
    Room.mk space.veil room.connections room.events room.veil.created
  rw [same, rows]

theorem leave_veil (connection : Nat) :
    veilPair (room.veil.leave turn connection) = veilPair (room.leave turn connection) := by
  have sockets : room.veil.connections = room.connections := rfl
  simp only [leave, sockets]
  cases room.connections.lookup connection with
  | none => simp only [veilPair, veil_veil]
  | some => simp only [veilPair, veil_withConnections]

theorem transact_veil (request : ChatRequest) {masked : ChatRequest}
    (mask : (ChatCall.begin masked).veil = (ChatCall.begin request).veil) :
    veilPair (room.veil.transact turn masked) = veilPair (room.transact turn request) := by
  simp only [transact]
  split
  · simp only [veilPair, veil_veil, RoomCall.veil, mask]
  · simp only [veilPair, veil_veil]

theorem announce_veil (event : ChatEvent) :
    veilPair (room.veil.announce turn event) = veilPair (room.announce turn event) := by
  simp only [announce]
  split <;> simp only [veilPair, veil_veil]

theorem withMessage_veil (connection : Nat) (message : MessageRef)
    {masked found : ChatRow → Room × RoomCall}
    (same : ∀ row, veilPair (masked row.veil) = veilPair (found row)) :
    veilPair (room.veil.withMessage turn connection message masked) =
      veilPair (room.withMessage turn connection message found) := by
  cases message with
  | missing => simp only [withMessage, veilPair, veil_veil]
  | malformed => exact leave_veil turn room connection
  | id id =>
    have rows : room.veil.space.messages.find? id =
        (room.space.messages.find? id).map ChatRow.veil := Space.find?_veil room.space id
    simp only [withMessage, rows]
    cases room.space.messages.find? id with
    | none => simp only [Option.map_none, veilPair, veil_veil]
    | some row => exact same row

theorem react_veil (s : Space) (id : Nat) (userId reaction : String) :
    (s.veil.react id userId reaction).veil = (s.react id userId reaction).veil := by
  have rows : (s.veil.react id userId reaction).messages =
      (s.react id userId reaction).veil.messages := by
    ext1
    show (s.messages.rows.map ChatRow.veil).map _ = (s.messages.rows.map _).map ChatRow.veil
    rw [List.map_map, List.map_map]
    apply List.map_congr_left
    intro row _
    show (if row.id = id then row.veil.react userId reaction else row.veil) =
      (if row.id = id then row.react userId reaction else row).veil
    split <;> rfl
  have masked : s.veil.react id userId reaction = (s.react id userId reaction).veil :=
    congrArg (fun messages => { s with messages }) rows
  rw [masked, Space.veil_veil]

theorem act_veil (connection : Nat) (userId : UuidText) {action : SocketAction}
    (textless : (RoomRequest.socket connection action).Textless) :
    veilPair (room.veil.act env turn connection userId action) =
      veilPair (room.act env turn connection userId action) := by
  cases action with
  | ping | typing => simp only [act, veilPair, veil_veil]
  | postMessage => exact textless.elim
  | react message reaction =>
    simp only [act]
    split
    · simp only [veilPair, veil_veil]
    · apply withMessage_veil
      intro row
      have masked := react_veil room.space row.id userId.text reaction
      exact congrArg (fun after : Room => (after, RoomCall.publishing
        (.messageReacted row.id (row.react userId.text reaction).reactions)))
        (veil_withSpace room masked)
  | delivered =>
    apply withMessage_veil
    intro row
    exact congrArg (fun after : Room => (after, RoomCall.publishing
      (.messageDelivered row.id userId))) (veil_veil room)
  | delete =>
    apply withMessage_veil
    intro row
    have masked : (room.space.veil.eraseMessage row.id).veil =
        (room.space.eraseMessage row.id).veil := by
      rw [Space.eraseMessage_veil, Space.veil_veil]
    show veilPair (if row.userId = userId ∨ turn.isOwner = true then _ else _) = _
    split
    · exact congrArg (fun after : Room => (after, RoomCall.publishing
        (.messageDeleted row.id deletionNotice))) (veil_withSpace room masked)
    · simp only [veilPair, veil_veil]
  | read =>
    have unread : (room.veil.space.messages.rows.filter fun row => row.userId ≠ userId) =
        (room.space.messages.rows.filter fun row => row.userId ≠ userId).map ChatRow.veil :=
      List.filter_map
    simp only [act, unread, List.map_eq_nil_iff, List.map_map]
    split
    · simp only [veilPair, veil_veil]
    · simp only [veilPair, veil_veil]
      rfl

theorem arrive_veil {request : RoomRequest} (textless : request.Textless) :
    veilPair (room.veil.arrive env turn request) = veilPair (room.arrive env turn request) := by
  cases request with
  | enableSealedChat => exact transact_veil turn room .enable rfl
  | rotateEpoch => exact transact_veil turn room .rotate rfl
  | createChat => exact textless.elim
  | getChats cutoff => exact transact_veil turn room (.expire cutoff) rfl
  | clearChats => exact transact_veil turn room .clear rfl
  | configure settings =>
    have masked := Space.veil_withSettings room.space settings
    exact congrArg (fun after : Room => (after, RoomCall.finished)) (veil_withSpace room masked)
  | updateExpiry | changeDocuments => exact announce_veil turn room _
  | connect =>
    have sockets : room.veil.connections = room.connections := rfl
    simp only [arrive, sockets]
    split
    · simp only [veilPair, veil_withConnections]
    · simp only [veilPair, veil_veil]
  | disconnect connection => exact leave_veil turn room connection
  | socket connection =>
    have sockets : room.veil.connections = room.connections := rfl
    simp only [arrive, sockets]
    cases room.connections.lookup connection with
    | none => simp only [veilPair, veil_veil]
    | some userId =>
      dsimp only
      split
      · exact leave_veil turn room connection
      · split
        · simp only [veilPair, veil_veil]
        · exact act_veil env turn room connection userId textless

theorem conclude_veil (epoch : Option EpochRow) (row : ChatRow) :
    veilPair (room.veil.conclude env turn none epoch row.veil) =
      veilPair (room.conclude env turn none epoch row) := by
  have fits : room.veil.space.hasRoom env turn.capacity row.veil =
      room.space.hasRoom env turn.capacity row :=
    Space.hasRoom_veil env room.space turn.capacity row
  have committed : room.veil.space.commitSend epoch row.veil =
      (room.space.commitSend epoch row).map Space.veil := Space.commitSend_veil room.space epoch row
  simp only [conclude, fits, committed]
  split
  · cases room.space.commitSend epoch row with
    | none => simp only [Option.map_none, veilPair, veil_veil]
    | some =>
      have old : (room.created.map ChatRow.veil).map ChatRow.veil =
          room.created.map ChatRow.veil := congrArg Room.created (veil_veil room)
      have rows : (room.created.map ChatRow.veil ++ [row.veil]).map ChatRow.veil =
          (room.created ++ [row]).map ChatRow.veil := by
        rw [List.map_append, List.map_append, old, List.map_singleton, List.map_singleton,
          ChatRow.veil_veil]
      simp only [Option.map_some, veilPair, veil, Space.veil_veil, rows, RoomCall.veil,
        ChatRow.veil_veil]
  · simp only [veilPair, veil_veil]

theorem veil_resume (socket : Option Nat) (call later : ChatCall) :
    (resume socket call later).veil = resume socket call later.veil := by
  cases later with
  | returned => cases call <;> rfl
  | begin request => cases request <;> rfl
  | _ => rfl

theorem resume_veil (socket : Option Nat) (call later : ChatCall) :
    resume socket call.veil later = resume socket call later := by
  cases later with
  | returned =>
    cases call with
    | begin request => cases request <;> rfl
    | _ => rfl
  | _ => rfl

theorem next_working (socket : Option Nat) {call : ChatCall}
    (before : ∀ epoch row, call ≠ .sending epoch row) :
    room.next env turn (.working socket call) =
      ({ room with space := (room.space.next env turn.toTurnInput call).1 },
        resume socket call (room.space.next env turn.toTurnInput call).2) := by
  cases call with
  | sending epoch row => exact absurd rfl (before epoch row)
  | _ => rfl

theorem veil_before {call : ChatCall} (before : ∀ epoch row, call ≠ .sending epoch row)
    (epoch : Option EpochRow) (row : ChatRow) : call.veil ≠ .sending epoch row := by
  intro masked
  cases call with
  | begin request => cases request <;> cases masked
  | sending epoch row => exact before epoch row rfl
  | _ => cases masked

theorem work_veil {call : ChatCall} (sealing : call.Sealing) :
    veilPair (room.veil.next env turn (.working none call.veil)) =
      veilPair (room.next env turn (.working none call)) := by
  by_cases commit : ∃ epoch row, call = .sending epoch row
  · obtain ⟨epoch, row, rfl⟩ := commit
    exact conclude_veil env turn room epoch row
  · have before : ∀ epoch row, call ≠ .sending epoch row := by
      intro epoch row same
      exact commit ⟨epoch, row, same⟩
    have stepped := Space.next_veil env room.space turn.toTurnInput sealing
    have spaces : (room.space.veil.next env turn.toTurnInput call.veil).1.veil =
        (room.space.next env turn.toTurnInput call).1.veil := congrArg Prod.fst stepped
    have calls : (room.space.veil.next env turn.toTurnInput call.veil).2.veil =
        (room.space.next env turn.toTurnInput call).2.veil := congrArg Prod.snd stepped
    rw [next_working env turn room none before,
      next_working env turn room.veil none (veil_before before)]
    refine Prod.ext (veil_withSpace room spaces) ?_
    show (resume none call.veil _).veil = (resume none call _).veil
    rw [resume_veil, veil_resume, veil_resume]
    exact congrArg (resume none call) calls

theorem opening_veil {row : ChatRow} (sealed : row.Sealed) :
    veilPair (room.veil.next env turn (.opening row.veil)) =
      veilPair (room.next env turn (.opening row)) := by
  have opened : room.veil.space.openForRead env row.veil =
      (room.space.openForRead env row).map veilText := Space.openForRead_veil env room.space sealed
  have flag : row.veil.isEncrypted = true := sealed.1
  simp only [next, opened, flag, sealed.1]
  cases room.space.openForRead env row with
  | error => simp only [Except.map, veilPair, veil_veil]
  | ok =>
    simp only [Except.map, veilPair, veil_veil, if_true]
    rfl

theorem next_veil {call : RoomCall} (begun : ¬ call.Arriving) (sealing : call.Sealing) :
    veilPair (room.veil.next env turn call.veil) = veilPair (room.next env turn call) := by
  cases call with
  | arriving => exact absurd trivial begun
  | working =>
    obtain ⟨rfl, sealing⟩ := sealing
    exact work_veil env turn room sealing
  | opening => exact opening_veil env turn room sealing
  | publishing event =>
    exact congrArg (fun after : Room => ({ after with events := room.events ++ [event] },
      RoomCall.finished)) (veil_veil room)
  | finished => simp only [RoomCall.veil, next, veilPair, veil_veil]

def Halts (env : ChatEnvironment) (turn : RoomInput) (room : Room) : RoomCall → Prop
  | .arriving (.socket connection (.postMessage draft)) =>
    ∀ userId ∈ room.connections.lookup connection, turn.deviceActive = true →
      turn.withinRate = true →
        (room.haltPost env turn (draft.post userId).stripped).isSome = true
  | _ => True

structure KeepsSealing (after : Room × RoomCall) : Prop where
  sealed_ : after.1.Sealed
  call : after.2.Sealing
  begun : ¬ after.2.Arriving

variable {env : ChatEnvironment} {turn : RoomInput} {room : Room}

theorem keepsSealing_done (sealed : room.Sealed) : KeepsSealing (room, .finished) :=
  ⟨sealed, trivial, id⟩

theorem keepsSealing_publishing (sealed : room.Sealed) (event : ChatEvent) :
    KeepsSealing (room, .publishing event) :=
  ⟨sealed, trivial, id⟩

theorem keepsSealing_leave (sealed : room.Sealed) (connection : Nat) :
    KeepsSealing (room.leave turn connection) := by
  unfold leave
  split
  · exact keepsSealing_done sealed
  · refine ⟨sealed, ?_, ?_⟩
    · dsimp only
      split <;> trivial
    · dsimp only
      split <;> exact id

theorem keepsSealing_transact (sealed : room.Sealed) {request : ChatRequest}
    (sealing : (ChatCall.begin request).Sealing) : KeepsSealing (room.transact turn request) := by
  unfold transact
  split
  · exact ⟨sealed, ⟨rfl, sealing⟩, id⟩
  · exact keepsSealing_done sealed

theorem keepsSealing_announce (sealed : room.Sealed) (event : ChatEvent) :
    KeepsSealing (room.announce turn event) := by
  unfold announce
  split
  · exact keepsSealing_publishing sealed event
  · exact keepsSealing_done sealed

theorem keepsSealing_withMessage (sealed : room.Sealed) (connection : Nat) (message : MessageRef)
    {found : ChatRow → Room × RoomCall} (kept : ∀ row, KeepsSealing (found row)) :
    KeepsSealing (room.withMessage turn connection message found) := by
  cases message with
  | missing => exact keepsSealing_done sealed
  | malformed => exact keepsSealing_leave sealed connection
  | id =>
    unfold withMessage
    dsimp only
    split
    · exact keepsSealing_done sealed
    · exact kept _

theorem keepsSealing_receive (sealed : room.Sealed) (connection : Nat) {post : ChatPost}
    (halted : (room.haltPost env turn post).isSome = true) :
    KeepsSealing (room.receive env turn connection post) := by
  unfold receive
  split
  · exact keepsSealing_done sealed
  · exact keepsSealing_leave sealed connection
  · rename_i none
    rw [none] at halted
    cases halted

theorem keepsSealing_act (sealed : room.Sealed) (connection : Nat) (userId : UuidText)
    (action : SocketAction)
    (halted : ∀ draft, action = .postMessage draft →
      (room.haltPost env turn (draft.post userId).stripped).isSome = true) :
    KeepsSealing (room.act env turn connection userId action) := by
  cases action with
  | ping => exact keepsSealing_done sealed
  | postMessage draft => exact keepsSealing_receive sealed connection (halted draft rfl)
  | typing => exact keepsSealing_publishing sealed _
  | react =>
    simp only [act]
    split
    · exact keepsSealing_done sealed
    · apply keepsSealing_withMessage sealed
      intro row
      exact ⟨sealed, trivial, id⟩
  | delivered =>
    apply keepsSealing_withMessage sealed
    intro row
    exact keepsSealing_publishing sealed _
  | delete =>
    apply keepsSealing_withMessage sealed
    intro row
    split
    · exact ⟨sealed, trivial, id⟩
    · exact keepsSealing_done sealed
  | read =>
    simp only [act]
    split
    · exact keepsSealing_done sealed
    · exact keepsSealing_publishing sealed _

theorem keepsSealing_arrive (sealed : room.Sealed) {request : RoomRequest}
    (halts : Halts env turn room (.arriving request)) :
    KeepsSealing (room.arrive env turn request) := by
  cases request with
  | enableSealedChat | rotateEpoch => exact keepsSealing_transact sealed trivial
  | createChat =>
    simp only [arrive]
    split
    · exact keepsSealing_done sealed
    · exact keepsSealing_transact sealed trivial
  | getChats | clearChats => exact keepsSealing_transact sealed trivial
  | configure => exact ⟨sealed, trivial, id⟩
  | updateExpiry | changeDocuments => exact keepsSealing_announce sealed _
  | connect =>
    simp only [arrive]
    split
    · exact ⟨sealed, trivial, id⟩
    · exact keepsSealing_done sealed
  | disconnect connection => exact keepsSealing_leave sealed connection
  | socket connection =>
    simp only [arrive]
    cases user : room.connections.lookup connection with
    | none => exact keepsSealing_done sealed
    | some userId =>
      dsimp only
      cases device : turn.deviceActive with
      | false => exact keepsSealing_leave sealed connection
      | true =>
        cases rate : turn.withinRate with
        | false => exact keepsSealing_done sealed
        | true =>
          apply keepsSealing_act sealed
          rintro draft rfl
          exact halts userId user device rate

theorem keepsSealing_conclude (sealed : room.Sealed) (epoch : Option EpochRow) {row : ChatRow}
    (new : row.Sealed) : KeepsSealing (room.conclude env turn none epoch row) := by
  unfold conclude
  split
  · cases committed : room.space.commitSend epoch row with
    | none => exact keepsSealing_done sealed
    | some =>
      refine ⟨⟨(Space.enabled_commitSend committed).trans sealed.1, ?_⟩, new, id⟩
      intro other member
      rcases List.mem_append.mp member with old | last
      · exact sealed.2 other old
      · rw [List.mem_singleton.mp last]
        exact new
  · exact keepsSealing_done sealed

theorem keepsSealing_resume (call : ChatCall) {later : ChatCall} (sealing : later.Sealing) :
    (resume none call later).Sealing ∧ ¬ (resume none call later).Arriving := by
  cases later with
  | returned => cases call <;> exact ⟨trivial, id⟩
  | _ => exact ⟨⟨rfl, sealing⟩, id⟩

theorem keepsSealing_next (sealed : room.Sealed) {call : RoomCall} (sealing : call.Sealing)
    (halts : Halts env turn room call) : KeepsSealing (room.next env turn call) := by
  cases call with
  | arriving => exact keepsSealing_arrive sealed halts
  | working socket call =>
    obtain ⟨rfl, sealing⟩ := sealing
    by_cases commit : ∃ epoch row, call = .sending epoch row
    · obtain ⟨epoch, row, rfl⟩ := commit
      exact keepsSealing_conclude sealed epoch sealing
    · have before : ∀ epoch row, call ≠ .sending epoch row := by
        intro epoch row same
        exact commit ⟨epoch, row, same⟩
      rw [next_working env turn room none before]
      have stepped : Space.KeepsSealing (room.space.next env turn.toTurnInput call) :=
        Space.sealing_next sealed.1 sealing
      obtain ⟨after, begun⟩ := keepsSealing_resume call stepped.2
      exact ⟨⟨stepped.1, sealed.2⟩, after, begun⟩
  | opening =>
    simp only [next]
    split
    · exact keepsSealing_publishing sealed _
    · exact keepsSealing_done sealed
  | publishing => exact ⟨sealed, trivial, id⟩
  | finished => exact keepsSealing_done sealed

variable {room' : Room}

/-- Requests with the same text sizes, or past their arrival and the same under the mask. -/
inductive Alike : RoomCall → RoomCall → Prop
  | arriving {request request' : RoomRequest} (twin : request.Twin request') :
      Alike (.arriving request) (.arriving request')
  | begun {call call' : RoomCall} (begun : ¬ call.Arriving) (same : call.veil = call'.veil) :
      Alike call call'

theorem begun_veil {call : RoomCall} (begun : ¬ call.Arriving) : ¬ call.veil.Arriving := by
  cases call with
  | arriving => exact absurd trivial begun
  | _ => exact id

theorem begun_of_same {call call' : RoomCall} (begun : ¬ call.Arriving)
    (masked : call.veil = call'.veil) : ¬ call'.Arriving := by
  intro arriving
  apply begun_veil begun
  rw [masked]
  cases call' with
  | arriving => trivial
  | _ => exact arriving

variable (same : room.veil = room'.veil)
include same

theorem twin_connections : room'.connections = room.connections := by
  show room'.veil.connections = room.veil.connections
  rw [same]

theorem twin_leave (connection : Nat) :
    veilPair (room.leave turn connection) = veilPair (room'.leave turn connection) := by
  rw [← leave_veil turn room, ← leave_veil turn room', same]

theorem twin_finished : veilPair (room, .finished) = veilPair (room', .finished) :=
  congrArg (fun masked : Room => (masked, RoomCall.finished)) same

theorem twin_createChat {post post' : ChatPost} (masked : post.veil = post'.veil)
    (wellFormed : post'.wellFormed = post.wellFormed) :
    veilPair (room.arrive env turn (.createChat post)) =
      veilPair (room'.arrive env turn (.createChat post')) := by
  have twice (post : ChatPost) : (ChatCall.begin (.send post.veil)).veil =
      (ChatCall.begin (.send post)).veil := ChatCall.veil_veil (.begin (.send post))
  simp only [arrive, wellFormed]
  split
  · exact twin_finished same
  · rw [← transact_veil turn room (.send post) (twice post),
      ← transact_veil turn room' (.send post') (twice post'), same, masked]

theorem twin_receive {connection : Nat} {draft draft' : Draft}
    (halted : SaysNothing env turn room room' (.arriving (.socket connection (.postMessage draft)))
      (.arriving (.socket connection (.postMessage draft')))) :
    veilPair (room.arrive env turn (.socket connection (.postMessage draft))) =
      veilPair (room'.arrive env turn (.socket connection (.postMessage draft'))) := by
  have sockets := twin_connections same
  simp only [arrive, sockets]
  cases user : room.connections.lookup connection with
  | none => exact twin_finished same
  | some userId =>
    dsimp only
    cases device : turn.deviceActive with
    | false => exact twin_leave same connection
    | true =>
      cases rate : turn.withinRate with
      | false => exact twin_finished same
      | true =>
        obtain ⟨stopped, alike⟩ := halted userId user device rate
        simp only [Bool.not_true, Bool.false_eq_true, if_false]
        show veilPair (room.receive env turn connection (draft.post userId).stripped) =
          veilPair (room'.receive env turn connection (draft'.post userId).stripped)
        simp only [receive, alike]
        cases reached : room.haltPost env turn (draft.post userId).stripped with
        | none =>
          rw [reached] at stopped
          cases stopped
        | some halt =>
          cases halt with
          | dropped => exact twin_finished same
          | closed => exact twin_leave same connection

theorem twin_arrive {request request' : RoomRequest} (twin : request.Twin request')
    (quiet : SaysNothing env turn room room' (.arriving request) (.arriving request')) :
    veilPair (room.arrive env turn request) = veilPair (room'.arrive env turn request') := by
  cases twin with
  | same request =>
    by_cases textless : request.Textless
    · rw [← arrive_veil env turn room textless, ← arrive_veil env turn room' textless, same]
    · cases request with
      | createChat => exact twin_createChat same rfl rfl
      | socket connection action =>
        cases action with
        | postMessage => exact twin_receive same quiet
        | _ => exact absurd trivial textless
      | _ => exact absurd trivial textless
  | posted post text length =>
    have size : text.utf8ByteSize = post.message.utf8ByteSize := quiet
    apply twin_createChat same
    · simp only [ChatPost.veil, veilText, size]
    · simp only [ChatPost.wellFormed, length]
  | received => exact twin_receive same quiet

theorem twin_next {call call' : RoomCall} (alike : Alike call call') (sealing : call.Sealing)
    (sealing' : call'.Sealing) (quiet : SaysNothing env turn room room' call call') :
    veilPair (room.next env turn call) = veilPair (room'.next env turn call') := by
  cases alike with
  | arriving twin => exact twin_arrive same twin quiet
  | begun begun masked =>
    have begun' := begun_of_same begun masked
    rw [← next_veil env turn room begun sealing, ← next_veil env turn room' begun' sealing', same,
      masked]

omit same in
theorem halts_of_begun {call : RoomCall} (begun : ¬ call.Arriving) : Halts env turn room call := by
  cases call with
  | arriving => exact absurd trivial begun
  | _ => trivial

theorem halts_received {connection : Nat} {draft draft' : Draft}
    (halted : SaysNothing env turn room room' (.arriving (.socket connection (.postMessage draft)))
      (.arriving (.socket connection (.postMessage draft')))) :
    Halts env turn room (.arriving (.socket connection (.postMessage draft))) ∧
      Halts env turn room' (.arriving (.socket connection (.postMessage draft'))) := by
  constructor
  · intro userId user device rate
    exact (halted userId user device rate).1
  · intro userId user device rate
    rw [twin_connections same] at user
    obtain ⟨stopped, alike⟩ := halted userId user device rate
    rw [alike]
    exact stopped

theorem halts_arriving {request request' : RoomRequest} (twin : request.Twin request')
    (quiet : SaysNothing env turn room room' (.arriving request) (.arriving request')) :
    Halts env turn room (.arriving request) ∧ Halts env turn room' (.arriving request') := by
  cases twin with
  | same request =>
    cases request with
    | socket connection action =>
      cases action with
      | postMessage => exact halts_received same quiet
      | _ => exact ⟨trivial, trivial⟩
    | _ => exact ⟨trivial, trivial⟩
  | posted => exact ⟨trivial, trivial⟩
  | received => exact halts_received same quiet

theorem halts_of_saysNothing {call call' : RoomCall} (alike : Alike call call')
    (quiet : SaysNothing env turn room room' call call') :
    Halts env turn room call ∧ Halts env turn room' call' := by
  cases alike with
  | arriving twin => exact halts_arriving same twin quiet
  | begun begun masked =>
    exact ⟨halts_of_begun begun, halts_of_begun (begun_of_same begun masked)⟩

end Room

namespace RoomSystem

def stepBoth (env : ChatEnvironment) (pair : RoomSystem × RoomSystem) (turn : Nat × RoomInput) :
    RoomSystem × RoomSystem :=
  (step env pair.1 turn, step env pair.2 turn)

def SaysNothing (env : ChatEnvironment) (pair : RoomSystem × RoomSystem) (turn : Nat × RoomInput) :
    Prop :=
  ∀ call ∈ pair.1.calls[turn.1]?, ∀ call' ∈ pair.2.calls[turn.1]?,
    Room.SaysNothing env turn.2 pair.1.shared pair.2.shared call call'

instance (env : ChatEnvironment) (pair : RoomSystem × RoomSystem) (turn : Nat × RoomInput) :
    Decidable (SaysNothing env pair turn) := by
  unfold SaysNothing
  infer_instance

def Inv : RoomSystem → RoomSystem → Prop :=
  Paired (fun room room' => room.veil = room'.veil ∧ room.Sealed ∧ room'.Sealed)
    (fun call call' => Room.Alike call call' ∧ call.Sealing ∧ call'.Sealing)

theorem inv_stepBoth (env : ChatEnvironment) (pair : RoomSystem × RoomSystem)
    (turn : Nat × RoomInput) (inv : Inv pair.1 pair.2) (quiet : SaysNothing env pair turn) :
    Inv (stepBoth env pair turn).1 (stepBoth env pair turn).2 := by
  apply paired_advance (Room.next env) inv turn
  rintro call call' here here' ⟨alike, sealing, sealing'⟩
  obtain ⟨same, sealed, sealed'⟩ := inv.shared
  have silent := quiet call here call' here'
  have masked := Room.twin_next same alike sealing sealing' silent
  obtain ⟨halts, halts'⟩ := Room.halts_of_saysNothing same alike silent
  have kept := Room.keepsSealing_next sealed sealing halts
  have kept' := Room.keepsSealing_next sealed' sealing' halts'
  exact ⟨⟨congrArg Prod.fst masked, kept.sealed_, kept'.sealed_⟩,
    .begun kept.begun (congrArg Prod.snd masked), kept.call, kept'.call⟩

theorem inv_start {space : Space} (enabled : space.chatEncryptionEnabled = true)
    (connections : List (Nat × UuidText)) {requests requests' : List RoomRequest}
    (twins : List.Forall₂ RoomRequest.Twin requests requests') :
    Inv (start space connections requests) (start space connections requests') := by
  have empty : (Room.mk space connections [] []).Sealed :=
    ⟨enabled, fun row member => absurd member List.not_mem_nil⟩
  refine ⟨⟨rfl, empty, empty⟩, ?_⟩
  show List.Forall₂ _ (requests.map RoomCall.arriving) (requests'.map RoomCall.arriving)
  rw [List.forall₂_map_left_iff, List.forall₂_map_right_iff]
  exact twins.imp fun _ _ twin => ⟨.arriving twin, trivial, trivial⟩

/-- From a space with sealed chat enabled, over all interleavings of any number of requests that
differ in the two runs only in texts of equal length: where every post on the socket is stopped and
what is posted over REST takes as many bytes in both runs, every created row is sealed and the two
runs publish the same events. -/
theorem sealed_chat_says_nothing (env : ChatEnvironment) {space : Space}
    (enabled : space.chatEncryptionEnabled = true) (connections : List (Nat × UuidText))
    {requests requests' : List RoomRequest}
    (twins : List.Forall₂ RoomRequest.Twin requests requests') {turns : List (Nat × RoomInput)}
    (silent : Guarded (SaysNothing env) (stepBoth env)
      (start space connections requests, start space connections requests') turns) :
    ∀ pair ∈ trace (stepBoth env)
        (start space connections requests, start space connections requests') turns,
      (∀ row ∈ pair.1.shared.created ++ pair.2.shared.created, row.Sealed) ∧
        pair.1.shared.events = pair.2.shared.events := by
  intro pair reached
  have inv := invariant_of_guarded (I := fun pair => Inv pair.1 pair.2)
    (fun pair turn inv quiet => inv_stepBoth env pair turn inv quiet)
    (inv_start enabled connections twins) silent pair reached
  obtain ⟨same, sealed, sealed'⟩ := inv.shared
  constructor
  · intro row member
    rcases List.mem_append.mp member with first | second
    · exact sealed.2 row first
    · exact sealed'.2 row second
  · show pair.1.shared.veil.events = pair.2.shared.veil.events
    rw [same]

open ChatSystem (bareEnvironment space member keys turnOf)

def enabledSpace : Space :=
  (run (ChatSystem.step bareEnvironment) (ChatSystem.start (Space.create space keys "k1") [.enable])
    [turnOf 0 1, turnOf 0 1]).shared

def draftOf (text : String) : Draft := ⟨text, some "c1", false, none, none, none⟩

def socketPost (text : String) : List RoomRequest :=
  [.connect 1 member, .socket 1 (.postMessage (draftOf text))]

def restPost (text : String) : List RoomRequest := [.createChat ((draftOf text).post member)]

/-- A turn of request `i` with everything admitted and the given room in the storage. -/
def roomTurn (i capacity : Nat) : Nat × RoomInput where
  fst := i
  snd :=
    { now := 0
      rowId := 7
      nonce := 7
      keyNonce := 7
      capacity := capacity
      admitted := true
      deviceActive := true
      withinRate := true
      blocked := false
      mediaValid := true
      isOwner := false
      connectedElsewhere := false
      userEmail := "a@b"
      userAvatar := none }

def socketTurns : List (Nat × RoomInput) := [0, 0, 1, 1, 1].map fun i => roomTurn i 1000

def restTurns (capacity : Nat) : List (Nat × RoomInput) :=
  List.replicate 8 (roomTurn 0 capacity)

def pairsOf (requests requests' : List RoomRequest) (turns : List (Nat × RoomInput)) :
    List (RoomSystem × RoomSystem) :=
  trace (stepBoth bareEnvironment) (start enabledSpace [] requests, start enabledSpace [] requests')
    turns

/-- Two texts of one length and size, sealed over REST. -/
theorem sealed_chat_says_nothing_rest :
    (∀ pair ∈ pairsOf (restPost "aa") (restPost "bb") (restTurns 1000),
      (∀ row ∈ pair.1.shared.created ++ pair.2.shared.created, row.Sealed) ∧
        pair.1.shared.events = pair.2.shared.events) ∧
      ∃ pair ∈ pairsOf (restPost "aa") (restPost "bb") (restTurns 1000),
        pair.1.shared.events ≠ [] := by
  have twins : List.Forall₂ RoomRequest.Twin (restPost "aa") (restPost "bb") :=
    .cons (.posted ((draftOf "aa").post member) "bb" (by decide)) .nil
  constructor
  · exact sealed_chat_says_nothing bareEnvironment (by decide +kernel) [] twins (by decide +kernel)
  · decide +kernel

/-- The socket stores and publishes a post as it is; and over REST two texts of one length are
told apart by their sizes when the storage is nearly full. -/
theorem socket_post_in_the_clear :
    (¬ ∀ pair ∈ pairsOf (socketPost "aa") (socketPost "bb") socketTurns,
      ∀ row ∈ pair.1.shared.created, row.Sealed) ∧
    (¬ ∀ pair ∈ pairsOf (socketPost "aa") (socketPost "bb") socketTurns,
      pair.1.shared.events = pair.2.shared.events) ∧
    ¬ ∀ pair ∈ pairsOf (restPost "e") (restPost "é") (restTurns 1),
      pair.1.shared.events = pair.2.shared.events := by
  have stored : ∃ pair ∈ pairsOf (socketPost "aa") (socketPost "bb") socketTurns,
      ∃ row ∈ pair.1.shared.created, row.isEncrypted = false := by decide +kernel
  refine ⟨?_, by decide +kernel, by decide +kernel⟩
  intro sealed
  obtain ⟨pair, reached, row, created, plain⟩ := stored
  have encrypted := (sealed pair reached row created).1
  rw [plain] at encrypted
  cases encrypted

end RoomSystem

end AverQel.SealedChat
