/- digest: Sockets that react to messages and acknowledge them, with what their sessions hold. -/
import AverQel.Foundation.Totals
import AverQel.SealedChat.ChatRoom
import AverQel.SealedChat.ChatSends

namespace AverQel.SealedChat

open Foundation Interleaving

abbrev Reactions := List (String × String)

/-- What a character takes in the ASCII text that `json.dumps` makes of a string. -/
def jsonWidth (c : Char) : Nat :=
  if c.toNat ∈ [34, 92, 8, 9, 10, 12, 13] then 2
  else if 32 ≤ c.toNat ∧ c.toNat ≤ 126 then 1
  else if c.toNat < 65536 then 6
  else 12

def jsonLength (text : String) : Nat := 2 + total jsonWidth text.toList

def reactionsLength (reactions : Reactions) : Nat :=
  2 + 2 * (reactions.length - 1) +
    total (fun entry => jsonLength entry.1 + 2 + jsonLength entry.2) reactions

def reactionsFit (reactions : Reactions) : Bool := reactionsLength reactions ≤ 1024

/-- A reaction that a handler was asked to set or to take back. -/
structure Toggle where
  messageId : Nat
  (userId reaction : String)
  deriving DecidableEq

/-- The tables that the actions of members write. `toggled` is no table, it lists the reactions in
the order in which their handlers came to their commits. -/
structure ReceiptTables where
  messages : Table ChatRow ChatRow.id
  deliveries : Table ChatDelivery ChatDelivery.address
  toggled : List Toggle

/-- `other` is an action that writes nothing here, a ping, or one over the rate limit. -/
inductive MemberAction where
  | react (message : MessageRef) (reaction : String)
  | delivered (message : MessageRef)
  | read
  | other

/-- What the session of a socket keeps between its actions: whether it is in a transaction, the
variables of the handler, and the loaded attributes of the rows that they refer to. -/
structure ChatSession where
  inTransaction : Bool
  message : Option Nat
  unread : List Nat
  loaded : List (Nat × Reactions)
  receipt : Option ((Nat × UuidText × String) × DeliveryStatus)
  deriving DecidableEq

/-- How far the handler of a socket has come with an action. -/
inductive SocketPoint where
  | idle
  | reacting (messageId : Nat) (reaction : String) (seen : Reactions)
  | finding (messageId : Nat)
  | delivering (messageId : Nat) (known : Option DeliveryStatus)
  | collecting (rest : List Nat) (known : List (Nat × Option DeliveryStatus))
  | closed
  deriving DecidableEq

structure MemberSocket where
  userId : UuidText
  deviceId : String
  session : ChatSession
  point : SocketPoint
  deriving DecidableEq

inductive SocketTurn where
  | receive (action : MemberAction)
  | step (now : Time)
  | close

namespace ChatSession

variable (session : ChatSession)

def fresh : ChatSession := ⟨false, none, [], [], none⟩

def release : ChatSession :=
  { session with
    loaded := session.loaded.filter fun entry =>
      session.message = some entry.1 ∨ entry.1 ∈ session.unread }

/-- `db.rollback()`, which reloads rows only when a transaction is under way: the commits of this
session expire nothing. The check of a registered device begins the next transaction. -/
def refresh (deviceId : String) : ChatSession :=
  { session with
    inTransaction := decide (deviceId ≠ "legacy")
    loaded := if session.inTransaction then [] else session.loaded
    receipt := if session.inTransaction then none else session.receipt }

def seen (row : ChatRow) : Reactions := (session.loaded.lookup row.id).getD row.reactions

def entry (row : ChatRow) : Nat × Reactions := (row.id, session.seen row)

/-- `db_msg` is the result of a query. -/
def find (row : Option ChatRow) : ChatSession :=
  { session with
    inTransaction := true
    message := row.map ChatRow.id
    loaded := row.toList.map session.entry ++ session.loaded }.release

/-- `unread_msgs` is the result of a query. -/
def list (rows : List ChatRow) : ChatSession :=
  { session with
    inTransaction := true
    unread := rows.map ChatRow.id
    loaded := rows.map session.entry ++ session.loaded }.release

/-- `receipt` is the row at an address, to be written with a status. -/
def acknowledge (address : Nat × UuidText × String) (status : DeliveryStatus) : ChatSession :=
  { session with inTransaction := true, receipt := some (address, status) }

def known (deliveries : Table ChatDelivery ChatDelivery.address)
    (address : Nat × UuidText × String) : Option DeliveryStatus :=
  (deliveries.find? address).map fun delivery =>
    match session.receipt with
    | some (held, status) => if held = address then status else delivery.status
    | none => delivery.status

def commit : ChatSession := { session with inTransaction := false }

def react (messageId : Nat) (reactions : Reactions) : ChatSession :=
  { session with loaded := (messageId, reactions) :: session.loaded }

end ChatSession

def ChatDelivery.stamp (delivery : ChatDelivery) (status : DeliveryStatus) (now : Time) :
    ChatDelivery :=
  match status with
  | .pending => delivery
  | .delivered => { delivery with deliveredAt := some now }
  | .read => { delivery with readAt := some now }

def ChatDelivery.advance (before status : DeliveryStatus) (now : Time) (delivery : ChatDelivery) :
    ChatDelivery :=
  { delivery with status := if before = status then delivery.status else status }.stamp status now

theorem ChatDelivery.address_advance (before status : DeliveryStatus) (now : Time)
    (delivery : ChatDelivery) :
    (delivery.advance before status now).address = delivery.address := by
  cases status <;> rfl

namespace ReceiptTables

variable (tables : ReceiptTables)

/-- The row of a reaction, with the reactions that the handler has seen. -/
def storeReaction (messageId : Nat) (userId reaction : String) (seen : Reactions) :
    ReceiptTables :=
  let reactions := toggleReaction seen userId reaction
  { tables with
    messages :=
      if reactionsFit reactions then
        tables.messages.modify messageId (fun row => { row with reactions := reactions })
          fun _ => rfl
      else tables.messages
    toggled := tables.toggled ++ [⟨messageId, userId, reaction⟩] }

/-- One receipt of a commit: inserted when none was found, else updated. -/
def putReceipt (userId : UuidText) (deviceId : String) (status : DeliveryStatus) (now : Time)
    (tables : ReceiptTables) (entry : Nat × Option DeliveryStatus) : Option ReceiptTables :=
  match entry.2 with
  | none =>
    (tables.deliveries.insert?
      ((⟨entry.1, userId, deviceId, status, none, none⟩ : ChatDelivery).stamp status now)).map
      fun deliveries => { tables with deliveries := deliveries }
  | some before =>
    if (tables.deliveries.find? (entry.1, userId, deviceId)).isSome then
      some { tables with
        deliveries :=
          tables.deliveries.modify (entry.1, userId, deviceId)
            (ChatDelivery.advance before status now) fun _ =>
              ChatDelivery.address_advance before status now _ }
    else none

end ReceiptTables

namespace MemberSocket

variable (socket : MemberSocket)

/-- An action arrives at an idle socket, up to its first query. -/
def receive (tables : ReceiptTables) (action : MemberAction) : MemberSocket :=
  let session := socket.session.refresh socket.deviceId
  match action with
  | .other => { socket with session := session }
  | .react message reaction =>
    if reaction = "" then { socket with session := session }
    else
      match message with
      | .missing => { socket with session := session }
      | .malformed => { socket with session := session, point := .closed }
      | .id id =>
        let row := tables.messages.find? id
        { socket with
          session := session.find row
          point :=
            match row with
            | none => .idle
            | some found => .reacting found.id reaction (session.seen found) }
  | .delivered message =>
    match message with
    | .missing => { socket with session := session }
    | .malformed => { socket with session := session, point := .closed }
    | .id id =>
      let row := tables.messages.find? id
      { socket with
        session := session.find row
        point :=
          match row with
          | none => .idle
          | some found => .finding found.id }
  | .read =>
    let rows := tables.messages.rows.filter fun row => row.userId ≠ socket.userId
    { socket with
      session := session.list rows
      point := if rows = [] then .idle else .collecting (rows.map ChatRow.id) [] }

def putReceipts (tables : ReceiptTables) (status : DeliveryStatus) (now : Time)
    (entries : List (Nat × Option DeliveryStatus)) : ReceiptTables × MemberSocket :=
  let put := ReceiptTables.putReceipt socket.userId socket.deviceId status now
  match entries.foldlM put tables with
  | some written => (written, { socket with session := socket.session.commit, point := .idle })
  | none => (tables, { socket with point := .closed })

/-- The next step of an action: a query, or the commit. -/
def step (tables : ReceiptTables) (now : Time) : ReceiptTables × MemberSocket :=
  match socket.point with
  | .idle | .closed => (tables, socket)
  | .reacting messageId reaction seen =>
    let reactions := toggleReaction seen socket.userId.text reaction
    (tables.storeReaction messageId socket.userId.text reaction seen,
      if reactionsFit reactions then
        { socket with
          session := (socket.session.react messageId reactions).commit
          point := .idle }
      else { socket with point := .closed })
  | .finding messageId =>
    let address := (messageId, socket.userId, socket.deviceId)
    (tables,
      { socket with
        session := socket.session.acknowledge address .delivered
        point := .delivering messageId (socket.session.known tables.deliveries address) })
  | .delivering messageId known => socket.putReceipts tables .delivered now [(messageId, known)]
  | .collecting (messageId :: rest) known =>
    let address := (messageId, socket.userId, socket.deviceId)
    (tables,
      { socket with
        session := socket.session.acknowledge address .read
        point :=
          .collecting rest
            (known ++ [(messageId, socket.session.known tables.deliveries address)]) })
  | .collecting [] known => socket.putReceipts tables .read now known

/-- A turn of a socket. -/
def next (turn : SocketTurn) (tables : ReceiptTables) (socket : MemberSocket) :
    ReceiptTables × MemberSocket :=
  match turn with
  | .receive action =>
    if socket.point = .idle then (tables, socket.receive tables action) else (tables, socket)
  | .step now => socket.step tables now
  | .close => (tables, { socket with point := .closed })

end MemberSocket

abbrev ReceiptSystem := CallSystem ReceiptTables MemberSocket

def ReceiptSystem.step : ReceiptSystem → Nat × SocketTurn → ReceiptSystem :=
  advance (fun _ _ => false) MemberSocket.next

end AverQel.SealedChat
