/- digest: The condition on the turns of sends, the invariant, and what one turn does under it. -/
import AverQel.SealedChat.ChatSends

namespace AverQel.SealedChat

open Foundation Transition Interleaving
open Documents (MediaStatus)

def ChatRow.Carries (row : ChatRow) (post : ChatPost) : Prop :=
  row.posted = post.message ∧ row.isMedia = post.isMedia ∧
    row.mediaObjectKey = post.mediaObjectKey

instance (row : ChatRow) (post : ChatPost) : Decidable (row.Carries post) := by
  delta ChatRow.Carries
  infer_instance

def ChatRow.ofClient (author : UuidText) (clientId : String) (row : ChatRow) : Bool :=
  decide (row.userId = author ∧ row.clientMessageId = some clientId)

def SendCall.By (author : UuidText) (clientId : String) (call : SendCall) : Prop :=
  call.send.post.userId = author ∧ call.send.post.clientMessageId = some clientId

instance (author : UuidText) (clientId : String) (call : SendCall) :
    Decidable (call.By author clientId) := by
  delta SendCall.By
  infer_instance

def SendPoint.recordingId : SendPoint → Option Nat
  | .recording _ messageId => some messageId
  | _ => none

def SendCall.found (tables : ChatTables) (call : SendCall) : Option ChatRow :=
  match call.point with
  | .checking _ => tables.space.existingPost call.send.post
  | .rechecking => call.send.post.clientMessageId.bind (tables.rowOfClient call.send.post)
  | _ => none

def SendCall.pending (call : SendCall) : Option (Option EpochRow × ChatRow) :=
  match call.point with
  | .inserting _ epoch row => some (epoch, row)
  | _ => none

def SendTurn.steps : SendTurn → Bool
  | .step _ => true
  | _ => false

namespace ChatTables

def Free (tables : ChatTables) (epoch : Option EpochRow) (row : ChatRow) : Prop :=
  (∀ epochRow ∈ epoch, epochRow.epoch ∉ tables.space.epochs.rows.map EpochRow.epoch) ∧
    row.id ∉ tables.space.messages.rows.map ChatRow.id ∧
    ∀ other ∈ tables.space.messages.rows, row.isEncrypted = true → other.isEncrypted = true →
      ¬ (other.cryptoEpoch = row.cryptoEpoch ∧ other.cryptoIdx = row.cryptoIdx)

instance (tables : ChatTables) (epoch : Option EpochRow) (row : ChatRow) :
    Decidable (tables.Free epoch row) := by
  delta Free
  infer_instance

def Delivered (tables : ChatTables) (row : ChatRow) : Prop :=
  (∀ recipient ∈ tables.recipients row.userId,
    (tables.deliveries.find? (row.id, recipient)).isSome = true) ∧
    ∀ mediaId ∈ row.mediaId, ∀ media ∈ tables.media.find? mediaId,
      media.status = .attached ∧ media.attachedMessageId = some row.id

instance (tables : ChatTables) (row : ChatRow) : Decidable (tables.Delivered row) := by
  delta Delivered
  infer_instance

end ChatTables

/-- The condition on a turn. No send dies between its two transactions. A send that finds an
earlier message for its client id finds it with its deliveries recorded, and over a socket it finds
no sealed message, and after a violated constraint one of its own content. What a send inserts
collides with nothing but its client id: no message was sealed at its place since it read the
highest index, and no other send has made the epoch. -/
def Careful (system : SendSystem) (turn : Nat × SendTurn) : Prop :=
  ∀ call ∈ system.calls[turn.1]?,
    (turn.2 = .die → call.point.recordingId = none) ∧
    (turn.2.steps = true →
      (∀ row ∈ call.found system.shared,
        (∀ other ∈ system.calls, other.point.recordingId ≠ some row.id) ∧
          (call.send.socket = true → row.isEncrypted = false ∧
            (call.point = .rechecking → row.Carries call.send.post))) ∧
      ∀ rows ∈ call.pending, system.shared.Free rows.1 rows.2)

instance (system : SendSystem) (turn : Nat × SendTurn) : Decidable (Careful system turn) := by
  delta Careful
  infer_instance

/-- The sends with one client id have taken effect once: one message, which every send that
reported success carries and whose deliveries are recorded; every other content is reported as a
conflict or was refused before; and no send at all has failed. -/
structure SentOnce (author : UuidText) (clientId : String) (system : SendSystem) : Prop where
  one : ∀ call ∈ system.calls, call.By author clientId → ∀ messageId,
    call.point = .reported (.sent messageId) →
      ∃ row ∈ system.shared.space.messages.rows, row.id = messageId ∧
        row.ofClient author clientId = true ∧
        system.shared.space.messages.rows.countP (ChatRow.ofClient author clientId) = 1 ∧
        system.shared.Delivered row
  conflict : ∀ call ∈ system.calls, call.By author clientId → ∀ report,
    call.point = .reported report → ∀ row ∈ system.shared.space.messages.rows,
      row.ofClient author clientId = true → ¬ row.Carries call.send.post →
        report = .conflict ∨ report = .refused
  unfailed : ∀ call ∈ system.calls, call.point ≠ .reported .failed

/-- Where the sends begin: nothing is posted under the client id, and the author posts under no
other one; different texts have different hashes. -/
structure Begins (env : ChatEnvironment) (author : UuidText) (clientId : String)
    (system : SendSystem) : Prop where
  requested : ∀ call ∈ system.calls, call.point = .requested
  scope : ∀ call ∈ system.calls, call.send.post.userId = author → call.By author clientId
  new : ∀ row ∈ system.shared.space.messages.rows, row.ofClient author clientId = false
  linked : ∀ delivery ∈ system.shared.deliveries.rows,
    delivery.messageId ∈ system.shared.space.messages.rows.map ChatRow.id
  hashes : ∀ a ∈ system.calls, ∀ b ∈ system.calls,
    env.plaintextHash a.send.post.message = env.plaintextHash b.send.post.message →
      a.send.post.message = b.send.post.message

variable {env : ChatEnvironment} {author : UuidText} {clientId : String} {texts : List String}
variable {tables tables' : ChatTables} {send : ChatSend} {call : SendCall} {row : ChatRow}

def ChatTables.Registered (tables : ChatTables) (post : ChatPost) : Option String → Prop
  | none => ∀ mediaId ∈ post.mediaId, tables.media.find? mediaId = none
  | some mediaId => post.mediaId = some mediaId ∧
    ∃ media, tables.media.find? mediaId = some media ∧ media.uploadedByUserId = post.userId

/-- The row that a send writes. -/
structure WrittenFor (env : ChatEnvironment) (post : ChatPost) (row : ChatRow) : Prop where
  userId : row.userId = post.userId
  clientMessageId : row.clientMessageId = post.clientMessageId
  mediaId : row.mediaId = post.mediaId
  carries : row.Carries post
  column : row.isEncrypted = false → row.message.column env = row.posted
  hash : row.isEncrypted = true → row.messageHash = some (env.plaintextHash row.posted)

structure Recorded (author : UuidText) (tables : ChatTables) (row : ChatRow) : Prop where
  delivered : tables.Delivered row
  own : ∀ mediaId ∈ row.mediaId, ∀ media ∈ tables.media.find? mediaId,
    media.uploadedByUserId = author

def SendPoint.Holds (env : ChatEnvironment) (author : UuidText) (clientId : String)
    (tables : ChatTables) (send : ChatSend) : SendPoint → Prop
  | .checking registered | .ensuring registered | .indexing registered _ _ =>
    tables.Registered send.post registered
  | .inserting registered _ row =>
    tables.Registered send.post registered ∧ WrittenFor env send.post row
  | .rechecking => ∃ row, send.post.clientMessageId.bind (tables.rowOfClient send.post) = some row
  | .recording registered messageId =>
    tables.Registered send.post registered ∧
      (∃ row ∈ tables.space.messages.rows, row.id = messageId ∧ WrittenFor env send.post row) ∧
      ∀ delivery ∈ tables.deliveries.rows, delivery.messageId ≠ messageId
  | .reported (.sent messageId) =>
    (SendCall.mk send (.reported (.sent messageId))).By author clientId →
      ∃ row ∈ tables.space.messages.rows, row.id = messageId ∧
        row.ofClient author clientId = true ∧ row.Carries send.post ∧ Recorded author tables row
  | .reported .failed => False
  | _ => True

/-- What holds of the tables and of every send while the sends of the author are under way. -/
structure Sending (env : ChatEnvironment) (author : UuidText) (clientId : String)
    (texts : List String) (system : SendSystem) : Prop where
  one : system.shared.space.messages.AtMostOne (ChatRow.ofClient author clientId)
  sends : ∀ call ∈ system.calls, call.send.post.message ∈ texts ∧
    (call.send.post.userId = author → call.By author clientId)
  rows : ∀ row ∈ system.shared.space.messages.rows, row.ofClient author clientId = true →
    (∃ post, WrittenFor env post row) ∧ row.posted ∈ texts ∧
      (Recorded author system.shared row ∨
        ∃ call ∈ system.calls, call.point.recordingId = some row.id)
  linked : ∀ delivery ∈ system.shared.deliveries.rows,
    delivery.messageId ∈ system.shared.space.messages.rows.map ChatRow.id
  apart : ∀ (i j : Nat) (a b : SendCall) (messageId : Nat), system.calls[i]? = some a →
    system.calls[j]? = some b → a.point.recordingId = some messageId →
      b.point.recordingId = some messageId → i = j
  holds : ∀ call ∈ system.calls,
    call.point.Holds env author clientId system.shared call.send

/-- The tables a step leaves alone, or adds to. -/
structure SameTables (tables tables' : ChatTables) : Prop where
  messages : tables'.space.messages = tables.space.messages
  members : tables'.members = tables.members
  devices : tables'.devices = tables.devices
  media : tables'.media = tables.media
  deliveries : tables'.deliveries = tables.deliveries

theorem SameTables.refl (tables : ChatTables) : SameTables tables tables :=
  ⟨rfl, rfl, rfl, rfl, rfl⟩

theorem recipients_eq (members : tables'.members = tables.members)
    (devices : tables'.devices = tables.devices) (sender : UuidText) :
    tables'.recipients sender = tables.recipients sender := by
  unfold ChatTables.recipients ChatTables.activeDeviceIds
  rw [members, devices]

theorem SameTables.recorded (same : SameTables tables tables') (recorded : Recorded author tables row) :
    Recorded author tables' row := by
  obtain ⟨⟨deliveries, media⟩, own⟩ := recorded
  refine ⟨⟨?_, ?_⟩, ?_⟩
  · rw [recipients_eq same.members same.devices, same.deliveries]
    exact deliveries
  · rw [same.media]
    exact media
  · rw [same.media]
    exact own

theorem SameTables.registered (same : SameTables tables tables') {post : ChatPost}
    {registered : Option String} (known : tables.Registered post registered) :
    tables'.Registered post registered := by
  cases registered with
  | none =>
    intro mediaId member
    rw [same.media]
    exact known mediaId member
  | some =>
    unfold ChatTables.Registered
    rw [same.media]
    exact known

theorem SameTables.holds (same : SameTables tables tables') {point : SendPoint}
    (holds : point.Holds env author clientId tables send) :
    point.Holds env author clientId tables' send := by
  cases point with
  | checking registered | ensuring registered | indexing registered => exact same.registered holds
  | inserting registered => exact ⟨same.registered holds.1, holds.2⟩
  | rechecking =>
    unfold SendPoint.Holds ChatTables.rowOfClient
    rw [same.messages]
    exact holds
  | recording registered =>
    unfold SendPoint.Holds
    rw [same.messages, same.deliveries]
    exact ⟨same.registered holds.1, holds.2⟩
  | reported report =>
    cases report with
    | sent =>
      intro mine
      obtain ⟨row, member, rest⟩ := holds mine
      exact ⟨row, same.messages ▸ member, rest.1, rest.2.1, rest.2.2.1, same.recorded rest.2.2.2⟩
    | failed => exact holds.elim
    | _ => trivial
  | _ => trivial

theorem nodup_activeDeviceIds (tables : ChatTables) (userId : UuidText) :
    (tables.activeDeviceIds userId).Nodup := by
  unfold ChatTables.activeDeviceIds
  simp only
  split
  · exact List.nodup_singleton _
  · have rows : tables.devices.rows.Nodup := tables.devices.keys_nodup.of_map
    refine List.Nodup.map_on ?_ (rows.filter _)
    intro a memberA b memberB same
    obtain ⟨storedA, activeA⟩ := List.mem_filter.mp memberA
    obtain ⟨storedB, activeB⟩ := List.mem_filter.mp memberB
    have users : a.userId = b.userId :=
      (of_decide_eq_true activeA).1.trans (of_decide_eq_true activeB).1.symm
    exact tables.devices.eq_of_key_eq storedA storedB (Prod.ext users same)

theorem nodup_recipients (tables : ChatTables) (sender : UuidText) :
    (tables.recipients sender).Nodup := by
  unfold ChatTables.recipients
  refine List.nodup_flatMap.mpr ⟨?_, ?_⟩
  · intro member _
    exact (nodup_activeDeviceIds tables member.userId).map fun a b same => (Prod.ext_iff.mp same).2
  · have rows : tables.members.rows.Nodup := tables.members.keys_nodup.of_map
    have kept : (tables.members.rows.filter fun member =>
        decide (member.userId ≠ sender ∧ member.connected = true)).Nodup := rows.filter _
    refine List.Pairwise.imp_of_mem ?_ kept
    intro a b memberA memberB different address inA inB
    obtain ⟨_, _, rfl⟩ := List.mem_map.mp inA
    obtain ⟨_, _, same⟩ := List.mem_map.mp inB
    have users : b.userId = a.userId := (Prod.ext_iff.mp same).1
    exact different (tables.members.eq_of_key_eq (List.mem_filter.mp memberA).1
      (List.mem_filter.mp memberB).1 users.symm)

theorem exists_recordDeliveries (registered : Option String) (sender : UuidText) {messageId : Nat}
    (fresh : ∀ delivery ∈ tables.deliveries.rows, delivery.messageId ≠ messageId) :
    ∃ recorded, tables.recordDeliveries registered sender messageId = some recorded := by
  have added : (((tables.recipients sender).map fun recipient =>
      (⟨messageId, recipient.1, recipient.2, .pending, none, none⟩ : ChatDelivery)).map
        ChatDelivery.address) = (tables.recipients sender).map fun recipient =>
          (messageId, recipient) := by
    rw [List.map_map]
    rfl
  have distinct : (tables.deliveries.rows.map ChatDelivery.address ++
      (((tables.recipients sender).map fun recipient =>
        (⟨messageId, recipient.1, recipient.2, .pending, none, none⟩ : ChatDelivery)).map
          ChatDelivery.address)).Nodup := by
    rw [added]
    refine List.nodup_append.mpr ⟨tables.deliveries.keys_nodup,
      (nodup_recipients tables sender).map fun a b same => (Prod.ext_iff.mp same).2, ?_⟩
    rintro address old _ new rfl
    obtain ⟨delivery, member, rfl⟩ := List.mem_map.mp old
    obtain ⟨recipient, _, same⟩ := List.mem_map.mp new
    exact fresh delivery member (Prod.ext_iff.mp same).1.symm
  obtain ⟨deliveries, inserted⟩ :=
    Option.isSome_iff_exists.mp (Table.isSome_foldlM_insert? distinct)
  exact ⟨_, congrArg (Option.map _) inserted⟩

theorem registered_of_validateMedia {post : ChatPost} {registered : Option String}
    (valid : tables.validateMedia post = some registered) : tables.Registered post registered := by
  unfold ChatTables.validateMedia at valid
  split at valid
  · rename_i noMedia _
    split at valid
    · cases valid
    · cases valid
      intro mediaId member
      rw [noMedia] at member
      cases member
  · rename_i mediaId objectKey reference _
    split at valid
    · rename_i unknown
      cases valid
      intro other member
      rw [reference] at member
      cases member
      exact unknown
    · rename_i media found
      split at valid
      · rename_i allowed
        cases valid
        exact ⟨reference, media, found, allowed.2.2.1⟩
      · cases valid
  · cases valid

theorem carries_of_conflicts {post : ChatPost} (written : WrittenFor env post row)
    (known : row.posted ∈ texts) (mine : send.post.message ∈ texts)
    (hashes : ∀ a ∈ texts, ∀ b ∈ texts, env.plaintextHash a = env.plaintextHash b → a = b)
    (open_socket : send.socket = true → row.isEncrypted = false)
    (same : tables.conflicts env send row = false) : row.Carries send.post := by
  simp only [ChatTables.conflicts, Bool.or_eq_false_iff, decide_eq_false_iff_not,
    Decidable.not_not] at same
  obtain ⟨⟨texts_same, media⟩, key⟩ := same
  refine ⟨?_, media, key⟩
  cases encrypted : row.isEncrypted with
  | false =>
    have column := written.column encrypted
    rw [encrypted] at texts_same
    rw [← column]
    simpa using texts_same
  | true =>
    cases socket : send.socket with
    | true => exact absurd ((open_socket socket).symm.trans encrypted) Bool.noConfusion
    | false =>
      have hash := written.hash encrypted
      rw [encrypted, socket] at texts_same
      simp only [Bool.false_eq_true, if_false, if_true, Bool.or_eq_false_iff,
        decide_eq_false_iff_not, Decidable.not_not] at texts_same
      rw [hash] at texts_same
      exact hashes _ known _ mine (Option.some.inj texts_same.2)

variable {system : SendSystem} {call : SendCall} {i : Nat}

/-- A turn that writes no message and no delivery. -/
structure Moved (env : ChatEnvironment) (author : UuidText) (clientId : String)
    (tables tables' : ChatTables) (call call' : SendCall) : Prop where
  send : call'.send = call.send
  same : SameTables tables tables'
  before : call.point.recordingId = none
  after : call'.point.recordingId = none
  holds : call'.point.Holds env author clientId tables' call'.send

/-- The first commit of a send. -/
structure Inserted (env : ChatEnvironment) (tables tables' : ChatTables) (call call' : SendCall)
    (registered : Option String) (row : ChatRow) : Prop where
  moves : call' = ⟨call.send, .recording registered row.id⟩
  before : call.point.recordingId = none
  registered : tables.Registered call.send.post registered
  written : WrittenFor env call.send.post row
  messages : tables.space.messages.insert? row = some tables'.space.messages
  alone : ∀ other ∈ tables.space.messages.rows, other.userId = row.userId →
    other.clientMessageId.isSome = true → other.clientMessageId ≠ row.clientMessageId
  members : tables'.members = tables.members
  devices : tables'.devices = tables.devices
  media : tables'.media = tables.media
  deliveries : tables'.deliveries = tables.deliveries

/-- The second commit of a send. -/
structure Finished (tables tables' : ChatTables) (call call' : SendCall)
    (registered : Option String) (messageId : Nat) : Prop where
  before : call.point = .recording registered messageId
  moves : call' = ⟨call.send, .reported (.sent messageId)⟩
  recorded : tables.recordDeliveries registered call.send.post.userId messageId = some tables'

/-- What a turn of a send does. -/
inductive Turned (env : ChatEnvironment) (author : UuidText) (clientId : String)
    (tables tables' : ChatTables) (call call' : SendCall) : Prop
  | stays (same : tables' = tables) (waits : call' = call)
  | moved (moved : Moved env author clientId tables tables' call call')
  | inserted {registered : Option String} {row : ChatRow}
    (inserted : Inserted env tables tables' call call' registered row)
  | finished {registered : Option String} {messageId : Nat}
    (finished : Finished tables tables' call call' registered messageId)

theorem exists_insertNewEpoch {s : Space} {epoch : Option EpochRow}
    (free : ∀ row ∈ epoch, row.epoch ∉ s.epochs.rows.map EpochRow.epoch) :
    ∃ next, s.insertNewEpoch epoch = some next ∧ next.messages = s.messages := by
  cases epoch with
  | none => exact ⟨s, rfl, rfl⟩
  | some row =>
    obtain ⟨epochs, inserted, _⟩ := Table.insert?_of_fresh (free row rfl)
    exact ⟨_, congrArg (Option.map _) inserted, rfl⟩

theorem insertChat_alone {s stored : Space} (inserted : s.insertChat row = some stored) :
    s.messages.insert? row = some stored.messages ∧
      ∀ other ∈ s.messages.rows, other.userId = row.userId →
        other.clientMessageId.isSome = true → other.clientMessageId ≠ row.clientMessageId := by
  unfold Space.insertChat at inserted
  split at inserted
  · cases inserted
  · rename_i unused
    split at inserted
    · cases inserted
    · obtain ⟨messages, added, rfl⟩ := Option.map_eq_some_iff.mp inserted
      refine ⟨added, fun other member author client same => unused ?_⟩
      refine List.any_eq_true.mpr ⟨other, member, ?_⟩
      rw [Bool.and_eq_true, Bool.and_eq_true]
      exact ⟨⟨decide_eq_true author, client⟩, decide_eq_true same⟩

theorem taken_of_insertChat {s : Space} (refused : s.insertChat row = none)
    (fresh : row.id ∉ s.messages.rows.map ChatRow.id)
    (place : ∀ other ∈ s.messages.rows, row.isEncrypted = true → other.isEncrypted = true →
      ¬ (other.cryptoEpoch = row.cryptoEpoch ∧ other.cryptoIdx = row.cryptoIdx)) :
    ∃ other ∈ s.messages.rows, other.userId = row.userId ∧
      other.clientMessageId.isSome = true ∧ other.clientMessageId = row.clientMessageId := by
  unfold Space.insertChat at refused
  split at refused
  · rename_i used
    obtain ⟨other, member, same⟩ := List.any_eq_true.mp used
    simp only [Bool.and_eq_true, decide_eq_true_eq] at same
    exact ⟨other, member, same.1.1, same.1.2, same.2⟩
  · split at refused
    · rename_i _ position
      simp only [Bool.and_eq_true, List.any_eq_true, decide_eq_true_eq] at position
      obtain ⟨encrypted, other, member, sealed, same⟩ := position
      exact absurd ⟨sealed.2, same⟩ (place other member encrypted sealed.1)
    · obtain ⟨messages, added, _⟩ := Table.insert?_of_fresh fresh
      rw [added] at refused
      cases refused

theorem written_plainRow (post : ChatPost) (input : TurnInput) :
    WrittenFor env post (post.plainRow input) where
  userId := rfl
  clientMessageId := rfl
  mediaId := rfl
  carries := ⟨rfl, rfl, rfl⟩
  column _ := rfl
  hash sealed := by cases sealed

theorem written_sealedRow {s : Space} {post : ChatPost} {input : TurnInput} {epoch : EpochRow}
    {sealed : SealedMessage}
    (made : s.sealUnder env epoch (senderLabel post.userId none) post.message input.nonce =
      .ok sealed) : WrittenFor env post (post.sealedRow input sealed) where
  userId := rfl
  clientMessageId := rfl
  mediaId := rfl
  carries := ⟨rfl, rfl, rfl⟩
  column plain := by cases plain
  hash _ := by
    obtain ⟨key, _, rest⟩ := bind_eq_ok_iff.mp made
    obtain ⟨ct, _, done⟩ := bind_eq_ok_iff.mp rest
    cases done
    rfl

theorem ofClient_of_found {post : ChatPost} {existing : ChatRow} {id : String}
    (found : tables.rowOfClient post id = some existing) (author_eq : post.userId = author)
    (client : id = clientId) :
    existing ∈ tables.space.messages.rows ∧ existing.ofClient author clientId = true := by
  subst author_eq client
  exact ⟨List.mem_of_find?_eq_some found, by simpa [ChatRow.ofClient] using List.find?_some found⟩

theorem rowOfClient_of_existingPost {post : ChatPost} {existing : ChatRow}
    (found : tables.space.existingPost post = some existing) :
    ∃ id, post.clientMessageId = some id ∧ tables.rowOfClient post id = some existing := by
  obtain ⟨id, nonempty, stored⟩ := Option.bind_eq_some_iff.mp found
  exact ⟨id, (Text.nonempty_eq_some_iff.mp nonempty).1, stored⟩

theorem holds_sent (sending : Sending env author clientId texts system) {existing : ChatRow}
    {id : String} (identified : send.post.clientMessageId = some id)
    (found : system.shared.rowOfClient send.post id = some existing)
    (carries : existing.ofClient author clientId = true → existing.Carries send.post)
    (recorded : ∀ other ∈ system.calls, other.point.recordingId ≠ some existing.id) :
    (SendPoint.reported (.sent existing.id)).Holds env author clientId system.shared send := by
  rintro ⟨mine, client⟩
  obtain ⟨member, listed⟩ := ofClient_of_found found mine (Option.some.inj (identified.symm.trans client))
  refine ⟨existing, member, rfl, listed, carries listed, ?_⟩
  rcases (sending.rows existing member listed).2.2 with done | ⟨other, inside, recording⟩
  · exact done
  · exact absurd recording (recorded other inside)

/-- What one turn of a send does, in a system whose condition holds. -/
theorem turned_next (sending : Sending env author clientId texts system)
    (hashes : ∀ a ∈ texts, ∀ b ∈ texts, env.plaintextHash a = env.plaintextHash b → a = b)
    {turn : SendTurn} (here : system.calls[i]? = some call) (careful : Careful system (i, turn)) :
    Turned env author clientId system.shared (call.next env turn system.shared).1 call
      (call.next env turn system.shared).2 := by
  obtain ⟨noDeath, guard⟩ := careful call here
  have holds := sending.holds call (List.mem_of_getElem? here)
  obtain ⟨text, _⟩ := sending.sends call (List.mem_of_getElem? here)
  obtain ⟨send, point⟩ := call
  have same := SameTables.refl system.shared
  cases turn with
  | refuse =>
    by_cases begins : point = .requested
    · subst begins
      exact .moved ⟨rfl, same, rfl, rfl, trivial⟩
    · simp only [SendCall.next, if_neg begins]
      exact .stays rfl rfl
  | die => exact .moved ⟨rfl, same, noDeath rfl, rfl, trivial⟩
  | step input =>
    obtain ⟨found, free⟩ := guard rfl
    cases point with
    | requested =>
      cases valid : system.shared.validateMedia send.post with
      | none =>
        simp only [SendCall.next, ChatTables.step, valid]
        exact .moved ⟨rfl, same, rfl, rfl, trivial⟩
      | some =>
        simp only [SendCall.next, ChatTables.step, valid]
        exact .moved ⟨rfl, same, rfl, rfl, registered_of_validateMedia valid⟩
    | checking =>
      cases existing : system.shared.space.existingPost send.post with
      | some row =>
        obtain ⟨id, identified, stored⟩ := rowOfClient_of_existingPost existing
        obtain ⟨recorded, plain⟩ := found row existing
        cases differs : system.shared.conflicts env send row with
        | true =>
          simp only [SendCall.next, ChatTables.step, existing, differs, if_true]
          exact .moved ⟨rfl, same, rfl, rfl, trivial⟩
        | false =>
          simp only [SendCall.next, ChatTables.step, existing, differs, Bool.false_eq_true,
            if_false]
          refine .moved ⟨rfl, same, rfl, rfl, holds_sent sending identified stored ?_ recorded⟩
          intro listed
          obtain ⟨⟨post, written⟩, known, _⟩ :=
            sending.rows row (List.mem_of_find?_eq_some stored) listed
          exact carries_of_conflicts written known text hashes (fun socket => (plain socket).1)
            differs
      | none =>
        cases sealing : !send.socket && system.shared.space.chatEncryptionEnabled with
        | true =>
          cases active : system.shared.space.settings.activeKeyringKey with
          | ok =>
            simp only [SendCall.next, ChatTables.step, existing, sealing, active, if_true]
            exact .moved ⟨rfl, same, rfl, rfl, holds⟩
          | error =>
            simp only [SendCall.next, ChatTables.step, existing, sealing, active, if_true]
            exact .moved ⟨rfl, same, rfl, rfl, trivial⟩
        | false =>
          simp only [SendCall.next, ChatTables.step, existing, sealing, Bool.false_eq_true,
            if_false]
          exact .moved ⟨rfl, same, rfl, rfl, holds, written_plainRow send.post input⟩
    | ensuring registered =>
      cases ensured : system.shared.space.ensureEpoch input.keyNonce with
      | ok result =>
        obtain ⟨minted, epoch, created⟩ := result
        simp only [SendCall.next, ChatTables.step, ensured]
        have moves : SameTables system.shared (system.shared.withSpace minted) := by
          obtain ⟨_, rfl⟩ := Space.ensureEpoch_ok ensured
          exact ⟨rfl, rfl, rfl, rfl, rfl⟩
        exact .moved ⟨rfl, moves, rfl, rfl, moves.registered holds⟩
      | error =>
        simp only [SendCall.next, ChatTables.step, ensured]
        exact .moved ⟨rfl, same, rfl, rfl, trivial⟩
    | indexing registered epoch =>
      cases made : system.shared.space.sealUnder env epoch (senderLabel send.post.userId none)
          send.post.message input.nonce with
      | ok sealed =>
        simp only [SendCall.next, ChatTables.step, made]
        exact .moved ⟨rfl, same, rfl, rfl, holds, written_sealedRow made⟩
      | error error =>
        simp only [SendCall.next, ChatTables.step, made]
        exact .moved ⟨rfl, same, rfl, rfl, trivial⟩
    | inserting registered epoch row =>
      obtain ⟨freeEpoch, fresh, place⟩ := free (epoch, row) rfl
      obtain ⟨known, written⟩ := holds
      obtain ⟨space, epochs, messages⟩ := exists_insertNewEpoch freeEpoch
      simp only [SendCall.next, ChatTables.step, epochs]
      cases room : space.hasRoom env input.capacity row with
      | false => exact .moved ⟨rfl, same, rfl, rfl, trivial⟩
      | true =>
        simp only [if_true]
        cases stored : space.insertChat row with
        | some =>
          obtain ⟨inserted, alone⟩ := insertChat_alone stored
          rw [messages] at inserted alone
          exact .inserted ⟨rfl, rfl, known, written, inserted, alone, rfl, rfl, rfl, rfl⟩
        | none =>
          obtain ⟨other, member, author_eq, some, client⟩ :=
            taken_of_insertChat stored (messages ▸ fresh) (messages ▸ place)
          rw [messages] at member
          obtain ⟨id, identified⟩ := Option.isSome_iff_exists.mp some
          have mine : send.post.clientMessageId = Option.some id :=
            written.clientMessageId.symm.trans (client.symm.trans identified)
          simp only [mine, reduceCtorEq, if_false]
          refine .moved ⟨rfl, same, rfl, rfl, ?_⟩
          cases looked : system.shared.rowOfClient send.post id with
          | some found => exact ⟨found, by rw [mine]; exact looked⟩
          | none =>
            refine absurd ?_ (List.find?_eq_none.mp looked other member)
            exact decide_eq_true ⟨author_eq.trans written.userId, identified⟩
    | rechecking =>
      obtain ⟨existing, looked⟩ := holds
      obtain ⟨recorded, plain⟩ := found existing looked
      obtain ⟨id, identified, stored⟩ := Option.bind_eq_some_iff.mp looked
      simp only [SendCall.next, ChatTables.step, looked]
      cases differs : !send.socket && system.shared.conflicts env send existing with
      | true => exact .moved ⟨rfl, same, rfl, rfl, trivial⟩
      | false =>
        refine .moved ⟨rfl, same, rfl, rfl, holds_sent sending identified stored ?_ recorded⟩
        intro listed
        cases socket : send.socket with
        | true => exact (plain socket).2 rfl
        | false =>
          obtain ⟨⟨post, written⟩, known, _⟩ :=
            sending.rows existing (List.mem_of_find?_eq_some stored) listed
          rw [socket] at differs
          exact carries_of_conflicts written known text hashes
            (fun talks => absurd (talks.symm.trans socket) Bool.noConfusion) (by simpa using differs)
    | recording registered =>
      obtain ⟨recorded, done⟩ := exists_recordDeliveries registered send.post.userId holds.2.2
      simp only [SendCall.next, ChatTables.step, done]
      exact .finished ⟨rfl, rfl, done⟩
    | reported | dead =>
      simp only [SendCall.next, ChatTables.step]
      exact .stays rfl rfl

end AverQel.SealedChat
