/- digest: The transactions on the chat of a space, read step by read step up to their commits. -/
import AverQel.Foundation.Interleaving
import AverQel.SealedChat.ChatEncryption

namespace AverQel.SealedChat

open Foundation Interleaving

/-- A message as a member posts it. -/
structure ChatPost where
  userId : UuidText
  message : String
  clientMessageId : Option String
  isMedia : Bool
  (mediaMimeType mediaId mediaObjectKey : Option String)
  deriving DecidableEq

/-- What a turn draws and is told: the clock, the random values, and the room that the storage plan
leaves for messages. -/
structure TurnInput where
  now : Time
  (rowId nonce keyNonce capacity : Nat)
  deriving DecidableEq

/-- What changes the chat of a space. A rotation is one by hand, of a membership change or of a
block; `deploy` adds keys to the keyring and names the active one. -/
inductive ChatRequest where
  | enable
  | rotate
  | send (post : ChatPost)
  | socketPost (post : ChatPost)
  | delete (id : Nat)
  | expire (cutoff : Time)
  | clear
  | deploy (keys : Keyring) (activeKid : String)

/-- How far a transaction has come, with what it has read. -/
inductive ChatCall where
  | begin (request : ChatRequest)
  | checking (post : ChatPost) (encrypted : Bool)
  | ensuring (post : ChatPost)
  | indexing (post : ChatPost) (row : EpochRow) (created : Bool)
  | sending (epoch : Option EpochRow) (row : ChatRow)
  | enabling (epoch : Option EpochRow)
  | minting
  | rotating (row : EpochRow)
  | deleting (id : Nat)
  | expiring (ids : List Nat)
  | clearing (ids : List Nat)
  | shredding (ids epochIds : List Nat)
  | returned

namespace ChatPost

/-- The row of a message that is stored as it is. -/
def plainRow (post : ChatPost) (turn : TurnInput) : ChatRow where
  id := turn.rowId
  userId := post.userId
  message := .text post.message
  clientMessageId := post.clientMessageId
  isMedia := post.isMedia
  mediaMimeType := post.mediaMimeType
  mediaId := post.mediaId
  mediaObjectKey := post.mediaObjectKey
  reactions := []
  isEncrypted := false
  cryptoEpoch := 0
  cryptoIdx := 0
  messageHash := none
  createdAt := turn.now
  posted := post.message

def sealedRow (post : ChatPost) (turn : TurnInput) (sealed : SealedMessage) : ChatRow :=
  { post.plainRow turn with
    message := .envelope sealed.envelope
    isEncrypted := true
    cryptoEpoch := sealed.epoch
    cryptoIdx := sealed.idx
    messageHash := some sealed.messageHash }

def stripped (post : ChatPost) : ChatPost :=
  { post with
    message := Text.strip post.message
    clientMessageId := Text.nonempty (post.clientMessageId.map Text.strip) }

end ChatPost

namespace Space

variable (env : ChatEnvironment) (s : Space)

def existingPost (post : ChatPost) : Option ChatRow :=
  (Text.nonempty post.clientMessageId).bind fun clientId =>
    s.messages.rows.find? fun row =>
      row.userId = post.userId ∧ row.clientMessageId = some clientId

/-- The next step of a transaction on the committed rows. -/
def next (turn : TurnInput) (s : Space) : ChatCall → Space × ChatCall
  | .begin .enable =>
    match s.settings.activeKeyringKey, s.ensureEpoch turn.keyNonce with
    | .ok _, .ok (minted, row, created) =>
      (minted, .enabling (if created then some row else none))
    | _, _ => (s, .returned)
  | .begin .rotate =>
    if s.chatEncryptionEnabled then (s, .minting) else (s, .returned)
  | .begin (.send post) => (s, .checking post s.chatEncryptionEnabled)
  | .begin (.socketPost post) =>
    if (s.existingPost post.stripped).isSome then (s, .returned)
    else (s, .sending none (post.stripped.plainRow turn))
  | .begin (.delete id) =>
    if (s.messages.find? id).isSome then (s, .deleting id) else (s, .returned)
  | .begin (.expire cutoff) =>
    let expired := s.messages.rows.filter (fun row => row.createdAt < cutoff)
    (s, .expiring (expired.map ChatRow.id))
  | .begin .clear => (s, .clearing (s.messages.rows.map ChatRow.id))
  | .begin (.deploy keys activeKid) =>
    ({ s with settings := ⟨s.settings.keyring.map (· ++ keys), activeKid⟩ }, .returned)
  | .checking post encrypted =>
    if (s.existingPost post).isSome then (s, .returned)
    else if encrypted then
      match s.settings.activeKeyringKey with
      | .ok _ => (s, .ensuring post)
      | .error _ => (s, .returned)
    else (s, .sending none (post.plainRow turn))
  | .ensuring post =>
    match s.ensureEpoch turn.keyNonce with
    | .ok (minted, row, created) => (minted, .indexing post row created)
    | .error _ => (s, .returned)
  | .indexing post row created =>
    match s.sealUnder env row (senderLabel post.userId none) post.message turn.nonce with
    | .ok sealed => (s, .sending (if created then some row else none) (post.sealedRow turn sealed))
    | .error _ => (s, .returned)
  | .sending epoch row =>
    if s.hasRoom env turn.capacity row then ((s.commitSend epoch row).getD s, .returned)
    else (s, .returned)
  | .enabling epoch =>
    match epoch with
    | none => ({ s with chatEncryptionEnabled := true }, .returned)
    | some row =>
      match s.insertEpoch row with
      | some next => ({ next with chatEncryptionEnabled := true }, .returned)
      | none => (s, .returned)
  | .minting =>
    match s.rotateEpoch turn.keyNonce with
    | .ok (minted, row) => (minted, .rotating row)
    | .error _ => (s, .returned)
  | .rotating row => ((s.insertEpoch row).getD s, .returned)
  | .deleting id => (s.eraseMessage id, .returned)
  | .expiring ids => (s.deleteMessages ids, .returned)
  | .clearing ids => (s, .shredding ids (s.epochs.rows.map EpochRow.id))
  | .shredding ids epochIds => ((s.deleteMessages ids).shredEpochs epochIds, .returned)
  | .returned => (s, .returned)

/-- A new space. -/
def create (id : UuidText) (keyring : Keyring) (activeKid : String) : Space where
  id := id
  chatEncryptionEnabled := false
  settings := ⟨.ok keyring, activeKid⟩
  epochs := Table.empty
  messages := Table.empty
  minted := []

end Space

abbrev ChatSystem := CallSystem Space ChatCall

def noLocks : ChatCall → ChatCall → Bool := fun _ _ => false

def ChatSystem.start (s : Space) (requests : List ChatRequest) : ChatSystem :=
  ⟨s, requests.map ChatCall.begin⟩

def ChatSystem.step (env : ChatEnvironment) : ChatSystem → Nat × TurnInput → ChatSystem :=
  advance noLocks (Space.next env)

end AverQel.SealedChat
