/- digest: The chat rows and epoch keys of one space: epochs, sealing for send, opening for read. -/
import AverQel.Base
import AverQel.Foundation.Fallible
import AverQel.Foundation.Table
import AverQel.Foundation.Text
import AverQel.SealedChat.ChatCrypto

namespace AverQel.SealedChat

open Foundation

abbrev KeyringKey := List UInt8

abbrev Keyring := List (String × KeyringKey)

structure ChatSettings where
  keyring : Except String Keyring
  activeKid : String

/-- `CollectionChatEpoch`. The key column holds the epoch key under a key of the keyring. -/
structure EpochRow where
  (id epoch : Nat)
  wrappedKey : Sealed KeyringKey EpochKey
  keyNonce : Nat
  keyKid : String
  deriving DecidableEq

/-- The JSON envelope of a sealed message. -/
structure Envelope where
  epoch : Nat
  sender : String
  (idx nonce : Nat)
  ct : Sealed MessageKey String
  kid : String
  deriving DecidableEq

/-- The `message` column: a text that is no envelope, or an envelope. -/
inductive StoredBody where
  | text (content : String)
  | envelope (e : Envelope)
  deriving DecidableEq

/-- `CollectionChatMessage`. `posted` is no column, it is the text that the sender posted. -/
structure ChatRow where
  id : Nat
  userId : UuidText
  message : StoredBody
  clientMessageId : Option String
  isMedia : Bool
  (mediaMimeType mediaId mediaObjectKey : Option String)
  reactions : List (String × String)
  isEncrypted : Bool
  (cryptoEpoch cryptoIdx : Nat)
  messageHash : Option String
  createdAt : Time
  posted : String
  deriving DecidableEq

def StoredBody.epochKey? : StoredBody → Option EpochKey
  | .text _ => none
  | .envelope e => some e.ct.key.epochKey

def Envelope.withContent (e : Envelope) (content : String) : Envelope :=
  { e with ct := e.ct.map fun _ => content }

/-- `plaintext_hash` and the JSON text of an envelope, which is as long for one content as for
another of its size. -/
structure ChatEnvironment where
  plaintextHash : String → String
  dumps : Envelope → String
  dumps_size : ∀ (e : Envelope) (content : String),
    content.utf8ByteSize = e.ct.content.utf8ByteSize →
      (dumps (e.withContent content)).utf8ByteSize = (dumps e).utf8ByteSize ∧
        (dumps (e.withContent content)).length = (dumps e).length

def StoredBody.column (env : ChatEnvironment) : StoredBody → String
  | .text content => content
  | .envelope e => env.dumps e

structure SealedMessage where
  envelope : Envelope
  (epoch idx : Nat)
  messageHash : String

/-- One space. `minted` is no table, it lists every epoch row that was ever made. -/
structure Space where
  id : UuidText
  chatEncryptionEnabled : Bool
  settings : ChatSettings
  epochs : Table EpochRow EpochRow.epoch
  messages : Table ChatRow ChatRow.id
  minted : List EpochRow

def deletionNotice : String := "This message was deleted"

/-- Write the deletion notice over a message; its other columns stay as they are, the encryption
flag among them. -/
def ChatRow.erase (row : ChatRow) : ChatRow :=
  { row with
    message := .text deletionNotice
    isMedia := false
    mediaMimeType := none
    mediaObjectKey := none
    reactions := [] }

namespace ChatSettings

def parseKeyring (settings : ChatSettings) : Except ChatError Keyring :=
  match settings.keyring with
  | .ok keyring => .ok keyring
  | .error message => .error (.encryption message)

/-- `_active_keyring_key` -/
def activeKeyringKey (settings : ChatSettings) : Except ChatError (String × KeyringKey) := do
  let keyring ← settings.parseKeyring
  let kid := Text.strip settings.activeKid
  match keyring.lookup kid with
  | none => .error .notConfigured
  | some key =>
    if kid = "" then .error .notConfigured
    else if key.length ≠ 32 then
      .error (.encryption "collection chat keyring keys must decode to 32 bytes")
    else .ok (kid, key)

end ChatSettings

namespace Space

variable (env : ChatEnvironment) (s : Space)

section Epochs

/-- `_latest_epoch` -/
def latestEpoch : Option EpochRow := maxBy EpochRow.epoch s.epochs.rows

/-- `_unwrap_epoch` -/
def unwrapEpoch (row : EpochRow) : Except ChatError EpochKey := do
  let keyring ← s.settings.parseKeyring
  match keyring.lookup row.keyKid with
  | none =>
    .error (.encryption
      "The key required to open this chat epoch is not available on this deployment.")
  | some key =>
    match row.wrappedKey.open? key row.keyNonce (epochAad s.id row.epoch) with
    | none => .error (.crypto "chat epoch key failed authentication")
    | some epochKey => .ok epochKey

/-- The row that `rotate_epoch` adds. The draw of its key is its id as well. -/
def rotateEpoch (nonce : Nat) : Except ChatError (Space × EpochRow) := do
  let (kid, keyringKey) ← s.settings.activeKeyringKey
  let nextEpoch :=
    match s.latestEpoch with
    | some latest => latest.epoch + 1
    | none => 1
  let epochKey := s.minted.length
  let row : EpochRow :=
    { id := epochKey
      epoch := nextEpoch
      wrappedKey := ⟨keyringKey, nonce, epochAad s.id nextEpoch, epochKey⟩
      keyNonce := nonce
      keyKid := kid }
  return ({ s with minted := s.minted ++ [row] }, row)

/-- `ensure_epoch`: the latest epoch, or a new one, and whether it is new. -/
def ensureEpoch (nonce : Nat) : Except ChatError (Space × EpochRow × Bool) :=
  match s.latestEpoch with
  | some existing => .ok (s, existing, false)
  | none =>
    match s.rotateEpoch nonce with
    | .ok (next, row) => .ok (next, row, true)
    | .error error => .error error

variable {s} {s' : Space} {row : EpochRow} {nonce : Nat}

theorem rotateEpoch_ok (made : s.rotateEpoch nonce = .ok (s', row)) :
    s' = { s with minted := s.minted ++ [row] } := by
  obtain ⟨_, _, done⟩ := bind_eq_ok_iff.mp made
  cases done
  rfl

theorem ensureEpoch_ok {created : Bool} (made : s.ensureEpoch nonce = .ok (s', row, created)) :
    ∃ minted, s' = { s with minted := minted } := by
  unfold ensureEpoch at made
  split at made
  · cases made
    exact ⟨s.minted, rfl⟩
  · split at made
    · rename_i rotated
      cases made
      exact ⟨_, rotateEpoch_ok rotated⟩
    · cases made

end Epochs

def nextIdx (epoch : Nat) : Nat :=
  match maxBy ChatRow.cryptoIdx (s.messages.rows.filter (fun row => row.cryptoEpoch = epoch)) with
  | some row => row.cryptoIdx + 1
  | none => 1

/-- The end of `seal_for_send`, under an epoch row. -/
def sealUnder (row : EpochRow) (sender plaintext : String) (nonce : Nat) :
    Except ChatError SealedMessage := do
  let epochKey ← s.unwrapEpoch row
  let idx := s.nextIdx row.epoch
  let sealed ← sealMessage epochKey s.id row.epoch sender idx nonce plaintext
  return {
    envelope := ⟨row.epoch, sender, idx, nonce, sealed, row.keyKid⟩
    epoch := row.epoch
    idx := idx
    messageHash := env.plaintextHash plaintext }

/-- `open_for_read` -/
def openForRead (row : ChatRow) : Except ChatError String :=
  match row.isEncrypted, row.message with
  | false, body => .ok (body.column env)
  | true, .text _ => .error (.encryption "Stored chat message envelope is malformed.")
  | true, .envelope e =>
    match s.epochs.find? e.epoch with
    | none => .error (.encryption "The chat epoch for this message is no longer available.")
    | some epochRow =>
      match s.unwrapEpoch epochRow with
      | .error error => .error error
      | .ok epochKey =>
        match openMessage epochKey s.id e.epoch e.sender e.idx e.nonce e.ct with
        | .ok content => .ok content
        | .error _ => .error (.encryption "Stored chat message failed authentication.")

/-- The texts of a page of `get_collection_chats`. -/
def openPage (page : List ChatRow) : Except ChatError (List String) :=
  page.mapM fun row => s.openForRead env row

def insertEpoch (row : EpochRow) : Option Space :=
  (s.epochs.insert? row).map fun epochs => { s with epochs := epochs }

/-- Insert a chat row. A client id is unique for its sender, and the position of a sealed row
among the sealed rows. -/
def insertChat (row : ChatRow) : Option Space :=
  if s.messages.rows.any (fun other =>
      other.userId = row.userId && other.clientMessageId.isSome &&
        other.clientMessageId = row.clientMessageId) then none
  else if row.isEncrypted && s.messages.rows.any (fun other =>
      other.isEncrypted && other.cryptoEpoch = row.cryptoEpoch &&
        other.cryptoIdx = row.cryptoIdx) then none
  else (s.messages.insert? row).map fun messages => { s with messages := messages }

variable {s} in
theorem insertChat_some {s' : Space} {row : ChatRow} (inserted : s.insertChat row = some s') :
    ∃ messages, s.messages.insert? row = some messages ∧ s' = { s with messages := messages } := by
  unfold insertChat at inserted
  split at inserted
  · cases inserted
  · split at inserted
    · cases inserted
    · obtain ⟨messages, added, same⟩ := Option.map_eq_some_iff.mp inserted
      exact ⟨messages, added, same.symm⟩

def hasRoom (capacity : Nat) (row : ChatRow) : Bool :=
  let stored := s.messages.rows.foldl
    (fun used other => used + (other.message.column env).length) 0
  decide (stored + (row.message.column env).utf8ByteSize ≤ capacity)

def commitSend (epoch : Option EpochRow) (row : ChatRow) : Option Space :=
  match epoch with
  | none => s.insertChat row
  | some epochRow => (s.insertEpoch epochRow).bind fun next => next.insertChat row

def eraseMessage (id : Nat) : Space :=
  { s with messages := s.messages.modify id ChatRow.erase (fun _ => rfl) }

variable {s} in
theorem mem_eraseMessage {id : Nat} {row : ChatRow} :
    row ∈ (s.eraseMessage id).messages.rows ↔
      ∃ old ∈ s.messages.rows, (if old.id = id then old.erase else old) = row :=
  List.mem_map

def deleteMessages (ids : List Nat) : Space :=
  { s with messages := s.messages.filter (fun row => row.id ∉ ids) }

/-- `shred_epochs`, of the epoch rows with the given ids. -/
def shredEpochs (ids : List Nat) : Space :=
  { s with epochs := s.epochs.filter (fun row => row.id ∉ ids) }

end Space

end AverQel.SealedChat
