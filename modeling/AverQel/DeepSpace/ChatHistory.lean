/- digest: Stored messages with their versions, and the writes of the chat repository on them. -/
import AverQel.DeepSpace.Rows
import AverQel.Foundation.Ranking
import Mathlib.Data.Prod.Lex

namespace AverQel.DeepSpace.Chat

open Foundation

/-- An encrypted continuation of a provider, as `_encrypt_provider_continuation` returns it. -/
structure Envelope where
  version : Nat
  (kid nonce ciphertext : String)
  deriving DecidableEq, Repr

/-- The members of `metadata_json` that the chat service reads or writes; `others` are the rest. -/
structure Metadata where
  (status clientRequestId retryOfRequestId : Option String)
  regenerating : Bool
  /-- `_deepspace_provider_continuations` by turn index. -/
  continuations : Option (List (String × Envelope))
  /-- `_deepspace_provider_continuation_last_turn` -/
  lastTurn : Option Int
  others : List (String × String)
  deriving DecidableEq, Repr

/-- `{}` -/
def Metadata.empty : Metadata := ⟨none, none, none, false, none, none, []⟩

/-- `message_versions` -/
structure Version where
  id : Uuid
  versionIndex : Nat
  content : List Char
  metadata : Metadata
  sourceType : String
  deriving DecidableEq, Repr

/-- `messages` with the versions of each. -/
structure Message where
  id : Uuid
  role : MessageRole
  content : List Char
  metadata : Metadata
  activeVersionId : Option Uuid
  createdAt : Time
  versions : List Version
  deriving DecidableEq, Repr

namespace Message

variable (m : Message)

/-- `message.active_version` -/
def activeVersion : Option Version :=
  m.activeVersionId.bind fun id => m.versions.find? fun version => version.id = id

/-- A new message, whose first version is active. -/
def initial (id versionId : Uuid) (role : MessageRole) (content : List Char) (metadata : Metadata)
    (createdAt : Time) : Message where
  id := id
  role := role
  content := content
  metadata := metadata
  activeVersionId := some versionId
  createdAt := createdAt
  versions := [⟨versionId, 1, content, metadata, "initial"⟩]

def nextIndex : Nat := (m.versions.map Version.versionIndex).foldl max 0 + 1

def nextMetadata (given : Option Metadata) : Metadata :=
  match given with
  | none => m.metadata
  | some metadata => if metadata = Metadata.empty then m.metadata else metadata

/-- `create_message_version` on the message that it finds. -/
def createVersion (versionId : Uuid) (content : List Char) (sourceType : String) (activate : Bool)
    (metadata : Option Metadata) : Message :=
  let version : Version :=
    ⟨versionId, m.nextIndex, content, m.nextMetadata metadata, sourceType⟩
  let extended := { m with versions := m.versions ++ [version] }
  if activate then
    { extended with
      activeVersionId := some versionId
      content := content
      metadata := m.nextMetadata metadata }
  else extended

/-- `activate_message_version`; a version that is not the message's changes nothing. -/
def activateVersion (versionId : Uuid) : Message :=
  match m.versions.find? fun version => version.id = versionId with
  | none => m
  | some version =>
    { m with
      activeVersionId := some version.id
      content := version.content
      metadata := version.metadata }

def writeActive (content : List Char) (metadata : Metadata) : Message :=
  { m with
    versions := m.versions.map fun version =>
      if some version.id = m.activeVersionId then
        { version with content := content, metadata := metadata }
      else version }

/-- `complete_assistant_message`; a message of the user is left alone. -/
def complete (content : List Char) (metadata : Metadata) : Message :=
  match m.role with
  | .user => m
  | .assistant => { m.writeActive content metadata with content := content, metadata := metadata }

def reset (metadata : Metadata) : Message := { m with content := [], metadata := metadata }

end Message

def Message.position (m : Message) : Time ×ₗ Uuid := toLex (m.createdAt, m.id)

/-- `get_messages` -/
def getMessages (rows : List Message) : List Message := ascending Message.position rows

def onMessage (id : Uuid) (f : Message → Message) (rows : List Message) : List Message :=
  rows.map fun m => if m.id = id then f m else m

end AverQel.DeepSpace.Chat
