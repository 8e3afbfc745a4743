/- digest: Masking of sealed contents, and that the chat of a space runs the same under the mask. -/
import AverQel.SealedChat.ChatCalls

namespace AverQel.SealedChat

open Foundation

def blankText : Nat → String
  | 0 => ""
  | n + 1 => (blankText n).push '*'

def veilText (text : String) : String := blankText text.utf8ByteSize

theorem utf8ByteSize_blankText (n : Nat) : (blankText n).utf8ByteSize = n := by
  induction n with
  | zero => rfl
  | succ n ih =>
    rw [blankText, String.utf8ByteSize_push, ih]
    rfl

@[simp] theorem utf8ByteSize_veilText (text : String) :
    (veilText text).utf8ByteSize = text.utf8ByteSize :=
  utf8ByteSize_blankText text.utf8ByteSize

@[simp] theorem veilText_veilText (text : String) : veilText (veilText text) = veilText text := by
  rw [veilText, utf8ByteSize_veilText]
  rfl

def Envelope.veil (e : Envelope) : Envelope := e.withContent (veilText e.ct.content)

def StoredBody.veil : StoredBody → StoredBody
  | .text content => .text content
  | .envelope e => .envelope e.veil

def ChatRow.veil (row : ChatRow) : ChatRow :=
  { row with message := row.message.veil, messageHash := none, posted := "" }

def ChatPost.veil (post : ChatPost) : ChatPost := { post with message := veilText post.message }

def Space.veil (s : Space) : Space :=
  { s with messages := s.messages.mapRows ChatRow.veil fun _ => rfl }

def ChatRow.Sealed (row : ChatRow) : Prop :=
  row.isEncrypted = true ∧ ∃ e, row.message = .envelope e

namespace ChatCall

def veil : ChatCall → ChatCall
  | .begin (.send post) => .begin (.send post.veil)
  | .checking post encrypted => .checking post.veil encrypted
  | .ensuring post => .ensuring post.veil
  | .indexing post row created => .indexing post.veil row created
  | .sending epoch row => .sending epoch row.veil
  | call => call

def Sealing : ChatCall → Prop
  | .begin (.socketPost _) => False
  | .checking _ encrypted => encrypted = true
  | .sending _ row => row.Sealed
  | _ => True

end ChatCall

@[simp] theorem StoredBody.veil_veil (body : StoredBody) : body.veil.veil = body.veil := by
  cases body with
  | text => rfl
  | envelope e =>
    show StoredBody.envelope (e.withContent (veilText (veilText e.ct.content))) = _
    rw [veilText_veilText]
    rfl

@[simp] theorem ChatRow.veil_veil (row : ChatRow) : row.veil.veil = row.veil := by
  simp only [ChatRow.veil, StoredBody.veil_veil]

@[simp] theorem Space.veil_veil (s : Space) : s.veil.veil = s.veil := by
  have rows : s.veil.veil.messages = s.veil.messages := by
    ext1
    show (s.messages.rows.map ChatRow.veil).map ChatRow.veil = s.messages.rows.map ChatRow.veil
    rw [List.map_map]
    exact List.map_congr_left fun row _ => ChatRow.veil_veil row
  exact congrArg (fun messages => { s with messages }) rows

@[simp] theorem ChatPost.veil_veil (post : ChatPost) : post.veil.veil = post.veil := by
  simp only [ChatPost.veil, veilText_veilText]

@[simp] theorem ChatCall.veil_veil (call : ChatCall) : call.veil.veil = call.veil := by
  cases call with
  | begin request => cases request <;> simp only [ChatCall.veil, ChatPost.veil_veil]
  | checking | ensuring | indexing => simp only [ChatCall.veil, ChatPost.veil_veil]
  | sending => simp only [ChatCall.veil, ChatRow.veil_veil]
  | _ => rfl

theorem column_veil (env : ChatEnvironment) (body : StoredBody) :
    (body.veil.column env).utf8ByteSize = (body.column env).utf8ByteSize ∧
      (body.veil.column env).length = (body.column env).length := by
  cases body with
  | text => exact ⟨rfl, rfl⟩
  | envelope e => exact env.dumps_size e (veilText e.ct.content) (utf8ByteSize_veilText _)

namespace Space

variable (env : ChatEnvironment) (s : Space)

theorem rotateEpoch_veil (nonce : Nat) :
    s.veil.rotateEpoch nonce = (s.rotateEpoch nonce).map fun made => (made.1.veil, made.2) := by
  have same : s.veil.settings.activeKeyringKey = s.settings.activeKeyringKey := rfl
  simp only [rotateEpoch, same]
  cases s.settings.activeKeyringKey with
  | error | ok => rfl

theorem ensureEpoch_veil (nonce : Nat) :
    s.veil.ensureEpoch nonce = (s.ensureEpoch nonce).map fun made => (made.1.veil, made.2) := by
  have same : s.veil.latestEpoch = s.latestEpoch := rfl
  simp only [ensureEpoch, same, rotateEpoch_veil]
  cases s.latestEpoch with
  | some => rfl
  | none => cases s.rotateEpoch nonce <;> rfl

theorem insertEpoch_veil (row : EpochRow) :
    s.veil.insertEpoch row = (s.insertEpoch row).map Space.veil := by
  have same : s.veil.epochs = s.epochs := rfl
  simp only [insertEpoch, same]
  cases s.epochs.insert? row <;> rfl

theorem nextIdx_veil (epoch : Nat) : s.veil.nextIdx epoch = s.nextIdx epoch := by
  have rows : s.veil.messages.rows.filter (fun row => row.cryptoEpoch = epoch) =
      (s.messages.rows.filter (fun row => row.cryptoEpoch = epoch)).map ChatRow.veil :=
    List.filter_map
  have top : maxBy ChatRow.cryptoIdx ((s.messages.rows.filter
      (fun row => row.cryptoEpoch = epoch)).map ChatRow.veil) =
      (maxBy ChatRow.cryptoIdx (s.messages.rows.filter
        (fun row => row.cryptoEpoch = epoch))).map ChatRow.veil :=
    maxBy_map ChatRow.cryptoIdx ChatRow.veil _
  simp only [nextIdx, rows, top]
  cases maxBy ChatRow.cryptoIdx (s.messages.rows.filter fun row => row.cryptoEpoch = epoch) <;> rfl

theorem sealMessage_veil (epochKey : EpochKey) (collectionId : UuidText) (epoch : Nat)
    (sender : String) (idx nonce : Nat) (plaintext : String) :
    sealMessage epochKey collectionId epoch sender idx nonce (veilText plaintext) =
      (sealMessage epochKey collectionId epoch sender idx nonce plaintext).map
        (Sealed.map veilText) := by
  simp only [sealMessage, utf8ByteSize_veilText]
  split
  · rfl
  · cases deriveMessageKey epochKey sender idx <;> rfl

theorem sealUnder_veil (row : EpochRow) (sender plaintext : String) (nonce : Nat) :
    s.veil.sealUnder env row sender (veilText plaintext) nonce =
      (s.sealUnder env row sender plaintext nonce).map fun sealed =>
        { sealed with
          envelope := { sealed.envelope with ct := sealed.envelope.ct.map veilText }
          messageHash := env.plaintextHash (veilText plaintext) } := by
  have unwrapped : s.veil.unwrapEpoch row = s.unwrapEpoch row := rfl
  have id : s.veil.id = s.id := rfl
  simp only [sealUnder, unwrapped, id, nextIdx_veil, sealMessage_veil]
  cases s.unwrapEpoch row with
  | error => rfl
  | ok epochKey =>
    show (Except.map _ _ >>= _) = Except.map _ (sealMessage _ _ _ _ _ _ _ >>= _)
    cases sealMessage epochKey s.id row.epoch sender (s.nextIdx row.epoch) nonce plaintext <;> rfl

theorem openMessage_veil (epochKey : EpochKey) (collectionId : UuidText) (epoch : Nat)
    (sender : String) (idx nonce : Nat) (ct : Foundation.Sealed MessageKey String) :
    openMessage epochKey collectionId epoch sender idx nonce (ct.map veilText) =
      (openMessage epochKey collectionId epoch sender idx nonce ct).map veilText := by
  simp only [openMessage, Sealed.open?_map]
  cases deriveMessageKey epochKey sender idx with
  | error => rfl
  | ok key =>
    dsimp only
    cases ct.open? key nonce (messageAad collectionId epoch sender idx) <;> rfl

theorem openForRead_veil {row : ChatRow} (sealed : row.Sealed) :
    s.veil.openForRead env row.veil = (s.openForRead env row).map veilText := by
  obtain ⟨encrypted, e, body⟩ := sealed
  have masked : row.veil.message = .envelope e.veil := by
    show row.message.veil = _
    rw [body]
    rfl
  have flag : row.veil.isEncrypted = true := encrypted
  have epochs : s.veil.epochs.find? e.veil.epoch = s.epochs.find? e.epoch := rfl
  simp only [openForRead, encrypted, body, flag, masked, epochs]
  cases s.epochs.find? e.epoch with
  | none => rfl
  | some epochRow =>
    have unwrapped : s.veil.unwrapEpoch epochRow = s.unwrapEpoch epochRow := rfl
    simp only [unwrapped]
    cases s.unwrapEpoch epochRow with
    | error => rfl
    | ok epochKey =>
      have opened : openMessage epochKey s.veil.id e.veil.epoch e.veil.sender e.veil.idx
          e.veil.nonce e.veil.ct =
          (openMessage epochKey s.id e.epoch e.sender e.idx e.nonce e.ct).map veilText :=
        openMessage_veil epochKey s.id e.epoch e.sender e.idx e.nonce e.ct
      simp only [opened]
      cases openMessage epochKey s.id e.epoch e.sender e.idx e.nonce e.ct <;> rfl

theorem existingPost_veil (post : ChatPost) :
    s.veil.existingPost post.veil = (s.existingPost post).map ChatRow.veil := by
  show (Text.nonempty post.clientMessageId).bind _ = Option.map _ (Option.bind _ _)
  cases Text.nonempty post.clientMessageId with
  | none => rfl
  | some => exact List.find?_map

theorem hasRoom_veil (capacity : Nat) (row : ChatRow) :
    s.veil.hasRoom env capacity row.veil = s.hasRoom env capacity row := by
  have each : ∀ other : ChatRow, (other.veil.message.column env).length =
      (other.message.column env).length := fun other => (column_veil env other.message).2
  have stored : s.veil.messages.rows.foldl
        (fun used other => used + (other.message.column env).length) 0 =
      s.messages.rows.foldl (fun used other => used + (other.message.column env).length) 0 := by
    show (s.messages.rows.map ChatRow.veil).foldl _ 0 = _
    simp only [List.foldl_map, each]
  have new : (row.veil.message.column env).utf8ByteSize =
      (row.message.column env).utf8ByteSize := (column_veil env row.message).1
  simp only [hasRoom, stored, new]

theorem insertChat_veil (row : ChatRow) :
    s.veil.insertChat row.veil = (s.insertChat row).map Space.veil := by
  have inserted : s.veil.messages.insert? row.veil =
      (s.messages.insert? row).map fun after => after.mapRows ChatRow.veil fun _ => rfl :=
    Table.insert?_mapRows s.messages ChatRow.veil (fun _ => rfl) row
  have any (p : ChatRow → Bool) (kept : ∀ other : ChatRow, p other.veil = p other) :
      s.veil.messages.rows.any p = s.messages.rows.any p := by
    show (s.messages.rows.map ChatRow.veil).any p = _
    rw [List.any_map]
    exact congrArg (fun q => s.messages.rows.any q) (funext kept)
  have flag : row.veil.isEncrypted = row.isEncrypted := rfl
  have client : (s.veil.messages.rows.any fun other => other.userId = row.veil.userId &&
      other.clientMessageId.isSome && other.clientMessageId = row.veil.clientMessageId) =
      s.messages.rows.any fun other => other.userId = row.userId &&
        other.clientMessageId.isSome && other.clientMessageId = row.clientMessageId :=
    any _ fun _ => rfl
  have position : (s.veil.messages.rows.any fun other => other.isEncrypted &&
      other.cryptoEpoch = row.veil.cryptoEpoch && other.cryptoIdx = row.veil.cryptoIdx) =
      s.messages.rows.any fun other => other.isEncrypted &&
        other.cryptoEpoch = row.cryptoEpoch && other.cryptoIdx = row.cryptoIdx :=
    any _ fun _ => rfl
  simp only [insertChat, inserted, flag, client, position]
  split
  · rfl
  · split
    · rfl
    · cases s.messages.insert? row <;> rfl

theorem commitSend_veil (epoch : Option EpochRow) (row : ChatRow) :
    s.veil.commitSend epoch row.veil = (s.commitSend epoch row).map Space.veil := by
  cases epoch with
  | none => exact insertChat_veil s row
  | some epochRow =>
    show (s.veil.insertEpoch epochRow).bind _ = Option.map _ ((s.insertEpoch epochRow).bind _)
    rw [insertEpoch_veil]
    cases s.insertEpoch epochRow with
    | none => rfl
    | some next => exact insertChat_veil next row

theorem deleteMessages_veil (ids : List Nat) :
    s.veil.deleteMessages ids = (s.deleteMessages ids).veil := by
  have rows : (s.veil.deleteMessages ids).messages = (s.deleteMessages ids).veil.messages := by
    ext1
    exact List.filter_map
  exact congrArg (fun messages => { s with messages }) rows

theorem eraseMessage_veil (id : Nat) : s.veil.eraseMessage id = (s.eraseMessage id).veil := by
  have rows : (s.veil.eraseMessage id).messages = (s.eraseMessage id).veil.messages := by
    ext1
    show (s.messages.rows.map ChatRow.veil).map _ = (s.messages.rows.map _).map ChatRow.veil
    rw [List.map_map, List.map_map]
    apply List.map_congr_left
    intro row _
    show (if row.id = id then row.veil.erase else row.veil) =
      (if row.id = id then row.erase else row).veil
    split <;> rfl
  exact congrArg (fun messages => { s with messages }) rows

theorem shredEpochs_veil (ids : List Nat) :
    s.veil.shredEpochs ids = (s.shredEpochs ids).veil := rfl

theorem ids_veil : s.veil.messages.rows.map ChatRow.id = s.messages.rows.map ChatRow.id := by
  show (s.messages.rows.map ChatRow.veil).map ChatRow.id = _
  rw [List.map_map]
  rfl

theorem veil_withSettings (settings : ChatSettings) :
    ({ s.veil with settings } : Space).veil = ({ s with settings } : Space).veil :=
  congrArg (fun next : Space => { next with settings }) (veil_veil s)

theorem find?_veil (id : Nat) :
    s.veil.messages.find? id = (s.messages.find? id).map ChatRow.veil :=
  Table.find?_mapRows s.messages ChatRow.veil (fun _ => rfl) id

def veilPair (after : Space × ChatCall) : Space × ChatCall := (after.1.veil, after.2.veil)

variable (turn : TurnInput)

theorem begin_veil (request : ChatRequest) (sealing : (ChatCall.begin request).Sealing) :
    veilPair (s.veil.next env turn (ChatCall.begin request).veil) =
      veilPair (s.next env turn (.begin request)) := by
  have active : s.veil.settings.activeKeyringKey = s.settings.activeKeyringKey := rfl
  have flag : s.veil.chatEncryptionEnabled = s.chatEncryptionEnabled := rfl
  cases request with
  | enable =>
    simp only [ChatCall.veil, next, active, ensureEpoch_veil]
    cases s.settings.activeKeyringKey with
    | error => simp only [veilPair, veil_veil]
    | ok =>
      cases s.ensureEpoch turn.keyNonce with
      | error | ok => simp only [veilPair, veil_veil, Except.map]
  | rotate =>
    simp only [ChatCall.veil, next, flag]
    split <;> simp only [veilPair, veil_veil]
  | send => simp only [ChatCall.veil, next, flag, veilPair, veil_veil, ChatPost.veil_veil]
  | socketPost => exact sealing.elim
  | delete =>
    simp only [ChatCall.veil, next, find?_veil, Option.isSome_map]
    split <;> simp only [veilPair, veil_veil]
  | expire cutoff =>
    have expired : (s.veil.messages.rows.filter fun row => row.createdAt < cutoff) =
        (s.messages.rows.filter fun row => row.createdAt < cutoff).map ChatRow.veil :=
      List.filter_map
    simp only [ChatCall.veil, next, expired, List.map_map, veilPair, veil_veil]
    rfl
  | clear =>
    simp only [ChatCall.veil, next, ids_veil, veilPair, veil_veil]
  | deploy keys activeKid =>
    have configured := veil_withSettings s ⟨s.settings.keyring.map (· ++ keys), activeKid⟩
    exact congrArg (fun after => (after, ChatCall.returned)) configured

theorem checking_veil (post : ChatPost) :
    veilPair (s.veil.next env turn (ChatCall.checking post true).veil) =
      veilPair (s.next env turn (.checking post true)) := by
  have active : s.veil.settings.activeKeyringKey = s.settings.activeKeyringKey := rfl
  simp only [ChatCall.veil, next, existingPost_veil, Option.isSome_map, active, if_true]
  split
  · simp only [veilPair, veil_veil]
  · cases s.settings.activeKeyringKey <;>
      simp only [veilPair, veil_veil, ChatCall.veil, ChatPost.veil_veil]

theorem ensuring_veil (post : ChatPost) :
    veilPair (s.veil.next env turn (ChatCall.ensuring post).veil) =
      veilPair (s.next env turn (.ensuring post)) := by
  simp only [ChatCall.veil, next, ensureEpoch_veil]
  cases s.ensureEpoch turn.keyNonce <;>
    simp only [Except.map, veilPair, veil_veil, ChatCall.veil, ChatPost.veil_veil]

theorem sealedRow_veil (post : ChatPost) (sealed : SealedMessage) :
    (post.veil.sealedRow turn { sealed with
      envelope := { sealed.envelope with ct := sealed.envelope.ct.map veilText }
      messageHash := env.plaintextHash (veilText post.message) }).veil =
      (post.sealedRow turn sealed).veil := by
  have body : (StoredBody.envelope { sealed.envelope with
      ct := sealed.envelope.ct.map veilText }).veil = (StoredBody.envelope sealed.envelope).veil :=
    StoredBody.veil_veil (.envelope sealed.envelope)
  simp only [ChatRow.veil, ChatPost.sealedRow, body]
  rfl

theorem indexing_veil (post : ChatPost) (row : EpochRow) (created : Bool) :
    veilPair (s.veil.next env turn (ChatCall.indexing post row created).veil) =
      veilPair (s.next env turn (.indexing post row created)) := by
  have author : post.veil.userId = post.userId := rfl
  have text : post.veil.message = veilText post.message := rfl
  simp only [ChatCall.veil, next, author, text, sealUnder_veil]
  cases s.sealUnder env row (senderLabel post.userId none) post.message turn.nonce with
  | error => simp only [Except.map, veilPair, veil_veil]
  | ok => simp only [Except.map, veilPair, veil_veil, ChatCall.veil, sealedRow_veil]

theorem enabling_veil (epoch : Option EpochRow) :
    veilPair (s.veil.next env turn (ChatCall.enabling epoch).veil) =
      veilPair (s.next env turn (.enabling epoch)) := by
  have enabled (next : Space) : ({ next.veil with chatEncryptionEnabled := true } : Space).veil =
      ({ next with chatEncryptionEnabled := true } : Space).veil :=
    congrArg (fun next : Space => { next with chatEncryptionEnabled := true }) (veil_veil next)
  cases epoch with
  | none => exact congrArg (fun after => (after, ChatCall.returned)) (enabled s)
  | some row =>
    simp only [ChatCall.veil, next, insertEpoch_veil]
    cases s.insertEpoch row with
    | none => simp only [Option.map_none, veilPair, veil_veil]
    | some => simp only [Option.map_some, veilPair, enabled]

theorem getD_veil (after : Option Space) :
    ((after.map Space.veil).getD s.veil).veil = (after.getD s).veil := by
  cases after <;> simp only [Option.map_none, Option.map_some, Option.getD_none, Option.getD_some,
    veil_veil]

theorem sending_veil (epoch : Option EpochRow) (row : ChatRow) :
    veilPair (s.veil.next env turn (ChatCall.sending epoch row).veil) =
      veilPair (s.next env turn (.sending epoch row)) := by
  simp only [ChatCall.veil, next, hasRoom_veil, commitSend_veil]
  split <;> simp only [veilPair, veil_veil, getD_veil]

theorem minting_veil :
    veilPair (s.veil.next env turn ChatCall.minting.veil) =
      veilPair (s.next env turn .minting) := by
  simp only [ChatCall.veil, next, rotateEpoch_veil]
  cases s.rotateEpoch turn.keyNonce <;> simp only [Except.map, veilPair, veil_veil]

theorem next_veil {call : ChatCall} (sealing : call.Sealing) :
    veilPair (s.veil.next env turn call.veil) = veilPair (s.next env turn call) := by
  cases call with
  | begin request => exact begin_veil env s turn request sealing
  | checking post encrypted =>
    cases show encrypted = true from sealing
    exact checking_veil env s turn post
  | ensuring post => exact ensuring_veil env s turn post
  | indexing post row created => exact indexing_veil env s turn post row created
  | sending epoch row => exact sending_veil env s turn epoch row
  | enabling epoch => exact enabling_veil env s turn epoch
  | minting => exact minting_veil env s turn
  | rotating =>
    simp only [ChatCall.veil, next, insertEpoch_veil, veilPair, getD_veil]
  | deleting =>
    simp only [ChatCall.veil, next, eraseMessage_veil, veilPair, veil_veil]
  | expiring =>
    simp only [ChatCall.veil, next, deleteMessages_veil, veilPair, veil_veil]
  | clearing =>
    have epochs : s.veil.epochs = s.epochs := rfl
    simp only [ChatCall.veil, next, epochs, veilPair, veil_veil]
  | shredding =>
    simp only [ChatCall.veil, next, deleteMessages_veil, shredEpochs_veil, veilPair, veil_veil]
  | returned => simp only [ChatCall.veil, next, veilPair, veil_veil]

def KeepsSealing (after : Space × ChatCall) : Prop :=
  after.1.chatEncryptionEnabled = true ∧ after.2.Sealing

variable {env s} {s' : Space} {turn : TurnInput}

theorem enabled_commitSend {epoch : Option EpochRow} {row : ChatRow}
    (committed : s.commitSend epoch row = some s') :
    s'.chatEncryptionEnabled = s.chatEncryptionEnabled := by
  cases epoch with
  | none =>
    obtain ⟨_, _, rfl⟩ := insertChat_some committed
    rfl
  | some =>
    obtain ⟨between, first, second⟩ := Option.bind_eq_some_iff.mp committed
    obtain ⟨_, _, rfl⟩ := Option.map_eq_some_iff.mp first
    obtain ⟨_, _, rfl⟩ := insertChat_some second
    rfl

variable (enabled : s.chatEncryptionEnabled = true)
include enabled

theorem sealing_begin (request : ChatRequest) (sealing : (ChatCall.begin request).Sealing) :
    KeepsSealing (s.next env turn (.begin request)) := by
  cases request with
  | enable =>
    simp only [next]
    split
    · rename_i ensured
      obtain ⟨_, rfl⟩ := ensureEpoch_ok ensured
      exact ⟨enabled, trivial⟩
    · exact ⟨enabled, trivial⟩
  | rotate | delete =>
    simp only [next]
    split <;> exact ⟨enabled, trivial⟩
  | send => exact ⟨enabled, enabled⟩
  | socketPost => exact sealing.elim
  | expire | clear | deploy => exact ⟨enabled, trivial⟩

theorem sealing_checking (post : ChatPost) :
    KeepsSealing (s.next env turn (.checking post true)) := by
  simp only [next, if_true]
  split
  · exact ⟨enabled, trivial⟩
  · split <;> exact ⟨enabled, trivial⟩

theorem sealing_indexing (post : ChatPost) (row : EpochRow) (created : Bool) :
    KeepsSealing (s.next env turn (.indexing post row created)) := by
  simp only [next]
  split
  · rename_i sealed _
    exact ⟨enabled, rfl, sealed.envelope, rfl⟩
  · exact ⟨enabled, trivial⟩

theorem sealing_next {call : ChatCall} (sealing : call.Sealing) :
    KeepsSealing (s.next env turn call) := by
  cases call with
  | begin request => exact sealing_begin enabled request sealing
  | checking post encrypted =>
    cases show encrypted = true from sealing
    exact sealing_checking enabled post
  | ensuring post =>
    simp only [next]
    split
    · rename_i ensured
      obtain ⟨_, rfl⟩ := ensureEpoch_ok ensured
      exact ⟨enabled, trivial⟩
    · exact ⟨enabled, trivial⟩
  | indexing post row created => exact sealing_indexing enabled post row created
  | sending epoch row =>
    simp only [next]
    split
    · cases committed : s.commitSend epoch row with
      | none => exact ⟨enabled, trivial⟩
      | some => exact ⟨(enabled_commitSend committed).trans enabled, trivial⟩
    · exact ⟨enabled, trivial⟩
  | enabling =>
    simp only [next]
    split
    · exact ⟨rfl, trivial⟩
    · split
      · exact ⟨rfl, trivial⟩
      · exact ⟨enabled, trivial⟩
  | minting =>
    simp only [next]
    split
    · rename_i made
      obtain rfl := rotateEpoch_ok made
      exact ⟨enabled, trivial⟩
    · exact ⟨enabled, trivial⟩
  | rotating row =>
    simp only [next]
    cases inserted : s.insertEpoch row with
    | none => exact ⟨enabled, trivial⟩
    | some =>
      obtain ⟨_, _, rfl⟩ := Option.map_eq_some_iff.mp inserted
      exact ⟨enabled, trivial⟩
  | deleting | expiring | clearing | shredding | returned => exact ⟨enabled, trivial⟩

end Space

end AverQel.SealedChat
