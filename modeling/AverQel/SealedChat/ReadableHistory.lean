/- digest: When every stored message opens to what was posted, over all interleavings. -/
import AverQel.SealedChat.ChatCalls

namespace AverQel.SealedChat

open Foundation Transition
open Foundation.Interleaving

/-- The message column is what `sealUnder` made of the posted text under an epoch row. -/
def ChatRow.SealedBy (id : UuidText) (e : EpochRow) (row : ChatRow) : Prop :=
  ∃ (sender : String) (idx nonce : Nat) (ct : Sealed MessageKey String),
    row.message = .envelope ⟨e.epoch, sender, idx, nonce, ct, e.keyKid⟩ ∧
      sealMessage e.id id e.epoch sender idx nonce row.posted = .ok ct

def ChatRow.AsPosted (s : Space) (row : ChatRow) : Prop :=
  (row.isEncrypted = false ∧ row.message = .text row.posted) ∨
    (row.isEncrypted = true ∧ ∃ e ∈ s.minted, row.SealedBy s.id e)

def ChatRow.Sound (s : Space) (row : ChatRow) : Prop :=
  row.AsPosted s ∨ row.message = .text deletionNotice

namespace Space

variable (env : ChatEnvironment)

/-- What every run keeps: the epoch rows have keys of their own and unwrap, and the chat rows were
made under them. -/
structure Sound (s : Space) : Prop where
  drawn : ∀ e ∈ s.minted, e.id < s.minted.length
  distinct : (s.minted.map EpochRow.id).Nodup
  unwraps : ∀ e ∈ s.minted, s.unwrapEpoch e = .ok e.id
  known : ∀ e ∈ s.epochs.rows, e ∈ s.minted
  rows : ∀ row ∈ s.messages.rows, row.Sound s

def keyStored (s : Space) (row : ChatRow) : Bool :=
  row.message.epochKey?.any fun key => s.epochs.rows.any fun e => e.id = key

/-- Every stored row opens to what was posted or to the deletion notice, so that every page does,
and no sealed row is under a key that is gone. -/
structure Readable (s : Space) : Prop where
  opens : ∀ row ∈ s.messages.rows,
    s.openForRead env row = .ok row.posted ∨ s.openForRead env row = .ok deletionNotice
  pages : ∀ page ⊆ s.messages.rows, ∃ texts, s.openPage env page = .ok texts
  keys : ∀ row ∈ s.messages.rows, row.isEncrypted = true → s.keyStored row = true

def Live (s : Space) : Prop :=
  ∀ row ∈ s.messages.rows, row.isEncrypted = true → ∃ e ∈ s.epochs.rows, row.SealedBy s.id e

variable {s : Space} {row : ChatRow} {e : EpochRow}

theorem epochKey_of_sealedBy {id : UuidText} (sealed : row.SealedBy id e) :
    row.message.epochKey? = some e.id := by
  obtain ⟨sender, idx, nonce, ct, body, made⟩ := sealed
  rw [body]
  show some ct.key.epochKey = some e.id
  rw [epochKey_of_sealMessage made]

theorem eq_of_id_eq (sound : s.Sound) {e e' : EpochRow} (he : e ∈ s.minted) (he' : e' ∈ s.minted)
    (same : e.id = e'.id) : e = e' :=
  List.inj_on_of_nodup_map sound.distinct he he' same

theorem openForRead_of_sealedBy (sound : s.Sound) (encrypted : row.isEncrypted = true)
    (stored : e ∈ s.epochs.rows) (sealed : row.SealedBy s.id e) :
    s.openForRead env row = .ok row.posted := by
  obtain ⟨sender, idx, nonce, ct, body, made⟩ := sealed
  have found : s.epochs.find? e.epoch = some e := Table.find?_eq_some_iff.mpr ⟨stored, rfl⟩
  simp only [openForRead, encrypted, body, found, sound.unwraps e (sound.known e stored),
    openMessage_sealMessage made]

theorem stored_of_openForRead (sound : s.Sound) (encrypted : row.isEncrypted = true)
    (minted : e ∈ s.minted) (sealed : row.SealedBy s.id e) {text : String}
    (opened : s.openForRead env row = .ok text) : e ∈ s.epochs.rows := by
  obtain ⟨sender, idx, nonce, ct, body, made⟩ := sealed
  simp only [openForRead, encrypted, body] at opened
  cases found : s.epochs.find? e.epoch with
  | none => simp only [found] at opened; cases opened
  | some other =>
    have stored := (Table.find?_eq_some_iff.mp found).1
    simp only [found, sound.unwraps other (sound.known other stored)] at opened
    cases message : openMessage other.id s.id e.epoch sender idx nonce ct with
    | error => simp only [message] at opened; cases opened
    | ok =>
      have same := epochKey_of_openMessage made message
      rwa [← eq_of_id_eq sound (sound.known other stored) minted same]

theorem openPage_of_opens {page : List ChatRow}
    (opens : ∀ row ∈ page, ∃ text, s.openForRead env row = .ok text) :
    ∃ texts, s.openPage env page = .ok texts := by
  induction page with
  | nil => exact ⟨[], rfl⟩
  | cons row rest ih =>
    obtain ⟨text, first⟩ := opens row List.mem_cons_self
    obtain ⟨texts, others⟩ := ih fun other member => opens other (List.mem_cons_of_mem row member)
    refine ⟨text :: texts, ?_⟩
    rw [openPage] at others ⊢
    rw [List.mapM_cons, first, others]
    rfl

theorem readable_iff_live (sound : s.Sound) : s.Readable env ↔ s.Live := by
  constructor
  · intro readable row member encrypted
    have opened : ∃ text, s.openForRead env row = .ok text := by
      rcases readable.opens row member with posted | notice
      · exact ⟨_, posted⟩
      · exact ⟨_, notice⟩
    obtain ⟨text, opened⟩ := opened
    rcases sound.rows row member with (⟨plain, _⟩ | ⟨_, e, minted, sealed⟩) | notice
    · rw [plain] at encrypted
      cases encrypted
    · exact ⟨e, stored_of_openForRead env sound encrypted minted sealed opened, sealed⟩
    · simp only [openForRead, encrypted, notice] at opened
      cases opened
  · intro live
    have opens : ∀ row ∈ s.messages.rows,
        s.openForRead env row = .ok row.posted ∨ s.openForRead env row = .ok deletionNotice := by
      intro row member
      cases encrypted : row.isEncrypted with
      | true =>
        obtain ⟨e, stored, sealed⟩ := live row member encrypted
        exact .inl (openForRead_of_sealedBy env sound encrypted stored sealed)
      | false =>
        rcases sound.rows row member with (⟨_, body⟩ | ⟨other, _⟩) | notice
        · left
          simp only [openForRead, encrypted, body, StoredBody.column]
        · rw [encrypted] at other
          cases other
        · right
          simp only [openForRead, encrypted, notice, StoredBody.column]
    refine ⟨opens, ?_, ?_⟩
    · intro page inside
      refine openPage_of_opens env fun row member => ?_
      rcases opens row (inside member) with posted | notice
      · exact ⟨_, posted⟩
      · exact ⟨_, notice⟩
    · intro row member encrypted
      obtain ⟨e, stored, sealed⟩ := live row member encrypted
      simp only [keyStored, epochKey_of_sealedBy sealed, Option.any_some, List.any_eq_true,
        decide_eq_true_eq]
      exact ⟨e, stored, rfl⟩

variable {s s' : Space} {row : ChatRow} {e : EpochRow}

structure Extends (s s' : Space) : Prop where
  id : s'.id = s.id
  minted : s.minted ⊆ s'.minted

theorem Extends.refl (s : Space) : Extends s s := ⟨rfl, fun _ member => member⟩

theorem asPosted_mono (more : Extends s s') (posted : row.AsPosted s) : row.AsPosted s' := by
  rcases posted with plain | ⟨encrypted, e, minted, sealed⟩
  · exact .inl plain
  · rw [← more.id] at sealed
    exact .inr ⟨encrypted, e, more.minted minted, sealed⟩

theorem soundRow_mono (more : Extends s s') (sound : row.Sound s) : row.Sound s' :=
  sound.imp (asPosted_mono more) fun notice => notice

structure Quiet (s s' : Space) : Prop extends Extends s s' where
  epochs : s'.epochs = s.epochs
  messages : s'.messages = s.messages

theorem Quiet.refl (s : Space) : Quiet s s := ⟨Extends.refl s, rfl, rfl⟩

theorem live_of_quiet (quiet : Quiet s s') : s'.Live ↔ s.Live := by
  rw [Live, Live, quiet.epochs, quiet.messages, quiet.id]

variable {nonce : Nat}

/-- The row that `rotateEpoch` makes has a new key and unwraps to it. -/
theorem rotateEpoch_spec (made : s.rotateEpoch nonce = .ok (s', e)) :
    s' = { s with minted := s.minted ++ [e] } ∧ e.id = s.minted.length ∧
      s.unwrapEpoch e = .ok e.id := by
  obtain ⟨_, active, done⟩ := bind_eq_ok_iff.mp made
  cases done
  refine ⟨rfl, rfl, ?_⟩
  obtain ⟨keyring, parsed, chosen⟩ := bind_eq_ok_iff.mp active
  dsimp only at chosen
  split at chosen
  · cases chosen
  · rename_i key found
    split at chosen
    · cases chosen
    · split at chosen
      · cases chosen
      · cases chosen
        simp only [unwrapEpoch, parsed, bind, Except.bind, found, Sealed.open?_self]

theorem sound_mint (sound : s.Sound) (fresh : e.id = s.minted.length)
    (unwraps : s.unwrapEpoch e = .ok e.id) : Sound { s with minted := s.minted ++ [e] } := by
  have more : Extends s { s with minted := s.minted ++ [e] } :=
    ⟨rfl, List.subset_append_left _ _⟩
  constructor
  · intro other member
    rw [List.length_append, List.length_singleton]
    rcases List.mem_append.mp member with old | new
    · exact Nat.lt_succ_of_lt (sound.drawn other old)
    · rw [List.mem_singleton.mp new, fresh]
      exact Nat.lt_succ_self _
  · show ((s.minted ++ [e]).map EpochRow.id).Nodup
    rw [List.map_append, List.map_singleton, List.nodup_append]
    refine ⟨sound.distinct, List.nodup_singleton _, ?_⟩
    intro id listed other new same
    obtain ⟨row, member, rfl⟩ := List.mem_map.mp listed
    have low := sound.drawn row member
    rw [same, List.mem_singleton.mp new, fresh] at low
    exact Nat.lt_irrefl _ low
  · intro other member
    rcases List.mem_append.mp member with old | new
    · exact sound.unwraps other old
    · rw [List.mem_singleton.mp new]
      exact unwraps
  · intro other stored
    exact List.mem_append_left _ (sound.known other stored)
  · intro row stored
    exact soundRow_mono more (sound.rows row stored)

theorem rotateEpoch_keeps (sound : s.Sound) (made : s.rotateEpoch nonce = .ok (s', e)) :
    s'.Sound ∧ Quiet s s' ∧ e ∈ s'.minted := by
  obtain ⟨rfl, fresh, unwraps⟩ := rotateEpoch_spec made
  exact ⟨sound_mint sound fresh unwraps, ⟨⟨rfl, List.subset_append_left _ _⟩, rfl, rfl⟩,
    List.mem_append_right _ (List.mem_singleton_self e)⟩

theorem ensureEpoch_keeps {created : Bool} (sound : s.Sound)
    (made : s.ensureEpoch nonce = .ok (s', e, created)) :
    s'.Sound ∧ Quiet s s' ∧ e ∈ s'.minted := by
  unfold ensureEpoch at made
  split at made
  · rename_i existing found
    cases made
    exact ⟨sound, Quiet.refl s, sound.known e (mem_of_maxBy found)⟩
  · split at made
    · rename_i minted
      cases made
      exact rotateEpoch_keeps sound minted
    · cases made

theorem sealUnder_spec {sender plaintext : String} {sealed : SealedMessage} (sound : s.Sound)
    (minted : e ∈ s.minted) (made : s.sealUnder env e sender plaintext nonce = .ok sealed) :
    ∃ ct, sealed.envelope = ⟨e.epoch, sender, sealed.idx, nonce, ct, e.keyKid⟩ ∧
      sealMessage e.id s.id e.epoch sender sealed.idx nonce plaintext = .ok ct := by
  unfold sealUnder at made
  rw [sound.unwraps e minted] at made
  simp only [bind, Except.bind] at made
  split at made
  · cases made
  · rename_i ct sealing
    cases made
    exact ⟨ct, rfl, sealing⟩

theorem insertEpoch_spec (inserted : s.insertEpoch e = some s') :
    s'.id = s.id ∧ s'.minted = s.minted ∧ s'.messages = s.messages ∧
      s'.epochs.rows = s.epochs.rows ++ [e] ∧ s'.settings = s.settings := by
  unfold insertEpoch at inserted
  obtain ⟨epochs, added, rfl⟩ := Option.map_eq_some_iff.mp inserted
  exact ⟨rfl, rfl, rfl, Table.rows_of_insert? added, rfl⟩

theorem insertChat_spec (inserted : s.insertChat row = some s') :
    s'.id = s.id ∧ s'.minted = s.minted ∧ s'.epochs = s.epochs ∧
      s'.messages.rows = s.messages.rows ++ [row] ∧ s'.settings = s.settings := by
  obtain ⟨messages, added, rfl⟩ := insertChat_some inserted
  exact ⟨rfl, rfl, rfl, Table.rows_of_insert? added, rfl⟩

theorem Sound.update (sound : s.Sound) (id : s'.id = s.id) (minted : s'.minted = s.minted)
    (settings : s'.settings = s.settings) (known : ∀ e ∈ s'.epochs.rows, e ∈ s.minted)
    (rows : ∀ row ∈ s'.messages.rows, row.Sound s) : s'.Sound := by
  have more : Extends s s' := ⟨id, by rw [minted]; exact List.Subset.refl _⟩
  constructor
  · rw [minted]
    exact sound.drawn
  · rw [minted]
    exact sound.distinct
  · intro e member
    rw [minted] at member
    have same : s'.unwrapEpoch e = s.unwrapEpoch e := by
      unfold unwrapEpoch
      rw [settings, id]
    rw [same]
    exact sound.unwraps e member
  · rw [minted]
    exact known
  · intro row stored
    exact soundRow_mono more (rows row stored)

theorem sound_insertEpoch (sound : s.Sound) (made : e ∈ s.minted)
    (inserted : s.insertEpoch e = some s') : s'.Sound := by
  obtain ⟨id, minted, messages, epochs, settings⟩ := insertEpoch_spec inserted
  refine sound.update id minted settings ?_ (by rw [messages]; exact sound.rows)
  intro other stored
  rw [epochs] at stored
  rcases List.mem_append.mp stored with old | new
  · exact sound.known other old
  · rw [List.mem_singleton.mp new]
    exact made

theorem sound_insertChat (sound : s.Sound) (posted : row.AsPosted s)
    (inserted : s.insertChat row = some s') : s'.Sound := by
  obtain ⟨id, minted, epochs, messages, settings⟩ := insertChat_spec inserted
  refine sound.update id minted settings (by rw [epochs]; exact sound.known) ?_
  intro other stored
  rw [messages] at stored
  rcases List.mem_append.mp stored with old | new
  · exact sound.rows other old
  · rw [List.mem_singleton.mp new]
    exact .inl posted

theorem sound_deleteMessages (sound : s.Sound) (ids : List Nat) : (s.deleteMessages ids).Sound :=
  sound.update rfl rfl rfl sound.known fun row stored =>
    sound.rows row (Table.mem_filter.mp stored).1

theorem sound_shredEpochs (sound : s.Sound) (ids : List Nat) : (s.shredEpochs ids).Sound :=
  sound.update rfl rfl rfl (fun e stored => sound.known e (Table.mem_filter.mp stored).1) sound.rows

theorem sound_eraseMessage (sound : s.Sound) (id : Nat) : (s.eraseMessage id).Sound := by
  refine sound.update rfl rfl rfl sound.known ?_
  intro row stored
  obtain ⟨old, member, rfl⟩ := mem_eraseMessage.mp stored
  split
  · exact .inr rfl
  · exact sound.rows old member

theorem sound_deploy (sound : s.Sound) (keys : Keyring) (activeKid : String) :
    Sound { s with settings := ⟨s.settings.keyring.map (· ++ keys), activeKid⟩ } := by
  refine ⟨sound.drawn, sound.distinct, ?_, sound.known, sound.rows⟩
  intro e member
  have before := sound.unwraps e member
  simp only [unwrapEpoch, ChatSettings.parseKeyring] at before ⊢
  cases parsed : s.settings.keyring with
  | error =>
    simp only [parsed, bind, Except.bind] at before
    cases before
  | ok keyring =>
    simp only [parsed, bind, Except.bind, Except.map] at before ⊢
    cases found : keyring.lookup e.keyKid with
    | none =>
      simp only [found] at before
      cases before
    | some key =>
      have kept : (keyring ++ keys).lookup e.keyKid = some key := by
        rw [List.lookup_append, found]
        rfl
      simpa only [found, kept] using before

def CallSound (s : Space) : ChatCall → Prop
  | .indexing _ row _ => row ∈ s.minted
  | .sending epoch row => row.AsPosted s ∧ ∀ e, epoch = some e → e ∈ s.minted ∧ row.SealedBy s.id e
  | .enabling epoch => ∀ e, epoch = some e → e ∈ s.minted
  | .rotating row => row ∈ s.minted
  | _ => True

theorem callSound_mono {s s' : Space} (more : Extends s s') {call : ChatCall}
    (sound : s.CallSound call) : s'.CallSound call := by
  cases call with
  | indexing => exact more.minted sound
  | sending =>
    refine ⟨asPosted_mono more sound.1, fun e made => ?_⟩
    obtain ⟨minted, sealed⟩ := sound.2 e made
    rw [← more.id] at sealed
    exact ⟨more.minted minted, sealed⟩
  | enabling => exact fun e made => more.minted (sound e made)
  | rotating => exact more.minted sound
  | _ => trivial

section Steps

variable {turn : TurnInput} {call : ChatCall}

structure Kept (s : Space) (after : Space × ChatCall) : Prop where
  sound : after.1.Sound
  extends_ : Extends s after.1
  call : after.1.CallSound after.2

/-- The tables are as before. -/
structure KeptQuietly (s : Space) (after : Space × ChatCall) : Prop where
  sound : after.1.Sound
  quiet : Quiet s after.1
  call : after.1.CallSound after.2

theorem KeptQuietly.kept {after : Space × ChatCall} (kept : KeptQuietly s after) : Kept s after :=
  ⟨kept.sound, kept.quiet.toExtends, kept.call⟩

theorem kept_stay (sound : s.Sound) (callSound : s.CallSound call) : KeptQuietly s (s, call) :=
  ⟨sound, Quiet.refl s, callSound⟩

theorem kept_returned (sound : s.Sound) : KeptQuietly s (s, .returned) := kept_stay sound trivial

theorem asPosted_plainRow (s : Space) (post : ChatPost) (turn : TurnInput) :
    (post.plainRow turn).AsPosted s := .inl ⟨rfl, rfl⟩

attribute [local simp] next

theorem kept_indexing (sound : s.Sound) {post : ChatPost} {row : EpochRow} {created : Bool}
    (made : row ∈ s.minted) : KeptQuietly s (s.next env turn (.indexing post row created)) := by
  simp only [next]
  split
  · rename_i sealed sealing
    obtain ⟨ct, body, opens⟩ := sealUnder_spec env sound made sealing
    have sealedBy : (post.sealedRow turn sealed).SealedBy s.id row := by
      refine ⟨senderLabel post.userId none, sealed.idx, turn.nonce, ct, ?_, opens⟩
      show StoredBody.envelope sealed.envelope = _
      rw [body]
    have own : ∀ e, (if created then some row else none) = some e →
        e ∈ s.minted ∧ (post.sealedRow turn sealed).SealedBy s.id e := by
      intro e new
      cases created with
      | true =>
        cases new
        exact ⟨made, sealedBy⟩
      | false => cases new
    exact kept_stay sound ⟨.inr ⟨rfl, row, made, sealedBy⟩, own⟩
  · exact kept_returned sound

theorem kept_begin (sound : s.Sound) (request : ChatRequest) :
    KeptQuietly s (s.next env turn (.begin request)) := by
  cases request with
  | enable =>
    simp only [next]
    split
    · rename_i minted row created _ ensured
      obtain ⟨sound', quiet, made⟩ := ensureEpoch_keeps sound ensured
      refine ⟨sound', quiet, ?_⟩
      intro e new
      cases created with
      | true =>
        cases new
        exact made
      | false => cases new
    · exact kept_returned sound
  | rotate =>
    simp only [next]
    split
    · exact kept_stay sound trivial
    · exact kept_returned sound
  | send | expire | clear => exact kept_stay sound trivial
  | socketPost =>
    simp only [next]
    split
    · exact kept_returned sound
    · exact kept_stay sound ⟨asPosted_plainRow s _ turn, fun e none => by cases none⟩
  | delete =>
    simp only [next]
    split
    · exact kept_stay sound trivial
    · exact kept_returned sound
  | deploy keys activeKid =>
    exact ⟨sound_deploy sound keys activeKid, ⟨⟨rfl, List.Subset.refl _⟩, rfl, rfl⟩, trivial⟩

theorem kept_checking (sound : s.Sound) (post : ChatPost) (encrypted : Bool) :
    KeptQuietly s (s.next env turn (.checking post encrypted)) := by
  simp only [next]
  split
  · exact kept_returned sound
  · split
    · split
      · exact kept_stay sound trivial
      · exact kept_returned sound
    · exact kept_stay sound ⟨asPosted_plainRow s post turn, fun e none => by cases none⟩

theorem kept_ensuring (sound : s.Sound) (post : ChatPost) :
    KeptQuietly s (s.next env turn (.ensuring post)) := by
  simp only [next]
  split
  · rename_i ensured
    obtain ⟨sound', quiet, made⟩ := ensureEpoch_keeps sound ensured
    exact ⟨sound', quiet, made⟩
  · exact kept_returned sound

theorem kept_minting (sound : s.Sound) : KeptQuietly s (s.next env turn .minting) := by
  simp only [next]
  split
  · rename_i made
    obtain ⟨sound', quiet, member⟩ := rotateEpoch_keeps sound made
    exact ⟨sound', quiet, member⟩
  · exact kept_returned sound

theorem kept_sending (sound : s.Sound) {epoch : Option EpochRow} {row : ChatRow}
    (callSound : s.CallSound (.sending epoch row)) :
    Kept s (s.next env turn (.sending epoch row)) := by
  simp only [next]
  split
  · cases committed : s.commitSend epoch row with
    | none => exact (kept_returned sound).kept
    | some =>
      cases epoch with
      | none =>
        obtain ⟨id, minted, _⟩ := insertChat_spec committed
        exact ⟨sound_insertChat sound callSound.1 committed,
          ⟨id, by rw [Option.getD_some, minted]; exact List.Subset.refl _⟩, trivial⟩
      | some e =>
        obtain ⟨between, first, second⟩ := Option.bind_eq_some_iff.mp committed
        obtain ⟨id, minted, _⟩ := insertEpoch_spec first
        obtain ⟨id', minted', _⟩ := insertChat_spec second
        have more : Extends s between := ⟨id, by rw [minted]; exact List.Subset.refl _⟩
        exact ⟨sound_insertChat (sound_insertEpoch sound (callSound.2 e rfl).1 first)
            (asPosted_mono more callSound.1) second,
          ⟨id'.trans id, by rw [Option.getD_some, minted', minted]; exact List.Subset.refl _⟩,
          trivial⟩
  · exact (kept_returned sound).kept

theorem kept_insertEpoch (sound : s.Sound) {row : EpochRow} (made : row ∈ s.minted)
    {s' : Space} (inserted : s.insertEpoch row = some s') : s'.Sound ∧ Extends s s' := by
  obtain ⟨id, minted, _⟩ := insertEpoch_spec inserted
  exact ⟨sound_insertEpoch sound made inserted, id, by rw [minted]; exact List.Subset.refl _⟩

theorem kept_next (sound : s.Sound) (callSound : s.CallSound call) :
    Kept s (s.next env turn call) := by
  cases call with
  | begin request => exact (kept_begin env sound request).kept
  | checking post encrypted => exact (kept_checking env sound post encrypted).kept
  | ensuring post => exact (kept_ensuring env sound post).kept
  | indexing => exact (kept_indexing env sound callSound).kept
  | sending => exact kept_sending env sound callSound
  | enabling epoch =>
    cases epoch with
    | none =>
      exact ⟨sound.update rfl rfl rfl sound.known sound.rows, ⟨rfl, List.Subset.refl _⟩, trivial⟩
    | some row =>
      simp only [next]
      split
      · rename_i inserted
        obtain ⟨sound', more⟩ := kept_insertEpoch sound (callSound row rfl) inserted
        exact ⟨sound'.update rfl rfl rfl sound'.known sound'.rows, ⟨more.id, more.minted⟩, trivial⟩
      · exact (kept_returned sound).kept
  | minting => exact (kept_minting env sound).kept
  | rotating row =>
    simp only [next]
    cases inserted : s.insertEpoch row with
    | none => exact (kept_returned sound).kept
    | some =>
      obtain ⟨sound', more⟩ := kept_insertEpoch sound callSound inserted
      exact ⟨sound', more, trivial⟩
  | deleting id => exact ⟨sound_eraseMessage sound id, ⟨rfl, List.Subset.refl _⟩, trivial⟩
  | expiring ids => exact ⟨sound_deleteMessages sound ids, ⟨rfl, List.Subset.refl _⟩, trivial⟩
  | clearing => exact ⟨sound, Extends.refl s, trivial⟩
  | shredding ids epochIds =>
    exact ⟨sound_shredEpochs (sound_deleteMessages sound ids) epochIds,
      ⟨rfl, List.Subset.refl _⟩, trivial⟩
  | returned => exact (kept_returned sound).kept

end Steps

/-- The condition on a commit. A send goes through only with its epoch key still stored or stored
along with it; no deletion meets a sealed row; and a clear that shreds an epoch deletes every row
that is sealed under it. -/
def KeepsLive (turn : TurnInput) (s : Space) : ChatCall → Prop
  | .sending epoch row =>
    s.hasRoom env turn.capacity row = true → (s.commitSend epoch row).isSome = true →
      row.isEncrypted = true → epoch.isSome = true ∨ s.keyStored row = true
  | .deleting id => ∀ row ∈ s.messages.rows, row.id = id → row.isEncrypted = false
  | .shredding ids epochIds =>
    ∀ row ∈ s.messages.rows, row.id ∉ ids → row.isEncrypted = true →
      ∀ key ∈ row.message.epochKey?, key ∉ epochIds
  | _ => True

instance (turn : TurnInput) (s : Space) (call : ChatCall) :
    Decidable (KeepsLive env turn s call) := by
  unfold KeepsLive
  split <;> infer_instance

variable {s s' : Space} {turn : TurnInput} {call : ChatCall} {row : ChatRow} {e : EpochRow}

theorem live_mono (live : s.Live) (id : s'.id = s.id) (epochs : s.epochs.rows ⊆ s'.epochs.rows)
    (messages : s'.messages.rows ⊆ s.messages.rows) : s'.Live := by
  intro row member encrypted
  obtain ⟨e, stored, sealed⟩ := live row (messages member) encrypted
  rw [← id] at sealed
  exact ⟨e, epochs stored, sealed⟩

theorem keyStored_iff (sound : s.Sound) (made : e ∈ s.minted) (sealed : row.SealedBy s.id e) :
    s.keyStored row = true ↔ e ∈ s.epochs.rows := by
  rw [keyStored, epochKey_of_sealedBy sealed, Option.any_some, List.any_eq_true]
  constructor
  · rintro ⟨other, stored, same⟩
    have equal := eq_of_id_eq sound (sound.known other stored) made (of_decide_eq_true same)
    rwa [← equal]
  · intro stored
    exact ⟨e, stored, decide_eq_true rfl⟩

theorem live_insertEpoch (live : s.Live) (inserted : s.insertEpoch e = some s') : s'.Live := by
  obtain ⟨id, _, messages, epochs, _⟩ := insertEpoch_spec inserted
  refine live_mono live id ?_ (by rw [messages]; exact List.Subset.refl _)
  rw [epochs]
  exact List.subset_append_left _ _

theorem live_insertChat_iff (live : s.Live) (inserted : s.insertChat row = some s') :
    s'.Live ↔ (row.isEncrypted = true → ∃ e ∈ s.epochs.rows, row.SealedBy s.id e) := by
  obtain ⟨id, _, epochs, messages, _⟩ := insertChat_spec inserted
  rw [Live, epochs, messages, id]
  constructor
  · intro all
    exact all row (List.mem_append_right _ (List.mem_singleton_self row))
  · intro new other member
    rcases List.mem_append.mp member with old | last
    · exact live other old
    · rw [List.mem_singleton.mp last]
      exact new

theorem live_sending_iff (sound : s.Sound) (live : s.Live) {epoch : Option EpochRow}
    (callSound : s.CallSound (.sending epoch row)) :
    (s.next env turn (.sending epoch row)).1.Live ↔ KeepsLive env turn s (.sending epoch row) := by
  simp only [next, KeepsLive]
  by_cases fits : s.hasRoom env turn.capacity row = true
  · rw [if_pos fits]
    cases committed : s.commitSend epoch row with
    | none => exact ⟨fun _ _ none => absurd none Bool.false_ne_true, fun _ => live⟩
    | some =>
      rw [Option.getD_some]
      cases epoch with
      | none =>
        rw [live_insertChat_iff live committed]
        constructor
        · intro sealed _ _ encrypted
          obtain ⟨e, stored, sealed⟩ := sealed encrypted
          exact .inr ((keyStored_iff sound (sound.known e stored) sealed).mpr stored)
        · intro keeps encrypted
          rcases callSound.1 with ⟨plain, _⟩ | ⟨_, e, made, sealed⟩
          · rw [plain] at encrypted
            cases encrypted
          · rcases keeps fits rfl encrypted with none | stored
            · cases none
            · exact ⟨e, (keyStored_iff sound made sealed).mp stored, sealed⟩
      | some e =>
        obtain ⟨between, first, second⟩ := Option.bind_eq_some_iff.mp committed
        have after := (live_insertChat_iff (live_insertEpoch live first) second).mpr fun _ => by
          obtain ⟨id, _, _, epochs, _⟩ := insertEpoch_spec first
          rw [epochs, id]
          exact ⟨e, List.mem_append_right _ (List.mem_singleton_self e), (callSound.2 e rfl).2⟩
        exact ⟨fun _ _ _ _ => .inl rfl, fun _ => after⟩
  · rw [if_neg fits]
    exact ⟨fun _ room => absurd room fits, fun _ => live⟩

theorem live_deleting_iff (live : s.Live) (id : Nat) :
    (s.eraseMessage id).Live ↔ ∀ row ∈ s.messages.rows, row.id = id → row.isEncrypted = false := by
  constructor
  · intro after row member named
    cases encrypted : row.isEncrypted with
    | false => rfl
    | true =>
      have erased : row.erase ∈ (s.eraseMessage id).messages.rows :=
        mem_eraseMessage.mpr ⟨row, member, if_pos named⟩
      obtain ⟨e, _, sender, idx, nonce, ct, body, _⟩ := after row.erase erased encrypted
      cases body
  · intro plain row member encrypted
    obtain ⟨old, stored, rfl⟩ := mem_eraseMessage.mp member
    by_cases named : old.id = id
    · rw [if_pos named] at encrypted
      have open_ := plain old stored named
      rw [show old.erase.isEncrypted = old.isEncrypted from rfl, open_] at encrypted
      cases encrypted
    · rw [if_neg named] at encrypted ⊢
      exact live old stored encrypted

theorem live_shredding_iff (live : s.Live) (ids epochIds : List Nat) :
    ((s.deleteMessages ids).shredEpochs epochIds).Live ↔
      ∀ row ∈ s.messages.rows, row.id ∉ ids → row.isEncrypted = true →
        ∀ key ∈ row.message.epochKey?, key ∉ epochIds := by
  constructor
  · intro after row member left encrypted key sealed
    have kept : row ∈ ((s.deleteMessages ids).shredEpochs epochIds).messages.rows :=
      Table.mem_filter.mpr ⟨member, decide_eq_true left⟩
    obtain ⟨e, stored, sealedBy⟩ := after row kept encrypted
    have same : e.id = key := by
      have own := epochKey_of_sealedBy sealedBy
      rw [Option.mem_def, own] at sealed
      exact Option.some.inj sealed
    rw [← same]
    exact of_decide_eq_true (Table.mem_filter.mp stored).2
  · intro covers row member encrypted
    obtain ⟨stored, left⟩ := Table.mem_filter.mp member
    obtain ⟨e, before, sealed⟩ := live row stored encrypted
    have kept := covers row stored (of_decide_eq_true left) encrypted e.id
      (epochKey_of_sealedBy sealed)
    exact ⟨e, Table.mem_filter.mpr ⟨before, decide_eq_true kept⟩, sealed⟩

theorem live_enabling (live : s.Live) (epoch : Option EpochRow) :
    (s.next env turn (.enabling epoch)).1.Live := by
  cases epoch with
  | none => exact live
  | some row =>
    simp only [next]
    cases inserted : s.insertEpoch row with
    | none => exact live
    | some s' =>
      have after : s'.Live := live_insertEpoch live inserted
      exact after

theorem live_rotating (live : s.Live) (row : EpochRow) :
    (s.next env turn (.rotating row)).1.Live := by
  simp only [next]
  cases inserted : s.insertEpoch row with
  | none => exact live
  | some => exact live_insertEpoch live inserted

theorem live_next_iff (sound : s.Sound) (live : s.Live) (callSound : s.CallSound call) :
    (s.next env turn call).1.Live ↔ KeepsLive env turn s call := by
  cases call with
  | begin request => simpa [KeepsLive] using (live_of_quiet (kept_begin env sound request).quiet).mpr live
  | checking post encrypted =>
    simpa [KeepsLive] using (live_of_quiet (kept_checking env sound post encrypted).quiet).mpr live
  | ensuring post => simpa [KeepsLive] using (live_of_quiet (kept_ensuring env sound post).quiet).mpr live
  | indexing post row created =>
    simpa [KeepsLive] using (live_of_quiet (kept_indexing env sound callSound).quiet).mpr live
  | sending => exact live_sending_iff env sound live callSound
  | enabling epoch => simpa [KeepsLive] using live_enabling env live epoch
  | minting => simpa [KeepsLive] using (live_of_quiet (kept_minting env sound).quiet).mpr live
  | rotating row => simpa [KeepsLive] using live_rotating env live row
  | deleting id => exact live_deleting_iff live id
  | expiring ids =>
    have fewer : (s.deleteMessages ids).messages.rows ⊆ s.messages.rows := fun row stored =>
      (Table.mem_filter.mp stored).1
    have kept : (s.deleteMessages ids).Live := live_mono live rfl (List.Subset.refl _) fewer
    exact ⟨fun _ => trivial, fun _ => kept⟩
  | clearing => simpa [KeepsLive, next] using live
  | shredding ids epochIds => exact live_shredding_iff live ids epochIds
  | returned => simpa [KeepsLive, next] using live

end Space

namespace ChatSystem

variable (env : ChatEnvironment)

def Inv (s : ChatSystem) : Prop := s.shared.Sound ∧ ∀ call ∈ s.calls, s.shared.CallSound call

def KeepsLive (s : ChatSystem) (turn : Nat × TurnInput) : Prop :=
  ∀ call ∈ s.calls[turn.1]?, Space.KeepsLive env turn.2 s.shared call

theorem step_cases (s : ChatSystem) (turn : Nat × TurnInput) :
    (s.calls[turn.1]? = none ∧ step env s turn = s) ∨
      ∃ call, s.calls[turn.1]? = some call ∧
        step env s turn = ⟨(s.shared.next env turn.2 call).1,
          s.calls.set turn.1 (s.shared.next env turn.2 call).2⟩ := by
  cases here : s.calls[turn.1]? with
  | none => exact .inl ⟨rfl, advance_of_none noLocks (Space.next env) here⟩
  | some call =>
    exact .inr ⟨call, rfl, advance_of_free noLocks (Space.next env) here
      (blocked_of_lockFree s turn.1 _)⟩

theorem inv_start (id : UuidText) (keyring : Keyring) (activeKid : String)
    (requests : List ChatRequest) : (start (Space.create id keyring activeKid) requests).Inv := by
  constructor
  · constructor
    case left.distinct => exact List.nodup_nil
    all_goals
      intro row member
      cases member
  · intro call member
    obtain ⟨request, _, rfl⟩ := List.mem_map.mp member
    trivial

theorem inv_step {s : ChatSystem} (turn : Nat × TurnInput) (inv : s.Inv) :
    (step env s turn).Inv := by
  rcases step_cases env s turn with ⟨_, same⟩ | ⟨call, here, moved⟩
  · rw [same]
    exact inv
  · rw [moved]
    have kept : Space.Kept s.shared (s.shared.next env turn.2 call) :=
      Space.kept_next env inv.1 (inv.2 call (List.mem_of_getElem? here))
    refine ⟨kept.sound, ?_⟩
    intro other member
    rcases List.mem_or_eq_of_mem_set member with old | new
    · exact Space.callSound_mono kept.extends_ (inv.2 other old)
    · rw [new]
      exact kept.call

theorem readable_step_iff {s : ChatSystem} (turn : Nat × TurnInput) (inv : s.Inv)
    (readable : s.shared.Readable env) :
    (step env s turn).shared.Readable env ↔ s.KeepsLive env turn := by
  have live := (Space.readable_iff_live env inv.1).mp readable
  rw [Space.readable_iff_live env (inv_step env turn inv).1]
  rcases step_cases env s turn with ⟨absent, same⟩ | ⟨call, here, moved⟩
  · rw [same]
    constructor
    · intro _ call here
      rw [absent] at here
      cases here
    · intro _
      exact live
  · have exact_ : (s.shared.next env turn.2 call).1.Live ↔ Space.KeepsLive env turn.2 s.shared call :=
      Space.live_next_iff env inv.1 live (inv.2 call (List.mem_of_getElem? here))
    rw [moved, exact_]
    constructor
    · intro keeps other listed
      rw [here] at listed
      cases listed
      exact keeps
    · intro keeps
      exact keeps call here

/-- In every run the epoch rows have keys of their own and unwrap, and the chat rows were made
under them. -/
theorem epochs_unwrap (id : UuidText) (keyring : Keyring) (activeKid : String)
    (requests : List ChatRequest) (turns : List (Nat × TurnInput)) :
    (run (step env) (start (Space.create id keyring activeKid) requests) turns).shared.Sound := by
  have inv := run_of_keeps (I := Inv) (fun _ turn before => inv_step env turn before)
    (inv_start id keyring activeKid requests) turns
  exact inv.1

/-- The associated data is injective in space, epoch, sender and index and the info text of the
key in sender and index, for every device id; and over all interleavings of any number of
transactions on a space, every stored row opens to its posted text or to the deletion notice, and
none is under a key that is gone, exactly when every commit keeps the sealed rows under stored
epoch rows. -/
theorem history_readable_iff (id : UuidText) (keyring : Keyring) (activeKid : String)
    (requests : List ChatRequest) (turns : List (Nat × TurnInput)) :
    (∀ (space space' user user' : UuidText) (epoch epoch' : Nat) (device device' : Option String)
        (idx idx' : Nat),
      (messageAad space epoch (senderLabel user device) idx =
          messageAad space' epoch' (senderLabel user' device') idx' →
        space = space' ∧ epoch = epoch' ∧ senderLabel user device = senderLabel user' device' ∧
          idx = idx') ∧
      (keyInfo (senderLabel user device) idx = keyInfo (senderLabel user' device') idx' →
        senderLabel user device = senderLabel user' device' ∧ idx = idx')) ∧
    ((∀ s ∈ trace (step env) (start (Space.create id keyring activeKid) requests) turns,
        s.shared.Readable env) ↔
      Guarded (KeepsLive env) (step env) (start (Space.create id keyring activeKid) requests) turns) := by
  constructor
  · intro space space' user user' epoch epoch' device device' idx idx'
    exact ⟨messageAad_injective, keyInfo_injective⟩
  · have empty : (Space.create id keyring activeKid).Readable env :=
      (Space.readable_iff_live env (inv_start id keyring activeKid requests).1).mpr
        (fun row member => absurd member List.not_mem_nil)
    exact forall_trace_iff_guarded (I := Inv) (fun s turn inv => inv_step env turn inv)
      (fun s turn inv readable => readable_step_iff env turn inv readable)
      (inv_start id keyring activeKid requests) empty

/-- An environment whose JSON text of an envelope is as long as the text inside. -/
def bareEnvironment : ChatEnvironment where
  plaintextHash := id
  dumps e := String.ofList (List.replicate e.ct.content.utf8ByteSize '*')
  dumps_size e content same := by
    show (String.ofList (List.replicate content.utf8ByteSize '*')).utf8ByteSize = _ ∧
      (String.ofList (List.replicate content.utf8ByteSize '*')).length = _
    rw [same]
    exact ⟨rfl, rfl⟩

def space : UuidText := ⟨"5e1f", UuidText.hyphenated_of_all (by decide)⟩

def member : UuidText := ⟨"a1", UuidText.hyphenated_of_all (by decide)⟩

def hello : ChatPost := ⟨member, "hello", some "c1", false, none, none, none⟩

def keys : Keyring := [("k1", List.replicate 32 7)]

/-- A turn of transaction `i`, which draws the row id and the nonces from `n`. -/
def turnOf (i n : Nat) : Nat × TurnInput := (i, ⟨0, n, n, n, 1000⟩)

def statesOf (requests : List ChatRequest) (turns : List (Nat × TurnInput)) : List ChatSystem :=
  trace (step bareEnvironment) (start (Space.create space keys "k1") requests) turns

def fails (s : ChatSystem) : Bool :=
  match s.shared.openPage bareEnvironment s.shared.messages.rows with
  | .ok _ => false
  | .error _ => true

theorem not_readable_of_fails {s : ChatSystem} (failed : s.fails = true) :
    ¬ s.shared.Readable bareEnvironment := by
  intro readable
  obtain ⟨texts, opened⟩ := readable.pages s.shared.messages.rows (List.Subset.refl _)
  rw [fails, opened] at failed
  cases failed

def sealedDeletion : List ChatSystem :=
  statesOf [.enable, .send hello, .delete 7]
    [turnOf 0 1, turnOf 0 1, turnOf 1 2, turnOf 1 2, turnOf 1 2, turnOf 1 7, turnOf 1 2,
      turnOf 2 3, turnOf 2 3]

def overtakenSend : List ChatSystem :=
  statesOf [.enable, .clear, .send hello]
    [turnOf 0 1, turnOf 0 1, turnOf 1 2, turnOf 1 2, turnOf 2 3, turnOf 2 3, turnOf 2 3, turnOf 2 3,
      turnOf 2 3, turnOf 1 2]

/-- The notice over a sealed message cannot be read as one, and no more can a message whose epoch
was shredded while it was sent. -/
theorem sealed_history_unreadable :
    (¬ ∀ s ∈ sealedDeletion, s.shared.Readable bareEnvironment) ∧
      ¬ ∀ s ∈ overtakenSend, s.shared.Readable bareEnvironment := by
  have deleted : ∃ s ∈ sealedDeletion, s.fails = true := by decide +kernel
  have overtaken : ∃ s ∈ overtakenSend, s.fails = true := by decide +kernel
  constructor
  · intro readable
    obtain ⟨s, reached, failed⟩ := deleted
    exact not_readable_of_fails failed (readable s reached)
  · intro readable
    obtain ⟨s, reached, failed⟩ := overtaken
    exact not_readable_of_fails failed (readable s reached)

end ChatSystem

end AverQel.SealedChat
