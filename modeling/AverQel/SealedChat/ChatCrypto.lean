/- digest: Key derivation, associated data, sealing and opening of one chat message. -/
import AverQel.Foundation.Sealing

namespace AverQel.SealedChat

open Foundation

structure UuidText where
  text : String
  hyphenated : ∀ c ∈ text.toList, c = '-' ∨ c.isAlphanum = true
  deriving DecidableEq

theorem UuidText.hyphenated_of_all {text : String}
    (all : text.toList.all (fun c => c == '-' || c.isAlphanum) = true) :
    ∀ c ∈ text.toList, c = '-' ∨ c.isAlphanum = true := by
  intro c member
  have holds := List.all_eq_true.mp all c member
  rwa [Bool.or_eq_true, beq_iff_eq] at holds

instance : ToString UuidText := ⟨UuidText.text⟩

/-- The failures of sealed chat; a crypto error is no encryption error, and the endpoints catch
the latter only. -/
inductive ChatError where
  | notConfigured
  | encryption (message : String)
  | crypto (message : String)
  deriving DecidableEq, Repr

abbrev EpochKey := Nat

structure MessageKey where
  epochKey : EpochKey
  info : String
  deriving DecidableEq, Repr

/-- `sender_label` -/
def senderLabel (userId : UuidText) (deviceId : Option String) : String :=
  userId.text ++ ":" ++
    (match deviceId with
      | none => "default"
      | some device => if device = "" then "default" else device)

def keyInfo (sender : String) (idx : Nat) : String :=
  "averqel-chat-v1|msg|" ++ sender ++ "|" ++ toString idx

/-- `derive_message_key` -/
def deriveMessageKey (epochKey : EpochKey) (sender : String) (idx : Nat) :
    Except ChatError MessageKey :=
  if sender = "" ∨ 256 < sender.length then
    .error (.crypto "chat sender must be a non-empty string")
  else .ok ⟨epochKey, keyInfo sender idx⟩

/-- `_aad` -/
def messageAad (collectionId : UuidText) (epoch : Nat) (sender : String) (idx : Nat) : String :=
  "averqel-chat-v1|" ++ collectionId.text ++ "|" ++ toString epoch ++ "|" ++ sender ++ "|" ++
    toString idx

/-- `epoch_aad` -/
def epochAad (collectionId : UuidText) (epoch : Nat) : String :=
  "averqel-chat-v1|epoch-key|" ++ collectionId.text ++ "|" ++ toString epoch

def maxPlaintextBytes : Nat := 4096

/-- `seal_message`; the nonce is drawn by the caller. -/
def sealMessage (epochKey : EpochKey) (collectionId : UuidText) (epoch : Nat) (sender : String)
    (idx nonce : Nat) (plaintext : String) : Except ChatError (Sealed MessageKey String) :=
  if plaintext.utf8ByteSize = 0 ∨ maxPlaintextBytes < plaintext.utf8ByteSize then
    .error (.crypto "chat plaintext must be 1..4096 bytes")
  else
    match deriveMessageKey epochKey sender idx with
    | .error error => .error error
    | .ok key => .ok ⟨key, nonce, messageAad collectionId epoch sender idx, plaintext⟩

/-- `open_message` -/
def openMessage (epochKey : EpochKey) (collectionId : UuidText) (epoch : Nat) (sender : String)
    (idx nonce : Nat) (sealed : Sealed MessageKey String) : Except ChatError String :=
  match deriveMessageKey epochKey sender idx with
  | .error error => .error error
  | .ok key =>
    match sealed.open? key nonce (messageAad collectionId epoch sender idx) with
    | some plaintext => .ok plaintext
    | none => .error (.crypto "chat message failed authentication")

variable {epochKey other : EpochKey} {collectionId : UuidText} {epoch idx nonce : Nat}
  {sender plaintext : String} {sealed : Sealed MessageKey String}

theorem openMessage_sealMessage
    (made : sealMessage epochKey collectionId epoch sender idx nonce plaintext = .ok sealed) :
    openMessage epochKey collectionId epoch sender idx nonce sealed = .ok plaintext := by
  unfold sealMessage at made
  split at made
  · cases made
  · cases derived : deriveMessageKey epochKey sender idx with
    | error => simp only [derived] at made; cases made
    | ok =>
      simp only [derived] at made
      cases made
      simp only [openMessage, derived, Sealed.open?_self]

theorem epochKey_of_sealMessage
    (made : sealMessage epochKey collectionId epoch sender idx nonce plaintext = .ok sealed) :
    sealed.key.epochKey = epochKey := by
  unfold sealMessage deriveMessageKey at made
  split at made
  · cases made
  · split at made
    · cases made
    · rename_i key derived
      cases made
      split at derived
      · cases derived
      · cases derived
        rfl

theorem epochKey_of_openMessage {text : String}
    (made : sealMessage epochKey collectionId epoch sender idx nonce plaintext = .ok sealed)
    (opened : openMessage other collectionId epoch sender idx nonce sealed = .ok text) :
    other = epochKey := by
  unfold openMessage deriveMessageKey at opened
  split at opened
  · cases opened
  · rename_i key derived
    split at derived
    · cases derived
    · cases derived
      split at opened
      · rename_i content found
        have same := congrArg MessageKey.epochKey (Sealed.key_of_open? found)
        exact same.symm.trans (epochKey_of_sealMessage made)
      · cases opened

theorem bar_not_mem_uuid (id : UuidText) : '|' ∉ id.text.toList := by
  intro member
  rcases id.hyphenated '|' member with same | alphanumeric
  · revert same
    decide
  · revert alphanumeric
    decide

theorem bar_not_mem_nat (n : Nat) : '|' ∉ (toString n).toList := by
  intro member
  rw [Nat.toString_eq_repr, Nat.toList_repr] at member
  have digit := Nat.isDigit_of_mem_toDigits (by decide) (by decide) member
  revert digit
  decide

theorem toString_nat_injective {m n : Nat} (same : (toString m).toList = (toString n).toList) :
    m = n := by
  rw [Nat.toString_eq_repr, Nat.toString_eq_repr, Nat.toList_repr, Nat.toList_repr] at same
  have values := congrArg (fun digits => Nat.ofDigitChars 10 digits 0) same
  simpa only [Nat.ofDigitChars_ten_toDigits] using values

theorem toList_bar (front field : String) :
    (front ++ "|" ++ field).toList = front.toList ++ '|' :: field.toList := by
  have bar : "|".toList = ['|'] := by decide
  rw [String.toList_append, String.toList_append, bar, List.append_assoc, List.singleton_append]

theorem bar_injective_last {front front' field field' : String} (clean : '|' ∉ field.toList)
    (clean' : '|' ∉ field'.toList) (same : front ++ "|" ++ field = front' ++ "|" ++ field') :
    front = front' ∧ field.toList = field'.toList := by
  have texts := congrArg String.toList same
  rw [toList_bar, toList_bar] at texts
  obtain ⟨fronts, fields⟩ := Fields.last_injective clean clean' texts
  exact ⟨String.toList_injective fronts, fields⟩

theorem bar_injective_first {field field' rest rest' : String} (clean : '|' ∉ field.toList)
    (clean' : '|' ∉ field'.toList) (same : field ++ "|" ++ rest = field' ++ "|" ++ rest') :
    field.toList = field'.toList ∧ rest = rest' := by
  have texts := congrArg String.toList same
  rw [toList_bar, toList_bar] at texts
  obtain ⟨fields, rests⟩ := Fields.first_injective clean clean' texts
  exact ⟨fields, String.toList_injective rests⟩

theorem append_injective {start text text' : String} (same : start ++ text = start ++ text') :
    text = text' := by
  have texts := congrArg String.toList same
  rw [String.toList_append, String.toList_append] at texts
  exact String.toList_injective (List.append_cancel_left texts)

theorem keyInfo_injective {sender sender' : String} {idx idx' : Nat}
    (same : keyInfo sender idx = keyInfo sender' idx') : sender = sender' ∧ idx = idx' := by
  obtain ⟨fronts, indices⟩ :=
    bar_injective_last (bar_not_mem_nat idx) (bar_not_mem_nat idx') same
  exact ⟨append_injective fronts, toString_nat_injective indices⟩

theorem messageAad_injective {collectionId collectionId' : UuidText} {epoch epoch' : Nat}
    {sender sender' : String} {idx idx' : Nat}
    (same : messageAad collectionId epoch sender idx =
      messageAad collectionId' epoch' sender' idx') :
    collectionId = collectionId' ∧ epoch = epoch' ∧ sender = sender' ∧ idx = idx' := by
  obtain ⟨fronts, indices⟩ :=
    bar_injective_last (bar_not_mem_nat idx) (bar_not_mem_nat idx') same
  have space : collectionId.text ++ "|" ++ (toString epoch ++ "|" ++ sender) =
      collectionId'.text ++ "|" ++ (toString epoch' ++ "|" ++ sender') := by
    simp only [String.append_assoc] at fronts ⊢
    exact append_injective fronts
  obtain ⟨spaces, rests⟩ :=
    bar_injective_first (bar_not_mem_uuid collectionId) (bar_not_mem_uuid collectionId') space
  obtain ⟨epochs, senders⟩ :=
    bar_injective_first (bar_not_mem_nat epoch) (bar_not_mem_nat epoch') rests
  have ids : collectionId = collectionId' := by
    cases collectionId
    cases collectionId'
    simpa using String.toList_injective spaces
  exact ⟨ids, toString_nat_injective epochs, senders, toString_nat_injective indices⟩

end AverQel.SealedChat
