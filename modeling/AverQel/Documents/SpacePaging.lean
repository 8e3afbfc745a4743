/- digest: The chat history and the documents of a space, read page by page. -/
import AverQel.Documents.Collections

namespace AverQel.Documents

open Foundation
open Foundation.Paging (Page Listing Reads Complete)

section Chat

variable {Bytes : Type} (s : Spaces Bytes)

def CollectionChatMessage.moment (m : CollectionChatMessage) : Time ×ₗ Uuid :=
  toLex (m.createdAt, m.id)

def newestFirst (a b : CollectionChatMessage) : Prop := b.moment ≤ a.moment

def chatListing : Listing CollectionChatMessage.createdAt newestFirst where
  arrange _ := descending CollectionChatMessage.moment
  perm _ := List.perm_insertionSort _
  ordered _ := List.pairwise_insertionSort fun (a b : CollectionChatMessage) =>
    b.moment ≤ a.moment
  latestFirst _ _ first := (Prod.Lex.toLex_le_toLex.mp first).elim le_of_lt fun same => le_of_eq same.1
  precedes_of_lt _ _ before := Prod.Lex.toLex_le_toLex.mpr (.inl before)

def askChats (userId collectionId : Uuid) (limit : Nat) (clock : Nat → Time) (n : Nat)
    (s : Spaces Bytes) (before : Option Time) :
    Option (Spaces Bytes × Page CollectionChatMessage Time) :=
  (s.getCollectionChats userId collectionId limit before (clock n)).toOption

def chatHistory (collectionId : Uuid) : List CollectionChatMessage :=
  (descending CollectionChatMessage.moment (s.messagesOf collectionId)).reverse

def Unexpired (collectionId : Uuid) (now : Time) : Prop :=
  ∀ collection ∈ s.collections.find? collectionId, 0 < collection.expiryDays →
    ∀ m ∈ s.messagesOf collectionId, now - collection.expiryDays * 86400000000 ≤ m.createdAt

variable {s} {collectionId : Uuid}

theorem chatPage_eq {limit : Nat} (positive : 0 < limit) (capped : limit ≤ 200) (n : Nat)
    (before : Option Time) :
    s.chatPage collectionId limit before =
      ⟨(chatListing.request 200 limit (s.messagesOf collectionId) n before).rows.reverse,
        (chatListing.request 200 limit (s.messagesOf collectionId) n before).next⟩ := by
  have size : max 1 (min limit 200) = limit := by omega
  have reach : max 1 (min (limit + 1) 200) = min (limit + 1) 200 := by omega
  have listed : s.listChatMessages collectionId (limit + 1) before =
      ((chatListing.arrange n (Paging.earlier CollectionChatMessage.createdAt before
        (s.messagesOf collectionId))).take (min (limit + 1) 200)).reverse := by
    unfold Spaces.listChatMessages
    rw [reach]
    rfl
  unfold Spaces.chatPage Listing.request Paging.page
  simp only [size, listed, List.length_reverse]
  split
  · simp only [List.tail_reverse, List.head?_reverse]
  · rfl

theorem sweepExpired_of_unexpired {collection : DocumentCollection} {now : Time}
    (found : s.collections.find? collectionId = some collection)
    (unexpired : Unexpired s collectionId now) : s.sweepExpired collection now = s := by
  obtain ⟨_, rfl⟩ := Table.find?_eq_some_iff.mp found
  unfold Spaces.sweepExpired
  by_cases never : collection.expiryDays ≤ 0
  · rw [if_pos never]
  · have fresh := unexpired collection found (by omega)
    have none_expired : (s.messagesOf collection.id).filter (fun m =>
        m.createdAt < now - collection.expiryDays * 86400000000) = [] := by
      refine List.filter_eq_nil_iff.mpr fun m member => ?_
      simpa using fresh m member
    have kept : s.messages.filter (fun m => ¬ (m.collectionId = collection.id ∧
        m.createdAt < now - collection.expiryDays * 86400000000)) = s.messages := by
      apply Table.ext
      refine List.filter_eq_self.mpr fun m member => ?_
      have inside : m.collectionId = collection.id → now - collection.expiryDays * 86400000000 ≤
          m.createdAt := fun same => fresh m (List.mem_filter.mpr ⟨member, by simpa using same⟩)
      simpa [← imp_iff_not_or] using inside
    simp only [if_neg never, none_expired, Spaces.queueMessages, kept]

theorem askChats_eq {userId : Uuid} {role : AccessRole} {limit : Nat} {clock : Nat → Time}
    (member : s.roleOf collectionId userId = some role)
    (unexpired : ∀ n, Unexpired s collectionId (clock n)) (n : Nat) (before : Option Time) :
    askChats userId collectionId limit clock n s before =
      some (s, s.chatPage collectionId limit before) := by
  have allowed : s.enforceAccess collectionId userId = .ok role := by
    rw [Spaces.enforceAccess, member]
  unfold askChats Spaces.getCollectionChats
  rw [allowed]
  cases found : s.collections.find? collectionId with
  | none => rfl
  | some =>
    simp only [sweepExpired_of_unexpired found (unexpired n)]
    rfl

theorem reverse_eq_chatHistory_iff {ms : List CollectionChatMessage}
    (ordered : ms.Pairwise newestFirst) :
    ms.reverse = chatHistory s collectionId ↔ ms.Perm (s.messagesOf collectionId) := by
  have sorted : (descending CollectionChatMessage.moment (s.messagesOf collectionId)).Perm
      (s.messagesOf collectionId) := List.perm_insertionSort _ _
  unfold chatHistory
  rw [List.reverse_inj]
  constructor
  · rintro rfl
    exact sorted
  · intro perm
    refine (perm.trans sorted.symm).eq_of_pairwise ?_ ordered
      (chatListing.ordered 0 (s.messagesOf collectionId))
    intro a b memberA memberB below above
    have same : a.moment = b.moment := le_antisymm above below
    have keys : a.id = b.id := congrArg (fun moment => (ofLex moment).2) same
    have stored {m : CollectionChatMessage} (member : m ∈ s.messagesOf collectionId) :
        m ∈ s.messages.rows := (List.mem_filter.mp member).1
    exact s.messages.eq_of_key_eq (stored (perm.mem_iff.mp memberA))
      (stored (sorted.mem_iff.mp memberB)) keys

end Chat

/-- The columns of a document that a listing of a space reads. -/
structure ListedDocument where
  id : Uuid
  createdAt : Time
  isDeleted : Bool
  deriving DecidableEq

structure CollectionDocument where
  (collectionId documentId : Uuid)

def CollectionDocument.pair (link : CollectionDocument) : Uuid × Uuid :=
  (link.collectionId, link.documentId)

structure DocumentShelf where
  documents : Table ListedDocument ListedDocument.id
  links : Table CollectionDocument CollectionDocument.pair

/-- `ORDER BY created_at DESC`: what the database does with equal times is its own. -/
def latestDocumentFirst (a b : ListedDocument) : Prop := b.createdAt ≤ a.createdAt

abbrev DocumentOrder := Listing ListedDocument.createdAt latestDocumentFirst

variable {Bytes : Type} (s : Spaces Bytes) (shelf : DocumentShelf) (order : DocumentOrder)
variable (collectionId userId : Uuid) (limit : Nat)

/-- The documents that the joins of `list_documents_for_user` select. -/
def documentsForUser : List ListedDocument :=
  shelf.documents.rows.filter fun document =>
    (shelf.links.find? (collectionId, document.id)).isSome &&
      (s.roleOf collectionId userId).any isConnectedRole && !document.isDeleted

/-- `list_documents_for_user`, for the request `n`. -/
def listDocumentsForUser (n : Nat) (before : Option Time) : List ListedDocument :=
  let rows := (documentsForUser s shelf collectionId userId).filter fun document =>
    before.all fun time => document.createdAt < time
  (order.arrange n rows).take (max 1 (min limit 200))

/-- `list_collection_documents`; the cursor is `X-Collection-Next-Cursor`, and
`X-Collection-Has-More` says whether there is one. -/
def listCollectionDocuments (n : Nat) (before : Option Time) :
    Except ApiError (Page ListedDocument Time) := do
  let (_, role) ← s.accessAs collectionId userId
  ensure (role ≠ .pending)
    (forbidden "Approve the Qel Connect connection before using shared documents.")
  let documents := listDocumentsForUser s shelf order collectionId userId (limit + 1) n before
  return if limit < documents.length then
      ⟨documents.dropLast, documents.dropLast.getLast?.map ListedDocument.createdAt⟩
    else ⟨documents, none⟩

def askDocuments (n : Nat) (s : Spaces Bytes) (before : Option Time) :
    Option (Spaces Bytes × Page ListedDocument Time) :=
  (listCollectionDocuments s shelf order collectionId userId limit n before).toOption.map
    fun page => (s, page)

variable {s shelf order collectionId userId limit}

theorem askDocuments_eq {collection : DocumentCollection} {role : AccessRole}
    (found : s.collections.find? collectionId = some collection)
    (member : s.roleOf collectionId userId = some role) (connected : isConnectedRole role = true)
    (positive : 0 < limit) (capped : limit ≤ 200) (n : Nat) (before : Option Time) :
    askDocuments shelf order collectionId userId limit n s before =
      some (s, order.request 200 limit (documentsForUser s shelf collectionId userId) n before) := by
  have reach : max 1 (min (limit + 1) 200) = min (limit + 1) 200 := by omega
  have access : s.accessAs collectionId userId = .ok (collection, normalizeMemberRole role) := by
    simp only [Spaces.accessAs, Spaces.requireCollection, Spaces.enforceAccess, found, member]
    rfl
  have approved : normalizeMemberRole role ≠ .pending := of_decide_eq_true connected
  have listed : listDocumentsForUser s shelf order collectionId userId (limit + 1) n before =
      (order.arrange n (Paging.earlier ListedDocument.createdAt before
        (documentsForUser s shelf collectionId userId))).take (min (limit + 1) 200) := by
    unfold listDocumentsForUser
    rw [reach]
    rfl
  unfold askDocuments listCollectionDocuments Listing.request Paging.page
  rw [access, ← listed]
  simp only [bind, Except.bind, ensure]
  rw [if_pos approved]
  rfl

variable (shelf order limit) in
/-- Reading a space page by page. With every page size that the endpoints accept and with any
times, a member who follows the cursors comes to an end, and has read the whole history (and a
connected member every document, latest first) exactly when the pages are smaller than the largest
one and no two rows around a page boundary have the same time, or when one page holds all rows. -/
theorem reads_complete_iff {role : AccessRole} {clock : Nat → Time}
    (member : s.roleOf collectionId userId = some role)
    (unexpired : ∀ n, Unexpired s collectionId (clock n)) (positive : 0 < limit)
    (capped : limit ≤ 200) :
    (∃ pages, Reads (askChats userId collectionId limit clock) 0 s none pages ∧
      (pages.reverse.flatten = chatHistory s collectionId ↔
        Complete CollectionChatMessage.createdAt 200 limit (s.messagesOf collectionId))) ∧
    ((s.collections.find? collectionId).isSome → isConnectedRole role = true →
      ∃ pages, Reads (askDocuments shelf order collectionId userId limit) 0 s none pages ∧
        (pages.flatten.Pairwise latestDocumentFirst ∧
            pages.flatten.Perm (documentsForUser s shelf collectionId userId) ↔
          Complete ListedDocument.createdAt 200 limit
            (documentsForUser s shelf collectionId userId))) := by
  constructor
  · obtain ⟨pages, walk, ordered, complete⟩ :=
      Paging.walk_complete_iff chatListing (s.messagesOf collectionId) positive capped
    refine ⟨pages.map List.reverse, walk.reads ?_, ?_⟩
    · intro n cursor
      rw [askChats_eq member unexpired, chatPage_eq positive capped n]
    · rw [← complete, ← reverse_eq_chatHistory_iff ordered, List.reverse_flatten]
  · intro stored connected
    obtain ⟨collection, found⟩ := Option.isSome_iff_exists.mp stored
    obtain ⟨pages, walk, ordered, complete⟩ := Paging.walk_complete_iff order
      (documentsForUser s shelf collectionId userId) positive capped
    have reads : Reads (askDocuments shelf order collectionId userId limit) 0 s none
        (pages.map id) :=
      walk.reads fun n cursor => askDocuments_eq found member connected positive capped n cursor
    rw [List.map_id] at reads
    exact ⟨pages, reads, (and_iff_right ordered).trans complete⟩

def note (id : Uuid) (createdAt : Time) : CollectionChatMessage :=
  ⟨id, 7, 1, "hi", none, false, none, none, none, [], createdAt⟩

/-- Space 7 with two messages of one moment. -/
def twoNotes : Spaces Unit where
  users := []
  collections := .single ⟨7, 1, "", 0, 0⟩
  permissions := .single ⟨7, 1, .owner⟩
  messages := ⟨[note 10 5, note 11 5], by decide⟩
  media := .empty
  jobs := []
  devices := []
  blocks := []
  objects := fun _ => none
  sockets := []
  stream := []
  channel := []

def twoFiles : DocumentShelf where
  documents := ⟨[⟨20, 5, false⟩, ⟨21, 5, false⟩], by decide⟩
  links := ⟨[⟨7, 20⟩, ⟨7, 21⟩], by decide⟩

def byTime : DocumentOrder where
  arrange _ := descending ListedDocument.createdAt
  perm _ := List.perm_insertionSort _
  ordered _ := List.pairwise_insertionSort fun (a b : ListedDocument) => b.createdAt ≤ a.createdAt
  latestFirst _ _ first := first
  precedes_of_lt _ _ before := le_of_lt before

/-- With pages of one row, the second of two rows of one moment is never read. -/
theorem not_reads_complete :
    (∃ pages, Reads (askChats 1 7 1 fun _ => 9) 0 twoNotes none pages ∧
      pages.reverse.flatten ≠ chatHistory twoNotes 7) ∧
    ∃ pages, Reads (askDocuments twoFiles byTime 7 1 1) 0 twoNotes none pages ∧
      ¬ pages.flatten.Perm (documentsForUser twoNotes twoFiles 7 1) := by
  have chats : askChats 1 7 1 (fun _ => 9) 0 twoNotes none =
      some (twoNotes, ⟨[note 11 5], some 5⟩) := rfl
  have noChats : askChats 1 7 1 (fun _ => 9) 1 twoNotes (some 5) = some (twoNotes, ⟨[], none⟩) :=
    rfl
  have files : askDocuments twoFiles byTime 7 1 1 0 twoNotes none =
      some (twoNotes, ⟨[⟨20, 5, false⟩], some 5⟩) := rfl
  have noFiles : askDocuments twoFiles byTime 7 1 1 1 twoNotes (some 5) =
      some (twoNotes, ⟨[], none⟩) := rfl
  refine ⟨⟨_, .more chats (.last noChats), ?_⟩, ⟨_, .more files (.last noFiles), ?_⟩⟩
  · intro same
    have lengths := congrArg List.length same
    revert lengths
    decide +kernel
  · intro perm
    have lengths := perm.length_eq
    revert lengths
    decide +kernel

theorem reads_complete_iff_twoNotes :
    twoNotes.roleOf 7 1 = some .owner ∧
      (∃ pages, Reads (askChats 1 7 2 fun _ => 9) 0 twoNotes none pages ∧
        (pages.reverse.flatten = chatHistory twoNotes 7 ↔
          Complete CollectionChatMessage.createdAt 200 2 (twoNotes.messagesOf 7))) ∧
      ∃ pages, Reads (askDocuments twoFiles byTime 7 1 2) 0 twoNotes none pages ∧
        (pages.flatten.Pairwise latestDocumentFirst ∧
            pages.flatten.Perm (documentsForUser twoNotes twoFiles 7 1) ↔
          Complete ListedDocument.createdAt 200 2 (documentsForUser twoNotes twoFiles 7 1)) := by
  have unexpired : ∀ n, Unexpired twoNotes 7 ((fun _ => 9 : Nat → Time) n) := by
    intro n collection found expires
    obtain ⟨stored, _⟩ := Table.find?_eq_some_iff.mp found
    rw [List.mem_singleton.mp stored] at expires
    exact absurd expires (by decide)
  have member : twoNotes.roleOf 7 1 = some .owner := rfl
  have reads := reads_complete_iff twoFiles byTime 2 member unexpired (by decide) (by decide)
  exact ⟨member, reads.1, reads.2 rfl rfl⟩

end AverQel.Documents
