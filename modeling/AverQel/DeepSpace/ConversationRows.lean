/- digest: Conversations of the chat repository: pages of their messages, and their deletion. -/
import AverQel.DeepSpace.TurnRequests
import AverQel.Foundation.Paging

namespace AverQel.DeepSpace.Chat

open AverQel.Foundation
open AverQel.Foundation.Paging (Page Reads earlier)

/-- A conversation, and also what a repository call names of one. -/
structure ConversationRow where
  (id tenantId userId : Uuid)
  kind : String
  deriving DecidableEq

section Pages

/-- The query of `get_message_page` on the messages of the conversation, with `has_more`. -/
def messagePage (base : List Message) (limit : Nat) (before : Option Uuid) :
    Option (List Message × Bool) := do
  let cursor ← match before with
    | none => some none
    | some id => (base.find? fun m => m.id = id).map fun m => some m.position
  let rows := (descending Message.position (earlier Message.position cursor base)).take (limit + 1)
  return ((rows.take limit).reverse, limit < rows.length)

def messagesOf (messages : MessageTable) (conversationId : Uuid) : List Message :=
  (messages.rows.filter fun row => row.conversationId = conversationId).map MessageRow.message

def getMessagePage (conversations : List ConversationRow) (messages : MessageTable)
    (named : ConversationRow) (limit : Nat) (before : Option Uuid) :
    Option (List Message × Bool) :=
  if named ∉ conversations then none else messagePage (messagesOf messages named.id) limit before

/-- What a reader makes of an answer: `before_message_id` of the next request. -/
def asked (answer : Option (List Message × Bool)) : Option (Unit × Page Message Uuid) :=
  answer.map fun (rows, hasMore) => ((), ⟨rows, if hasMore then rows.head?.map Message.id else none⟩)

variable {base : List Message} {limit : Nat} {before : Option Uuid}
  {bound : Option (Time ×ₗ Uuid)}

/-- The position that a cursor stands for. -/
def Stands (base : List Message) (before : Option Uuid) (bound : Option (Time ×ₗ Uuid)) : Prop :=
  (before = none ∧ bound = none) ∨ ∃ m ∈ base, before = some m.id ∧ bound = some m.position

theorem id_eq_of_position_eq {a b : Message} (same : a.position = b.position) : a.id = b.id :=
  congrArg (fun position => (ofLex position).2) same

theorem strict_descending (distinct : (base.map Message.id).Nodup) :
    (descending Message.position base).Pairwise fun a b => b.position < a.position := by
  have sorted := pairwise_descending Message.position base
  have apart := (perm_descending Message.position base).nodup_iff.mpr distinct.of_map
  refine (List.Pairwise.and_mem.mp (sorted.and apart)).imp ?_
  rintro a b ⟨ha, hb, below, different⟩
  refine lt_of_le_of_ne below fun same => different ?_
  exact List.inj_on_of_nodup_map distinct (mem_descending.mp ha) (mem_descending.mp hb)
    (id_eq_of_position_eq same.symm)

theorem messagePage_eq (distinct : (base.map Message.id).Nodup) (stands : Stands base before bound) :
    messagePage base limit before =
      some (((descending Message.position (earlier Message.position bound base)).take limit).reverse,
        decide (limit < (earlier Message.position bound base).length)) := by
  have cut (rows : List Message) : (rows.take (limit + 1)).take limit = rows.take limit := by
    rw [List.take_take, Nat.min_eq_left (Nat.le_succ limit)]
  have size (rows : List Message) : limit < (rows.take (limit + 1)).length ↔ limit < rows.length := by
    rw [List.length_take]
    omega
  have length (rows : List Message) := (perm_descending Message.position rows).length_eq
  unfold messagePage
  rcases stands with ⟨rfl, rfl⟩ | ⟨m, member, rfl, rfl⟩
  · simp only [bind, Option.bind, pure, cut, size, length]
  · have found : base.find? (fun other => other.id = m.id) = some m := by
      cases first : base.find? fun other => other.id = m.id with
      | none => exact absurd (List.find?_eq_none.mp first m member) (by simp)
      | some other =>
        have same : other.id = m.id := by simpa using List.find?_some first
        rw [List.inj_on_of_nodup_map distinct (List.mem_of_find?_eq_some first) member same]
    simp only [found, bind, Option.bind, Option.map, pure, cut, size, length]

/-- What one answer lists, and which of the earlier messages it leaves to the next request. -/
theorem asked_messagePage (distinct : (base.map Message.id).Nodup) (positive : 0 < limit)
    (stands : Stands base before bound) :
    ∃ rows following, asked (messagePage base limit before) = some ((), ⟨rows, following⟩) ∧
      rows.Pairwise (fun a b => a.position < b.position) ∧
      rows ⊆ earlier Message.position bound base ∧
      (following = none → earlier Message.position bound base ⊆ rows) ∧
      ∀ id ∈ following, ∃ first ∈ rows, first.id = id ∧ (∀ m ∈ rows, first.position ≤ m.position) ∧
        ∀ m ∈ earlier Message.position bound base, m ∈ rows ∨ m.position < first.position := by
  have strict : (descending Message.position (earlier Message.position bound base)).Pairwise
      fun a b => b.position < a.position :=
    strict_descending (distinct.sublist (List.filter_sublist.map _))
  have listed {m : Message} : m ∈ descending Message.position (earlier Message.position bound base) ↔
      m ∈ earlier Message.position bound base := mem_descending
  have length := (perm_descending Message.position (earlier Message.position bound base)).length_eq
  rw [messagePage_eq distinct stands]
  generalize descending Message.position (earlier Message.position bound base) = D at *
  have ascending := List.pairwise_reverse.mpr (strict.sublist (List.take_sublist limit D))
  have inside : (D.take limit).reverse ⊆ earlier Message.position bound base := fun m member =>
    listed.mp (List.mem_of_mem_take (List.mem_reverse.mp member))
  by_cases more : limit < (earlier Message.position bound base).length
  · obtain ⟨front, first, taken⟩ : ∃ front first, D.take limit = front ++ [first] := by
      rcases List.eq_nil_or_concat' (D.take limit) with empty | found
      · have none_left := congrArg List.length empty
        rw [List.length_take, length, List.length_nil] at none_left
        omega
      · exact found
    refine ⟨_, some first.id, by simp [asked, more, taken], ascending, inside, by simp, ?_⟩
    rintro _ ⟨⟩
    rw [← List.take_append_drop limit D, taken, List.append_assoc] at strict
    have last := List.pairwise_append.mp strict
    refine ⟨first, by simp [taken], rfl, fun m member => ?_, fun m member => ?_⟩
    · rw [taken, List.reverse_append, List.reverse_singleton] at member
      rcases List.mem_append.mp member with here | before
      · rw [List.mem_singleton.mp here]
      · exact le_of_lt (last.2.2 m (List.mem_reverse.mp before) first List.mem_cons_self)
    · have place := listed.mpr member
      rw [← List.take_append_drop limit D] at place
      rcases List.mem_append.mp place with early | late
      · exact .inl (List.mem_reverse.mpr early)
      · exact .inr ((List.pairwise_cons.mp last.2.1).1 m late)
  · refine ⟨_, none, by simp [asked, more], ascending, inside, fun _ m member => ?_, by simp⟩
    rw [List.take_of_length_le (length ▸ Nat.le_of_not_lt more)]
    exact List.mem_reverse.mpr (listed.mpr member)

theorem exists_reads (distinct : (base.map Message.id).Nodup) (positive : 0 < limit) {size : Nat} :
    ∀ (n : Nat) (before : Option Uuid) (bound : Option (Time ×ₗ Uuid)), Stands base before bound →
      (earlier Message.position bound base).length = size →
      ∃ pages, Reads (fun _ _ before => asked (messagePage base limit before)) n () before pages := by
  induction size using Nat.strong_induction_on with
  | _ size ih =>
    intro n before bound stands length
    obtain ⟨rows, following, answer, _, inside, _, continues⟩ :=
      asked_messagePage distinct positive stands
    cases following with
    | none => exact ⟨_, .last answer⟩
    | some id =>
      obtain ⟨first, here, rfl, _⟩ := continues id rfl
      obtain ⟨stored, within⟩ := List.mem_filter.mp (inside here)
      have narrowed : earlier Message.position (some first.position) base =
          (earlier Message.position bound base).filter fun m => m.position < first.position := by
        unfold earlier
        rw [List.filter_filter]
        refine List.filter_congr fun m _ => ?_
        cases bound with
        | none => simp
        | some bound =>
          have under : first.position < bound := by simpa using within
          simpa using fun early => lt_trans early under
      have fewer : (earlier Message.position (some first.position) base).length < size := by
        rw [narrowed, ← length]
        exact List.length_filter_lt_length_iff_exists.mpr ⟨first, inside here, by simp⟩
      obtain ⟨pages, rest⟩ :=
        ih _ fewer (n + 1) (some first.id) _ (.inr ⟨first, stored, rfl, rfl⟩) rfl
      exact ⟨_, .more answer rest⟩

/-- While messages are only added, a walk lists ascending positions before its cursor, and with
them every message that was there when it began. -/
theorem reads_ascending {bases : Nat → List Message}
    (distinct : ∀ n, ((bases n).map Message.id).Nodup) (positive : 0 < limit)
    (grows : ∀ n, bases n ⊆ bases (n + 1)) {n : Nat} {u : Unit} {pages : List (List Message)}
    (reads : Reads (fun n _ before => asked (messagePage (bases n) limit before)) n u before pages) :
    ∀ bound, Stands (bases n) before bound →
      pages.reverse.flatten.Pairwise (fun a b => a.position < b.position) ∧
      (∀ m ∈ pages.reverse.flatten, bound.all (m.position < ·) ∧ ∃ k, m ∈ bases k) ∧
      earlier Message.position bound (bases n) ⊆ pages.reverse.flatten := by
  induction reads with
  | @last n _ _ before rows answer =>
    intro bound stands
    obtain ⟨_, _, answer', sorted, inside, covers, _⟩ :=
      asked_messagePage (distinct n) positive stands
    cases answer'.symm.trans answer
    simp only [List.reverse_singleton, List.flatten_singleton]
    refine ⟨sorted, fun m member => ?_, covers rfl⟩
    obtain ⟨stored, within⟩ := List.mem_filter.mp (inside member)
    exact ⟨within, n, stored⟩
  | @more n _ _ before following rows pages answer rest ih =>
    intro bound stands
    obtain ⟨_, _, answer', sorted, inside, _, continues⟩ :=
      asked_messagePage (distinct n) positive stands
    cases answer'.symm.trans answer
    obtain ⟨first, here, rfl, above, left⟩ := continues following rfl
    have within {m : Message} (member : m ∈ rows) := List.mem_filter.mp (inside member)
    obtain ⟨ascending, bounded, all⟩ :=
      ih (some first.position) (.inr ⟨first, grows n (within here).1, rfl, rfl⟩)
    have below : ∀ m ∈ pages.reverse.flatten, m.position < first.position :=
      fun m member => by simpa using (bounded m member).1
    rw [List.reverse_cons, List.flatten_append, List.flatten_singleton]
    refine ⟨List.pairwise_append.mpr ⟨ascending, sorted, ?_⟩, ?_, ?_⟩
    · intro a ha b hb
      exact lt_of_lt_of_le (below a ha) (above b hb)
    · intro m member
      rcases List.mem_append.mp member with old | new
      · refine ⟨?_, (bounded m old).2⟩
        cases bound with
        | none => rfl
        | some =>
          exact decide_eq_true (lt_trans (below m old) (by simpa using (within here).2))
      · exact ⟨(within new).2, n, (within new).1⟩
    · intro m member
      rcases left m member with listed | early
      · exact List.mem_append_right _ listed
      · exact List.mem_append_left _ (all (List.mem_filter.mpr
          ⟨grows n (List.mem_filter.mp member).1, decide_eq_true early⟩))

theorem nodup_messagesOf (messages : MessageTable) (conversationId : Uuid) :
    ((messagesOf messages conversationId).map Message.id).Nodup := by
  rw [messagesOf, List.map_map]
  exact messages.keys_nodup.sublist (List.filter_sublist.map _)

/-- Walking the pages of a conversation. With any times and any page size the walk ends, and its
pages, the last one first, are the chronological list of `get_messages`. A walk during which
messages are added lists no message twice, and of those that were there the same list. -/
theorem message_pages_complete {conversations : List ConversationRow} {named : ConversationRow}
    (messages : MessageTable) (known : named ∈ conversations) (positive : 0 < limit) :
    let read (stores : Nat → MessageTable) := Reads (fun n _ before =>
      asked (getMessagePage conversations (stores n) named limit before)) 0 () none
    (∃ pages, read (fun _ => messages) pages) ∧
    (∀ pages, read (fun _ => messages) pages →
      pages.reverse.flatten = listed messages named.id) ∧
    ∀ stores, stores 0 = messages → (∀ n, (stores n).rows ⊆ (stores (n + 1)).rows) →
      ∀ pages, read stores pages → pages.reverse.flatten.Nodup ∧
        pages.reverse.flatten.filter (fun m => m ∈ listed messages named.id) =
          listed messages named.id := by
  have distinct := nodup_messagesOf
  have same {kept : List Message} (ascending : kept.Pairwise fun a b => a.position < b.position)
      (members : ∀ m, m ∈ kept ↔ m ∈ messagesOf messages named.id) :
      kept = listed messages named.id := by
    have once : kept.Nodup := ascending.imp fun below same => by simp [same] at below
    have perm : kept.Perm (getMessages (messagesOf messages named.id)) :=
      ((List.perm_ext_iff_of_nodup once (distinct _ _).of_map).mpr members).trans
        (List.perm_insertionSort _ _).symm
    refine perm.eq_of_pairwise ?_ (ascending.imp le_of_lt) (pairwise_ascending _ _)
    intro a b ha hb below above
    exact List.inj_on_of_nodup_map (distinct _ _) ((members a).mp ha) (mem_ascending.mp hb)
      (id_eq_of_position_eq (le_antisymm below above))
  simp only [getMessagePage, if_neg (not_not.mpr known)]
  refine ⟨exists_reads (distinct _ _) positive 0 none none (.inl ⟨rfl, rfl⟩) rfl, ?_, ?_⟩
  · intro pages reads
    obtain ⟨ascending, inside, all⟩ := reads_ascending (fun _ => distinct _ _) positive
      (fun _ => List.Subset.refl _) reads none (.inl ⟨rfl, rfl⟩)
    refine same ascending fun m => ⟨fun member => (inside m member).2.choose_spec, fun member => ?_⟩
    exact all (List.mem_filter.mpr ⟨member, rfl⟩)
  · rintro stores rfl grows pages reads
    obtain ⟨ascending, _, all⟩ := reads_ascending (fun n => distinct (stores n) named.id) positive
      (fun n => List.map_subset _ (List.filter_subset _ (grows n))) reads none (.inl ⟨rfl, rfl⟩)
    refine ⟨ascending.imp fun below same => by simp [same] at below, ?_⟩
    refine same (ascending.sublist List.filter_sublist) fun m => ?_
    rw [List.mem_filter, decide_eq_true_iff]
    exact ⟨fun both => mem_ascending.mp both.2, fun member =>
      ⟨all (List.mem_filter.mpr ⟨member, rfl⟩), mem_ascending.mpr member⟩⟩

/-- Two messages of one moment. -/
def tied : MessageTable :=
  ⟨[⟨7, .initial 1 11 .user ['a'] .empty 5⟩, ⟨7, .initial 2 12 .assistant ['b'] .empty 5⟩],
    by decide⟩

theorem message_pages_complete_tied : ∃ pages, Reads (fun _ _ before =>
      asked (getMessagePage [⟨7, 3, 4, "deepspace"⟩] tied ⟨7, 3, 4, "deepspace"⟩ 1 before)) 0 () none
        pages ∧ pages.reverse.flatten = listed tied 7 := by
  have known : (⟨7, 3, 4, "deepspace"⟩ : ConversationRow) ∈ [⟨7, 3, 4, "deepspace"⟩] := by decide
  obtain ⟨⟨pages, read⟩, all, _⟩ := message_pages_complete tied known Nat.one_pos
  exact ⟨pages, read, all pages read⟩

end Pages

/-- The tables with rows of conversations; `other` are those that only the foreign keys empty. -/
inductive PartTable
  | media | workspaceFile | fileVersion | agentStep | runEvent | agentRun | missionSnapshot
  | agentMemory | queuedTurn | other
  deriving DecidableEq

namespace PartTable

def blobs : List PartTable := [media, workspaceFile, fileVersion]

/-- The tables that the clean-up empties by statements of its own. -/
def cleaned : List PartTable :=
  [agentStep, runEvent, agentRun, missionSnapshot, agentMemory, queuedTurn]

end PartTable

/-- A row of a conversation, with the bucket and key of its object where it has both. -/
structure ConversationPart where
  table : PartTable
  (id tenantId userId conversationId : Uuid)
  object : Option (String × String)
  deriving DecidableEq

structure CachedHistory where
  (tenantId userId conversationId : Uuid)
  deriving DecidableEq

@[ext]
structure ChatStore where
  conversations : List ConversationRow
  parts : List ConversationPart
  cached : List CachedHistory
  objects : List (String × String)
  cleanupJobs : List (Uuid × Uuid × String × String)
  deriving DecidableEq

/-- What becomes of one `storage.delete_object`: client errors are only logged. -/
inductive ObjectDelete
  | done | ignored | raised
  deriving DecidableEq

/-- A call of `bulk_delete_conversations`, or of `delete_conversation` with one id. -/
structure DeleteCall where
  (tenantId userId : Uuid)
  kind : String
  ids : List Uuid
  outcome : ConversationPart → ObjectDelete

variable (call : DeleteCall) (s : ChatStore)

def DeleteCall.reaches (tenantId userId conversationId : Uuid) : Bool :=
  tenantId = call.tenantId ∧ userId = call.userId ∧ conversationId ∈ call.ids

def DeleteCall.catches (part : ConversationPart) : Bool :=
  call.reaches part.tenantId part.userId part.conversationId

/-- The condition of the statement that deletes the conversations. -/
def DeleteCall.deletes (c : ConversationRow) : Bool :=
  call.reaches c.tenantId c.userId c.id ∧ c.kind = call.kind

/-- `media_blobs`, `file_blobs` and `version_blobs`, each with its bucket and key. -/
def blobsOf : List (ConversationPart × String × String) :=
  PartTable.blobs.flatMap fun table => s.parts.filterMap fun part =>
    if call.catches part ∧ part.table = table then part.object.map fun object => (part, object)
    else none

def cleanedUp : ChatStore :=
  { s with
    objects := s.objects.filter fun object =>
      ¬ ∃ blob ∈ blobsOf call s, blob.2 = object ∧ call.outcome blob.1 = .done
    cleanupJobs := s.cleanupJobs ++
      ((blobsOf call s).filter fun blob => call.outcome blob.1 = .raised).map fun blob =>
        (call.tenantId, call.userId, blob.2)
    parts := s.parts.filter fun part => ¬ (call.catches part ∧ part.table ∈ PartTable.cleaned)
    cached := s.cached.filter fun entry =>
      ¬ call.reaches entry.tenantId entry.userId entry.conversationId }

/-- `_cleanup_conversation_artifacts` -/
def cleanupConversationArtifacts : ChatStore := if call.ids = [] then s else cleanedUp call s

/-- `bulk_delete_conversations` and the commit; `agent_memory` has no foreign key. -/
def deleteConversations : ChatStore × Nat :=
  let s := cleanupConversationArtifacts call s
  let deleted := s.conversations.filter call.deletes
  ({ s with
      conversations := s.conversations.filter fun c => ¬ call.deletes c
      parts := s.parts.filter fun part =>
        ¬ (part.table ≠ .agentMemory ∧ ∃ c ∈ deleted, c.id = part.conversationId) },
    deleted.length)

/-- The conversation was there, and is not any more. -/
def Gone (s s' : ChatStore) (conversationId : Uuid) : Prop :=
  ∃ c ∈ s.conversations, c.id = conversationId ∧ c ∉ s'.conversations

/-- Only what belongs to deleted conversations is gone; with nothing counted, nothing is. -/
structure OnlyDeleted (s s' : ChatStore) (count : Nat) : Prop where
  parts : ∀ part ∈ s.parts, part ∉ s'.parts → Gone s s' part.conversationId
  cached : ∀ entry ∈ s.cached, entry ∉ s'.cached → Gone s s' entry.conversationId
  objects : ∀ object ∈ s.objects, object ∉ s'.objects →
    ∃ part ∈ s.parts, part.object = some object ∧ Gone s s' part.conversationId
  unchanged : count = 0 → s' = s

/-- What the clean-up can reach belongs to conversations that the call deletes. -/
structure Scoped : Prop where
  parts : ∀ part ∈ s.parts, call.catches part → part.table ∈ PartTable.cleaned →
    ∃ c ∈ s.conversations, c.id = part.conversationId ∧ call.deletes c
  cached : ∀ entry ∈ s.cached, call.reaches entry.tenantId entry.userId entry.conversationId →
    ∃ c ∈ s.conversations, c.id = entry.conversationId ∧ call.deletes c
  objects : ∀ blob ∈ blobsOf call s, blob.2 ∈ s.objects → call.outcome blob.1 = .done →
    ∃ part ∈ s.parts, part.object = some blob.2 ∧
      ∃ c ∈ s.conversations, c.id = part.conversationId ∧ call.deletes c
  failures : (∃ c ∈ s.conversations, call.deletes c) ∨
    ∀ blob ∈ blobsOf call s, call.outcome blob.1 ≠ .raised

variable {call s}

/-- With no ids there is nothing that the clean-up would reach. -/
theorem cleanup_eq : cleanupConversationArtifacts call s = cleanedUp call s := by
  unfold cleanupConversationArtifacts cleanedUp
  split
  · rename_i nothing
    have free (tenantId userId conversationId : Uuid) :
        call.reaches tenantId userId conversationId = false := by
      simp [DeleteCall.reaches, nothing]
    simp [blobsOf, PartTable.blobs, DeleteCall.catches, free]
  · rfl

theorem gone_iff {conversationId : Uuid} : Gone s (deleteConversations call s).1 conversationId ↔
    ∃ c ∈ s.conversations, c.id = conversationId ∧ call.deletes c := by
  simp only [Gone, deleteConversations, cleanup_eq, cleanedUp]
  refine exists_congr fun c => and_congr_right fun member => and_congr_right fun _ => ?_
  simp [member]

theorem scoped_of_onlyDeleted
    (only : OnlyDeleted s (deleteConversations call s).1 (deleteConversations call s).2) :
    Scoped call s := by
  refine ⟨fun part member caught cleaned => ?_, fun entry member reached => ?_,
    fun blob member stored done => ?_, ?_⟩
  · refine gone_iff.mp (only.parts part member fun left => ?_)
    simp [deleteConversations, cleanup_eq, cleanedUp, caught, cleaned] at left
  · refine gone_iff.mp (only.cached entry member fun left => ?_)
    simp [deleteConversations, cleanup_eq, cleanedUp, reached] at left
  · obtain ⟨part, inside, same, gone⟩ := only.objects blob.2 stored fun left => by
      simp only [deleteConversations, cleanup_eq, cleanedUp, List.mem_filter,
        decide_eq_true_eq] at left
      exact left.2 ⟨blob, member, rfl, done⟩
    exact ⟨part, inside, same, gone_iff.mp gone⟩
  · by_contra neither
    obtain ⟨none_deleted, raising⟩ := not_or.mp neither
    push Not at none_deleted raising
    obtain ⟨blob, member, raised⟩ := raising
    have same := only.unchanged (by
      simpa [deleteConversations, cleanup_eq, cleanedUp] using none_deleted)
    have jobs := congrArg (fun after => after.cleanupJobs.length) same
    simp [deleteConversations, cleanup_eq, cleanedUp] at jobs
    exact jobs blob.1 blob.2.1 blob.2.2 member raised

theorem onlyDeleted_of_scoped (inScope : Scoped call s) :
    OnlyDeleted s (deleteConversations call s).1 (deleteConversations call s).2 := by
  refine ⟨fun part member gone => gone_iff.mpr ?_, fun entry member gone => gone_iff.mpr ?_,
    fun object member gone => ?_, fun nothing => ?_⟩
  · by_contra kept
    simp only [deleteConversations, cleanup_eq, cleanedUp, List.mem_filter,
      decide_eq_true_eq] at gone
    refine gone ⟨⟨member, fun both => kept (inScope.parts part member both.1 both.2)⟩, ?_⟩
    rintro ⟨_, c, ⟨inside, deletes⟩, same⟩
    exact kept ⟨c, inside, same, deletes⟩
  · refine inScope.cached entry member ?_
    simpa [deleteConversations, cleanup_eq, cleanedUp, member] using gone
  · simp only [deleteConversations, cleanup_eq, cleanedUp, List.mem_filter, decide_eq_true_eq, member,
      true_and, not_not] at gone
    obtain ⟨blob, inside, rfl, done⟩ := gone
    obtain ⟨part, there, same, deleted⟩ := inScope.objects blob inside member done
    exact ⟨part, there, same, gone_iff.mpr deleted⟩
  · have free : ∀ c ∈ s.conversations, ¬ call.deletes c := by
      simpa [deleteConversations, cleanup_eq, cleanedUp] using nothing
    have none_left {id : Uuid} : ¬ ∃ c ∈ s.conversations, c.id = id ∧ call.deletes c :=
      fun ⟨c, inside, _, deletes⟩ => free c inside deletes
    have quiet := inScope.failures.resolve_left fun ⟨c, inside, deletes⟩ => free c inside deletes
    simp only [deleteConversations, cleanup_eq, cleanedUp]
    refine ChatStore.ext ?_ ?_ ?_ ?_ ?_
    · exact List.filter_eq_self.mpr fun c member => decide_eq_true (free c member)
    · simp only [List.filter_filter]
      refine List.filter_eq_self.mpr fun part member => ?_
      simp only [Bool.and_eq_true, decide_eq_true_eq, List.mem_filter]
      refine ⟨fun both => both.2.elim fun c found => free c found.1.1 found.1.2, fun both => ?_⟩
      exact none_left (inScope.parts part member both.1 both.2)
    · exact List.filter_eq_self.mpr fun entry member =>
        decide_eq_true fun reached => none_left (inScope.cached entry member reached)
    · refine List.filter_eq_self.mpr fun object member => decide_eq_true ?_
      rintro ⟨blob, inside, rfl, done⟩
      obtain ⟨_, _, _, deleted⟩ := inScope.objects blob inside member done
      exact none_left deleted
    · have jobs : (blobsOf call s).filter (fun blob => call.outcome blob.1 = .raised) = [] :=
        List.filter_eq_nil_iff.mpr fun blob member => by simpa using quiet blob member
      rw [jobs, List.map_nil, List.append_nil]

/-- Deleting conversations touches only what is deleted exactly when everything that the clean-up
reaches by tenant, user and conversation belongs to a conversation of the kind of the call. -/
theorem deleteConversations_onlyDeleted_iff (call : DeleteCall) (s : ChatStore) :
    OnlyDeleted s (deleteConversations call s).1 (deleteConversations call s).2 ↔ Scoped call s :=
  ⟨scoped_of_onlyDeleted, onlyDeleted_of_scoped⟩

/-- A note is no DeepSpace conversation: nothing is deleted, but its queued turn is gone. -/
theorem deleted_note_loses_turn :
    let call : DeleteCall := ⟨3, 4, "deepspace", [7], fun _ => .done⟩
    let s : ChatStore := ⟨[⟨7, 3, 4, "note"⟩], [⟨.queuedTurn, 1, 3, 4, 7, none⟩], [], [], []⟩
    ¬ OnlyDeleted s (deleteConversations call s).1 (deleteConversations call s).2 :=
  fun only => absurd (only.unchanged (by decide)) (by decide)

end AverQel.DeepSpace.Chat
