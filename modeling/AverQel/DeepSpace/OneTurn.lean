/- digest: One pair of messages for each request id, and when the lookup always finds it. -/
import AverQel.DeepSpace.TurnRequests

namespace AverQel.DeepSpace.Chat

open Foundation Interleaving Transition

variable (request : RequestId)

def Written.userRow (rows : Written) : MessageRow := ⟨rows.conversationId, rows.userMessage⟩

def Written.assistantRow (rows : Written) : MessageRow :=
  ⟨rows.conversationId, rows.assistantMessage⟩

def TurnStage.isCreated : TurnStage → Bool
  | created _ => true
  | entered | locked | searched | refused | failed => false
  | settled _ _ => false
  | searchedAgain _ _ => false
  | written _ => false
  | replayed _ _ => false

def TurnPoint.creates (p : TurnPoint) : Bool :=
  decide (p.call.request = some request) && p.stage.isCreated

/-- The call has not taken up a turn. -/
def TurnStage.pending : TurnStage → Prop
  | created _ => False
  | replayed _ _ => False
  | entered | locked | searched | refused | failed => True
  | settled _ _ => True
  | searchedAgain _ _ => True
  | written _ => True

structure Untouched (s : TurnSystem) : Prop where
  uncarried : ∀ row ∈ s.shared.messages.rows, row.message.carries request = false
  pending : ∀ p ∈ s.calls, p.call.request = some request → p.stage.pending

/-- The rows are the one turn of the request. -/
structure TurnOf (rows : Written) (s : TurnSystem) : Prop where
  userStored : rows.userRow ∈ s.shared.messages.rows
  assistantStored : rows.assistantRow ∈ s.shared.messages.rows
  userRole : rows.userMessage.role = .user
  assistantRole : rows.assistantMessage.role = .assistant
  /-- No other message carries the request id. -/
  only : ∀ row ∈ s.shared.messages.rows, row.message.carries request = true ↔
    row = rows.userRow ∨ row = rows.assistantRow
  found : findTurnByRequestId s.shared.messages (some rows.conversationId) request =
    some (rows.userMessage, rows.assistantMessage)
  foundAnywhere : findTurnByRequestId s.shared.messages none request =
    some (rows.userMessage, rows.assistantMessage)
  creator : s.calls.countP (TurnPoint.creates request) = 1
  created : ∀ p ∈ s.calls, p.call.request = some request →
    ∀ others, p.stage = .created others → others = rows
  replayed : ∀ p ∈ s.calls, p.call.request = some request →
    ∀ userMessage assistantMessage, p.stage = .replayed userMessage assistantMessage →
      userMessage = rows.userMessage ∧ assistantMessage = rows.assistantMessage

def OneTurn (s : TurnSystem) : Prop :=
  Untouched request s ∨ ∃ rows, TurnOf request rows s

/-- The new rows stand in order, no message stands between them, and neither stands between a
prompt and an answer of one request. -/
def Unsplit (messages : MessageTable) (rows : Written) : Prop :=
  rows.userMessage.position < rows.assistantMessage.position ∧
  (∀ row ∈ messages.rows, row.conversationId = rows.conversationId →
    row.message.position < rows.userMessage.position ∨
      rows.assistantMessage.position < row.message.position) ∧
  ∀ prompt ∈ messages.rows, ∀ answer ∈ messages.rows,
    prompt.conversationId = rows.conversationId → answer.conversationId = rows.conversationId →
    prompt.message.role = .user → answer.message.role = .assistant →
    prompt.message.metadata.clientRequestId.isSome = true →
    prompt.message.metadata.clientRequestId = answer.message.metadata.clientRequestId →
    prompt.message.position < answer.message.position →
    ∀ m ∈ [rows.userMessage, rows.assistantMessage],
      m.position < prompt.message.position ∨ answer.message.position < m.position

/-- The condition on a step: a call that gives a conversation looks up its request only when the
messages that carry it are in that conversation, and rows are committed unsplit. -/
def CarefulTurn (s : Committed) (call : TurnCall) : TurnStage → Prop
  | .locked => ∀ request ∈ call.request, ∀ conversationId ∈ call.conversationId,
      ∀ row ∈ s.messages.rows, row.message.carries request = true →
        row.conversationId = conversationId
  | .written rows => Unsplit s.messages rows
  | .entered | .searched | .refused | .failed => True
  | .settled _ _ => True
  | .searchedAgain _ _ => True
  | .created _ => True
  | .replayed _ _ => True

def CarefulTurns (s : TurnSystem) (turn : Nat × Draw) : Prop :=
  ∀ p ∈ s.calls[turn.1]?, CarefulTurn s.shared p.call p.stage

instance (messages : MessageTable) (rows : Written) : Decidable (Unsplit messages rows) :=
  inferInstanceAs (Decidable (_ ∧ _ ∧ _))

instance (s : Committed) (call : TurnCall) : ∀ stage, Decidable (CarefulTurn s call stage)
  | .locked | .written .. => by dsimp only [CarefulTurn]; infer_instance
  | .entered | .searched | .refused | .failed | .settled .. | .searchedAgain .. | .created _
  | .replayed .. => .isTrue trivial

instance (s : TurnSystem) (turn : Nat × Draw) : Decidable (CarefulTurns s turn) := by
  delta CarefulTurns
  infer_instance

variable {messages : MessageTable} {request : RequestId} {rows : Written}

theorem mem_listed {conversationId : Uuid} {m : Message} :
    m ∈ listed messages conversationId ↔ (⟨conversationId, m⟩ : MessageRow) ∈ messages.rows := by
  rw [listed, getMessages, mem_ascending, List.mem_map]
  constructor
  · rintro ⟨⟨c, m⟩, member, rfl⟩
    obtain ⟨inside, same⟩ := List.mem_filter.mp member
    obtain rfl : c = conversationId := of_decide_eq_true same
    exact inside
  · intro inside
    exact ⟨⟨conversationId, m⟩, List.mem_filter.mpr ⟨inside, decide_eq_true rfl⟩, rfl⟩

theorem strict_listed (messages : MessageTable) (conversationId : Uuid) :
    (listed messages conversationId).Pairwise fun m n => m.position < n.position := by
  apply pairwise_lt_ascending
  apply List.Nodup.of_map (fun position => (ofLex position).2)
  rw [List.map_map, List.map_map]
  have kept := messages.keys_nodup.sublist ((List.filter_sublist
    (p := fun row => decide (row.conversationId = conversationId))).map MessageRow.id)
  exact kept

theorem carries_of_raw {m : Message} (raw : m.metadata.clientRequestId = some request.text) :
    m.carries request = true := by
  unfold Message.carries
  rw [raw]
  exact decide_eq_true request.stripped

theorem carries_of_answersRequest {pair : Message × Message}
    (answers : answersRequest request pair = true) :
    pair.1.role = .user ∧ pair.2.role = .assistant ∧
      (pair.1.carries request = true ∨ pair.2.carries request = true) := by
  simp only [answersRequest, Bool.and_eq_true, Bool.or_eq_true, decide_eq_true_eq] at answers
  exact ⟨answers.1.1, answers.1.2, answers.2⟩

theorem mem_of_neighbours {conversationId : Uuid} {pair : Message × Message}
    (next : pair ∈ neighbours (listed messages conversationId)) :
    (⟨conversationId, pair.1⟩ : MessageRow) ∈ messages.rows ∧
      (⟨conversationId, pair.2⟩ : MessageRow) ∈ messages.rows := by
  obtain ⟨first, second, _, _⟩ :=
    (mem_neighbours_iff (strict_listed messages conversationId)).mp next
  exact ⟨mem_listed.mp first, mem_listed.mp second⟩

theorem findTurn_of_uncarried
    (uncarried : ∀ row ∈ messages.rows, row.message.carries request = false)
    (conversationId : Option Uuid) : findTurnByRequestId messages conversationId request = none := by
  have nowhere : ∀ c, (neighbours (listed messages c)).find? (answersRequest request) = none := by
    intro c
    apply List.find?_eq_none.mpr
    intro pair next answers
    obtain ⟨first, second⟩ := mem_of_neighbours next
    obtain ⟨_, _, carried | carried⟩ := carries_of_answersRequest answers
    · rw [uncarried _ first] at carried
      cases carried
    · rw [uncarried _ second] at carried
      cases carried
  cases conversationId with
  | some c => exact nowhere c
  | none =>
    unfold findTurnByRequestId
    cases latestConversation messages request with
    | none => rfl
    | some c => exact nowhere c

/-- The rows stand next to each other, and no other message carries the request id. -/
structure Kept (request : RequestId) (rows : Written) (messages : MessageTable) : Prop where
  userStored : rows.userRow ∈ messages.rows
  assistantStored : rows.assistantRow ∈ messages.rows
  userRole : rows.userMessage.role = .user
  assistantRole : rows.assistantMessage.role = .assistant
  userRaw : rows.userMessage.metadata.clientRequestId = some request.text
  assistantRaw : rows.assistantMessage.metadata.clientRequestId = some request.text
  only : ∀ row ∈ messages.rows, row.message.carries request = true →
    row = rows.userRow ∨ row = rows.assistantRow
  order : rows.userMessage.position < rows.assistantMessage.position
  between : ∀ row ∈ messages.rows, row.conversationId = rows.conversationId →
    row.message.position ≤ rows.userMessage.position ∨
      rows.assistantMessage.position ≤ row.message.position

namespace Kept

variable (kept : Kept request rows messages)
include kept

theorem neighbours : (rows.userMessage, rows.assistantMessage) ∈
    neighbours (listed messages rows.conversationId) := by
  apply (mem_neighbours_iff (strict_listed messages rows.conversationId)).mpr
  refine ⟨mem_listed.mpr kept.userStored, mem_listed.mpr kept.assistantStored, kept.order, ?_⟩
  intro m inside
  exact kept.between _ (mem_listed.mp inside) rfl

theorem eq_of_carries {m : Message}
    (inside : (⟨rows.conversationId, m⟩ : MessageRow) ∈ messages.rows)
    (carried : m.carries request = true) : m = rows.userMessage ∨ m = rows.assistantMessage := by
  rcases kept.only _ inside carried with same | same
  · exact .inl (MessageRow.mk.inj same).2
  · exact .inr (MessageRow.mk.inj same).2

theorem unique {pair : Message × Message}
    (next : pair ∈ Foundation.neighbours (listed messages rows.conversationId))
    (answers : answersRequest request pair = true) :
    pair = (rows.userMessage, rows.assistantMessage) := by
  have strict := strict_listed messages rows.conversationId
  obtain ⟨prompt, answer⟩ := pair
  obtain ⟨first, second⟩ := mem_of_neighbours next
  obtain ⟨userRole, assistantRole, carried | carried⟩ := carries_of_answersRequest answers
  · rcases kept.eq_of_carries first carried with rfl | rfl
    · rw [eq_of_neighbours_left strict next kept.neighbours]
    · rw [kept.assistantRole] at userRole
      cases userRole
  · rcases kept.eq_of_carries second carried with rfl | rfl
    · rw [kept.userRole] at assistantRole
      cases assistantRole
    · rw [eq_of_neighbours_right strict next kept.neighbours]

theorem found : findTurnByRequestId messages (some rows.conversationId) request =
    some (rows.userMessage, rows.assistantMessage) := by
  apply find?_eq_some_of_unique kept.neighbours
  · simp [answersRequest, kept.userRole, kept.assistantRole, carries_of_raw kept.userRaw]
  · intro pair next answers
    exact kept.unique next answers

theorem latest : latestConversation messages request = some rows.conversationId := by
  unfold latestConversation
  cases latest : maxBy (fun row => row.message.position) (messages.rows.filter fun row =>
      row.message.metadata.clientRequestId = some request.text) with
  | none =>
    have empty := List.argmax_eq_none.mp latest
    have inside : rows.userRow ∈ messages.rows.filter fun row =>
        row.message.metadata.clientRequestId = some request.text :=
      List.mem_filter.mpr ⟨kept.userStored, decide_eq_true kept.userRaw⟩
    rw [empty] at inside
    cases inside
  | some row =>
    obtain ⟨inside, raw⟩ := List.mem_filter.mp (mem_of_maxBy latest)
    rcases kept.only row inside (carries_of_raw (of_decide_eq_true raw)) with rfl | rfl
    · rfl
    · rfl

theorem foundAnywhere : findTurnByRequestId messages none request =
    some (rows.userMessage, rows.assistantMessage) := by
  unfold findTurnByRequestId
  rw [kept.latest]
  exact kept.found

end Kept

variable {s s' : Committed} {rows : Written} {request : RequestId}

theorem mem_of_commitTurn (committed : commitTurn s rows = some s') {row : MessageRow} :
    row ∈ s'.messages.rows ↔
      row = rows.assistantRow ∨ row = rows.userRow ∨ row ∈ s.messages.rows := by
  unfold commitTurn at committed
  by_cases taken : rows.opened ∧ rows.conversationId ∈ s.conversations
  · rw [if_pos taken] at committed
    cases committed
  rw [if_neg taken] at committed
  obtain ⟨middle, first, rest⟩ := Option.bind_eq_some_iff.mp committed
  obtain ⟨last, second, rfl⟩ := Option.map_eq_some_iff.mp rest
  rw [Table.mem_of_insert? second, Table.mem_of_insert? first, or_comm, or_comm (a := row ∈ _)]
  rfl

/-- The rows that a call writes: a prompt and an answer with its request id. -/
structure Written.Of (call : TurnCall) (rows : Written) : Prop where
  userRole : rows.userMessage.role = .user
  assistantRole : rows.assistantMessage.role = .assistant
  userRaw : rows.userMessage.metadata.clientRequestId = call.request.map RequestId.text
  assistantRaw : rows.assistantMessage.metadata.clientRequestId = call.request.map RequestId.text

theorem writeTurn_of (call : TurnCall) (draw : Draw) (conversationId : Uuid) (opened : Bool) :
    (writeTurn call draw conversationId opened).Of call :=
  ⟨rfl, rfl, rfl, rfl⟩

theorem not_carries_of_raw {call : TurnCall} {m : Message} (other : call.request ≠ some request)
    (raw : m.metadata.clientRequestId = call.request.map RequestId.text) :
    m.carries request = false := by
  apply decide_eq_false
  rw [raw]
  cases given : call.request with
  | none =>
    intro same
    exact request.filled (same.symm.trans rfl)
  | some theirs =>
    intro same
    have equal : theirs.text = request.text := theirs.stripped.symm.trans same
    apply other
    rw [given]
    cases theirs
    cases request
    cases equal
    rfl

theorem kept_of_commit {call : TurnCall} (mine : call.request = some request) (of : rows.Of call)
    (unsplit : Unsplit s.messages rows)
    (uncarried : ∀ row ∈ s.messages.rows, row.message.carries request = false)
    (committed : commitTurn s rows = some s') : Kept request rows s'.messages where
  userStored := (mem_of_commitTurn committed).mpr (.inr (.inl rfl))
  assistantStored := (mem_of_commitTurn committed).mpr (.inl rfl)
  userRole := of.userRole
  assistantRole := of.assistantRole
  userRaw := of.userRaw.trans (congrArg (Option.map RequestId.text) mine)
  assistantRaw := of.assistantRaw.trans (congrArg (Option.map RequestId.text) mine)
  only := by
    intro row inside carried
    rcases (mem_of_commitTurn committed).mp inside with answer | prompt | old
    · exact .inr answer
    · exact .inl prompt
    · rw [uncarried row old] at carried
      cases carried
  order := unsplit.1
  between := by
    intro row inside here
    rcases (mem_of_commitTurn committed).mp inside with rfl | rfl | old
    · exact .inr le_rfl
    · exact .inl le_rfl
    · exact (unsplit.2.1 row old here).imp le_of_lt le_of_lt

theorem Kept.commit {mine : Written} (kept : Kept request mine s.messages)
    (unsplit : Unsplit s.messages rows) (userOther : rows.userMessage.carries request = false)
    (assistantOther : rows.assistantMessage.carries request = false)
    (committed : commitTurn s rows = some s') : Kept request mine s'.messages where
  userStored := (mem_of_commitTurn committed).mpr (.inr (.inr kept.userStored))
  assistantStored := (mem_of_commitTurn committed).mpr (.inr (.inr kept.assistantStored))
  userRole := kept.userRole
  assistantRole := kept.assistantRole
  userRaw := kept.userRaw
  assistantRaw := kept.assistantRaw
  only := by
    intro row inside carried
    rcases (mem_of_commitTurn committed).mp inside with rfl | rfl | old
    · exact absurd carried (Bool.not_eq_true _ ▸ assistantOther)
    · exact absurd carried (Bool.not_eq_true _ ▸ userOther)
    · exact kept.only row old carried
  order := kept.order
  between := by
    intro row inside here
    have apart : ∀ m ∈ [rows.userMessage, rows.assistantMessage],
        mine.conversationId = rows.conversationId →
        m.position < mine.userMessage.position ∨ mine.assistantMessage.position < m.position :=
      fun m written same => unsplit.2.2 _ kept.userStored _ kept.assistantStored same same
        kept.userRole kept.assistantRole (kept.userRaw ▸ rfl)
        (kept.userRaw.trans kept.assistantRaw.symm) kept.order m written
    rcases (mem_of_commitTurn committed).mp inside with rfl | rfl | old
    · exact (apart rows.assistantMessage (by simp) here.symm).imp le_of_lt le_of_lt
    · exact (apart rows.userMessage (by simp) here.symm).imp le_of_lt le_of_lt
    · exact kept.between row old here

variable {request : RequestId} {rows : Written} {draw : Draw} {call : TurnCall}
variable {s : Committed} {stage : TurnStage}

/-- After the first lookup and before the end. -/
def TurnStage.searching : TurnStage → Bool
  | searched => true
  | settled _ _ => true
  | searchedAgain _ _ => true
  | written _ => true
  | entered | locked | refused | failed => false
  | created _ => false
  | replayed _ _ => false

/-- The call has taken up the given turn, or has still to look. -/
def TurnStage.Agrees (rows : Written) : TurnStage → Prop
  | created others => others = rows
  | replayed userMessage assistantMessage =>
    userMessage = rows.userMessage ∧ assistantMessage = rows.assistantMessage
  | searched => False
  | settled _ _ => False
  | searchedAgain _ _ => False
  | written _ => False
  | entered | locked | refused | failed => True

structure Taken (request : RequestId) (rows : Written) (calls : List TurnPoint) : Prop where
  creator : calls.countP (TurnPoint.creates request) = 1
  agrees : ∀ p ∈ calls, p.call.request = some request → p.stage.Agrees rows

theorem nextStage_cases (draw : Draw) (s : Committed) (call : TurnCall) (stage : TurnStage) :
    (∃ rows s', stage = .written rows ∧ commitTurn s rows = some s' ∧
      nextStage draw s call stage = (s', .created rows)) ∨
    ((nextStage draw s call stage).1 = s ∧
      (nextStage draw s call stage).2.isCreated = stage.isCreated) := by
  have searched : ∀ (found : Option (Message × Message)) (on : TurnStage),
      on.isCreated = false → (afterLookup found on).isCreated = false := by
    intro found on plain
    cases found with
    | none => exact plain
    | some => rfl
  cases stage with
  | written rows =>
    cases committed : commitTurn s rows with
    | none =>
      right
      rw [nextStage, committed]
      exact ⟨rfl, rfl⟩
    | some s' =>
      left
      refine ⟨rows, s', rfl, committed, ?_⟩
      rw [nextStage, committed]
  | entered =>
    right
    rw [nextStage]
    cases call.request <;> exact ⟨rfl, rfl⟩
  | locked | settled => exact .inr ⟨rfl, searched _ _ rfl⟩
  | searched =>
    right
    rw [nextStage]
    cases call.conversationId with
    | none => exact ⟨rfl, rfl⟩
    | some =>
      dsimp only
      split_ifs <;> exact ⟨rfl, rfl⟩
  | searchedAgain | created | replayed | refused | failed => exact .inr ⟨rfl, rfl⟩

theorem pending_nextStage (mine : call.request = some request)
    (uncarried : ∀ row ∈ s.messages.rows, row.message.carries request = false)
    (pending : stage.pending) (quiet : (nextStage draw s call stage).2.isCreated = false) :
    (nextStage draw s call stage).2.pending := by
  have missed : ∀ c, call.request.bind (findTurnByRequestId s.messages c) = none := by
    intro c
    rw [mine]
    exact findTurn_of_uncarried uncarried c
  cases stage with
  | entered =>
    rw [nextStage, mine]
    trivial
  | locked | settled =>
    rw [nextStage, missed]
    trivial
  | searched =>
    rw [nextStage]
    cases call.conversationId with
    | none => trivial
    | some =>
      dsimp only
      split_ifs <;> trivial
  | searchedAgain | refused | failed => trivial
  | written rows =>
    rw [nextStage] at quiet ⊢
    cases committed : commitTurn s rows with
    | none => trivial
    | some =>
      rw [committed] at quiet
      cases quiet
  | created | replayed => exact pending

theorem agrees_nextStage (mine : call.request = some request) (kept : Kept request rows s.messages)
    (careful : CarefulTurn s call stage) (agrees : stage.Agrees rows) :
    (nextStage draw s call stage).2.Agrees rows := by
  cases stage with
  | entered =>
    rw [nextStage, mine]
    trivial
  | locked =>
    have found : call.request.bind (findTurnByRequestId s.messages call.conversationId) =
        some (rows.userMessage, rows.assistantMessage) := by
      rw [mine]
      cases given : call.conversationId with
      | none => exact kept.foundAnywhere
      | some c =>
        have here : rows.conversationId = c :=
          careful request mine c given rows.userRow kept.userStored (carries_of_raw kept.userRaw)
        rw [← here]
        exact kept.found
    rw [nextStage, found]
    exact ⟨rfl, rfl⟩
  | searched | settled | searchedAgain | written => exact agrees.elim
  | created | replayed => exact agrees
  | refused | failed => trivial

theorem agrees_of_pending (pending : stage.pending) (quiet : stage.searching = false)
    (rows : Written) : stage.Agrees rows := by
  cases stage with
  | entered | locked | refused | failed => trivial
  | searched | settled | searchedAgain | written => cases quiet
  | created | replayed => exact pending.elim

theorem not_created_of_pending (pending : stage.pending) : stage.isCreated = false := by
  cases stage with
  | created => exact pending.elim
  | _ => rfl

theorem of_nextStage (of : ∀ rows, stage = .written rows → rows.Of call)
    (written : (nextStage draw s call stage).2 = .written rows) : rows.Of call := by
  have looked : ∀ (found : Option (Message × Message)) (on : TurnStage),
      afterLookup found on = .written rows → on = .written rows := by
    intro found on same
    cases found with
    | none => exact same
    | some => cases same
  cases stage with
  | searchedAgain c opened =>
    obtain rfl := TurnStage.written.inj written
    exact writeTurn_of call draw c opened
  | written others =>
    rw [nextStage] at written
    cases committed : commitTurn s others with
    | none | some =>
      rw [committed] at written
      cases written
  | entered =>
    rw [nextStage] at written
    cases given : call.request <;> rw [given] at written <;> cases written
  | locked | settled => cases looked _ _ written
  | searched =>
    rw [nextStage] at written
    cases given : call.conversationId with
    | none =>
      rw [given] at written
      cases written
    | some =>
      rw [given] at written
      dsimp only at written
      split_ifs at written
  | created | replayed | refused | failed => cases written

variable (hashtext : String → Int) {request : RequestId}

/-- What holds throughout: locks exclude, rows are well formed, and there is one turn or none. -/
structure SoundTurns (hashtext : String → Int) (request : RequestId) (s : TurnSystem) : Prop where
  exclusive : s.Exclusive (sameLock hashtext)
  formed : ∀ p ∈ s.calls, ∀ rows, p.stage = .written rows → rows.Of p.call
  phase : Untouched request s ∨
    ∃ rows, Kept request rows s.shared.messages ∧ Taken request rows s.calls

variable {hashtext} {s : TurnSystem} {i : Nat} {p q : TurnPoint} {rows : Written}

theorem sameLock_comm (p q : TurnPoint) : sameLock hashtext p q = sameLock hashtext q p := by
  unfold sameLock
  cases p.lock hashtext with
  | none => cases q.lock hashtext <;> rfl
  | some =>
    cases q.lock hashtext with
    | none => rfl
    | some => exact decide_eq_decide.mpr eq_comm

theorem quiet_of_written (exclusive : s.Exclusive (sameLock hashtext))
    (here : s.calls[i]? = some p) (mine : p.call.request = some request)
    (written : p.stage = .written rows) {j : Nat} (there : s.calls[j]? = some q) (apart : j ≠ i)
    (same : q.call.request = some request) : q.stage.searching = false := by
  by_contra searching
  have inside : q.stage.inTransaction = true := by
    cases stage : q.stage <;> rw [stage] at searching <;> first | rfl | exact absurd rfl searching
  have free := exclusive i j p q apart.symm here there
  have locked : p.lock hashtext = some (hashtext request.text) := by
    rw [TurnPoint.lock, written, mine]
    rfl
  have lockedToo : q.lock hashtext = some (hashtext request.text) := by
    rw [TurnPoint.lock, inside, same]
    rfl
  rw [sameLock, locked, lockedToo] at free
  exact absurd rfl (of_decide_eq_false free)

theorem creates_of_other (other : p.call.request ≠ some request) :
    p.creates request = false := by
  rw [TurnPoint.creates, decide_eq_false other, Bool.false_and]

theorem countP_creates_set (here : s.calls[i]? = some p)
    (same : q.creates request = p.creates request) :
    (s.calls.set i q).countP (TurnPoint.creates request) =
      s.calls.countP (TurnPoint.creates request) := by
  have moved := countP_set_add q (TurnPoint.creates request) here
  rw [same] at moved
  omega

theorem phase_of_commit (sound : SoundTurns hashtext request s) (here : s.calls[i]? = some p)
    (mine : p.call.request = some request) (written : p.stage = .written rows)
    (unsplit : Unsplit s.shared.messages rows) {s' : Committed}
    (committed : commitTurn s.shared rows = some s') :
    Kept request rows s'.messages ∧
      Taken request rows (s.calls.set i { p with stage := .created rows }) := by
  have member := List.mem_of_getElem? here
  rcases sound.phase with untouched | ⟨others, kept, taken⟩
  · refine ⟨kept_of_commit mine (sound.formed p member rows written) unsplit
      untouched.uncarried committed, ?_, ?_⟩
    · have none_ : s.calls.countP (TurnPoint.creates request) = 0 := by
        apply List.countP_eq_zero.mpr
        intro q inside creates
        obtain ⟨same, created⟩ := Bool.and_eq_true_iff.mp creates
        have pending := untouched.pending q inside (of_decide_eq_true same)
        rw [not_created_of_pending pending] at created
        cases created
      have before : p.creates request = false := by
        rw [TurnPoint.creates, written, Bool.and_eq_false_iff]
        exact .inr rfl
      have after : (TurnPoint.mk p.call (.created rows)).creates request = true := by
        rw [TurnPoint.creates, decide_eq_true mine]
        rfl
      have moved := countP_set_add (TurnPoint.mk p.call (.created rows))
        (TurnPoint.creates request) here
      rw [none_, before, after] at moved
      exact moved
    · intro q inside same
      obtain ⟨j, there⟩ := List.mem_iff_getElem?.mp inside
      rcases (getElem?_set_iff here).mp there with ⟨_, rfl⟩ | ⟨apart, old⟩
      · exact rfl
      · have pending := untouched.pending q (List.mem_of_getElem? old) same
        have quiet := quiet_of_written sound.exclusive here mine written old apart same
        exact agrees_of_pending pending quiet rows
  · have agrees := taken.agrees p member mine
    rw [written] at agrees
    exact agrees.elim

theorem Taken.set (taken : Taken request rows s.calls) (here : s.calls[i]? = some p)
    (same : q.creates request = p.creates request)
    (agrees : q.call.request = some request → q.stage.Agrees rows) :
    Taken request rows (s.calls.set i q) where
  creator := (countP_creates_set here same).trans taken.creator
  agrees := by
    intro other inside mine
    rcases List.mem_or_eq_of_mem_set inside with old | rfl
    · exact taken.agrees other old mine
    · exact agrees mine

theorem pending_set (untouched : Untouched request s)
    (pending : q.call.request = some request → q.stage.pending) :
    ∀ other ∈ s.calls.set i q, other.call.request = some request → other.stage.pending := by
  intro other inside mine
  rcases List.mem_or_eq_of_mem_set inside with old | rfl
  · exact untouched.pending other old mine
  · exact pending mine

theorem phase_of_other (sound : SoundTurns hashtext request s) (here : s.calls[i]? = some p)
    (other : p.call.request ≠ some request) (careful : CarefulTurn s.shared p.call p.stage)
    (draw : Draw) :
    Untouched request ⟨(nextTurn draw s.shared p).1, s.calls.set i (nextTurn draw s.shared p).2⟩ ∨
      ∃ rows, Kept request rows (nextTurn draw s.shared p).1.messages ∧
        Taken request rows (s.calls.set i (nextTurn draw s.shared p).2) := by
  have call : (nextTurn draw s.shared p).2.call = p.call := rfl
  have others : (nextTurn draw s.shared p).2.call.request ≠ some request := by
    rw [call]
    exact other
  have same : (nextTurn draw s.shared p).2.creates request = p.creates request := by
    rw [creates_of_other other, creates_of_other others]
  have shared : (nextTurn draw s.shared p).1 = (nextStage draw s.shared p.call p.stage).1 := rfl
  rcases nextStage_cases draw s.shared p.call p.stage with
    ⟨written, s', stage, committed, next⟩ | ⟨kept, _⟩
  · have of := sound.formed p (List.mem_of_getElem? here) written stage
    have userOther := not_carries_of_raw other of.userRaw
    have assistantOther := not_carries_of_raw other of.assistantRaw
    rw [stage] at careful
    rw [shared, next]
    rcases sound.phase with untouched | ⟨rows, kept, taken⟩
    · left
      refine ⟨?_, pending_set untouched fun mine => absurd mine others⟩
      intro row inside
      rcases (mem_of_commitTurn committed).mp inside with rfl | rfl | old
      · exact assistantOther
      · exact userOther
      · exact untouched.uncarried row old
    · exact .inr ⟨rows, kept.commit careful userOther assistantOther committed,
        taken.set here same fun mine => absurd mine others⟩
  · rw [shared, kept]
    rcases sound.phase with untouched | ⟨rows, kept, taken⟩
    · exact .inl ⟨untouched.uncarried, pending_set untouched fun mine => absurd mine others⟩
    · exact .inr ⟨rows, kept, taken.set here same fun mine => absurd mine others⟩

theorem phase_of_mine (sound : SoundTurns hashtext request s) (here : s.calls[i]? = some p)
    (mine : p.call.request = some request) (careful : CarefulTurn s.shared p.call p.stage)
    (draw : Draw) :
    Untouched request ⟨(nextTurn draw s.shared p).1, s.calls.set i (nextTurn draw s.shared p).2⟩ ∨
      ∃ rows, Kept request rows (nextTurn draw s.shared p).1.messages ∧
        Taken request rows (s.calls.set i (nextTurn draw s.shared p).2) := by
  have shared : (nextTurn draw s.shared p).1 = (nextStage draw s.shared p.call p.stage).1 := rfl
  have stage : (nextTurn draw s.shared p).2 =
      { p with stage := (nextStage draw s.shared p.call p.stage).2 } := rfl
  rcases nextStage_cases draw s.shared p.call p.stage with
    ⟨rows, s', written, committed, next⟩ | ⟨kept, created⟩
  · rw [written] at careful
    rw [shared, stage, next]
    exact .inr ⟨rows, phase_of_commit sound here mine written careful committed⟩
  · rw [shared, stage, kept]
    rcases sound.phase with untouched | ⟨rows, kept, taken⟩
    · left
      have before := untouched.pending p (List.mem_of_getElem? here) mine
      rw [not_created_of_pending before] at created
      exact ⟨untouched.uncarried, pending_set untouched fun _ =>
        pending_nextStage mine untouched.uncarried before created⟩
    · right
      refine ⟨rows, kept, taken.set here ?_ ?_⟩
      · simp only [TurnPoint.creates, created]
      · intro _
        exact agrees_nextStage mine kept careful
          (taken.agrees p (List.mem_of_getElem? here) mine)

theorem sound_turnStep (sound : SoundTurns hashtext request s) (turn : Nat × Draw)
    (careful : CarefulTurns s turn) :
    SoundTurns hashtext request (turnStep hashtext s turn) := by
  have exclusive := exclusive_advance (sameLock hashtext) nextTurn sameLock_comm sound.exclusive turn
  unfold turnStep
  rcases advance_cases (sameLock hashtext) nextTurn s turn with same | ⟨p, here, _, moved⟩
  · rw [same]
    exact sound
  rw [moved] at exclusive ⊢
  refine ⟨exclusive, ?_, ?_⟩
  · intro q inside rows written
    rcases List.mem_or_eq_of_mem_set inside with old | rfl
    · exact sound.formed q old rows written
    · exact of_nextStage (sound.formed p (List.mem_of_getElem? here)) written
  · by_cases mine : p.call.request = some request
    · exact phase_of_mine sound here mine (careful p here) turn.2
    · exact phase_of_other sound here mine (careful p here) turn.2

theorem oneTurn_of_sound (sound : SoundTurns hashtext request s) : OneTurn request s := by
  rcases sound.phase with untouched | ⟨rows, kept, taken⟩
  · exact .inl untouched
  · right
    refine ⟨rows, kept.userStored, kept.assistantStored, kept.userRole, kept.assistantRole, ?_,
      kept.found, kept.foundAnywhere, taken.creator, ?_, ?_⟩
    · intro row inside
      constructor
      · exact kept.only row inside
      · rintro (rfl | rfl)
        · exact carries_of_raw kept.userRaw
        · exact carries_of_raw kept.assistantRaw
    · intro p inside mine others stage
      have agrees := taken.agrees p inside mine
      rw [stage] at agrees
      exact agrees
    · intro p inside mine userMessage assistantMessage stage
      have agrees := taken.agrees p inside mine
      rw [stage] at agrees
      exact agrees

variable (hashtext)

theorem sound_turnsOf (s : Committed) (calls : List TurnCall)
    (unused : ∀ row ∈ s.messages.rows, row.message.carries request = false) :
    SoundTurns hashtext request (turnsOf s calls) where
  exclusive := by
    intro i j p q _ here there
    obtain ⟨call, _, rfl⟩ := List.mem_map.mp (List.mem_of_getElem? here)
    rfl
  formed := by
    intro p inside rows written
    obtain ⟨call, _, rfl⟩ := List.mem_map.mp inside
    cases written
  phase := by
    refine .inl ⟨unused, ?_⟩
    intro p inside _
    obtain ⟨call, _, rfl⟩ := List.mem_map.mp inside
    trivial

/-- In every state of a careful run there is no turn of an unused request id yet, or exactly one,
which one call has created and every other call of the request that is done replays. -/
theorem oneTurn_of_careful (request : RequestId) (s : Committed) (calls : List TurnCall)
    (unused : ∀ row ∈ s.messages.rows, row.message.carries request = false)
    (turns : List (Nat × Draw))
    (careful : Guarded CarefulTurns (turnStep hashtext) (turnsOf s calls) turns) :
    ∀ t ∈ trace (turnStep hashtext) (turnsOf s calls) turns, OneTurn request t := by
  intro t reached
  have keep : ∀ (s : TurnSystem) turn, SoundTurns hashtext request s → CarefulTurns s turn →
      SoundTurns hashtext request (turnStep hashtext s turn) :=
    fun _ turn sound holds => sound_turnStep sound turn holds
  exact oneTurn_of_sound
    (invariant_of_guarded keep (sound_turnsOf hashtext s calls unused) careful t reached)

def sameHash : String → Int := fun _ => 0

def retriedRequest : RequestId := ⟨"req-68", by decide, by decide⟩

def withoutConversation : TurnCall := ⟨some retriedRequest, none, "hello".toList, []⟩

def inConversation (c : Uuid) : TurnCall := ⟨some retriedRequest, some c, "hello".toList, []⟩

def drawAt (time : Time) (base : Uuid) : Draw :=
  ⟨time, base, base + 1, base + 2, base + 3, base + 4⟩

/-- All steps of call `i` up to its end. -/
def stepsOf (i : Nat) (draw : Draw) : List (Nat × Draw) := List.replicate 6 (i, draw)

def noMessages : Committed := ⟨[6890], .empty⟩

/-- A call and its retry, both without a conversation. -/
theorem oneTurn_of_careful_retried :
    Guarded CarefulTurns (turnStep sameHash)
        (turnsOf noMessages [withoutConversation, withoutConversation])
        (stepsOf 0 (drawAt 10 6800) ++ stepsOf 1 (drawAt 20 6810)) ∧
      ∀ t ∈ trace (turnStep sameHash)
          (turnsOf noMessages [withoutConversation, withoutConversation])
          (stepsOf 0 (drawAt 10 6800) ++ stepsOf 1 (drawAt 20 6810)),
        OneTurn retriedRequest t := by
  have careful : Guarded CarefulTurns (turnStep sameHash)
      (turnsOf noMessages [withoutConversation, withoutConversation])
      (stepsOf 0 (drawAt 10 6800) ++ stepsOf 1 (drawAt 20 6810)) := by
    decide +kernel
  exact ⟨careful, oneTurn_of_careful sameHash retriedRequest noMessages _
    (fun _ inside => by cases inside) _ careful⟩

/-- The retry gives a conversation, and the first call did not: two turns. -/
theorem not_oneTurn_elsewhere :
    ¬∀ t ∈ trace (turnStep sameHash)
        (turnsOf noMessages [withoutConversation, inConversation 6890])
        (stepsOf 0 (drawAt 10 6800) ++ stepsOf 1 (drawAt 20 6810)),
      OneTurn retriedRequest t := by
  intro always
  have last := always _ (run_mem_trace _ _ _)
  have twice : (run (turnStep sameHash)
      (turnsOf noMessages [withoutConversation, inConversation 6890])
      (stepsOf 0 (drawAt 10 6800) ++ stepsOf 1 (drawAt 20 6810))).calls.countP
        (TurnPoint.creates retriedRequest) = 2 := by
    decide +kernel
  have stored : ∃ row ∈ (run (turnStep sameHash)
      (turnsOf noMessages [withoutConversation, inConversation 6890])
      (stepsOf 0 (drawAt 10 6800) ++ stepsOf 1 (drawAt 20 6810))).shared.messages.rows,
        row.message.carries retriedRequest = true := by
    decide +kernel
  rcases last with untouched | ⟨rows, turn⟩
  · obtain ⟨row, inside, carried⟩ := stored
    rw [untouched.uncarried row inside] at carried
    cases carried
  · have once := turn.creator
    rw [twice] at once
    cases once

end AverQel.DeepSpace.Chat
