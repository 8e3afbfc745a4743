/- digest: When receipts only advance, no sender gets one, and every reaction is applied. -/
import AverQel.SealedChat.MemberActions

namespace AverQel.SealedChat

open Foundation Transition Interleaving

def DeliveryStatus.rank : DeliveryStatus → Nat
  | .pending => 0
  | .delivered => 1
  | .read => 2

def Advances (before after : ReceiptTables) : Prop :=
  ∀ delivery ∈ before.deliveries.rows, ∃ later ∈ after.deliveries.rows,
    later.address = delivery.address ∧ delivery.status.rank ≤ later.status.rank

def OthersOnly (tables : ReceiptTables) : Prop :=
  ∀ delivery ∈ tables.deliveries.rows, ∀ row ∈ tables.messages.rows,
    row.id = delivery.messageId → row.userId ≠ delivery.userId

def toggleOwn (current : Option String) (reaction : String) : Option String :=
  if current = some reaction then none else some reaction

def reactionAfter (toggles : List Toggle) (messageId : Nat) (userId : String)
    (current : Option String) : Option String :=
  ((toggles.filter fun toggle => toggle.messageId = messageId ∧ toggle.userId = userId).map
    Toggle.reaction).foldl toggleOwn current

def ReactionsApplied (start tables : ReceiptTables) : Prop :=
  ∀ before ∈ start.messages.rows, ∀ row ∈ tables.messages.rows, row.id = before.id →
    ∀ userId, row.reactions.lookup userId =
      reactionAfter tables.toggled row.id userId (before.reactions.lookup userId)

def Agrees (userId reaction : String) (seen stored : Reactions) : Prop :=
  (∀ other, other ≠ userId → seen.lookup other = stored.lookup other) ∧
    (seen.lookup userId = some reaction ↔ stored.lookup userId = some reaction)

theorem agrees_of_keys {userId reaction : String} {seen stored : Reactions} :
    ((∀ other ∈ (seen ++ stored).map Prod.fst, other ≠ userId →
        seen.lookup other = stored.lookup other) ∧
      (seen.lookup userId = some reaction ↔ stored.lookup userId = some reaction)) ↔
    Agrees userId reaction seen stored := by
  refine and_congr_left fun _ => ⟨fun keys other apart => ?_, fun all other _ => all other⟩
  by_cases listed : other ∈ (seen ++ stored).map Prod.fst
  · exact keys other listed apart
  · have absent : ∀ entry ∈ seen ++ stored, (other == entry.1) = false := by
      intro entry member
      refine beq_eq_false_iff_ne.mpr ?_
      rintro rfl
      exact listed (List.mem_map_of_mem member)
    rw [List.lookup_eq_none_iff.mpr fun entry member =>
        by simpa using absent entry (List.mem_append_left _ member),
      List.lookup_eq_none_iff.mpr fun entry member =>
        by simpa using absent entry (List.mem_append_right _ member)]

instance (userId reaction : String) (seen stored : Reactions) :
    Decidable (Agrees userId reaction seen stored) :=
  decidable_of_iff _ agrees_of_keys

def SocketPoint.reaction : SocketPoint → Option (Nat × String × Reactions)
  | .reacting messageId reaction seen => some (messageId, reaction, seen)
  | _ => none

def SocketPoint.delivery : SocketPoint → Option (Nat × Option DeliveryStatus)
  | .delivering messageId known => some (messageId, known)
  | _ => none

def SocketTurn.steps : SocketTurn → Bool
  | .step _ => true
  | _ => false

/-- The condition on a commit. A reaction is stored with what was seen of the others still so, and
in a text that fits. A receipt is not marked as delivered once it is read, unless it was found
delivered, and the sender makes none. -/
def MemberSocket.CommitsCleanly (tables : ReceiptTables) (socket : MemberSocket) : Prop :=
  (∀ pending ∈ socket.point.reaction, ∀ row ∈ tables.messages.find? pending.1,
    Agrees socket.userId.text pending.2.1 pending.2.2 row.reactions ∧
      reactionsFit (toggleReaction pending.2.2 socket.userId.text pending.2.1) = true) ∧
  ∀ pending ∈ socket.point.delivery,
    (∀ before ∈ pending.2, before ≠ .delivered →
      ∀ delivery ∈ tables.deliveries.find? (pending.1, socket.userId, socket.deviceId),
        delivery.status ≠ .read) ∧
    (pending.2 = none →
      tables.deliveries.find? (pending.1, socket.userId, socket.deviceId) = none →
        ∀ row ∈ tables.messages.find? pending.1, row.userId ≠ socket.userId)

instance (tables : ReceiptTables) (socket : MemberSocket) : Decidable (socket.CommitsCleanly tables) := by
  delta MemberSocket.CommitsCleanly
  infer_instance

def CarefulActions (system : ReceiptSystem) (turn : Nat × SocketTurn) : Prop :=
  turn.2.steps = true → ∀ socket ∈ system.calls[turn.1]?, socket.CommitsCleanly system.shared

instance (system : ReceiptSystem) (turn : Nat × SocketTurn) :
    Decidable (CarefulActions system turn) := by
  delta CarefulActions
  infer_instance

variable {start tables : ReceiptTables} {messageId : Nat} {userId reaction : String}
variable {seen stored : Reactions}

theorem lookup_cons_ite (entry : String × String) (rest : Reactions) (other : String) :
    List.lookup other (entry :: rest) =
      if other = entry.1 then some entry.2 else rest.lookup other := by
  rw [List.lookup_cons]
  by_cases same : other = entry.1
  · rw [if_pos same, beq_iff_eq.mpr same]
  · rw [if_neg same, beq_eq_false_iff_ne.mpr same]

theorem lookup_filter_ne (entries : Reactions) (key other : String) :
    (entries.filter fun entry => entry.1 ≠ key).lookup other =
      if other = key then none else entries.lookup other := by
  induction entries with
  | nil => simp
  | cons entry rest ih =>
    by_cases kept : entry.1 = key
    · rw [List.filter_cons_of_neg (by simpa using kept), ih, lookup_cons_ite, kept]
      by_cases same : other = key
      · rw [if_pos same, if_pos same]
      · rw [if_neg same, if_neg same, if_neg same]
    · rw [List.filter_cons_of_pos (by simpa using kept), lookup_cons_ite, lookup_cons_ite, ih]
      by_cases same : other = key
      · have apart : other ≠ entry.1 := fun eq => kept (eq.symm.trans same)
        rw [if_neg apart, if_pos same, if_pos same]
      · rw [if_neg same, if_neg same]

theorem lookup_map_set (entries : Reactions) (key value other : String) :
    (entries.map fun entry => if entry.1 = key then (key, value) else entry).lookup other =
      if other = key then (entries.lookup key).map fun _ => value else entries.lookup other := by
  induction entries with
  | nil => simp
  | cons entry rest ih =>
    rw [List.map_cons, lookup_cons_ite, lookup_cons_ite, lookup_cons_ite, ih]
    by_cases mine : entry.1 = key
    · rw [if_pos mine, mine, if_pos rfl]
      by_cases same : other = key
      · rw [if_pos same, if_pos same]
        rfl
      · rw [if_neg same, if_neg same, if_neg same, if_neg same]
    · rw [if_neg mine, if_neg (Ne.symm mine)]
      by_cases same : other = key
      · have apart : other ≠ entry.1 := fun eq => mine (eq.symm.trans same)
        rw [if_neg apart, if_pos same, if_pos same]
      · rw [if_neg same, if_neg same]

theorem lookup_toggleReaction (seen : Reactions) (userId reaction other : String) :
    (toggleReaction seen userId reaction).lookup other =
      if other = userId then toggleOwn (seen.lookup userId) reaction else seen.lookup other := by
  unfold toggleReaction toggleOwn
  by_cases same : seen.lookup userId = some reaction
  · rw [if_pos same, if_pos same]
    exact lookup_filter_ne seen userId other
  · rw [if_neg same, if_neg same]
    cases held : seen.lookup userId with
    | some =>
      simp only [Option.isSome_some, if_true]
      rw [lookup_map_set, held]
      rfl
    | none =>
      simp only [Option.isSome_none, Bool.false_eq_true, if_false]
      rw [List.lookup_append]
      by_cases mine : other = userId
      · rw [mine, held, if_pos rfl]
        simp
      · rw [if_neg mine]
        have apart : (other == userId) = false := beq_eq_false_iff_ne.mpr mine
        simp [apart]

theorem toggleOwn_ne (current : Option String) (reaction : String) :
    toggleOwn current reaction ≠ current := by
  unfold toggleOwn
  split
  · rename_i same
    rw [same]
    exact (Option.some_ne_none reaction).symm
  · rename_i other
    exact fun same => other same.symm

theorem toggleOwn_eq_iff (first second : Option String) (reaction : String) :
    toggleOwn first reaction = toggleOwn second reaction ↔
      (first = some reaction ↔ second = some reaction) := by
  unfold toggleOwn
  by_cases one : first = some reaction <;> by_cases two : second = some reaction <;>
    simp [one, two]

theorem stored_agrees_iff : Agrees userId reaction seen stored ↔
    ∀ other, (toggleReaction seen userId reaction).lookup other =
      if other = userId then toggleOwn (stored.lookup userId) reaction
      else stored.lookup other := by
  constructor
  · rintro ⟨others, own⟩ other
    rw [lookup_toggleReaction]
    by_cases mine : other = userId
    · rw [if_pos mine, if_pos mine]
      exact (toggleOwn_eq_iff _ _ _).mpr own
    · rw [if_neg mine, if_neg mine]
      exact others other mine
  · intro all
    constructor
    · intro other apart
      have here := all other
      rwa [lookup_toggleReaction, if_neg apart, if_neg apart] at here
    · have here := all userId
      rw [lookup_toggleReaction, if_pos rfl, if_pos rfl] at here
      exact (toggleOwn_eq_iff _ _ _).mp here

theorem reactionAfter_append (toggles : List Toggle) (toggle : Toggle) (messageId : Nat)
    (other : String) (current : Option String) :
    reactionAfter (toggles ++ [toggle]) messageId other current =
      if toggle.messageId = messageId ∧ toggle.userId = other then
        toggleOwn (reactionAfter toggles messageId other current) toggle.reaction
      else reactionAfter toggles messageId other current := by
  unfold reactionAfter
  by_cases here : toggle.messageId = messageId ∧ toggle.userId = other
  · have kept : [toggle].filter (fun next => next.messageId = messageId ∧ next.userId = other) =
        [toggle] := List.filter_eq_self.mpr fun next member => by
      rw [List.mem_singleton.mp member]
      exact decide_eq_true here
    rw [if_pos here, List.filter_append, kept, List.map_append, List.foldl_append]
    rfl
  · have dropped : [toggle].filter (fun next => next.messageId = messageId ∧ next.userId = other) =
        [] := List.filter_eq_nil_iff.mpr fun next member => by
      rw [List.mem_singleton.mp member]
      simpa using here
    rw [if_neg here, List.filter_append, dropped, List.append_nil]

def Rooted (start tables : ReceiptTables) : Prop :=
  ∀ row ∈ tables.messages.rows, ∃ before ∈ start.messages.rows,
    before.id = row.id ∧ before.userId = row.userId

theorem mem_storeReaction {row : ChatRow}
    (member : row ∈ (tables.storeReaction messageId userId reaction seen).messages.rows) :
    ∃ old ∈ tables.messages.rows, old.id = row.id ∧ old.userId = row.userId ∧
      (row = old ∧ (old.id = messageId →
          reactionsFit (toggleReaction seen userId reaction) = false) ∨
        old.id = messageId ∧ reactionsFit (toggleReaction seen userId reaction) = true ∧
          row.reactions = toggleReaction seen userId reaction) := by
  unfold ReceiptTables.storeReaction at member
  cases fits : reactionsFit (toggleReaction seen userId reaction) with
  | false =>
    simp only [fits, Bool.false_eq_true, if_false] at member
    exact ⟨row, member, rfl, rfl, .inl ⟨rfl, fun _ => rfl⟩⟩
  | true =>
    simp only [fits, if_true] at member
    obtain ⟨old, stored, rfl⟩ := Table.mem_modify.mp member
    refine ⟨old, stored, ?_⟩
    by_cases here : old.id = messageId
    · rw [if_pos here]
      exact ⟨rfl, rfl, .inr ⟨here, rfl, rfl⟩⟩
    · rw [if_neg here]
      exact ⟨rfl, rfl, .inl ⟨rfl, fun same => absurd same here⟩⟩

theorem othersOnly_storeReaction (only : OthersOnly tables) :
    OthersOnly (tables.storeReaction messageId userId reaction seen) := by
  intro delivery member row stored same
  obtain ⟨old, held, id, author, _⟩ := mem_storeReaction stored
  rw [← author]
  exact only delivery member old held (id.trans same)

variable (messageId userId reaction seen) in
theorem reactionsApplied_storeReaction_iff (rooted : Rooted start tables)
    (applied : ReactionsApplied start tables) :
    ReactionsApplied start (tables.storeReaction messageId userId reaction seen) ↔
      ∀ row ∈ tables.messages.find? messageId, Agrees userId reaction seen row.reactions ∧
        reactionsFit (toggleReaction seen userId reaction) = true := by
  have after : ∀ id other current,
      reactionAfter (tables.storeReaction messageId userId reaction seen).toggled id other current =
        if messageId = id ∧ userId = other then
          toggleOwn (reactionAfter tables.toggled id other current) reaction
        else reactionAfter tables.toggled id other current :=
    fun id other current => reactionAfter_append tables.toggled ⟨messageId, userId, reaction⟩ id
      other current
  constructor
  · intro holds row found
    obtain ⟨stored, id⟩ := Table.find?_eq_some_iff.mp found
    obtain ⟨before, started, same, _⟩ := rooted row stored
    have held := applied before started row stored same.symm
    cases fits : reactionsFit (toggleReaction seen userId reaction) with
    | false =>
      -- nothing is stored, but the toggle is to be applied
      have kept : row ∈ (tables.storeReaction messageId userId reaction seen).messages.rows := by
        simp only [ReceiptTables.storeReaction, fits, Bool.false_eq_true, if_false]
        exact stored
      have own := holds before started row kept same.symm userId
      rw [after, if_pos ⟨id.symm, rfl⟩, ← held userId] at own
      exact absurd own.symm (toggleOwn_ne _ _)
    | true =>
      have changed : { row with reactions := toggleReaction seen userId reaction } ∈
          (tables.storeReaction messageId userId reaction seen).messages.rows := by
        simp only [ReceiptTables.storeReaction, fits, if_true]
        exact Table.mem_modify.mpr ⟨row, stored, if_pos id⟩
      refine ⟨stored_agrees_iff.mpr fun other => ?_, rfl⟩
      have here := holds before started _ changed same.symm other
      rw [after, ← held other] at here
      refine here.trans ?_
      by_cases mine : other = userId
      · rw [if_pos mine, if_pos ⟨id.symm, mine.symm⟩, mine]
      · rw [if_neg mine, if_neg fun both => mine both.2.symm]
  · intro careful before started row member same other
    obtain ⟨old, stored, id, _, kept | ⟨here, fits, written⟩⟩ := mem_storeReaction member
    · obtain ⟨rfl, unfit⟩ := kept
      have apart : messageId ≠ row.id := by
        intro named
        have found := Table.find?_eq_some_iff.mpr ⟨stored, named.symm⟩
        have wrong := (careful row found).2
        rw [unfit named.symm] at wrong
        cases wrong
      rw [after, if_neg fun both => apart both.1]
      exact applied before started row stored same other
    · have found := Table.find?_eq_some_iff.mpr ⟨stored, here⟩
      have agreed := stored_agrees_iff.mp (careful old found).1 other
      have held := applied before started old stored (id.trans same) other
      rw [after, written, agreed, ← id, ← held]
      by_cases mine : other = userId
      · rw [if_pos mine, if_pos ⟨here.symm, mine.symm⟩, mine]
      · rw [if_neg mine, if_neg fun both => mine both.2.symm]

variable {tables' : ReceiptTables} {userId : UuidText} {deviceId : String}
variable {status : DeliveryStatus} {now : Time} {entry : Nat × Option DeliveryStatus}

theorem advances_refl (tables : ReceiptTables) : Advances tables tables :=
  fun delivery member => ⟨delivery, member, rfl, le_rfl⟩

theorem advances_trans (a b c : ReceiptTables) (first : Advances a b) (second : Advances b c) :
    Advances a c := by
  intro delivery member
  obtain ⟨middle, there, same, rank⟩ := first delivery member
  obtain ⟨later, last, again, further⟩ := second middle there
  exact ⟨later, last, again.trans same, rank.trans further⟩

theorem putReceipt_cases
    (put : ReceiptTables.putReceipt userId deviceId status now tables entry = some tables') :
    tables'.messages = tables.messages ∧ tables'.toggled = tables.toggled ∧
      ((entry.2 = none ∧ tables.deliveries.find? (entry.1, userId, deviceId) = none ∧
          ∃ added : ChatDelivery, added.address = (entry.1, userId, deviceId) ∧
            tables'.deliveries.rows = tables.deliveries.rows ++ [added]) ∨
        ∃ before, entry.2 = some before ∧
          ∀ delivery, delivery ∈ tables'.deliveries.rows ↔ ∃ old ∈ tables.deliveries.rows,
            (if old.address = (entry.1, userId, deviceId) then
              ChatDelivery.advance before status now old else old) = delivery) := by
  obtain ⟨messageId, known⟩ := entry
  cases known with
  | none =>
    obtain ⟨deliveries, inserted, rfl⟩ := Option.map_eq_some_iff.mp put
    have address : ((⟨messageId, userId, deviceId, status, none, none⟩ : ChatDelivery).stamp status
        now).address = (messageId, userId, deviceId) := by
      cases status <;> rfl
    refine ⟨rfl, rfl, .inl ⟨rfl, ?_, _, address, Table.rows_of_insert? inserted⟩⟩
    refine Table.find?_eq_none_iff.mpr fun delivery member => ?_
    rw [← address]
    exact Table.fresh_of_insert? inserted member
  | some before =>
    simp only [ReceiptTables.putReceipt] at put
    split at put
    · cases put
      exact ⟨rfl, rfl, .inr ⟨before, rfl, fun delivery => List.mem_map⟩⟩
    · cases put

theorem overtaken_of_putReceipt
    (put : ReceiptTables.putReceipt userId deviceId status now tables entry = none) :
    (entry.2 = none → tables.deliveries.find? (entry.1, userId, deviceId) ≠ none) ∧
      ∀ before ∈ entry.2, tables.deliveries.find? (entry.1, userId, deviceId) = none := by
  obtain ⟨messageId, known⟩ := entry
  cases known with
  | none =>
    refine ⟨fun _ free => ?_, fun before found => (by cases found)⟩
    have address : ((⟨messageId, userId, deviceId, status, none, none⟩ : ChatDelivery).stamp status
        now).address = (messageId, userId, deviceId) := by
      cases status <;> rfl
    have fresh : ((⟨messageId, userId, deviceId, status, none, none⟩ : ChatDelivery).stamp status
        now).address ∉ tables.deliveries.rows.map ChatDelivery.address := by
      rw [address]
      intro taken
      obtain ⟨delivery, member, same⟩ := List.mem_map.mp taken
      exact Table.find?_eq_none_iff.mp free delivery member same
    obtain ⟨deliveries, inserted, _⟩ := Table.insert?_of_fresh fresh
    rw [ReceiptTables.putReceipt, inserted] at put
    cases put
  | some before =>
    refine ⟨fun missing => (by cases missing), fun _ _ => ?_⟩
    simp only [ReceiptTables.putReceipt] at put
    split at put
    · cases put
    · rename_i absent
      simpa using absent

theorem rank_advance (before : DeliveryStatus) (delivery : ChatDelivery) :
    (ChatDelivery.advance before status now delivery).status =
      if before = status then delivery.status else status := by
  cases status <;> rfl

theorem advances_putReceipt_iff
    (put : ReceiptTables.putReceipt userId deviceId status now tables entry = some tables') :
    Advances tables tables' ↔ ∀ before ∈ entry.2, before ≠ status →
      ∀ delivery ∈ tables.deliveries.find? (entry.1, userId, deviceId),
        delivery.status.rank ≤ status.rank := by
  obtain ⟨_, _, ⟨missing, _, added, _, rows⟩ | ⟨before, known, written⟩⟩ := putReceipt_cases put
  · constructor
    · intro _ before found
      rw [missing] at found
      cases found
    · intro _ delivery member
      refine ⟨delivery, ?_, rfl, le_rfl⟩
      rw [rows]
      exact List.mem_append_left _ member
  · constructor
    · intro advances other found changes delivery stored
      obtain rfl : before = other := Option.some.inj (known.symm.trans found)
      obtain ⟨member, address⟩ := Table.find?_eq_some_iff.mp stored
      obtain ⟨later, there, same, rank⟩ := advances delivery member
      obtain ⟨old, held, rfl⟩ := (written later).mp there
      have mine : old.address = (entry.1, userId, deviceId) := by
        by_cases here : old.address = (entry.1, userId, deviceId)
        · exact here
        · rw [if_neg here] at same
          exact same.trans address
      rw [if_pos mine, rank_advance, if_neg changes] at rank
      exact rank
    · intro careful delivery member
      by_cases here : delivery.address = (entry.1, userId, deviceId)
      · refine ⟨_, (written _).mpr ⟨delivery, member, rfl⟩, ?_⟩
        rw [if_pos here]
        refine ⟨ChatDelivery.address_advance before status now delivery, ?_⟩
        rw [rank_advance]
        split
        · exact le_rfl
        · rename_i changes
          exact careful before known changes delivery (Table.find?_eq_some_iff.mpr ⟨member, here⟩)
      · exact ⟨delivery, (written _).mpr ⟨delivery, member, if_neg here⟩, rfl, le_rfl⟩

theorem othersOnly_putReceipt_iff (only : OthersOnly tables)
    (put : ReceiptTables.putReceipt userId deviceId status now tables entry = some tables') :
    OthersOnly tables' ↔ (entry.2 = none → ∀ row ∈ tables.messages.find? entry.1,
      row.userId ≠ userId) := by
  obtain ⟨messages, _, ⟨missing, _, added, address, rows⟩ | ⟨before, known, written⟩⟩ :=
    putReceipt_cases put
  · have parts : added.messageId = entry.1 ∧ added.userId = userId :=
      ⟨(Prod.ext_iff.mp address).1, (Prod.ext_iff.mp (Prod.ext_iff.mp address).2).1⟩
    constructor
    · intro others _ row found
      obtain ⟨stored, id⟩ := Table.find?_eq_some_iff.mp found
      have inside : added ∈ tables'.deliveries.rows := by
        rw [rows]
        exact List.mem_append_right _ (List.mem_singleton_self added)
      have apart := others added inside row (messages ▸ stored) (id.trans parts.1.symm)
      rwa [parts.2] at apart
    · intro careful delivery member row stored same
      rw [rows] at member
      rw [messages] at stored
      rcases List.mem_append.mp member with old | new
      · exact only delivery old row stored same
      · obtain rfl := List.mem_singleton.mp new
        rw [parts.2]
        exact careful missing row
          (Table.find?_eq_some_iff.mpr ⟨stored, same.trans parts.1⟩)
  · constructor
    · intro _ missing
      rw [known] at missing
      cases missing
    · intro _ delivery member row stored same
      rw [messages] at stored
      obtain ⟨old, held, rfl⟩ := (written delivery).mp member
      have address : old.address = (if old.address = (entry.1, userId, deviceId) then
          ChatDelivery.advance before status now old else old).address := by
        split
        · exact (ChatDelivery.address_advance before status now old).symm
        · rfl
      obtain ⟨id, rest⟩ := Prod.ext_iff.mp address
      have user := (Prod.ext_iff.mp rest).1
      have apart := only old held row stored (same.trans id.symm)
      exact fun eq => apart (eq.trans user.symm)

theorem unchanged_of_foldlM {entries : List (Nat × Option DeliveryStatus)}
    (put : entries.foldlM (ReceiptTables.putReceipt userId deviceId status now) tables =
      some tables') : tables'.messages = tables.messages ∧ tables'.toggled = tables.toggled := by
  induction entries generalizing tables with
  | nil =>
    cases put
    exact ⟨rfl, rfl⟩
  | cons entry rest ih =>
    rw [List.foldlM_cons] at put
    obtain ⟨middle, first, later⟩ := Option.bind_eq_some_iff.mp put
    obtain ⟨messages, toggled, _⟩ := putReceipt_cases first
    obtain ⟨messages', toggled'⟩ := ih later
    exact ⟨messages'.trans messages, toggled'.trans toggled⟩

theorem advances_of_read {entries : List (Nat × Option DeliveryStatus)} (only : OthersOnly tables)
    (others : ∀ entry ∈ entries, ∀ row ∈ tables.messages.rows, row.id = entry.1 →
      row.userId ≠ userId)
    (put : entries.foldlM (ReceiptTables.putReceipt userId deviceId .read now) tables =
      some tables') : Advances tables tables' ∧ OthersOnly tables' := by
  induction entries generalizing tables with
  | nil =>
    cases put
    exact ⟨advances_refl _, only⟩
  | cons entry rest ih =>
    rw [List.foldlM_cons] at put
    obtain ⟨middle, first, later⟩ := Option.bind_eq_some_iff.mp put
    have forward : Advances tables middle :=
      (advances_putReceipt_iff first).mpr fun _ _ _ delivery _ => by
        cases delivery.status <;> decide
    have still : OthersOnly middle := by
      refine (othersOnly_putReceipt_iff only first).mpr fun _ row found => ?_
      obtain ⟨stored, id⟩ := Table.find?_eq_some_iff.mp found
      exact others entry List.mem_cons_self row stored id
    have same := (putReceipt_cases first).1
    obtain ⟨further, done⟩ := ih still (fun next member row stored =>
      others next (List.mem_cons_of_mem entry member) row (same ▸ stored)) later
    exact ⟨advances_trans _ _ _ forward further, done⟩

variable {system : ReceiptSystem} {socket : MemberSocket}

def SocketPoint.collected : SocketPoint → List Nat
  | .collecting rest known => rest ++ known.map Prod.fst
  | _ => []

structure Handling (start : ReceiptTables) (system : ReceiptSystem) : Prop where
  rooted : Rooted start system.shared
  others : ∀ socket ∈ system.calls, ∀ id ∈ socket.point.collected,
    ∀ row ∈ system.shared.messages.rows, row.id = id → row.userId ≠ socket.userId

theorem reactionsApplied_congr {start tables tables' : ReceiptTables}
    (messages : tables'.messages = tables.messages)
    (toggled : tables'.toggled = tables.toggled) :
    ReactionsApplied start tables' ↔ ReactionsApplied start tables := by
  unfold ReactionsApplied
  rw [messages, toggled]

variable (socket tables) in
theorem putReceipts_unchanged (status : DeliveryStatus) (now : Time)
    (entries : List (Nat × Option DeliveryStatus)) :
    (socket.putReceipts tables status now entries).1.messages = tables.messages ∧
      (socket.putReceipts tables status now entries).1.toggled = tables.toggled := by
  unfold MemberSocket.putReceipts
  simp only
  split
  · rename_i written put
    exact unchanged_of_foldlM put
  · exact ⟨rfl, rfl⟩

/-- A step of a handler keeps all three in exactly the cases of its condition. -/
theorem step_iff (rooted : Rooted start tables) (only : OthersOnly tables)
    (applied : ReactionsApplied start tables)
    (others : ∀ id ∈ socket.point.collected, ∀ row ∈ tables.messages.rows, row.id = id →
      row.userId ≠ socket.userId) (now : Time) :
    (Advances tables (socket.step tables now).1 ∧ OthersOnly (socket.step tables now).1 ∧
      ReactionsApplied start (socket.step tables now).1) ↔ socket.CommitsCleanly tables := by
  have quiet : (socket.step tables now).1 = tables → socket.point.reaction = none →
      socket.point.delivery = none →
      ((Advances tables (socket.step tables now).1 ∧ OthersOnly (socket.step tables now).1 ∧
        ReactionsApplied start (socket.step tables now).1) ↔ socket.CommitsCleanly tables) := by
    intro same noReaction noDelivery
    rw [same]
    refine iff_of_true ⟨advances_refl tables, only, applied⟩ ⟨?_, ?_⟩
    · intro pending found
      rw [noReaction] at found
      cases found
    · intro pending found
      rw [noDelivery] at found
      cases found
  obtain ⟨userId, deviceId, session, point⟩ := socket
  cases point with
  | idle | closed | finding => exact quiet rfl rfl rfl
  | reacting messageId reaction seen =>
    have exact_reaction :=
      reactionsApplied_storeReaction_iff messageId userId.text reaction seen rooted applied
    constructor
    · rintro ⟨_, _, after⟩
      refine ⟨?_, fun pending found => (by cases found)⟩
      rintro _ ⟨⟩ row found
      exact exact_reaction.mp after row found
    · rintro ⟨careful, _⟩
      exact ⟨advances_refl tables, othersOnly_storeReaction only,
        exact_reaction.mpr (careful _ rfl)⟩
  | delivering messageId known =>
    have single : [(messageId, known)].foldlM
        (ReceiptTables.putReceipt userId deviceId .delivered now) tables =
          ReceiptTables.putReceipt userId deviceId .delivered now tables (messageId, known) := by
      rw [List.foldlM_cons]
      exact Option.bind_fun_some _
    have noReaction : ∀ pending ∈ (SocketPoint.delivering messageId known).reaction,
        ∀ row ∈ tables.messages.find? pending.1,
          Agrees userId.text pending.2.1 pending.2.2 row.reactions ∧
            reactionsFit (toggleReaction pending.2.2 userId.text pending.2.1) = true := by
      intro pending found
      cases found
    simp only [MemberSocket.step, MemberSocket.putReceipts, single]
    cases put : ReceiptTables.putReceipt userId deviceId .delivered now tables
        (messageId, known) with
    | none =>
      obtain ⟨taken, gone⟩ := overtaken_of_putReceipt put
      refine iff_of_true ⟨advances_refl tables, only, applied⟩ ⟨noReaction, ?_⟩
      rintro _ ⟨⟩
      constructor
      · intro before found _ delivery stored
        rw [gone before found] at stored
        cases stored
      · exact fun missing free => absurd free (taken missing)
    | some written =>
      obtain ⟨messages, toggled, place⟩ := putReceipt_cases put
      have free : known = none →
          tables.deliveries.find? (messageId, userId, deviceId) = none := by
        intro missing
        rcases place with ⟨_, free, _⟩ | ⟨before, found, _⟩
        · exact free
        · cases missing.symm.trans found
      have late : ∀ status : DeliveryStatus,
          status.rank ≤ DeliveryStatus.rank .delivered ↔ status ≠ .read := by
        intro status
        cases status <;> decide
      show Advances tables written ∧ OthersOnly written ∧ ReactionsApplied start written ↔ _
      rw [advances_putReceipt_iff put, othersOnly_putReceipt_iff only put,
        reactionsApplied_congr messages toggled]
      constructor
      · rintro ⟨forward, others, _⟩
        refine ⟨noReaction, ?_⟩
        rintro _ ⟨⟩
        exact ⟨fun before found changes delivery stored =>
          (late _).mp (forward before found changes delivery stored), fun missing _ => others missing⟩
      · rintro ⟨_, careful⟩
        obtain ⟨forward, others⟩ := careful _ rfl
        exact ⟨fun before found changes delivery stored =>
          (late _).mpr (forward before found changes delivery stored),
          fun missing => others missing (free missing), applied⟩
  | collecting rest known =>
    cases rest with
    | cons => exact quiet rfl rfl rfl
    | nil =>
      refine iff_of_true ?_ ⟨fun pending found => (by cases found), fun pending found => (by cases found)⟩
      have unchanged := putReceipts_unchanged
        tables ⟨userId, deviceId, session, .collecting [] known⟩ .read now known
      refine and_assoc.mp ⟨?_, (reactionsApplied_congr unchanged.1 unchanged.2).mpr applied⟩
      simp only [MemberSocket.step, MemberSocket.putReceipts]
      split
      · rename_i written put
        refine advances_of_read only (fun entry member row stored id => ?_) put
        exact others entry.1 (List.mem_map_of_mem member) row stored id
      · exact ⟨advances_refl tables, only⟩

theorem rooted_step (rooted : Rooted start tables) (now : Time) :
    Rooted start (socket.step tables now).1 := by
  have same : (socket.step tables now).1.messages = tables.messages →
      Rooted start (socket.step tables now).1 := by
    intro messages
    unfold Rooted
    rw [messages]
    exact rooted
  obtain ⟨userId, deviceId, session, point⟩ := socket
  cases point with
  | idle | closed | finding => exact rooted
  | reacting =>
    intro row member
    obtain ⟨old, stored, id, author, _⟩ := mem_storeReaction member
    obtain ⟨before, started, same, sender⟩ := rooted old stored
    exact ⟨before, started, same.trans id, sender.trans author⟩
  | delivering => exact same (putReceipts_unchanged tables _ .delivered now _).1
  | collecting rest =>
    cases rest with
    | nil => exact same (putReceipts_unchanged tables _ .read now _).1
    | cons => exact rooted

theorem senders_step (now : Time) :
    ∀ row ∈ (socket.step tables now).1.messages.rows,
      ∃ old ∈ tables.messages.rows, old.id = row.id ∧ old.userId = row.userId :=
  rooted_step (fun row member => ⟨row, member, rfl, rfl⟩) now

variable (socket) in
theorem receive_spec (tables : ReceiptTables) (action : MemberAction) :
    (socket.receive tables action).userId = socket.userId ∧
      ∀ id ∈ (socket.receive tables action).point.collected, id ∈ socket.point.collected ∨
        id ∈ (tables.messages.rows.filter fun row => row.userId ≠ socket.userId).map ChatRow.id := by
  cases action with
  | other => exact ⟨rfl, fun id member => .inl member⟩
  | react message =>
    simp only [MemberSocket.receive]
    split
    · exact ⟨rfl, fun id member => .inl member⟩
    · cases message with
      | missing => exact ⟨rfl, fun id member => .inl member⟩
      | malformed => exact ⟨rfl, fun id member => absurd member List.not_mem_nil⟩
      | id messageId =>
        refine ⟨rfl, fun id member => ?_⟩
        cases found : tables.messages.find? messageId <;> simp only [found] at member <;>
          exact absurd member List.not_mem_nil
  | delivered message =>
    cases message with
    | missing => exact ⟨rfl, fun id member => .inl member⟩
    | malformed => exact ⟨rfl, fun id member => absurd member List.not_mem_nil⟩
    | id messageId =>
      refine ⟨rfl, fun id member => ?_⟩
      simp only [MemberSocket.receive] at member
      cases found : tables.messages.find? messageId <;> simp only [found] at member <;>
        exact absurd member List.not_mem_nil
  | read =>
    refine ⟨rfl, fun id member => .inr ?_⟩
    simp only [MemberSocket.receive] at member
    split at member
    · exact absurd member List.not_mem_nil
    · simpa [SocketPoint.collected] using member

variable (socket) in
theorem step_spec (tables : ReceiptTables) (now : Time) :
    (socket.step tables now).2.userId = socket.userId ∧
      ∀ id ∈ (socket.step tables now).2.point.collected, id ∈ socket.point.collected := by
  have put : ∀ status entries,
      (socket.putReceipts tables status now entries).2.userId = socket.userId ∧
        ∀ id ∈ (socket.putReceipts tables status now entries).2.point.collected,
          id ∈ socket.point.collected := by
    intro status entries
    simp only [MemberSocket.putReceipts]
    split <;> exact ⟨rfl, fun id member => absurd member List.not_mem_nil⟩
  obtain ⟨userId, deviceId, session, point⟩ := socket
  cases point with
  | idle | closed => exact ⟨rfl, fun id member => member⟩
  | finding => exact ⟨rfl, fun id member => absurd member List.not_mem_nil⟩
  | reacting =>
    simp only [MemberSocket.step]
    split <;> exact ⟨rfl, fun id member => absurd member List.not_mem_nil⟩
  | delivering => exact put .delivered _
  | collecting rest known =>
    cases rest with
    | nil => exact put .read known
    | cons =>
      refine ⟨rfl, fun id member => ?_⟩
      simp only [MemberSocket.step, SocketPoint.collected, List.map_append, List.map_cons,
        List.map_nil, List.mem_append, List.mem_cons] at member ⊢
      tauto

theorem others_next {turn : SocketTurn}
    (others : ∀ id ∈ socket.point.collected, ∀ row ∈ tables.messages.rows, row.id = id →
      row.userId ≠ socket.userId) :
    ∀ id ∈ (socket.next turn tables).2.point.collected, ∀ row ∈ tables.messages.rows,
      row.id = id → row.userId ≠ (socket.next turn tables).2.userId := by
  cases turn with
  | close => exact fun id member => absurd member List.not_mem_nil
  | step now =>
    obtain ⟨user, collected⟩ := step_spec socket tables now
    intro id member row stored same
    rw [show (socket.next (.step now) tables).2.userId = socket.userId from user]
    exact others id (collected id member) row stored same
  | receive action =>
    obtain ⟨user, collected⟩ := receive_spec socket tables action
    simp only [MemberSocket.next]
    split
    · intro id member row stored same
      rw [user]
      rcases collected id member with old | new
      · exact others id old row stored same
      · obtain ⟨other, kept, named⟩ := List.mem_map.mp new
        obtain ⟨inside, apart⟩ := List.mem_filter.mp kept
        have equal : row = other :=
          tables.messages.eq_of_key_eq stored inside (same.trans named.symm)
        rw [equal]
        exact of_decide_eq_true apart
    · exact others

theorem handling_step (handling : Handling start system) (turn : Nat × SocketTurn) :
    Handling start (ReceiptSystem.step system turn) := by
  unfold ReceiptSystem.step
  cases here : system.calls[turn.1]? with
  | none =>
    rw [advance_of_none _ _ here]
    exact handling
  | some socket =>
    rw [advance_of_free _ _ here (blocked_of_lockFree system turn.1 _)]
    have mine := handling.others socket (List.mem_of_getElem? here)
    have senders : ∀ row ∈ (socket.next turn.2 system.shared).1.messages.rows,
        ∃ old ∈ system.shared.messages.rows, old.id = row.id ∧ old.userId = row.userId := by
      cases turn.2 with
      | step now => exact senders_step now
      | close => exact fun row member => ⟨row, member, rfl, rfl⟩
      | receive =>
        simp only [MemberSocket.next]
        split <;> exact fun row member => ⟨row, member, rfl, rfl⟩
    constructor
    · intro row member
      obtain ⟨old, stored, id, author⟩ := senders row member
      obtain ⟨before, started, same, sender⟩ := handling.rooted old stored
      exact ⟨before, started, same.trans id, sender.trans author⟩
    · intro other inside id collected row member same
      obtain ⟨old, stored, named, author⟩ := senders row member
      rw [← author]
      rcases List.mem_or_eq_of_mem_set inside with before | rfl
      · exact handling.others other before id collected old stored (named.trans same)
      · exact others_next mine id collected old stored (named.trans same)

theorem turn_iff (handling : Handling start system) (only : OthersOnly system.shared)
    (applied : ReactionsApplied start system.shared) (turn : Nat × SocketTurn) :
    (Advances system.shared (ReceiptSystem.step system turn).shared ∧
      OthersOnly (ReceiptSystem.step system turn).shared ∧
        ReactionsApplied start (ReceiptSystem.step system turn).shared) ↔
      CarefulActions system turn := by
  unfold ReceiptSystem.step CarefulActions
  cases here : system.calls[turn.1]? with
  | none =>
    rw [advance_of_none _ _ here]
    exact iff_of_true ⟨advances_refl _, only, applied⟩ fun _ socket found => by cases found
  | some socket =>
    rw [advance_of_free _ _ here (blocked_of_lockFree system turn.1 _)]
    have mine := handling.others socket (List.mem_of_getElem? here)
    obtain ⟨i, move⟩ := turn
    cases move with
    | close =>
      exact iff_of_true ⟨advances_refl _, only, applied⟩ fun steps => by cases steps
    | receive =>
      refine iff_of_true ?_ fun steps => by cases steps
      simp only [MemberSocket.next]
      split <;> exact ⟨advances_refl _, only, applied⟩
    | step now =>
      have exact_step := step_iff handling.rooted only applied mine now
      constructor
      · rintro after _ _ ⟨⟩
        exact exact_step.mp after
      · intro careful
        exact exact_step.mpr (careful rfl socket rfl)

structure ActionsBegin (system : ReceiptSystem) : Prop where
  idle : ∀ socket ∈ system.calls, socket.point = .idle
  others : OthersOnly system.shared
  untoggled : system.shared.toggled = []

instance (tables : ReceiptTables) : Decidable (OthersOnly tables) := by
  delta OthersOnly
  infer_instance

/-- In every run of any number of sockets, receipts only advance, no sender gets one and every
reaction is applied, exactly when every turn meets the condition. -/
theorem receipts_and_reactions_iff (system : ReceiptSystem) (turns : List (Nat × SocketTurn))
    (begins : ActionsBegin system) :
    ((trace ReceiptSystem.step system turns).Pairwise
        (fun before after => Advances before.shared after.shared) ∧
      ∀ reached ∈ trace ReceiptSystem.step system turns,
        OthersOnly reached.shared ∧ ReactionsApplied system.shared reached.shared) ↔
      Guarded CarefulActions ReceiptSystem.step system turns := by
  have handling : Handling system.shared system := by
    refine ⟨fun row member => ⟨row, member, rfl, rfl⟩, fun socket inside id collected => ?_⟩
    rw [begins.idle socket inside] at collected
    exact absurd collected List.not_mem_nil
  have applied : ReactionsApplied system.shared system.shared := by
    intro before started row stored same userId
    have equal : row = before := system.shared.messages.eq_of_key_eq stored started same
    rw [begins.untoggled, equal]
    rfl
  exact history_iff_guarded (I := Handling system.shared)
    (P := fun s => OthersOnly s.shared ∧ ReactionsApplied system.shared s.shared)
    (fun s t u => advances_trans s.shared t.shared u.shared)
    (fun s turn inv => handling_step inv turn)
    (fun s turn inv holds => turn_iff inv holds.1 holds.2 turn) handling ⟨begins.others, applied⟩

def poster : UuidText := ⟨"d4", UuidText.hyphenated_of_all (by decide)⟩

def listener : UuidText := ⟨"e5", UuidText.hyphenated_of_all (by decide)⟩

def viewer : UuidText := ⟨"c3", UuidText.hyphenated_of_all (by decide)⟩

def postedRow : ChatRow :=
  (⟨poster, "hello", none, false, none, none, none⟩ : ChatPost).plainRow ⟨0, 7, 0, 0, 0⟩

def actionsOf (users : List UuidText) : ReceiptSystem :=
  ⟨⟨Table.single postedRow, Table.empty, []⟩,
    users.map fun userId => ⟨userId, "legacy", ChatSession.fresh, .idle⟩⟩

theorem actionsBegin_actionsOf (users : List UuidText) : ActionsBegin (actionsOf users) where
  idle socket inside := by
    obtain ⟨userId, _, rfl⟩ := List.mem_map.mp inside
    rfl
  others delivery member := absurd member List.not_mem_nil
  untoggled := rfl

def reactTurn (i : Nat) (reaction : String) : Nat × SocketTurn :=
  (i, .receive (.react (.id 7) reaction))

def deliveredTurn (i : Nat) : Nat × SocketTurn := (i, .receive (.delivered (.id 7)))

def readTurn (i : Nat) : Nat × SocketTurn := (i, .receive .read)

def stepTurn (i : Nat) : Nat × SocketTurn := (i, .step 0)

def polite : List (Nat × SocketTurn) :=
  [reactTurn 0 "up", stepTurn 0, deliveredTurn 1, stepTurn 1, stepTurn 1, reactTurn 1 "down",
    stepTurn 1, readTurn 1, stepTurn 1, stepTurn 1]

theorem receipts_and_reactions_iff_polite :
    Guarded CarefulActions ReceiptSystem.step (actionsOf [listener, viewer]) polite ∧
      ((trace ReceiptSystem.step (actionsOf [listener, viewer]) polite).Pairwise
          (fun before after => Advances before.shared after.shared) ∧
        ∀ reached ∈ trace ReceiptSystem.step (actionsOf [listener, viewer]) polite,
          OthersOnly reached.shared ∧
            ReactionsApplied (actionsOf [listener, viewer]).shared reached.shared) := by
  have careful : Guarded CarefulActions ReceiptSystem.step (actionsOf [listener, viewer]) polite := by
    decide +kernel
  exact ⟨careful, (receipts_and_reactions_iff (actionsOf [listener, viewer]) polite
    (actionsBegin_actionsOf _)).mpr careful⟩

def Kept (users : List UuidText) (turns : List (Nat × SocketTurn)) : Prop :=
  ActionsBegin (actionsOf users) →
    (trace ReceiptSystem.step (actionsOf users) turns).Pairwise
        (fun before after => Advances before.shared after.shared) ∧
      ∀ reached ∈ trace ReceiptSystem.step (actionsOf users) turns,
        OthersOnly reached.shared ∧ ReactionsApplied (actionsOf users).shared reached.shared

def overlapping : List (Nat × SocketTurn) :=
  [reactTurn 0 "up", reactTurn 1 "down", stepTurn 0, stepTurn 1]

def repeating : List (Nat × SocketTurn) :=
  [reactTurn 0 "up", stepTurn 0, reactTurn 1 "down", stepTurn 1, reactTurn 0 "up", stepTurn 0]

def belated : List (Nat × SocketTurn) :=
  [readTurn 0, stepTurn 0, stepTurn 0, deliveredTurn 1, stepTurn 1, stepTurn 1]

def echoed : List (Nat × SocketTurn) := [deliveredTurn 0, stepTurn 0, stepTurn 0]

instance (before after : ReceiptTables) : Decidable (Advances before after) := by
  delta Advances
  infer_instance

theorem not_reactionsApplied {start tables : ReceiptTables} (userId : String)
    (lost : ∃ before ∈ start.messages.rows, ∃ row ∈ tables.messages.rows, row.id = before.id ∧
      row.reactions.lookup userId ≠
        reactionAfter tables.toggled row.id userId (before.reactions.lookup userId)) :
    ¬ ReactionsApplied start tables := by
  obtain ⟨before, started, row, stored, same, differs⟩ := lost
  exact fun applied => differs (applied before started row stored same userId)

/-- A reaction is lost to an overlap, and to a session that sees old rows; a receipt goes back from
read to delivered; and a sender has one. -/
theorem not_kept_actions : ¬ Kept [listener, viewer] overlapping ∧
    ¬ Kept [listener, viewer] repeating ∧ ¬ Kept [listener, listener] belated ∧
      ¬ Kept [poster] echoed := by
  refine ⟨fun kept => ?_, fun kept => ?_, fun kept => ?_, fun kept => ?_⟩
  · obtain ⟨_, reached⟩ := kept (actionsBegin_actionsOf _)
    have applied := (reached _ (run_mem_trace ReceiptSystem.step _ _)).2
    exact not_reactionsApplied listener.text (by decide +kernel) applied
  · obtain ⟨_, reached⟩ := kept (actionsBegin_actionsOf _)
    have applied := (reached _ (run_mem_trace ReceiptSystem.step _ _)).2
    exact not_reactionsApplied viewer.text (by decide +kernel) applied
  · obtain ⟨forward, _⟩ := kept (actionsBegin_actionsOf _)
    revert forward
    decide +kernel
  · obtain ⟨_, reached⟩ := kept (actionsBegin_actionsOf _)
    have others := (reached _ (run_mem_trace ReceiptSystem.step _ _)).1
    revert others
    decide +kernel

end AverQel.SealedChat
