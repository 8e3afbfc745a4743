/- digest: When the sends with one client id take effect once, with deliveries, and none fails. -/
import AverQel.SealedChat.ReadableHistory
import AverQel.SealedChat.SendSteps

namespace AverQel.SealedChat

open Foundation Transition Interleaving

variable {env : ChatEnvironment} {author : UuidText} {clientId : String} {texts : List String}
variable {tables' : ChatTables} {row : ChatRow}
variable {system : SendSystem} {call call' : SendCall} {i : Nat}

theorem recording_set (here : system.calls[i]? = some call)
    (before : call.point.recordingId = none) {messageId : Nat}
    (recording : ∃ other ∈ system.calls, other.point.recordingId = some messageId) :
    ∃ other ∈ system.calls.set i call', other.point.recordingId = some messageId := by
  obtain ⟨other, member, records⟩ := recording
  obtain ⟨j, there⟩ := List.mem_iff_getElem?.mp member
  have apart : j ≠ i := by
    rintro rfl
    rw [Option.some.inj (here.symm.trans there), records] at before
    cases before
  exact ⟨other, List.mem_of_getElem? ((getElem?_set_iff here).mpr (.inr ⟨apart, there⟩)), records⟩

theorem sends_set (sending : Sending env author clientId texts system)
    (here : system.calls[i]? = some call) (same : call'.send = call.send) :
    ∀ other ∈ system.calls.set i call', other.send.post.message ∈ texts ∧
      (other.send.post.userId = author → other.By author clientId) := by
  intro other member
  rcases List.mem_or_eq_of_mem_set member with old | rfl
  · exact sending.sends other old
  · have mine := sending.sends call (List.mem_of_getElem? here)
    unfold SendCall.By
    rw [same]
    exact mine

theorem apart_set (sending : Sending env author clientId texts system)
    (here : system.calls[i]? = some call) (after : call'.point.recordingId = none) :
    ∀ (j k : Nat) (a b : SendCall) (messageId : Nat), (system.calls.set i call')[j]? = some a →
      (system.calls.set i call')[k]? = some b → a.point.recordingId = some messageId →
        b.point.recordingId = some messageId → j = k := by
  intro j k a b messageId atJ atK recordsA recordsB
  rcases (getElem?_set_iff here).mp atJ with ⟨_, rfl⟩ | ⟨_, oldJ⟩
  · rw [after] at recordsA
    cases recordsA
  · rcases (getElem?_set_iff here).mp atK with ⟨_, rfl⟩ | ⟨_, oldK⟩
    · rw [after] at recordsB
      cases recordsB
    · exact sending.apart j k a b messageId oldJ oldK recordsA recordsB

theorem sending_of_moved (sending : Sending env author clientId texts system)
    (here : system.calls[i]? = some call)
    (moved : Moved env author clientId system.shared tables' call call') :
    Sending env author clientId texts ⟨tables', system.calls.set i call'⟩ := by
  obtain ⟨send, same, before, after, holds⟩ := moved
  refine ⟨?_, sends_set sending here send, ?_, ?_, apart_set sending here after, ?_⟩
  · show tables'.space.messages.AtMostOne _
    rw [same.messages]
    exact sending.one
  · intro row member listed
    obtain ⟨written, known, done⟩ := sending.rows row (same.messages ▸ member) listed
    exact ⟨written, known, done.imp same.recorded (recording_set here before)⟩
  · intro delivery member
    show _ ∈ tables'.space.messages.rows.map _
    rw [same.messages]
    exact sending.linked delivery (same.deliveries ▸ member)
  · intro other member
    rcases List.mem_or_eq_of_mem_set member with old | rfl
    · exact same.holds (sending.holds other old)
    · exact holds

theorem Inserted.recorded {registered : Option String}
    (inserted : Inserted env system.shared tables' call call' registered row) {other : ChatRow}
    (done : Recorded author system.shared other) : Recorded author tables' other := by
  obtain ⟨⟨deliveries, media⟩, own⟩ := done
  refine ⟨⟨?_, ?_⟩, ?_⟩
  · rw [recipients_eq inserted.members inserted.devices, inserted.deliveries]
    exact deliveries
  · rw [inserted.media]
    exact media
  · rw [inserted.media]
    exact own

theorem registered_of_media {tables : ChatTables} (media : tables'.media = tables.media)
    {post : ChatPost} {registered : Option String} (known : tables.Registered post registered) :
    tables'.Registered post registered := by
  cases registered <;> unfold ChatTables.Registered at known ⊢ <;> rw [media] <;> exact known

theorem Inserted.holds {registered : Option String}
    (inserted : Inserted env system.shared tables' call call' registered row) {send : ChatSend}
    {point : SendPoint} (holds : point.Holds env author clientId system.shared send) :
    point.Holds env author clientId tables' send := by
  have more : ∀ other, other ∈ system.shared.space.messages.rows →
      other ∈ tables'.space.messages.rows := fun other old =>
    (Table.mem_of_insert? inserted.messages).mpr (.inl old)
  cases point with
  | checking | ensuring | indexing => exact registered_of_media inserted.media holds
  | inserting => exact ⟨registered_of_media inserted.media holds.1, holds.2⟩
  | rechecking =>
    obtain ⟨found, looked⟩ := holds
    obtain ⟨id, identified, stored⟩ := Option.bind_eq_some_iff.mp looked
    have there : (tables'.rowOfClient send.post id).isSome := by
      unfold ChatTables.rowOfClient
      exact List.find?_isSome.mpr ⟨found, more found (List.mem_of_find?_eq_some stored),
        by simpa using List.find?_some stored⟩
    obtain ⟨next, found'⟩ := Option.isSome_iff_exists.mp there
    exact ⟨next, by rw [identified]; exact found'⟩
  | recording =>
    obtain ⟨known, ⟨other, member, rest⟩, fresh⟩ := holds
    refine ⟨registered_of_media inserted.media known, ⟨other, more other member, rest⟩, ?_⟩
    rw [inserted.deliveries]
    exact fresh
  | reported report =>
    cases report with
    | sent =>
      intro mine
      obtain ⟨other, member, same, listed, carries, done⟩ := holds mine
      exact ⟨other, more other member, same, listed, carries, inserted.recorded done⟩
    | failed => exact holds.elim
    | _ => trivial
  | _ => trivial

theorem sending_of_inserted (sending : Sending env author clientId texts system)
    (here : system.calls[i]? = some call) {registered : Option String}
    (inserted : Inserted env system.shared tables' call call' registered row) :
    Sending env author clientId texts ⟨tables', system.calls.set i call'⟩ := by
  have added : ∀ other, other ∈ tables'.space.messages.rows ↔
      other ∈ system.shared.space.messages.rows ∨ other = row := fun other =>
    Table.mem_of_insert? inserted.messages
  have fresh : ∀ other ∈ system.shared.space.messages.rows, other.id ≠ row.id := fun other old =>
    Table.fresh_of_insert? inserted.messages old
  have moves := inserted.moves
  have single : row.ofClient author clientId = true →
      ∀ other ∈ system.shared.space.messages.rows, other.ofClient author clientId = true →
        False := by
    intro listed other old same
    simp only [ChatRow.ofClient, decide_eq_true_eq] at listed same
    exact inserted.alone other old (same.1.trans listed.1.symm)
      (by rw [same.2]; rfl) (same.2.trans listed.2.symm)
  refine ⟨?_, sends_set sending here (by rw [moves]), ?_, ?_, ?_, ?_⟩
  · intro a memberA b memberB listedA listedB
    rcases (added a).mp memberA with oldA | rfl <;> rcases (added b).mp memberB with oldB | rfl
    · exact sending.one a oldA b oldB listedA listedB
    · exact (single listedB a oldA listedA).elim
    · exact (single listedA b oldB listedB).elim
    · rfl
  · intro other member listed
    rcases (added other).mp member with old | rfl
    · obtain ⟨written, known, done⟩ := sending.rows other old listed
      exact ⟨written, known, done.imp inserted.recorded (recording_set here inserted.before)⟩
    · obtain ⟨text, _⟩ := sending.sends call (List.mem_of_getElem? here)
      refine ⟨⟨_, inserted.written⟩, inserted.written.carries.1 ▸ text, .inr ⟨call', ?_, ?_⟩⟩
      · exact List.mem_of_getElem? ((getElem?_set_iff here).mpr (.inl ⟨rfl, rfl⟩))
      · rw [moves]
        rfl
  · intro delivery member
    have old := sending.linked delivery (inserted.deliveries ▸ member)
    obtain ⟨other, stored, same⟩ := List.mem_map.mp old
    exact List.mem_map.mpr ⟨other, (added other).mpr (.inl stored), same⟩
  · have others : ∀ (j : Nat) (other : SendCall), system.calls[j]? = some other →
        other.point.recordingId ≠ some row.id := by
      intro j other there records
      have holds := sending.holds other (List.mem_of_getElem? there)
      cases point : other.point <;> rw [point] at records holds <;> cases records
      obtain ⟨_, ⟨stored, member, same, _⟩, _⟩ := holds
      exact fresh stored member same
    have own : call'.point.recordingId = some row.id := by
      rw [moves]
      rfl
    intro j k a b messageId atJ atK recordsA recordsB
    rcases (getElem?_set_iff here).mp atJ with ⟨rfl, rfl⟩ | ⟨notJ, oldJ⟩ <;>
      rcases (getElem?_set_iff here).mp atK with ⟨rfl, rfl⟩ | ⟨notK, oldK⟩
    · rfl
    · exact absurd (recordsB.trans (recordsA.symm.trans own)) (others k b oldK)
    · exact absurd (recordsA.trans (recordsB.symm.trans own)) (others j a oldJ)
    · exact sending.apart j k a b messageId oldJ oldK recordsA recordsB
  · intro other member
    rcases List.mem_or_eq_of_mem_set member with old | rfl
    · exact inserted.holds (sending.holds other old)
    · rw [moves]
      refine ⟨registered_of_media inserted.media inserted.registered,
        ⟨row, (added row).mpr (.inr rfl), rfl, inserted.written⟩, ?_⟩
      intro delivery stored same
      obtain ⟨other, listed, named⟩ :=
        List.mem_map.mp (sending.linked delivery (inserted.deliveries ▸ stored))
      exact fresh other listed (named.trans same)

variable {sender : UuidText}

theorem recordDeliveries_spec {tables recorded : ChatTables} {registered : Option String}
    {messageId : Nat} (done : tables.recordDeliveries registered sender messageId = some recorded) :
    recorded.space = tables.space ∧ recorded.members = tables.members ∧
      recorded.devices = tables.devices ∧
      recorded.deliveries.rows = tables.deliveries.rows ++
        (tables.recipients sender).map (fun recipient =>
          (⟨messageId, recipient.1, recipient.2, .pending, none, none⟩ : ChatDelivery)) ∧
      ∀ mediaId, recorded.media.find? mediaId =
        if registered = some mediaId then
          (tables.media.find? mediaId).map fun media =>
            { media with status := .attached, attachedMessageId := some messageId }
        else tables.media.find? mediaId := by
  obtain ⟨deliveries, inserted, rfl⟩ := Option.map_eq_some_iff.mp done
  refine ⟨rfl, rfl, rfl, Table.rows_of_foldlM_insert? inserted, fun mediaId => ?_⟩
  cases registered with
  | none => rfl
  | some attached =>
    simp only [Option.some.injEq, eq_comm (a := attached)]
    exact Table.find?_modify tables.media attached
      (fun media => { media with status := .attached, attachedMessageId := some messageId })
      (fun _ => rfl) mediaId

variable {tables : ChatTables} {registered : Option String} {messageId : Nat}

theorem media_of_recordDeliveries
    (done : tables.recordDeliveries registered sender messageId = some tables') {mediaId : String}
    {media : ChatMedia} (found : tables'.media.find? mediaId = some media) :
    ∃ before, tables.media.find? mediaId = some before ∧
      media.uploadedByUserId = before.uploadedByUserId ∧
      (media = before ∨
        registered = some mediaId ∧ media.status = .attached ∧
          media.attachedMessageId = some messageId) := by
  rw [(recordDeliveries_spec done).2.2.2.2 mediaId] at found
  split at found
  · rename_i own
    obtain ⟨before, stored, rfl⟩ := Option.map_eq_some_iff.mp found
    exact ⟨before, stored, rfl, .inr ⟨own, rfl, rfl⟩⟩
  · exact ⟨media, found, rfl, .inl rfl⟩

theorem registered_of_recordDeliveries
    (done : tables.recordDeliveries registered sender messageId = some tables') {post : ChatPost}
    {known : Option String} (knows : tables.Registered post known) :
    tables'.Registered post known := by
  have media := (recordDeliveries_spec done).2.2.2.2
  cases known with
  | none =>
    intro mediaId member
    rw [media, knows mediaId member]
    split <;> rfl
  | some =>
    obtain ⟨reference, record, stored, uploaded⟩ := knows
    refine ⟨reference, ?_⟩
    rw [media, stored]
    split
    · exact ⟨_, rfl, uploaded⟩
    · exact ⟨record, rfl, uploaded⟩

theorem recorded_of_recordDeliveries {post : ChatPost}
    (done : tables.recordDeliveries registered post.userId messageId = some tables')
    (knows : tables.Registered post registered) {other : ChatRow}
    (apart : post.userId = author → other.id = messageId)
    (recorded : Recorded author tables other) : Recorded author tables' other := by
  obtain ⟨⟨deliveries, attached⟩, own⟩ := recorded
  obtain ⟨_, members, devices, rows, _⟩ := recordDeliveries_spec done
  refine ⟨⟨?_, ?_⟩, ?_⟩
  · intro recipient member
    rw [recipients_eq members devices] at member
    obtain ⟨delivery, stored⟩ := Option.isSome_iff_exists.mp (deliveries recipient member)
    obtain ⟨listed, address⟩ := Table.find?_eq_some_iff.mp stored
    have kept : delivery ∈ tables'.deliveries.rows := by
      rw [rows]
      exact List.mem_append_left _ listed
    exact Option.isSome_iff_exists.mpr
      ⟨delivery, Table.find?_eq_some_iff.mpr ⟨kept, address⟩⟩
  · intro mediaId reference media found
    obtain ⟨before, stored, _, rfl | ⟨mine, status, message⟩⟩ :=
      media_of_recordDeliveries done found
    · exact attached mediaId reference media stored
    · refine ⟨status, ?_⟩
      -- the send that attached it uploaded it, so it is the author's
      rw [mine] at knows
      obtain ⟨_, record, same, uploaded⟩ := knows
      rw [stored] at same
      cases same
      rw [message, apart (uploaded.symm.trans (own mediaId reference before stored))]
  · intro mediaId reference media found
    obtain ⟨before, stored, uploaded, _⟩ := media_of_recordDeliveries done found
    rw [uploaded]
    exact own mediaId reference before stored

theorem recorded_own {post : ChatPost}
    (done : tables.recordDeliveries registered post.userId messageId = some tables')
    (knows : tables.Registered post registered) (written : WrittenFor env post row)
    (same : row.id = messageId) (mine : post.userId = author) : Recorded author tables' row := by
  obtain ⟨_, members, devices, rows, _⟩ := recordDeliveries_spec done
  have reached : ∀ mediaId ∈ row.mediaId, ∀ media, tables'.media.find? mediaId = some media →
      media.uploadedByUserId = author ∧ media.status = .attached ∧
        media.attachedMessageId = some messageId := by
    intro mediaId reference media found
    rw [written.mediaId] at reference
    cases registered with
    | none =>
      obtain ⟨before, stored, _⟩ := media_of_recordDeliveries done found
      rw [knows mediaId reference] at stored
      cases stored
    | some attached =>
      obtain ⟨referenced, record, kept, uploaded⟩ := knows
      obtain rfl : attached = mediaId := Option.some.inj (referenced.symm.trans reference)
      rw [(recordDeliveries_spec done).2.2.2.2, if_pos rfl, kept] at found
      cases found
      exact ⟨uploaded.trans mine, rfl, rfl⟩
  refine ⟨⟨?_, ?_⟩, fun mediaId reference media found => (reached mediaId reference media found).1⟩
  · intro recipient member
    rw [recipients_eq members devices, written.userId] at member
    refine Option.isSome_iff_exists.mpr ⟨⟨messageId, recipient.1, recipient.2, .pending, none,
      none⟩, Table.find?_eq_some_iff.mpr ⟨?_, ?_⟩⟩
    · rw [rows]
      exact List.mem_append_right _ (List.mem_map.mpr ⟨recipient, member, rfl⟩)
    · rw [same]
      rfl
  · intro mediaId reference media found
    rw [same]
    exact (reached mediaId reference media found).2

theorem sending_of_finished (sending : Sending env author clientId texts system)
    (here : system.calls[i]? = some call) {registered : Option String} {messageId : Nat}
    (finished : Finished system.shared tables' call call' registered messageId) :
    Sending env author clientId texts ⟨tables', system.calls.set i call'⟩ := by
  obtain ⟨before, moves, done⟩ := finished
  have inside := List.mem_of_getElem? here
  have holds := sending.holds call inside
  rw [before] at holds
  obtain ⟨knows, ⟨row, member, same, written⟩, fresh⟩ := holds
  obtain ⟨space, _, _, deliveries, _⟩ := recordDeliveries_spec done
  have listed : call.send.post.userId = author → row.ofClient author clientId = true := by
    intro mine
    obtain ⟨_, client⟩ := (sending.sends call inside).2 mine
    exact decide_eq_true
      ⟨written.userId.trans mine, written.clientMessageId.trans client⟩
  have kept : ∀ other ∈ system.shared.space.messages.rows, other.ofClient author clientId = true →
      Recorded author system.shared other → Recorded author tables' other := by
    intro other old client recorded
    refine recorded_of_recordDeliveries done knows (fun mine => ?_) recorded
    exact (sending.one other old row member client (listed mine)).trans same
  have own : call.send.post.userId = author → Recorded author tables' row :=
    recorded_own done knows written same
  have reports : call'.point.recordingId = none := by
    rw [moves]
    rfl
  refine ⟨?_, sends_set sending here (by rw [moves]), ?_, ?_, apart_set sending here reports, ?_⟩
  · show tables'.space.messages.AtMostOne _
    rw [space]
    exact sending.one
  · intro other old client
    replace old : other ∈ system.shared.space.messages.rows := space ▸ old
    obtain ⟨writes, known, recorded | ⟨recorder, recording, records⟩⟩ :=
      sending.rows other old client
    · exact ⟨writes, known, .inl (kept other old client recorded)⟩
    · refine ⟨writes, known, ?_⟩
      obtain ⟨j, there⟩ := List.mem_iff_getElem?.mp recording
      by_cases own_call : j = i
      · left
        subst own_call
        rw [here] at there
        cases there
        rw [before] at records
        obtain rfl : other = row :=
          system.shared.space.messages.eq_of_key_eq old member
            ((Option.some.inj records).symm.trans same.symm)
        exact own (written.userId.symm.trans (of_decide_eq_true client).1)
      · exact .inr ⟨recorder,
          List.mem_of_getElem? ((getElem?_set_iff here).mpr (.inr ⟨own_call, there⟩)), records⟩
  · intro delivery stored
    show delivery.messageId ∈ tables'.space.messages.rows.map ChatRow.id
    rw [space]
    rw [show (CallSystem.mk tables' (system.calls.set i call')).shared = tables' from rfl,
      deliveries] at stored
    rcases List.mem_append.mp stored with old | new
    · exact sending.linked delivery old
    · obtain ⟨_, _, rfl⟩ := List.mem_map.mp new
      exact List.mem_map.mpr ⟨row, member, same⟩
  · intro other inside'
    obtain ⟨j, there⟩ := List.mem_iff_getElem?.mp inside'
    rcases (getElem?_set_iff here).mp there with ⟨_, rfl⟩ | ⟨apart, old⟩
    · rw [moves]
      intro mine
      exact ⟨row, space ▸ member, same, listed mine.1, written.carries, own mine.1⟩
    · have holds := sending.holds other (List.mem_of_getElem? old)
      obtain ⟨send, point⟩ := other
      cases point with
      | checking | ensuring | indexing => exact registered_of_recordDeliveries done holds
      | inserting => exact ⟨registered_of_recordDeliveries done holds.1, holds.2⟩
      | rechecking =>
        unfold SendPoint.Holds ChatTables.rowOfClient
        rw [space]
        exact holds
      | recording =>
        obtain ⟨known, stored, none_yet⟩ := holds
        refine ⟨registered_of_recordDeliveries done known, space ▸ stored, ?_⟩
        intro delivery found
        rw [show (CallSystem.mk tables' (system.calls.set i call')).shared = tables' from rfl,
          deliveries] at found
        rcases List.mem_append.mp found with present | new
        · exact none_yet delivery present
        · obtain ⟨_, _, rfl⟩ := List.mem_map.mp new
          rintro rfl
          refine apart (sending.apart j i _ _ _ old here rfl ?_)
          rw [before]
          rfl
      | reported report =>
        cases report with
        | sent =>
          intro mine
          obtain ⟨stored, present, named, client, carries, recorded⟩ := holds mine
          exact ⟨stored, space ▸ present, named, client, carries,
            kept stored present client recorded⟩
        | failed => exact holds.elim
        | _ => trivial
      | _ => trivial

def sentTexts (system : SendSystem) : List String :=
  system.calls.map fun call => call.send.post.message

theorem sending_of_begins (begins : Begins env author clientId system) :
    Sending env author clientId (sentTexts system) system where
  one a memberA b _ listed _ := by
    rw [begins.new a memberA] at listed
    cases listed
  sends call member := ⟨List.mem_map_of_mem member, begins.scope call member⟩
  rows row member listed := by
    rw [begins.new row member] at listed
    cases listed
  linked := begins.linked
  apart i _ a _ _ atI _ records _ := by
    rw [begins.requested a (List.mem_of_getElem? atI)] at records
    cases records
  holds call member := by
    rw [begins.requested call member]
    trivial

theorem injective_of_begins (begins : Begins env author clientId system) :
    ∀ a ∈ sentTexts system, ∀ b ∈ sentTexts system, env.plaintextHash a = env.plaintextHash b → a = b := by
  intro a memberA b memberB same
  obtain ⟨first, insideA, rfl⟩ := List.mem_map.mp memberA
  obtain ⟨second, insideB, rfl⟩ := List.mem_map.mp memberB
  exact begins.hashes first insideA second insideB same

theorem sending_step
    (hashes : ∀ a ∈ texts, ∀ b ∈ texts, env.plaintextHash a = env.plaintextHash b → a = b)
    (sending : Sending env author clientId texts system) {turn : Nat × SendTurn}
    (careful : Careful system turn) :
    Sending env author clientId texts (SendSystem.step env system turn) := by
  unfold SendSystem.step
  cases here : system.calls[turn.1]? with
  | none =>
    rw [advance_of_none _ _ here]
    exact sending
  | some =>
    cases turned_next sending hashes here careful with
    | stays same waits =>
      rw [advance_of_stays _ _ here (Prod.ext same waits)]
      exact sending
    | moved moved =>
      rw [advance_of_free _ _ here (blocked_of_lockFree system turn.1 _)]
      exact sending_of_moved sending here moved
    | inserted inserted =>
      rw [advance_of_free _ _ here (blocked_of_lockFree system turn.1 _)]
      exact sending_of_inserted sending here inserted
    | finished finished =>
      rw [advance_of_free _ _ here (blocked_of_lockFree system turn.1 _)]
      exact sending_of_finished sending here finished

theorem sentOnce_of_sending (sending : Sending env author clientId texts system) :
    SentOnce author clientId system where
  one call member mine messageId reports := by
    have holds := sending.holds call member
    rw [reports] at holds
    obtain ⟨row, stored, same, listed, _, recorded⟩ := holds mine
    refine ⟨row, stored, same, listed, ?_, recorded.delivered⟩
    have few := (Table.atMostOne_iff_length_filter _ _).mp sending.one
    have some_row := List.countP_pos_iff.mpr ⟨row, stored, listed⟩
    rw [← List.countP_eq_length_filter] at few
    omega
  conflict call member mine report reports row stored listed differs := by
    have holds := sending.holds call member
    rw [reports] at holds
    cases report with
    | sent =>
      obtain ⟨other, present, _, client, carries, _⟩ := holds mine
      have same : other = row := system.shared.space.messages.eq_of_key_eq present stored
        (sending.one other present row stored client listed)
      exact absurd (same ▸ carries) differs
    | conflict => exact .inl rfl
    | refused => exact .inr rfl
    | failed => exact holds.elim
  unfailed call member fails := by
    have holds := sending.holds call member
    rw [fails] at holds
    exact holds

/-- In every run of any number of sends whose turns are careful, the sends with one client id have
taken effect once, in every state reached. -/
theorem sentOnce_of_careful (env : ChatEnvironment) (author : UuidText) (clientId : String)
    (system : SendSystem) (turns : List (Nat × SendTurn))
    (begins : Begins env author clientId system)
    (careful : Guarded Careful (SendSystem.step env) system turns) :
    ∀ reached ∈ trace (SendSystem.step env) system turns, SentOnce author clientId reached := by
  have hashes := injective_of_begins begins
  intro reached member
  have sending : Sending env author clientId (sentTexts system) reached :=
    invariant_of_guarded (C := Careful) (I := Sending env author clientId (sentTexts system))
      (fun _ _ sending guard => sending_step hashes sending guard) (sending_of_begins begins)
      careful reached member
  exact sentOnce_of_sending sending

open ChatSystem (bareEnvironment space member hello keys)

def reader : UuidText := ⟨"b2", UuidText.hyphenated_of_all (by decide)⟩

/-- A space with the author and a reader, who has no device registered. -/
def tablesOf (encrypted : Bool) : ChatTables where
  tenantId := space
  space := { Space.create space keys "k1" with chatEncryptionEnabled := encrypted }
  members := ⟨[⟨member, true⟩, ⟨reader, true⟩], by decide⟩
  devices := Table.empty
  media := Table.empty
  deliveries := Table.empty

def sendsOf (encrypted : Bool) (sends : List ChatSend) : SendSystem :=
  ⟨tablesOf encrypted, sends.map fun send => ⟨send, .requested⟩⟩

theorem begins_sendsOf {encrypted : Bool} {sends : List ChatSend}
    (scope : ∀ send ∈ sends, send.post.userId = member → send.post.clientMessageId = some "c1") :
    Begins bareEnvironment member "c1" (sendsOf encrypted sends) where
  requested call inside := by
    obtain ⟨send, _, rfl⟩ := List.mem_map.mp inside
    rfl
  scope call inside mine := by
    obtain ⟨send, listed, rfl⟩ := List.mem_map.mp inside
    exact ⟨mine, scope send listed mine⟩
  new row stored := absurd stored List.not_mem_nil
  linked delivery stored := absurd stored List.not_mem_nil
  hashes _ _ _ _ same := same

def turnsOf (turns : List (Nat × Nat)) : List (Nat × SendTurn) :=
  turns.map fun turn => (turn.1, .step ⟨0, turn.2, turn.2, turn.2, 1000⟩)

def changed : ChatPost := { hello with message := "changed" }

def answer : ChatPost := { hello with userId := reader, clientMessageId := some "r1" }

def retried : SendSystem :=
  sendsOf false [⟨false, hello⟩, ⟨false, hello⟩, ⟨true, changed⟩, ⟨true, answer⟩]

def retriedTurns : List (Nat × SendTurn) :=
  turnsOf [(0, 1), (0, 1), (3, 2)] ++ [(0, .die)] ++
    turnsOf [(1, 3), (1, 3), (3, 2), (1, 3), (3, 4), (1, 3), (3, 4), (2, 5), (2, 5)]

theorem sentOnce_of_careful_retried :
    Guarded Careful (SendSystem.step bareEnvironment) retried retriedTurns ∧
      ∀ reached ∈ trace (SendSystem.step bareEnvironment) retried retriedTurns,
        SentOnce member "c1" reached := by
  have begins : Begins bareEnvironment member "c1" retried := begins_sendsOf (by decide)
  have careful : Guarded Careful (SendSystem.step bareEnvironment) retried retriedTurns := by
    decide +kernel
  exact ⟨careful, sentOnce_of_careful bareEnvironment member "c1" retried retriedTurns begins
    careful⟩

def AlwaysOnce (sends : SendSystem) (turns : List (Nat × SendTurn)) : Prop :=
  Begins bareEnvironment member "c1" sends →
    ∀ reached ∈ trace (SendSystem.step bareEnvironment) sends turns, SentOnce member "c1" reached

def orphaned : SendSystem := sendsOf false [⟨false, hello⟩, ⟨false, hello⟩]

def orphanedTurns : List (Nat × SendTurn) :=
  turnsOf [(0, 1), (0, 1), (0, 1)] ++ [(0, .die)] ++ turnsOf [(1, 2), (1, 2)]

def overlooked : SendSystem := sendsOf false [⟨true, hello⟩, ⟨true, changed⟩]

def overlookedTurns : List (Nat × SendTurn) :=
  turnsOf [(0, 1), (1, 2), (0, 1), (1, 2), (0, 1), (0, 1), (1, 2), (1, 2)]

def collided : SendSystem :=
  sendsOf true [⟨false, { hello with userId := reader }⟩, ⟨false, hello⟩, ⟨false, answer⟩]

def collidedTurns : List (Nat × SendTurn) :=
  turnsOf [(0, 1), (0, 1), (0, 1), (0, 1), (0, 1), (0, 1), (1, 2), (1, 2), (1, 2), (1, 2),
    (2, 3), (2, 3), (2, 3), (2, 3), (1, 2), (1, 2), (2, 3), (2, 3)]

/-- The retry reports success without deliveries, the second text reports success, and the second
sealed send fails. -/
theorem not_sentOnce_sends :
    ¬ AlwaysOnce orphaned orphanedTurns ∧ ¬ AlwaysOnce overlooked overlookedTurns ∧
      ¬ AlwaysOnce collided collidedTurns := by
  have reported : ∃ reached ∈ trace (SendSystem.step bareEnvironment) orphaned orphanedTurns,
      (∃ call ∈ reached.calls, call.By member "c1" ∧ call.point = .reported (.sent 1)) ∧
        ∀ row ∈ reached.shared.space.messages.rows, ¬ reached.shared.Delivered row := by
    decide +kernel
  have accepted : ∃ reached ∈ trace (SendSystem.step bareEnvironment) overlooked overlookedTurns,
      ∃ call ∈ reached.calls, call.By member "c1" ∧ call.point = .reported (.sent 1) ∧
        ∃ row ∈ reached.shared.space.messages.rows,
          row.ofClient member "c1" = true ∧ ¬ row.Carries call.send.post := by
    decide +kernel
  have failed : ∃ reached ∈ trace (SendSystem.step bareEnvironment) collided collidedTurns,
      ∃ call ∈ reached.calls, call.point = .reported .failed := by
    decide +kernel
  refine ⟨fun holds => ?_, fun holds => ?_, fun holds => ?_⟩
  · obtain ⟨reached, there, ⟨call, inside, mine, reports⟩, undelivered⟩ := reported
    have once := holds (begins_sendsOf (by decide)) reached there
    obtain ⟨row, stored, _, _, _, delivered⟩ := once.one call inside mine 1 reports
    exact undelivered row stored delivered
  · obtain ⟨reached, there, call, inside, mine, reports, row, stored, listed, differs⟩ := accepted
    have once := holds (begins_sendsOf (by decide)) reached there
    rcases once.conflict call inside mine _ reports row stored listed differs with wrong | wrong <;>
      cases wrong
  · obtain ⟨reached, there, call, inside, fails⟩ := failed
    exact (holds (begins_sendsOf (by decide)) reached there).unfailed call inside fails

end AverQel.SealedChat
