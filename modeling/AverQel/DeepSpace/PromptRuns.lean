/- digest: When a queued prompt runs as it was last accepted. -/
import AverQel.DeepSpace.PromptEdits
import AverQel.DeepSpace.SingleActive

namespace AverQel.DeepSpace.Prompts

open Foundation Transition
open Foundation.Interleaving (countP_set_add)
open Foundation.Text (truncate)

variable (requestId : String)

structure Faithful (s : PromptSystem) : Prop where
  runs : RunsAsAccepted s.history
  stored : ∀ row ∈ s.row requestId, acceptedPrompt s.history = some row.prompt

def CopyCurrent (s : PromptSystem) (call : PromptCall) : Prop :=
  ∀ copy ∈ call.copy, ∀ row ∈ s.row requestId, copy.prompt = row.prompt ∧ copy.status = row.status

def CarefulMove (s : PromptSystem) : PromptMove → Prop
  | .go i _ _ _ => ∀ call ∈ s.calls[i]?, call.pending = false → CopyCurrent requestId s call
  | .other call => ownsOperation requestId s.conversation call.operation = false →
      ∀ row ∈ s.row requestId, ∀ after ∈ (step s.conversation call).turns.find? requestId,
        row.status ≠ .queued → after.status = .queued → ∀ call ∈ s.calls, call.pending = false
  | .load _ => True

instance decidableCarefulMove (s : PromptSystem) : ∀ move, Decidable (CarefulMove requestId s move)
  | .go .. | .other .. => by dsimp only [CarefulMove, CopyCurrent]; infer_instance
  | .load _ => .isTrue trivial

/-- What careful moves keep. -/
structure Inv (s : PromptSystem) : Prop where
  faithful : Faithful requestId s
  absent : s.row requestId = none → s.history = []
  claimed : isClaimed s.history = true → ∀ row ∈ s.row requestId, row.status ≠ .queued
  pending : ∀ call ∈ s.calls, call.pending = true → isClaimed s.history = true
  handed : ∀ copy claimed, .handing copy claimed ∈ s.calls →
    acceptedPrompt s.history = some claimed.prompt
  single : s.calls.countP PromptCall.pending ≤ 1

variable {requestId} {s : PromptSystem}

theorem row_write (loaded written : QueuedTurn) (i : Nat) (call : PromptCall)
    (event : List QueueEvent) :
    (s.write requestId loaded written i call event).row requestId =
      (s.row requestId).map (flush loaded written) := by
  have found := Table.find?_modify s.conversation.turns requestId (flush loaded written)
    (fun _ => rfl) requestId
  rw [if_pos rfl] at found
  exact found

theorem prompt_turnChange (now : Time) {c : Conversation} {op : Operation} {turn : QueuedTurn}
    (other : ownsOperation requestId c op = false) (same : turn.clientRequestId = requestId) :
    (op.turnChange now c turn).prompt = turn.prompt := by
  cases op with
  | updateQueuedPrompt id =>
    have apart : id ≠ requestId := of_decide_eq_false other
    simp only [Operation.turnChange]
    rw [if_neg]
    rintro ⟨here, _⟩
    exact apart (here.symm.trans same)
  | recoverStaleRuns staleAfter =>
    simp only [Operation.turnChange, Conversation.recoverEndedTurnLoop]
    generalize c.staleRuns (now - staleAfter) = runs
    clear same
    induction runs generalizing turn with
    | nil => rfl
    | cons run runs ih =>
      rw [List.foldl_cons, ih]
      split
      · unfold recoverEndedTurn
        split
        · split <;> rfl
        · split <;> rfl
      · rfl
  | requestCancel | requestCancelByRequestId =>
    simp only [Operation.turnChange, cancelTurn]
    split
    · split
      · split <;> rfl
      · rfl
    · rfl
  | cancelAllForConversation =>
    simp only [Operation.turnChange, cancelTurn]
    split
    · split <;> rfl
    · rfl
  | clearForConversation =>
    simp only [Operation.turnChange, clearTurn]
    split
    · split <;> rfl
    · rfl
  | releaseClaim =>
    simp only [Operation.turnChange, releaseTurn]
    split
    · split <;> rfl
    · rfl
  | recoverClaims =>
    simp only [Operation.turnChange]
    split
    · unfold recoverClaim
      split
      · rfl
      · split <;> rfl
    · rfl
  | promote id | resumePaused | claim | finish id status error =>
    simp only [Operation.turnChange]
    split <;> rfl
  | _ => rfl

variable {i : Nat} {old new : PromptCall}

theorem countP_pending_set_le (here : s.calls[i]? = some old)
    (less : new.pending = true → old.pending = true) :
    (s.calls.set i new).countP PromptCall.pending ≤ s.calls.countP PromptCall.pending := by
  have count := countP_set_add new PromptCall.pending here
  cases before : old.pending with
  | true =>
    rw [before, Bool.toNat_true] at count
    have bound := Bool.toNat_le new.pending
    omega
  | false =>
    have after : new.pending = false := by
      cases value : new.pending with
      | true => exact (less value).symm.trans before
      | false => rfl
    rw [before, after] at count
    omega

theorem countP_pending_set_of_ended (here : s.calls[i]? = some old) (pending : old.pending = true)
    (ended : new.pending = false) (single : s.calls.countP PromptCall.pending ≤ 1) :
    (s.calls.set i new).countP PromptCall.pending = 0 := by
  have count := countP_set_add new PromptCall.pending here
  rw [pending, ended, Bool.toNat_true, Bool.toNat_false] at count
  omega

theorem countP_pending_of_unclaimed (inv : Inv requestId s) (free : isClaimed s.history = false) :
    s.calls.countP PromptCall.pending = 0 := by
  rw [List.countP_eq_zero]
  intro call member waits
  exact absurd (free.symm.trans (inv.pending call member waits)) (by decide)

theorem inv_of_idle (faithful : Faithful requestId s)
    (absent : s.row requestId = none → s.history = [])
    (claimed : isClaimed s.history = true → ∀ row ∈ s.row requestId, row.status ≠ .queued)
    (idle : s.calls.countP PromptCall.pending = 0) : Inv requestId s := by
  have none_pending := List.countP_eq_zero.mp idle
  refine ⟨faithful, absent, claimed, ?_, ?_, ?_⟩
  · exact fun call member waits => absurd waits (none_pending call member)
  · exact fun copy claimed member => absurd rfl (none_pending _ member)
  · omega

theorem inv_setCall (inv : Inv requestId s) (here : s.calls[i]? = some old)
    (less : new.pending = true → old.pending = true)
    (handed : ∀ copy claimed, new = .handing copy claimed →
      acceptedPrompt s.history = some claimed.prompt) : Inv requestId (s.setCall i new) := by
  refine ⟨⟨inv.faithful.runs, inv.faithful.stored⟩, inv.absent, inv.claimed, ?_, ?_, ?_⟩
  · intro call member waits
    rcases List.mem_or_eq_of_mem_set member with old_member | rfl
    · exact inv.pending call old_member waits
    · exact inv.pending old (List.mem_of_getElem? here) (less waits)
  · intro copy claimed member
    rcases List.mem_or_eq_of_mem_set member with old_member | same
    · exact inv.handed copy claimed old_member
    · exact handed copy claimed same.symm
  · exact Nat.le_trans (countP_pending_set_le here less) inv.single

theorem inv_ended (inv : Inv requestId s) (here : s.calls[i]? = some old) :
    Inv requestId (s.setCall i .ended) :=
  inv_setCall inv here (fun waits => absurd waits (by decide)) fun _ _ same => by cases same

variable {now : Time} {fits delivered : Bool}

theorem inv_editing (inv : Inv requestId s) {copy : Option QueuedTurn}
    {expectedPrompt prompt : String}
    (here : s.calls[i]? = some (.editing copy expectedPrompt prompt))
    (current : CopyCurrent requestId s (.editing copy expectedPrompt prompt)) :
    Inv requestId (s.callStep requestId i now fits delivered
      (.editing copy expectedPrompt prompt)) := by
  simp only [PromptSystem.callStep]
  cases stored : s.row requestId with
  | none => exact inv_ended inv here
  | some row =>
    dsimp only
    split_ifs with accepted
    · -- The object that is checked says what the row says.
      have same : (copy.getD row).prompt = row.prompt ∧ (copy.getD row).status = row.status := by
        cases copy with
        | none => exact ⟨rfl, rfl⟩
        | some held => exact current held rfl row stored
      simp only [editable, Bool.and_eq_true, decide_eq_true_eq] at accepted
      obtain ⟨⟨⟨queued, _⟩, expected⟩, _⟩ := accepted
      have row_queued : row.status = .queued := same.2.symm.trans queued
      have free : isClaimed s.history = false := by
        cases claimed : isClaimed s.history with
        | true => exact absurd row_queued (inv.claimed claimed row stored)
        | false => rfl
      have seen : acceptedPrompt s.history = some expectedPrompt := by
        rw [inv.faithful.stored row stored, ← same.1, expected]
      have after : (s.write requestId (copy.getD row)
          { copy.getD row with prompt := truncate 4000 prompt } i .ended
          [.edited expectedPrompt (truncate 4000 prompt)]).row requestId =
          some (flush (copy.getD row) { copy.getD row with prompt := truncate 4000 prompt } row) := by
        rw [row_write, stored, Option.map_some]
      apply inv_of_idle
      · refine ⟨⟨⟨seen, free⟩, inv.faithful.runs⟩, ?_⟩
        rw [after]
        rintro _ ⟨⟩
        simp only [flush]
        split_ifs with unchanged
        · exact congrArg some (unchanged.trans same.1)
        · rfl
      · intro missing
        rw [after] at missing
        cases missing
      · intro claimed
        exact absurd (free.symm.trans claimed) (by decide)
      · have none_pending := countP_pending_of_unclaimed inv free
        have less : (s.calls.set i .ended).countP PromptCall.pending ≤
            s.calls.countP PromptCall.pending :=
          countP_pending_set_le here fun waits => absurd waits (by decide)
        exact Nat.le_zero.mp (none_pending ▸ less)
    · exact inv_ended inv here

theorem inv_congr (inv : Inv requestId s) {s' : PromptSystem}
    (row : s'.row requestId = s.row requestId) (history : s'.history = s.history)
    (calls : s'.calls = s.calls) : Inv requestId s' := by
  refine ⟨⟨?_, ?_⟩, ?_, ?_, ?_, ?_, ?_⟩
  · rw [history]
    exact inv.faithful.runs
  · rw [history, row]
    exact inv.faithful.stored
  · rw [history, row]
    exact inv.absent
  · rw [history, row]
    exact inv.claimed
  · rw [history, calls]
    exact inv.pending
  · rw [history, calls]
    exact inv.handed
  · rw [calls]
    exact inv.single

theorem inv_claimed (inv : Inv requestId s) {copy : Option QueuedTurn} {row : QueuedTurn}
    (here : s.calls[i]? = some (.dispatching copy)) (stored : s.row requestId = some row)
    (same : (copy.getD row).prompt = row.prompt ∧ (copy.getD row).status = row.status)
    (queued : row.status = .queued)
    (accepted : acceptedPrompt s.history = some (copy.getD row).prompt)
    (idle : s.calls.countP PromptCall.pending = 0) :
    Inv requestId (s.write requestId (copy.getD row) (claimTurn now (copy.getD row)) i
      (.handing (copy.map fun _ => claimTurn now (copy.getD row)) (claimTurn now (copy.getD row)))
      [.claimed]) := by
  have none_pending := List.countP_eq_zero.mp idle
  have after : (s.write requestId (copy.getD row) (claimTurn now (copy.getD row)) i
      (.handing (copy.map fun _ => claimTurn now (copy.getD row)) (claimTurn now (copy.getD row)))
      [.claimed]).row requestId =
      some (flush (copy.getD row) (claimTurn now (copy.getD row)) row) := by
    rw [row_write, stored, Option.map_some]
  refine ⟨⟨⟨trivial, inv.faithful.runs⟩, ?_⟩, ?_, ?_, ?_, ?_, ?_⟩
  · rw [after]
    rintro _ ⟨⟩
    simp only [flush, claimTurn, if_true]
    exact inv.faithful.stored row stored
  · intro missing
    rw [after] at missing
    cases missing
  · rw [after]
    rintro _ _ ⟨⟩
    have moved : TurnStatus.running ≠ (copy.getD row).status := by
      rw [same.2, queued]
      decide
    have status : (flush (copy.getD row) (claimTurn now (copy.getD row)) row).status = .running :=
      if_neg moved
    rw [status]
    decide
  · exact fun _ _ _ => rfl
  · intro other claimed member
    rcases List.mem_or_eq_of_mem_set member with old_member | equal
    · exact absurd rfl (none_pending _ old_member)
    · obtain ⟨_, rfl⟩ := PromptCall.handing.inj equal
      exact accepted
  · have count := countP_set_add (.handing (copy.map fun _ => claimTurn now (copy.getD row))
      (claimTurn now (copy.getD row))) PromptCall.pending here
    rw [show PromptCall.pending (.handing (copy.map fun _ => claimTurn now (copy.getD row))
      (claimTurn now (copy.getD row))) = true from rfl, Bool.toNat_true] at count
    change List.countP _ (s.calls.set i _) ≤ 1
    omega

theorem inv_observed (inv : Inv requestId s) {s' : PromptSystem} {row after : QueuedTurn}
    (stored : s.row requestId = some row) (next : s'.row requestId = some after)
    (prompt : after.prompt = row.prompt)
    (history : s'.history = observed (some row) (some after) ++ s.history)
    (idle : s'.calls.countP PromptCall.pending = 0) : Inv requestId s' := by
  have accepted := inv.faithful.stored row stored
  by_cases released : row.status ≠ .queued ∧ after.status = .queued
  · have event : observed (some row) (some after) = [.released] := if_pos released
    rw [event] at history
    apply inv_of_idle
    · refine ⟨?_, ?_⟩
      · rw [history]
        exact ⟨trivial, inv.faithful.runs⟩
      · rw [next, history]
        rintro _ ⟨⟩
        rw [prompt]
        exact accepted
    · intro missing
      rw [next] at missing
      cases missing
    · intro claimed
      rw [history] at claimed
      cases claimed
    · exact idle
  · have event : observed (some row) (some after) = [] := if_neg released
    rw [event, List.nil_append] at history
    apply inv_of_idle
    · refine ⟨?_, ?_⟩
      · rw [history]
        exact inv.faithful.runs
      · rw [next, history]
        rintro _ ⟨⟩
        rw [prompt]
        exact accepted
    · intro missing
      rw [next] at missing
      cases missing
    · rw [history, next]
      rintro claimed _ ⟨⟩ queued
      exact released ⟨inv.claimed claimed row stored, queued⟩
    · exact idle

theorem inv_dispatching (inv : Inv requestId s) {copy : Option QueuedTurn}
    (here : s.calls[i]? = some (.dispatching copy))
    (current : CopyCurrent requestId s (.dispatching copy)) :
    Inv requestId (s.callStep requestId i now fits delivered (.dispatching copy)) := by
  simp only [PromptSystem.callStep]
  cases chosen : s.conversation.claimable with
  | none => exact inv_ended inv here
  | some row =>
    obtain ⟨member, queued, _⟩ := Conversation.claimable_spec chosen
    dsimp only
    split_ifs with own
    · have stored : s.row requestId = some row := Table.find?_eq_some_iff.mpr ⟨member, own⟩
      have same : (copy.getD row).prompt = row.prompt ∧ (copy.getD row).status = row.status := by
        cases copy with
        | none => exact ⟨rfl, rfl⟩
        | some held => exact current held rfl row stored
      have free : isClaimed s.history = false := by
        cases claimed : isClaimed s.history with
        | true => exact absurd queued (inv.claimed claimed row stored)
        | false => rfl
      have idle := countP_pending_of_unclaimed inv free
      have accepted : acceptedPrompt s.history = some (copy.getD row).prompt := by
        rw [inv.faithful.stored row stored, same.1]
      exact inv_claimed inv here stored same queued accepted idle
    · have apart : requestId ≠ row.clientRequestId := fun equal => own equal.symm
      have kept : (s.conversation.claim now).turns.find? requestId = s.row requestId := by
        have found := Table.find?_modify s.conversation.turns row.clientRequestId
          (fun turn => { turn with status := .running, startedAt := some now }) (fun _ => rfl)
          requestId
        rw [if_neg apart] at found
        unfold Conversation.claim
        rw [chosen]
        exact found
      exact inv_congr (inv_ended inv here) kept rfl rfl

theorem inv_handing (inv : Inv requestId s) {copy : Option QueuedTurn} {claimed : QueuedTurn}
    (here : s.calls[i]? = some (.handing copy claimed)) :
    Inv requestId (s.callStep requestId i now fits delivered (.handing copy claimed)) := by
  simp only [PromptSystem.callStep]
  cases delivered with
  | true =>
    have accepted := inv.handed copy claimed (List.mem_of_getElem? here)
    rw [if_pos rfl]
    apply inv_of_idle
    · exact ⟨⟨accepted, inv.faithful.runs⟩, inv.faithful.stored⟩
    · intro missing
      have nothing := inv.absent missing
      rw [nothing] at accepted
      cases accepted
    · exact inv.claimed
    · exact countP_pending_set_of_ended here rfl rfl inv.single
  | false =>
    rw [if_neg (by decide)]
    exact inv_setCall inv here (fun _ => rfl) fun _ _ same => by cases same

theorem inv_releasing (inv : Inv requestId s) {copy : Option QueuedTurn}
    (here : s.calls[i]? = some (.releasing copy)) :
    Inv requestId (s.callStep requestId i now fits delivered (.releasing copy)) := by
  simp only [PromptSystem.callStep]
  cases stored : s.row requestId with
  | none => exact inv_ended inv here
  | some row =>
    dsimp only
    split_ifs with running
    · have prompt : (flush (copy.getD row) (requeueTurn (copy.getD row)) row).prompt = row.prompt :=
        if_pos rfl
      have after : (s.write requestId (copy.getD row) (requeueTurn (copy.getD row)) i .ended
          (observed (some row) (some (flush (copy.getD row) (requeueTurn (copy.getD row))
            row)))).row requestId =
          some (flush (copy.getD row) (requeueTurn (copy.getD row)) row) := by
        rw [row_write, stored, Option.map_some]
      exact inv_observed inv stored after prompt rfl
        (countP_pending_set_of_ended here rfl rfl inv.single)
    · exact inv_ended inv here

theorem inv_load (inv : Inv requestId s) : Inv requestId (promptStep requestId s (.load i)) := by
  simp only [promptStep]
  cases here : s.calls[i]? with
  | none => exact inv
  | some call =>
    dsimp only
    cases stored : s.row requestId with
    | none => exact inv
    | some =>
      have inside := List.mem_of_getElem? here
      cases call with
      | editing | dispatching | releasing | ended =>
        exact inv_setCall inv here id fun _ _ same => by cases same
      | handing copy claimed =>
        refine inv_setCall inv here id fun _ _ same => ?_
        cases same
        exact inv.handed copy claimed inside

theorem inv_other (inv : Inv requestId s) (call : Call)
    (careful : CarefulMove requestId s (.other call)) :
    Inv requestId (promptStep requestId s (.other call)) := by
  simp only [promptStep]
  split_ifs with own
  · exact inv
  have foreign : ownsOperation requestId s.conversation call.operation = false :=
    Bool.eq_false_iff.mpr own
  cases stored : s.row requestId with
  | none =>
    have nothing := inv.absent stored
    have free : isClaimed s.history = false := by
      rw [nothing]
      rfl
    have idle := countP_pending_of_unclaimed inv free
    cases after : (step s.conversation call).turns.find? requestId with
    | none =>
      refine inv_congr inv (after.trans stored.symm) ?_ rfl
      rfl
    | some turn =>
      have next : PromptSystem.row requestId ⟨step s.conversation call, s.calls,
          observed none (some turn) ++ s.history⟩ = some turn := after
      apply inv_of_idle
      · refine ⟨⟨trivial, inv.faithful.runs⟩, ?_⟩
        rw [next]
        rintro _ ⟨⟩
        rfl
      · intro missing
        rw [next] at missing
        cases missing
      · intro claimed
        exact absurd (free.symm.trans claimed) (by decide)
      · exact idle
  | some row =>
    have named : row.clientRequestId = requestId := (Table.find?_eq_some_iff.mp stored).2
    have after : (step s.conversation call).turns.find? requestId =
        some (call.operation.turnChange call.now s.conversation row) :=
      Operation.find?_apply call.now call.operation stored
    have prompt := prompt_turnChange call.now foreign named
    rw [after]
    by_cases released : row.status ≠ .queued ∧
        (call.operation.turnChange call.now s.conversation row).status = .queued
    · have calm := careful foreign row stored _ after released.1 released.2
      refine inv_observed inv stored after prompt rfl (List.countP_eq_zero.mpr fun other member => ?_)
      rw [calm other member]
      decide
    · have event : observed (some row)
          (some (call.operation.turnChange call.now s.conversation row)) = [] := if_neg released
      rw [event, List.nil_append]
      have next : PromptSystem.row requestId ⟨step s.conversation call, s.calls, s.history⟩ =
          some (call.operation.turnChange call.now s.conversation row) := after
      refine ⟨⟨inv.faithful.runs, ?_⟩, ?_, ?_, inv.pending, inv.handed, inv.single⟩
      · rw [next]
        rintro _ ⟨⟩
        rw [prompt]
        exact inv.faithful.stored row stored
      · intro missing
        rw [next] at missing
        cases missing
      · rw [next]
        rintro claimed _ ⟨⟩ queued
        exact released ⟨inv.claimed claimed row stored, queued⟩

theorem inv_promptStep (s : PromptSystem) (move : PromptMove) (inv : Inv requestId s)
    (careful : CarefulMove requestId s move) : Inv requestId (promptStep requestId s move) := by
  cases move with
  | load => exact inv_load inv
  | other call => exact inv_other inv call careful
  | go i =>
    simp only [promptStep]
    cases here : s.calls[i]? with
    | none => exact inv
    | some call =>
      have current := careful call here
      cases call with
      | editing => exact inv_editing inv here (current rfl)
      | dispatching => exact inv_dispatching inv here (current rfl)
      | handing => exact inv_handing inv here
      | releasing => exact inv_releasing inv here
      | ended => exact inv

theorem inv_startWith (requestId : String) (edits : List (String × String)) (dispatchers : Nat) :
    Inv requestId (startWith edits dispatchers) := by
  apply inv_of_idle
  · exact ⟨trivial, fun row stored => by cases stored⟩
  · exact fun _ => rfl
  · exact fun claimed => by cases claimed
  · rw [List.countP_eq_zero]
    intro call member waits
    rcases List.mem_append.mp member with edit | dispatcher
    · obtain ⟨_, _, rfl⟩ := List.mem_map.mp edit
      cases waits
    · obtain rfl := (List.mem_replicate.mp dispatcher).2
      cases waits

/-- In every run whose moves are careful, every accepted edit has seen the prompt that it replaces
and meets no claim, and what is handed to a worker is the prompt that was accepted last. -/
theorem faithful_of_careful (requestId : String) (edits : List (String × String))
    (dispatchers : Nat) (moves : List PromptMove)
    (careful : Guarded (CarefulMove requestId) (promptStep requestId)
      (startWith edits dispatchers) moves) :
    ∀ s ∈ trace (promptStep requestId) (startWith edits dispatchers) moves,
      Faithful requestId s := by
  have kept := invariant_of_guarded inv_promptStep
    (inv_startWith requestId edits dispatchers) careful
  exact fun s visited => (kept s visited).faithful

def enqueued : PromptMove := .other ⟨1, .enqueue (.plain "req-71" "draft" false)⟩

def editedTwice : List PromptMove :=
  [enqueued, .go 0 2 true true, .go 2 3 true true, .go 2 4 true false, .go 2 5 true true,
    .go 1 6 true true, .go 3 7 true true, .go 3 8 true true]

theorem faithful_of_careful_editedTwice :
    Guarded (CarefulMove "req-71") (promptStep "req-71")
        (startWith [("draft", "better"), ("better", "best")] 2) editedTwice ∧
      ∀ s ∈ trace (promptStep "req-71") (startWith [("draft", "better"), ("better", "best")] 2)
        editedTwice, Faithful "req-71" s := by
  have careful : Guarded (CarefulMove "req-71") (promptStep "req-71")
      (startWith [("draft", "better"), ("better", "best")] 2) editedTwice := by
    decide +kernel
  exact ⟨careful,
    faithful_of_careful "req-71" [("draft", "better"), ("better", "best")] 2 editedTwice careful⟩

def staleCopy : List PromptMove := [enqueued, .load 0, .go 1 2 true true, .go 0 3 true true]

/-- Both edits expect the first prompt, and both are accepted. -/
theorem not_faithful_staleCopy :
    ¬∀ s ∈ trace (promptStep "req-71") (startWith [("draft", "mine"), ("draft", "theirs")] 0)
      staleCopy, Faithful "req-71" s := by
  intro faithful
  have last := (faithful _ (run_mem_trace _ _ _)).runs
  exact absurd last (by decide +kernel)

end AverQel.DeepSpace.Prompts
