/- digest: The user's own writes of a key, and the one current value that they are to leave. -/
import AverQel.DeepSpace.Memories
import AverQel.Foundation.Transition
import Mathlib.Tactic.MkIffOfInductiveProp

namespace AverQel.DeepSpace

open Foundation Transition

/-- Whose fact it is, and under which key. -/
structure FactKey where
  (tenantId userId : Uuid)
  key : String
  deriving DecidableEq

def AgentMemory.factKey (memory : AgentMemory) : FactKey :=
  ⟨memory.tenantId, memory.userId, memory.key⟩

def AgentMemory.current (memory : AgentMemory) : Bool :=
  memory.status = .active ∧ memory.scope = .user

def FactWrite.factKey (write : FactWrite) : FactKey :=
  ⟨write.tenantId, write.userId, write.normalizedKey⟩

structure ExplicitWrite (lib : TextLibrary) extends FactWrite where
  explicit : toFactWrite.fromUser = true
  active : toFactWrite.status = "active"
  userScope : toFactWrite.normalizedScope lib = .user

namespace ExplicitWrite

variable {lib : TextLibrary} (write : ExplicitWrite lib)

@[simp] theorem normalizedStatus_eq : write.normalizedStatus = .active := by
  rw [FactWrite.normalizedStatus, write.active]
  rfl

theorem supersedes_eq : write.supersedes lib = true := by
  simp [FactWrite.supersedes, write.userScope, write.explicit]

theorem current_reinforced (now : Time) (memory : AgentMemory) :
    (write.reinforced lib now memory).current = true := by
  simp [FactWrite.reinforced, AgentMemory.current, write.userScope]

theorem current_superseded {now : Time} {memory : AgentMemory}
    (current : (write.superseded lib now memory).current = true) :
    write.superseded lib now memory = memory ∧ memory.current = true ∧
      memory.factKey ≠ write.factKey := by
  unfold FactWrite.superseded at current ⊢
  rw [write.supersedes_eq] at current ⊢
  by_cases conflict : write.conflictsWith memory = true
  · simp [conflict, AgentMemory.current] at current
  · have kept : ¬ (true = true ∧ write.conflictsWith memory = true) := fun both => conflict both.2
    rw [if_neg kept] at current ⊢
    refine ⟨rfl, current, fun same => conflict ?_⟩
    simp only [AgentMemory.current, decide_eq_true_eq] at current
    simp only [AgentMemory.factKey, FactWrite.factKey, FactKey.mk.injEq] at same
    simp [FactWrite.conflictsWith, same, current]

end ExplicitWrite

structure FactHistory where
  memories : Memories
  written : List (FactKey × String)

namespace FactHistory

variable (lib : TextLibrary)

def lastValue (history : FactHistory) (key : FactKey) : Option String :=
  (history.written.find? fun entry => decide (entry.1 = key)).map Prod.snd

/-- One call of `store_fact`. A fact that the client's own storage keeps is not written here. -/
def store (history : FactHistory) (call : StoreAnswers × ExplicitWrite lib) : FactHistory :=
  match storeFact lib history.memories call.1 call.2.toFactWrite with
  | .error _ => history
  | .ok (memories, _) =>
    match call.1.clientStorage with
    | some _ => history
    | none => ⟨memories, (call.2.factKey, call.2.normalizedValue) :: history.written⟩

/-- A key has at most one active user-scope memory, and this one holds the last written value. -/
@[mk_iff]
structure OneCurrentValue (history : FactHistory) : Prop where
  one : ∀ a ∈ history.memories.rows, ∀ b ∈ history.memories.rows, a.current = true →
    b.current = true → a.factKey = b.factKey → a.id = b.id
  last : ∀ a ∈ history.memories.rows, a.current = true →
    history.lastValue a.factKey = some a.value

instance (history : FactHistory) : Decidable (OneCurrentValue history) :=
  decidable_of_iff _ (oneCurrentValue_iff history).symm

def ReactivatesAlone (history : FactHistory) (call : StoreAnswers × ExplicitWrite lib) : Prop :=
  ∀ existing ∈ updatedRow lib history.memories call.1 call.2.toFactWrite,
    ∀ a ∈ history.memories.rows, a.current = true → a.factKey = call.2.factKey →
      a.id = existing.id

instance (history : FactHistory) (call : StoreAnswers × ExplicitWrite lib) :
    Decidable (ReactivatesAlone lib history call) := by
  delta ReactivatesAlone
  infer_instance

variable {lib} {history : FactHistory} {answers : StoreAnswers} {write : ExplicitWrite lib}

theorem lastValue_written (memories : Memories) (key : FactKey) (value : String)
    (written : List (FactKey × String)) (other : FactKey) :
    lastValue ⟨memories, (key, value) :: written⟩ other =
      if key = other then some value else lastValue ⟨memories, written⟩ other := by
  by_cases same : key = other <;> simp [lastValue, same]

theorem store_of_updatedRow {existing : AgentMemory}
    (updated : updatedRow lib history.memories answers write.toFactWrite = some existing) :
    store lib history (answers, write) =
      ⟨reinforce lib history.memories answers write.toFactWrite existing,
        (write.factKey, write.normalizedValue) :: history.written⟩ := by
  simp only [store, storeFact_of_updatedRow updated, clientStorage_of_updatedRow updated]

theorem store_of_no_updatedRow
    (fresh : updatedRow lib history.memories answers write.toFactWrite = none) :
    store lib history (answers, write) = history ∨
    ∃ after, (supersede lib history.memories answers write.toFactWrite).insert?
        (write.inserted lib answers) = some after ∧
      store lib history (answers, write) =
        ⟨after, (write.factKey, write.normalizedValue) :: history.written⟩ := by
  cases stored : storeFact lib history.memories answers write.toFactWrite with
  | error =>
    refine Or.inl ?_
    simp only [store, stored]
  | ok result =>
    obtain ⟨after, id⟩ := result
    rcases storeFact_cases stored with ⟨client, _⟩ | ⟨_, existing, found, _⟩ |
        ⟨client, _, _, _, inserted⟩
    · refine Or.inl ?_
      simp only [store, stored, client]
    · rw [fresh] at found
      cases found
    · refine Or.inr ⟨after, inserted, ?_⟩
      simp only [store, stored, client]

theorem oneCurrentValue_inserted {after : Memories} (inv : OneCurrentValue history)
    (inserted : (supersede lib history.memories answers write.toFactWrite).insert?
      (write.inserted lib answers) = some after) :
    OneCurrentValue ⟨after, (write.factKey, write.normalizedValue) :: history.written⟩ := by
  have split : ∀ a ∈ after.rows, a.current = true →
      (a ∈ history.memories.rows ∧ a.factKey ≠ write.factKey) ∨ a = write.inserted lib answers := by
    intro a member current
    rcases (Table.mem_of_insert? inserted).mp member with old | rfl
    · obtain ⟨row, known, rfl⟩ := mem_supersede.mp old
      obtain ⟨same, _, apart⟩ := write.current_superseded current
      rw [same]
      exact Or.inl ⟨known, apart⟩
    · exact Or.inr rfl
  constructor
  · intro a ha b hb currentA currentB same
    rcases split a ha currentA with ⟨oldA, apartA⟩ | rfl
    · rcases split b hb currentB with ⟨oldB, _⟩ | rfl
      · exact inv.one a oldA b oldB currentA currentB same
      · exact absurd same apartA
    · rcases split b hb currentB with ⟨_, apartB⟩ | rfl
      · exact absurd same.symm apartB
      · rfl
  · intro a ha current
    rw [lastValue_written]
    rcases split a ha current with ⟨old, apart⟩ | rfl
    · rw [if_neg apart.symm]
      exact inv.last a old current
    · exact if_pos rfl

theorem oneCurrentValue_reinforce_iff {existing : AgentMemory} (inv : OneCurrentValue history)
    (found : existing ∈ history.memories.rows)
    (matched : write.matchesHash lib existing = true) :
    OneCurrentValue ⟨reinforce lib history.memories answers write.toFactWrite existing,
        (write.factKey, write.normalizedValue) :: history.written⟩ ↔
      ∀ a ∈ history.memories.rows, a.current = true → a.factKey = write.factKey →
        a.id = existing.id := by
  have owner : existing.tenantId = write.tenantId ∧ existing.userId = write.userId := by
    simp only [FactWrite.matchesHash, write.userScope, reduceCtorEq, if_false,
      decide_eq_true_eq] at matched
    exact ⟨matched.1, matched.2.1⟩
  have rewritten : (write.reinforced lib answers.now existing).factKey = write.factKey := by
    simp [AgentMemory.factKey, FactWrite.factKey, FactWrite.reinforced, owner]
  have split : ∀ a ∈ (reinforce lib history.memories answers write.toFactWrite existing).rows,
      (a ∈ history.memories.rows ∧ a.id ≠ existing.id) ∨
        a = write.reinforced lib answers.now existing := by
    intro a member
    obtain ⟨row, known, shape⟩ := mem_reinforce.mp member
    by_cases same : row.id = existing.id
    · obtain rfl := history.memories.eq_of_key_eq known found same
      rw [if_pos rfl] at shape
      exact Or.inr shape.symm
    · rw [if_neg same] at shape
      exact Or.inl ⟨shape ▸ known, shape ▸ same⟩
  have here : write.reinforced lib answers.now existing ∈
      (reinforce lib history.memories answers write.toFactWrite existing).rows :=
    mem_reinforce.mpr ⟨existing, found, if_pos rfl⟩
  constructor
  · intro after a known current same
    by_contra other
    have stays : a ∈ (reinforce lib history.memories answers write.toFactWrite existing).rows :=
      mem_reinforce.mpr ⟨a, known, if_neg other⟩
    have renewed := write.current_reinforced answers.now existing
    exact other (after.one a stays (write.reinforced lib answers.now existing) here current renewed
      (same.trans rewritten.symm))
  · intro alone
    constructor
    · intro a ha b hb currentA currentB same
      rcases split a ha with ⟨oldA, otherA⟩ | rfl
      · rcases split b hb with ⟨oldB, _⟩ | rfl
        · exact inv.one a oldA b oldB currentA currentB same
        · exact absurd (alone a oldA currentA (same.trans rewritten)) otherA
      · rcases split b hb with ⟨oldB, otherB⟩ | rfl
        · exact absurd (alone b oldB currentB (same.symm.trans rewritten)) otherB
        · rfl
    · intro a ha current
      rw [lastValue_written]
      rcases split a ha with ⟨old, other⟩ | rfl
      · have apart : write.factKey ≠ a.factKey := fun same =>
          other (alone a old current same.symm)
        rw [if_neg apart]
        exact inv.last a old current
      · exact if_pos rewritten.symm

theorem oneCurrentValue_store_iff (inv : OneCurrentValue history) :
    OneCurrentValue (store lib history (answers, write)) ↔
      ReactivatesAlone lib history (answers, write) := by
  unfold ReactivatesAlone
  cases updated : updatedRow lib history.memories answers write.toFactWrite with
  | some =>
    obtain ⟨found, matched⟩ := mem_of_updatedRow updated
    rw [store_of_updatedRow updated, oneCurrentValue_reinforce_iff inv found matched]
    simp
  | none =>
    refine iff_of_true ?_ (by simp)
    rcases store_of_no_updatedRow updated with unchanged | ⟨after, inserted, shape⟩
    · rw [unchanged]
      exact inv
    · rw [shape]
      exact oneCurrentValue_inserted inv inserted

/-- Every state of a run of the user's own writes has one current value for each key exactly when
no write brings an old row back beside the current one. -/
theorem oneCurrentValue_iff_reactivatesAlone (lib : TextLibrary) (start : FactHistory)
    (calls : List (StoreAnswers × ExplicitWrite lib)) (inv : OneCurrentValue start) :
    (∀ history ∈ trace (store lib) start calls, OneCurrentValue history) ↔
      Guarded (ReactivatesAlone lib) (store lib) start calls :=
  forall_trace_iff_guarded (I := fun _ : FactHistory => True) (fun _ _ _ => trivial)
    (fun _ _ _ held => oneCurrentValue_store_iff held) trivial inv

def unwritten : FactHistory := ⟨Table.empty, []⟩

theorem normalize_user : MemoryScope.normalize .plain "user" = .user := by decide +kernel

/-- User 2 of tenant 1 writes a home city by hand, as row `id` if it is new. -/
def writeCity (id : Uuid) (city : String) : StoreAnswers × ExplicitWrite .plain :=
  (⟨0, id, none, true, true⟩,
    { tenantId := 1, userId := 2, key := "home_city", value := city, scope := "user",
      source := some "manual_memory", conversationId := none, status := "active",
      expiresAt := none, explicit := rfl, active := rfl, userScope := normalize_user })

/-- Going on to another city and repeating it. -/
theorem oneCurrentValue_moving :
    Guarded (ReactivatesAlone .plain) (store .plain) unwritten
      [writeCity 10 "Paris", writeCity 11 "Rome", writeCity 12 " Rome "] ∧
    ∀ history ∈ trace (store .plain) unwritten
        [writeCity 10 "Paris", writeCity 11 "Rome", writeCity 12 " Rome "],
      OneCurrentValue history := by
  have guarded : Guarded (ReactivatesAlone .plain) (store .plain) unwritten
      [writeCity 10 "Paris", writeCity 11 "Rome", writeCity 12 " Rome "] := by decide +kernel
  have inv : OneCurrentValue unwritten := by decide
  exact ⟨guarded, (oneCurrentValue_iff_reactivatesAlone .plain unwritten _ inv).mpr guarded⟩

/-- Paris, Rome, and Paris again: the old row comes back, and the row of Rome stays. -/
theorem not_oneCurrentValue_returning :
    ¬ ∀ (lib : TextLibrary) (calls : List (StoreAnswers × ExplicitWrite lib)),
      ∀ history ∈ trace (store lib) unwritten calls, OneCurrentValue history := by
  intro always
  have last := always .plain
    [writeCity 10 "Paris", writeCity 11 "Rome", writeCity 12 "Paris"] _ (run_mem_trace _ _ _)
  revert last
  decide +kernel

theorem lastValue_of_retrieveFact {now : Time} {tenantId userId : Uuid}
    {key conversationId : Option String} {value : String} (inv : OneCurrentValue history)
    (ofUser : ∀ a ∈ history.memories.rows, a.scope = .user)
    (read : (retrieveFact history.memories now tenantId userId key conversationId).2 = some value) :
    history.lastValue ⟨tenantId, userId, Text.strip (key.getD "")⟩ = some value := by
  unfold retrieveFact at read
  split at read
  · cases read
  · rename_i memory latest
    cases read
    unfold latestFact at latest
    simp only at latest
    split at latest
    · cases latest
    · obtain ⟨member, fits⟩ := List.mem_filter.mp (mem_of_minBy latest)
      have own := ofUser memory member
      simp only [AgentMemory.accessible, AgentMemory.live, decide_eq_true_eq, own,
        reduceCtorEq, or_false, true_and] at fits
      obtain ⟨tenant, ⟨user, _⟩, ⟨active, _⟩, same⟩ := fits
      have held := inv.last memory member (by simp [AgentMemory.current, active, own])
      rwa [AgentMemory.factKey, tenant, user, same] at held

theorem userScope_store (ofUser : ∀ a ∈ history.memories.rows, a.scope = .user)
    (call : StoreAnswers × ExplicitWrite lib) :
    ∀ a ∈ (store lib history call).memories.rows, a.scope = .user := by
  obtain ⟨answers, write⟩ := call
  cases updated : updatedRow lib history.memories answers write.toFactWrite with
  | some existing =>
    rw [store_of_updatedRow updated]
    intro a member
    obtain ⟨row, known, rfl⟩ := mem_reinforce.mp member
    split
    · exact write.userScope
    · exact ofUser row known
  | none =>
    rcases store_of_no_updatedRow updated with unchanged | ⟨after, inserted, shape⟩
    · rwa [unchanged]
    · rw [shape]
      intro a member
      rcases (Table.mem_of_insert? inserted).mp member with old | rfl
      · obtain ⟨row, known, rfl⟩ := mem_supersede.mp old
        unfold FactWrite.superseded
        split <;> exact ofUser row known
      · exact write.userScope

end FactHistory

end AverQel.DeepSpace
