/- digest: What becomes of the active memories when inferred candidates are stored and reviewed. -/
import AverQel.DeepSpace.MemoryCandidates

namespace AverQel.DeepSpace

open Foundation Transition

def KeepsActive (before after : Memories) : Prop :=
  ∀ a ∈ before.rows, a.status = .active → ∃ b ∈ after.rows, b.id = a.id ∧ b.status = .active

instance (before after : Memories) : Decidable (KeepsActive before after) := by
  delta KeepsActive
  infer_instance

theorem KeepsActive.refl (memories : Memories) : KeepsActive memories memories :=
  fun a member active => ⟨a, member, rfl, active⟩

theorem KeepsActive.trans {first second third : Memories} (left : KeepsActive first second)
    (right : KeepsActive second third) : KeepsActive first third := by
  intro a member active
  obtain ⟨b, memberB, sameB, activeB⟩ := left a member active
  obtain ⟨c, memberC, sameC, activeC⟩ := right b memberB activeB
  exact ⟨c, memberC, sameC.trans sameB, activeC⟩

section Stored

variable (lib : TextLibrary) (memories : Memories) (answers : StoreAnswers) (write : FactWrite)

/-- The table after a call of `store_fact`, which may have failed. -/
def stored : Memories :=
  match storeFact lib memories answers write with
  | .error _ => memories
  | .ok (after, _) => after

def Unconfirmed : Prop :=
  write.normalizedStatus = .pending →
    ∀ existing ∈ updatedRow lib memories answers write, existing.status ≠ .active

instance : Decidable (Unconfirmed lib memories answers write) := by
  delta Unconfirmed
  infer_instance

variable {lib memories answers write}

theorem stored_cases (lib : TextLibrary) (memories : Memories) (answers : StoreAnswers)
    (gentle : write.supersedes lib = false) :
    (∃ existing, updatedRow lib memories answers write = some existing ∧
      stored lib memories answers write = reinforce lib memories answers write existing) ∨
    (updatedRow lib memories answers write = none ∧
      ∀ b, b ∈ (stored lib memories answers write).rows ↔ b ∈ memories.rows ∨
        (b = write.inserted lib answers ∧ b ∈ (stored lib memories answers write).rows)) := by
  have unchanged : supersede lib memories answers write = memories :=
    Table.mapRows_eq_self fun a _ => by simp [FactWrite.superseded, gentle]
  cases updated : updatedRow lib memories answers write with
  | some existing =>
    refine Or.inl ⟨existing, rfl, ?_⟩
    simp only [stored, storeFact_of_updatedRow updated]
  | none =>
    refine Or.inr ⟨rfl, fun b => ?_⟩
    cases outcome : storeFact lib memories answers write with
    | error =>
      simp only [stored, outcome]
      exact ⟨Or.inl, fun either => either.elim (fun old => old) And.right⟩
    | ok result =>
      obtain ⟨after, id⟩ := result
      simp only [stored, outcome]
      rcases storeFact_cases outcome with ⟨_, rfl⟩ | ⟨_, existing, found, _⟩ | ⟨_, _, _, _, inserted⟩
      · exact ⟨Or.inl, fun either => either.elim (fun old => old) And.right⟩
      · rw [updated] at found
        cases found
      · rw [unchanged] at inserted
        have members := Table.mem_of_insert? (b := b) inserted
        constructor
        · intro member
          exact (members.mp member).imp_right fun new => ⟨new, member⟩
        · rintro (old | ⟨_, member⟩)
          · exact members.mpr (Or.inl old)
          · exact member

/-- Storing a fact that supersedes nothing keeps the active memories active exactly when it does
not write "pending" over one of them. -/
theorem keepsActive_stored_iff (gentle : write.supersedes lib = false) :
    KeepsActive memories (stored lib memories answers write) ↔
      Unconfirmed lib memories answers write := by
  rcases stored_cases lib memories answers gentle with
    ⟨existing, updated, shape⟩ | ⟨updated, members⟩
  · obtain ⟨found, _⟩ := mem_of_updatedRow updated
    rw [shape]
    simp only [Unconfirmed, updated, Option.mem_some_iff, forall_eq']
    constructor
    · intro keeps waiting active
      obtain ⟨b, member, same, stillActive⟩ := keeps existing found active
      obtain ⟨a, known, rfl⟩ := mem_reinforce.mp member
      by_cases here : a.id = existing.id
      · rw [if_pos here] at stillActive
        have demoted : (write.reinforced lib answers.now a).status = .pending := waiting
        rw [demoted] at stillActive
        cases stillActive
      · rw [if_neg here] at same
        exact here same
    · intro spared a member active
      by_cases here : a.id = existing.id
      · obtain rfl := memories.eq_of_key_eq member found here
        have promoted : write.normalizedStatus = .active := by
          cases status : write.normalizedStatus with
          | active => rfl
          | pending => exact absurd active (spared status)
          | archived =>
            unfold FactWrite.normalizedStatus at status
            split at status <;> cases status
        exact ⟨_, mem_reinforce.mpr ⟨a, member, if_pos rfl⟩, rfl, promoted⟩
      · exact ⟨a, mem_reinforce.mpr ⟨a, member, if_neg here⟩, rfl, active⟩
  · refine iff_of_true ?_ ?_
    · intro a member active
      exact ⟨a, (members a).mpr (Or.inl member), rfl, active⟩
    · intro _ existing found
      rw [updated] at found
      cases found

theorem keepsActive_of_stored_pending (gentle : write.supersedes lib = false)
    (waiting : write.normalizedStatus = .pending) :
    ∀ b ∈ (stored lib memories answers write).rows, b.status = .active → b ∈ memories.rows := by
  intro b member active
  rcases stored_cases lib memories answers gentle with
    ⟨existing, updated, shape⟩ | ⟨_, members⟩
  · rw [shape] at member
    obtain ⟨a, known, same⟩ := mem_reinforce.mp member
    by_cases here : a.id = existing.id
    · rw [if_pos here] at same
      have demoted : (write.reinforced lib answers.now a).status = .pending := waiting
      rw [same, active] at demoted
      cases demoted
    · rw [if_neg here] at same
      exact same ▸ known
  · rcases (members b).mp member with old | ⟨rfl, _⟩
    · exact old
    · have demoted : (write.inserted lib answers).status = .pending := waiting
      rw [active] at demoted
      cases demoted

end Stored

section Turns

variable {lib : TextLibrary} {preferences : MemoryPreferences} {turn : FinishedTurn}

def SparesConfirmed (lib : TextLibrary) (preferences : MemoryPreferences) (turn : FinishedTurn)
    (state : Consolidation) (round : StoreAnswers × MemoryCandidate) : Prop :=
  state.failure = none →
    Unconfirmed lib state.memories round.1 (round.2.toWrite preferences turn)

variable {state : Consolidation} {round : StoreAnswers × MemoryCandidate}

theorem gentle_toWrite (candidate : MemoryCandidate) :
    (candidate.toWrite preferences turn).supersedes lib = false := by
  cases explicit : candidate.explicit <;>
    simp [FactWrite.supersedes, FactWrite.fromUser, MemoryCandidate.toWrite, explicit]

theorem archiveExisting_of_inferred {candidate : MemoryCandidate}
    (inferred : candidate.explicit = false) (now : Time) (memories : Memories) :
    candidate.archiveExisting preferences turn now memories = memories := by
  unfold MemoryCandidate.archiveExisting
  split
  · rfl
  · simp [inferred]

/-- A round of an inferred candidate is one call of `store_fact`. -/
theorem memories_next (inferred : round.2.explicit = false) :
    (state.next lib preferences turn round).memories =
      if state.failure = none then
        stored lib state.memories round.1 (round.2.toWrite preferences turn)
      else state.memories := by
  unfold Consolidation.next stored
  rw [archiveExisting_of_inferred inferred]
  cases state.failure with
  | some => rfl
  | none =>
    simp only [Option.isSome_none, Bool.false_eq_true, if_false, if_true]
    split <;> simp_all

theorem keepsActive_next_iff (inferred : round.2.explicit = false) :
    KeepsActive state.memories (state.next lib preferences turn round).memories ↔
      SparesConfirmed lib preferences turn state round := by
  rw [memories_next inferred]
  by_cases going : state.failure = none
  · rw [if_pos going, keepsActive_stored_iff (gentle_toWrite _)]
    exact ⟨fun spared _ => spared, fun spared => spared going⟩
  · rw [if_neg going]
    exact iff_of_true (KeepsActive.refl _) fun ended => absurd ended going

theorem normalizedStatus_toWrite {candidate : MemoryCandidate}
    (inferred : candidate.explicit = false) :
    (candidate.toWrite preferences turn).normalizedStatus =
      if preferences.reviewInferredMemories then .pending else .active := by
  cases review : preferences.reviewInferredMemories <;>
    simp [FactWrite.normalizedStatus, MemoryCandidate.toWrite, MemoryCandidate.status, inferred,
      review]

theorem active_of_next (review : preferences.reviewInferredMemories = true)
    (inferred : round.2.explicit = false) :
    ∀ b ∈ (state.next lib preferences turn round).memories.rows, b.status = .active →
      b ∈ state.memories.rows := by
  rw [memories_next inferred]
  split
  · apply keepsActive_of_stored_pending (gentle_toWrite _)
    rw [normalizedStatus_toWrite inferred, review]
    rfl
  · exact fun b member _ => member

theorem active_of_rounds (review : preferences.reviewInferredMemories = true)
    (rounds : List (StoreAnswers × MemoryCandidate))
    (inferred : ∀ round ∈ rounds, round.2.explicit = false) :
    ∀ b ∈ (run (Consolidation.next lib preferences turn) state rounds).memories.rows,
      b.status = .active → b ∈ state.memories.rows := by
  induction rounds generalizing state with
  | nil => exact fun b member _ => member
  | cons round rounds ih =>
    intro b member active
    have later := ih (fun other known => inferred other (List.mem_cons_of_mem _ known)) b member
      active
    exact active_of_next review (inferred round List.mem_cons_self) b later active

/-- Without a review, no round writes "pending". -/
theorem sparesConfirmed_of_no_review (review : preferences.reviewInferredMemories = false)
    (inferred : round.2.explicit = false) : SparesConfirmed lib preferences turn state round := by
  intro _ waiting
  rw [normalizedStatus_toWrite inferred, review] at waiting
  cases waiting

/-- Rounds of inferred candidates keep the active memories active exactly when none of them writes
"pending" over one. -/
theorem keepsActive_rounds_iff (rounds : List (StoreAnswers × MemoryCandidate))
    (inferred : ∀ round ∈ rounds, round.2.explicit = false) :
    KeepsActive state.memories
        (run (Consolidation.next lib preferences turn) state rounds).memories ↔
      Guarded (SparesConfirmed lib preferences turn) (Consolidation.next lib preferences turn)
        state rounds := by
  induction rounds generalizing state with
  | nil => exact iff_of_true (KeepsActive.refl _) trivial
  | cons round rounds ih =>
    have first := inferred round List.mem_cons_self
    have others : ∀ other ∈ rounds, other.2.explicit = false :=
      fun other known => inferred other (List.mem_cons_of_mem _ known)
    have head : KeepsActive state.memories (state.next lib preferences turn round).memories ↔
        SparesConfirmed lib preferences turn state round := keepsActive_next_iff first
    have tail : KeepsActive (state.next lib preferences turn round).memories
          (run (Consolidation.next lib preferences turn)
            (state.next lib preferences turn round) rounds).memories ↔
        Guarded (SparesConfirmed lib preferences turn) (Consolidation.next lib preferences turn)
          (state.next lib preferences turn round) rounds := ih others
    constructor
    · intro keeps
      by_cases review : preferences.reviewInferredMemories = true
      · -- Nothing becomes active on the way, so what is kept to the end is kept by every round.
        have now : KeepsActive state.memories (state.next lib preferences turn round).memories := by
          intro a member active
          obtain ⟨b, last, same, activeB⟩ := keeps a member active
          exact ⟨b, active_of_rounds review rounds others b last activeB, same, activeB⟩
        have later := tail.mp fun a member active =>
          keeps a (active_of_next review first a member active) active
        exact ⟨head.mp now, later⟩
      · have off : preferences.reviewInferredMemories = false := by simpa using review
        have spared : SparesConfirmed lib preferences turn state round :=
          sparesConfirmed_of_no_review off first
        have fits : Guarded (fun _ (other : StoreAnswers × MemoryCandidate) =>
            other.2.explicit = false) (Consolidation.next lib preferences turn)
            (state.next lib preferences turn round) rounds := guarded_of_forall others
        exact ⟨spared, guarded_mono_of_guarded (I := fun _ => True) (fun _ _ _ _ => trivial)
          (fun _ _ _ _ inferred => sparesConfirmed_of_no_review off inferred) trivial fits fits⟩
    · rintro ⟨spared, rest⟩
      exact (head.mpr spared).trans (tail.mpr rest)

end Turns

/-- The calls that change the memories of the users. -/
inductive MemoryStep where
  | storeFact (answers : StoreAnswers) (write : FactWrite)
  | consolidateTurn (turn : FinishedTurn) (preferences : MemoryPreferences)
      (answers : Nat → StoreAnswers)
  | approve (call : CandidateCall)
  | reject (call : CandidateCall)

variable (lib : TextLibrary) (patterns : PromptPatterns)

namespace MemoryStep

def next (memories : Memories) : MemoryStep → Memories
  | storeFact answers write => stored lib memories answers write
  | consolidateTurn turn preferences answers =>
    (DeepSpace.consolidateTurn lib patterns preferences turn answers memories).1
  | approve call => (approveMemoryCandidate memories call).1
  | reject call => (rejectMemoryCandidate memories call).1

def Inferred : MemoryStep → Prop
  | storeFact _ write => write.source = some "conversation_consolidation"
  | consolidateTurn turn preferences _ =>
    ∀ candidate ∈ handledCandidates lib patterns preferences turn, candidate.explicit = false
  | approve _ => True
  | reject _ => True

instance (step : MemoryStep) : Decidable (step.Inferred lib patterns) :=
  match step with
  | storeFact _ write => inferInstanceAs (Decidable (write.source = some "conversation_consolidation"))
  | consolidateTurn turn preferences _ =>
    inferInstanceAs (Decidable (∀ candidate ∈ handledCandidates lib patterns preferences turn,
      candidate.explicit = false))
  | approve _ => inferInstanceAs (Decidable True)
  | reject _ => inferInstanceAs (Decidable True)

/-- No candidate of the step is written as "pending" over an active memory with its content hash. -/
def Spares (memories : Memories) : MemoryStep → Prop
  | storeFact answers write => Unconfirmed lib memories answers write
  | consolidateTurn turn preferences answers =>
    Guarded (SparesConfirmed lib preferences turn) (Consolidation.next lib preferences turn)
      ⟨memories, [], none⟩ (consolidationRounds lib patterns preferences turn answers)
  | approve _ => True
  | reject _ => True

variable {lib patterns}

theorem keepsActive_approve (memories : Memories) (call : CandidateCall) :
    KeepsActive memories (approveMemoryCandidate memories call).1 := by
  intro a member active
  refine ⟨call.approved a, List.mem_map_of_mem member, call.id_approved a, ?_⟩
  unfold CandidateCall.approved
  split
  · rfl
  · exact active

theorem keepsActive_reject (memories : Memories) (call : CandidateCall) :
    KeepsActive memories (rejectMemoryCandidate memories call).1 := by
  intro a member active
  refine ⟨a, Table.mem_filter.mpr ⟨member, ?_⟩, rfl, active⟩
  simp [CandidateCall.selects, active]

theorem consolidateTurn_memories (turn : FinishedTurn) (preferences : MemoryPreferences)
    (answers : Nat → StoreAnswers) (memories : Memories) :
    (DeepSpace.consolidateTurn lib patterns preferences turn answers memories).1 =
      (run (Consolidation.next lib preferences turn) ⟨memories, [], none⟩
        (consolidationRounds lib patterns preferences turn answers)).memories := by
  unfold DeepSpace.consolidateTurn
  by_cases sensitive : isSensitiveCandidate lib turn.prompt = true
  · simp [sensitive, consolidationRounds, handledCandidates, run]
  · by_cases raised : candidatesFromPrompt lib patterns turn.prompt = none
    · simp [sensitive, raised, consolidationRounds, handledCandidates, run]
    · rw [if_neg sensitive, if_neg raised]
      simp only
      split <;> rfl

theorem keepsActive_next_iff {memories : Memories} {step : MemoryStep}
    (inferred : step.Inferred lib patterns) :
    KeepsActive memories (step.next lib patterns memories) ↔ step.Spares lib patterns memories := by
  cases step with
  | storeFact answers write =>
    have source : write.source = some "conversation_consolidation" := inferred
    apply keepsActive_stored_iff
    simp [FactWrite.supersedes, FactWrite.fromUser, source]
  | consolidateTurn turn preferences answers =>
    show KeepsActive memories (DeepSpace.consolidateTurn lib patterns preferences turn answers
      memories).1 ↔ _
    rw [consolidateTurn_memories]
    have fits : ∀ round ∈ consolidationRounds lib patterns preferences turn answers,
        round.2.explicit = false := by
      intro round member
      obtain ⟨⟨candidate, i⟩, known, rfl⟩ := List.mem_map.mp member
      have handled : candidate ∈ handledCandidates lib patterns preferences turn :=
        (List.mem_zipIdx known).2.2 ▸ List.getElem_mem _
      exact inferred candidate handled
    have start : (Consolidation.mk memories [] none).memories = memories := rfl
    rw [← start]
    exact keepsActive_rounds_iff _ fits
  | approve call => exact iff_of_true (keepsActive_approve memories call) trivial
  | reject call => exact iff_of_true (keepsActive_reject memories call) trivial

end MemoryStep

/-- In every run, the steps that handle inferred candidates only keep the active memories active
exactly when none of them writes "pending" over one. -/
theorem inference_keepsActive_iff_spares (start : Memories) (steps : List MemoryStep) :
    Guarded (fun memories step => step.Inferred lib patterns →
        KeepsActive memories (MemoryStep.next lib patterns memories step))
      (MemoryStep.next lib patterns) start steps ↔
    Guarded (fun memories step => step.Inferred lib patterns → step.Spares lib patterns memories)
      (MemoryStep.next lib patterns) start steps := by
  apply guarded_iff_of_guarded (I := fun _ => True) (E := fun _ _ => True)
  · exact fun _ _ _ _ => trivial
  · exact fun memories step _ _ => forall_congr' fun inferred => step.keepsActive_next_iff inferred
  · trivial
  · exact guarded_true _ start steps

/-- What the patterns find in "I prefer short answers.". -/
def preferencePatterns : PromptPatterns where
  explicit _ := none
  fact _ := none
  preference text := if text = "I prefer short answers." then some ("prefer", "short answers.") else none
  workflow _ := none
  decision _ := none
  commitment _ := none
  goal _ := none
  artifact _ := none

def preferenceTurn (id : Uuid) : MemoryStep :=
  .consolidateTurn ⟨1, 2, "3", "I prefer short answers."⟩ ⟨true, true⟩
    fun _ => ⟨0, id, none, true, true⟩

/-- The fact is inferred and approved; it is inferred again, and the routine rejection of the
repetition deletes it. -/
theorem not_inference_keepsActive :
    ¬ ∀ (lib : TextLibrary) (patterns : PromptPatterns) (start : Memories) (steps : List MemoryStep),
      Guarded (fun memories step => step.Inferred lib patterns →
          KeepsActive memories (MemoryStep.next lib patterns memories step))
        (MemoryStep.next lib patterns) start steps := by
  intro always
  have broken := always .plain preferencePatterns Table.empty
    [preferenceTurn 10, .approve ⟨1, 1, 2, 10⟩, preferenceTurn 11, .reject ⟨2, 1, 2, 10⟩]
  revert broken
  decide +kernel

end AverQel.DeepSpace
