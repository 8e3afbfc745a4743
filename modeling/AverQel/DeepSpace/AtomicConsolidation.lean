/- digest: An explicit fact archives what it supersedes before it is stored, and what this loses. -/
import AverQel.DeepSpace.CandidateForms
import AverQel.DeepSpace.ConfirmedFacts

namespace AverQel.DeepSpace

open Foundation Transition

def IsActive (memories : Memories) (id : Uuid) : Prop :=
  ∃ b ∈ memories.rows, b.id = id ∧ b.status = .active

variable (lib : TextLibrary) (memories : Memories) (answers : StoreAnswers) (write : FactWrite)

def Storable : Prop :=
  answers.clientStorage ≠ none ∨
    (write.normalizedKey ≠ "" ∧ write.normalizedValue ≠ "" ∧ answers.capacity = true ∧
      ((duplicateOf lib memories write).isSome ∨
        answers.embeds = true ∧ answers.newId ∉ memories.rows.map AgentMemory.id))

instance : Decidable (Storable lib memories answers write) :=
  inferInstanceAs (Decidable (_ ∨ _))

variable {lib memories answers write}

theorem storeFact_isOk_iff (gentle : write.supersedes lib = false) :
    (∃ result, storeFact lib memories answers write = .ok result) ↔
      Storable lib memories answers write := by
  have unchanged : supersede lib memories answers write = memories :=
    Table.mapRows_eq_self fun a _ => by simp [FactWrite.superseded, gentle]
  unfold storeFact Storable
  cases client : answers.clientStorage with
  | some id => exact iff_of_true ⟨_, rfl⟩ (.inl (Option.some_ne_none id))
  | none =>
    have local_ : ¬(none : Option Uuid) ≠ none := fun wrong => wrong rfl
    dsimp only
    rw [unchanged, exists_ensure_bind_iff, exists_ensure_bind_iff, or_iff_right local_]
    refine and_congr_right fun _ => and_congr_right fun _ => ?_
    cases found : duplicateOf lib memories write with
    | some =>
      dsimp only
      rw [exists_ensure_bind_iff]
      exact and_congr_right fun _ => iff_of_true ⟨_, rfl⟩ (.inl rfl)
    | none =>
      dsimp only
      rw [exists_ensure_bind_iff, exists_ensure_bind_iff, Option.isSome_none]
      have nothing : ¬(false = true) := by decide
      rw [or_iff_right nothing, and_left_comm]
      refine and_congr_right fun _ => and_congr_right fun _ => ?_
      cases inserted : memories.insert? (write.inserted lib answers) with
      | none =>
        refine iff_of_false (by rintro ⟨_, wrong⟩; cases wrong) fun free => ?_
        obtain ⟨after, done, _⟩ := Table.insert?_of_fresh (a := write.inserted lib answers) free
        rw [inserted] at done
        cases done
      | some =>
        refine iff_of_true ⟨_, rfl⟩ fun taken => ?_
        obtain ⟨b, member, same⟩ := List.mem_map.mp taken
        exact Table.fresh_of_insert? inserted member same

theorem stored_of_refused (gentle : write.supersedes lib = false)
    (refused : ¬Storable lib memories answers write) :
    stored lib memories answers write = memories := by
  cases outcome : storeFact lib memories answers write with
  | error => rw [stored, outcome]
  | ok result => exact absurd ((storeFact_isOk_iff gentle).mp ⟨result, outcome⟩) refused

variable (preferences : MemoryPreferences) (turn : FinishedTurn) (candidate : MemoryCandidate)

def MemoryCandidate.replacedRow (memories : Memories) : Option AgentMemory :=
  (candidate.existing turn memories).filter fun existing =>
    Text.strip existing.value ≠ Text.strip candidate.value ∧ candidate.explicit ∧
      candidate.status preferences = "active"

def MemoryCandidate.Replaces (memories : Memories) (id : Uuid) : Prop :=
  (candidate.replacedRow preferences turn memories).map AgentMemory.id = some id

instance (memories : Memories) (id : Uuid) :
    Decidable (candidate.Replaces preferences turn memories id) :=
  inferInstanceAs (Decidable (_ = _))

variable {preferences turn candidate} {memories : Memories}

theorem of_replacedRow {row : AgentMemory}
    (found : candidate.replacedRow preferences turn memories = some row) :
    row ∈ memories.rows ∧ row.key = candidate.key ∧ candidate.explicit = true := by
  obtain ⟨first, fits⟩ := Option.filter_eq_some_iff.mp found
  obtain ⟨_, explicit, _⟩ := of_decide_eq_true fits
  obtain ⟨member, selected⟩ := List.mem_filter.mp (mem_of_maxBy first)
  exact ⟨member, (of_decide_eq_true selected).2.2.2.1, explicit⟩

theorem exists_of_replaces {id : Uuid} (replaces : candidate.Replaces preferences turn memories id) :
    ∃ row, candidate.replacedRow preferences turn memories = some row ∧ row.id = id :=
  Option.map_eq_some_iff.mp replaces

theorem mem_archiveExisting {now : Time} {b : AgentMemory} :
    b ∈ (candidate.archiveExisting preferences turn now memories).rows ↔
      ∃ a ∈ memories.rows,
        (candidate.Replaces preferences turn memories a.id ∧
          b = { a with status := .archived, updatedAt := now }) ∨
        (¬candidate.Replaces preferences turn memories a.id ∧ b = a) := by
  unfold MemoryCandidate.archiveExisting MemoryCandidate.Replaces MemoryCandidate.replacedRow
  cases found : candidate.existing turn memories with
  | none =>
    simp only [Option.filter_none, Option.map_none, reduceCtorEq, false_and, false_or,
      not_false_eq_true, true_and, exists_eq_right']
  | some existing =>
    dsimp only
    rw [Option.filter_some]
    by_cases fits : Text.strip existing.value ≠ Text.strip candidate.value ∧ candidate.explicit ∧
        candidate.status preferences = "active"
    · rw [if_pos fits, if_pos (decide_eq_true fits)]
      have members : b ∈ (memories.modify existing.id
          (fun row => { row with status := .archived, updatedAt := now }) fun _ => rfl).rows ↔
          ∃ a ∈ memories.rows, (if a.id = existing.id then
            { a with status := .archived, updatedAt := now } else a) = b := Table.mem_modify
      rw [members]
      refine exists_congr fun a => and_congr_right fun _ => ?_
      by_cases here : a.id = existing.id
      · simp [here, eq_comm]
      · simp [here, eq_comm, Ne.symm here]
    · rw [if_neg fits, if_neg (by simpa using fits)]
      simp only [Option.map_none, reduceCtorEq, false_and, false_or, not_false_eq_true, true_and,
        exists_eq_right']

theorem of_active_archiveExisting {now : Time} {b : AgentMemory}
    (member : b ∈ (candidate.archiveExisting preferences turn now memories).rows)
    (active : b.status = .active) :
    b ∈ memories.rows ∧ ¬candidate.Replaces preferences turn memories b.id := by
  obtain ⟨a, known, ⟨_, rfl⟩ | ⟨kept, rfl⟩⟩ := mem_archiveExisting.mp member
  · cases active
  · exact ⟨known, kept⟩

theorem mem_archiveExisting_of_kept {now : Time} {a : AgentMemory} (known : a ∈ memories.rows)
    (kept : ¬candidate.Replaces preferences turn memories a.id) :
    a ∈ (candidate.archiveExisting preferences turn now memories).rows :=
  mem_archiveExisting.mpr ⟨a, known, .inr ⟨kept, rfl⟩⟩

variable (lib : TextLibrary) (preferences : MemoryPreferences) (turn : FinishedTurn)

def Consolidation.archived (state : Consolidation) (round : StoreAnswers × MemoryCandidate) :
    Memories :=
  round.2.archiveExisting preferences turn round.1.now state.memories

def Superseded : Consolidation → List (StoreAnswers × MemoryCandidate) → Uuid → Prop
  | _, [], _ => False
  | state, round :: rounds, id =>
    (state.failure = none ∧ round.2.Replaces preferences turn state.memories id ∧
      (state.next lib preferences turn round).failure = none) ∨
    Superseded (state.next lib preferences turn round) rounds id

def AtomicRounds (state : Consolidation) (rounds : List (StoreAnswers × MemoryCandidate)) : Prop :=
  ∀ id, IsActive state.memories id →
    IsActive (run (Consolidation.next lib preferences turn) state rounds).memories id ∨
      Superseded lib preferences turn state rounds id

/-- A round writes no pending fact over an active one, and can store its fact when it archives an
active one. -/
def CarefulRound (state : Consolidation) (round : StoreAnswers × MemoryCandidate) : Prop :=
  state.failure = none →
    Unconfirmed lib (state.archived preferences turn round) round.1
        (round.2.toWrite preferences turn) ∧
      ∀ row ∈ round.2.replacedRow preferences turn state.memories, row.status = .active →
        Storable lib (state.archived preferences turn round) round.1
          (round.2.toWrite preferences turn)

instance (state : Consolidation) (round : StoreAnswers × MemoryCandidate) :
    Decidable (CarefulRound lib preferences turn state round) :=
  inferInstanceAs (Decidable (state.failure = none → _ ∧ _))

variable {lib preferences turn} {state : Consolidation} {round : StoreAnswers × MemoryCandidate}
  {rounds : List (StoreAnswers × MemoryCandidate)}

theorem next_of_failed (failed : state.failure ≠ none) :
    state.next lib preferences turn round = state := by
  have ended : state.failure.isSome = true := Option.isSome_iff_ne_none.mpr failed
  rw [Consolidation.next, if_pos ended]

theorem run_of_failed (failed : state.failure ≠ none) :
    run (Consolidation.next lib preferences turn) state rounds = state := by
  induction rounds with
  | nil => rfl
  | cons round rounds ih => rw [run, next_of_failed failed, ih]

theorem not_superseded_of_failed (failed : state.failure ≠ none) (id : Uuid) :
    ¬Superseded lib preferences turn state rounds id := by
  induction rounds with
  | nil => exact fun wrong => wrong
  | cons round rounds ih =>
    rintro (⟨going, _⟩ | later)
    · exact failed going
    · rw [next_of_failed failed] at later
      exact ih later

theorem careful_of_failed (failed : state.failure ≠ none) :
    Guarded (CarefulRound lib preferences turn) (Consolidation.next lib preferences turn) state
      rounds := by
  induction rounds with
  | nil => trivial
  | cons round rounds ih =>
    rw [Guarded, next_of_failed failed]
    exact ⟨fun going => absurd going failed, ih⟩

theorem memories_next_of_going (going : state.failure = none) :
    (state.next lib preferences turn round).memories =
      stored lib (state.archived preferences turn round) round.1
        (round.2.toWrite preferences turn) := by
  have open_ : ¬state.failure.isSome = true := by
    rw [going]
    decide
  rw [Consolidation.next, if_neg open_, stored, Consolidation.archived]
  dsimp only
  cases storeFact lib (round.2.archiveExisting preferences turn round.1.now state.memories) round.1
    (round.2.toWrite preferences turn) <;> rfl

theorem failure_next_iff (going : state.failure = none) :
    (state.next lib preferences turn round).failure = none ↔
      Storable lib (state.archived preferences turn round) round.1
        (round.2.toWrite preferences turn) := by
  have open_ : ¬state.failure.isSome = true := by
    rw [going]
    decide
  rw [← storeFact_isOk_iff (gentle_toWrite round.2), Consolidation.next, if_neg open_,
    Consolidation.archived]
  dsimp only
  cases storeFact lib (round.2.archiveExisting preferences turn round.1.now state.memories) round.1
      (round.2.toWrite preferences turn) with
  | error failure =>
    refine iff_of_false (by simp) ?_
    rintro ⟨_, wrong⟩
    cases wrong
  | ok result => exact iff_of_true going ⟨result, rfl⟩

theorem kept_of_careful (going : state.failure = none)
    (careful : CarefulRound lib preferences turn state round) {id : Uuid}
    (active : IsActive state.memories id) :
    IsActive (state.next lib preferences turn round).memories id ∨
      (round.2.Replaces preferences turn state.memories id ∧
        (state.next lib preferences turn round).failure = none) := by
  obtain ⟨a, known, rfl, live⟩ := active
  obtain ⟨unconfirmed, storable⟩ := careful going
  by_cases replaced : round.2.Replaces preferences turn state.memories a.id
  · obtain ⟨row, found, same⟩ := exists_of_replaces replaced
    have here := state.memories.eq_of_key_eq (of_replacedRow found).1 known same
    exact .inr ⟨replaced, (failure_next_iff going).mpr (storable row found (by rw [here, live]))⟩
  · have keeps := (keepsActive_stored_iff (gentle_toWrite round.2)).mpr unconfirmed
    rw [memories_next_of_going going]
    exact .inl (keeps a (mem_archiveExisting_of_kept known replaced) live)

theorem atomic_of_careful (careful : Guarded (CarefulRound lib preferences turn)
    (Consolidation.next lib preferences turn) state rounds) :
    AtomicRounds lib preferences turn state rounds := by
  induction rounds generalizing state with
  | nil => exact fun id active => .inl active
  | cons round rounds ih =>
    obtain ⟨first, rest⟩ := careful
    intro id active
    by_cases going : state.failure = none
    · rcases kept_of_careful going first active with kept | ⟨replaced, done⟩
      · exact (ih rest id kept).imp_right .inr
      · exact .inr (.inl ⟨going, replaced, done⟩)
    · rw [run_of_failed going]
      exact .inl active

variable {lib : TextLibrary} {preferences : MemoryPreferences} {turn : FinishedTurn}
  {state : Consolidation} {round : StoreAnswers × MemoryCandidate}
  {rounds : List (StoreAnswers × MemoryCandidate)}

theorem replacedRow_of_inferred {candidate : MemoryCandidate}
    (inferred : candidate.explicit = false) (memories : Memories) :
    candidate.replacedRow preferences turn memories = none := by
  cases found : candidate.replacedRow preferences turn memories with
  | none => rfl
  | some =>
    rw [(of_replacedRow found).2.2] at inferred
    cases inferred

theorem careful_iff_of_inferred (inferred : round.2.explicit = false) :
    CarefulRound lib preferences turn state round ↔
      SparesConfirmed lib preferences turn state round := by
  unfold CarefulRound SparesConfirmed Consolidation.archived
  rw [archiveExisting_of_inferred inferred, replacedRow_of_inferred inferred]
  refine forall_congr' fun _ => and_iff_left ?_
  intro row found
  cases found

theorem not_superseded_of_inferred (inferred : ∀ round ∈ rounds, round.2.explicit = false)
    (id : Uuid) : ¬Superseded lib preferences turn state rounds id := by
  induction rounds generalizing state with
  | nil => exact fun wrong => wrong
  | cons round rounds ih =>
    rintro (⟨_, replaced, _⟩ | later)
    · obtain ⟨row, found, _⟩ := exists_of_replaces replaced
      rw [replacedRow_of_inferred (inferred round List.mem_cons_self)] at found
      cases found
    · exact ih (fun other member => inferred other (List.mem_cons_of_mem round member)) later

theorem atomic_iff_of_inferred (inferred : ∀ round ∈ rounds, round.2.explicit = false) :
    AtomicRounds lib preferences turn state rounds ↔
      Guarded (CarefulRound lib preferences turn) (Consolidation.next lib preferences turn) state
        rounds := by
  have same : Guarded (CarefulRound lib preferences turn) (Consolidation.next lib preferences turn)
      state rounds ↔ Guarded (SparesConfirmed lib preferences turn)
        (Consolidation.next lib preferences turn) state rounds := by
    induction rounds generalizing state with
    | nil => exact Iff.rfl
    | cons round rounds ih =>
      exact and_congr (careful_iff_of_inferred (inferred round List.mem_cons_self))
        (ih fun other member => inferred other (List.mem_cons_of_mem round member))
  rw [same, ← keepsActive_rounds_iff rounds inferred]
  constructor
  · intro atomic a member active
    rcases atomic a.id ⟨a, member, rfl, active⟩ with kept | replaced
    · exact kept
    · exact absurd replaced (not_superseded_of_inferred inferred a.id)
  · rintro keeps id ⟨a, member, rfl, active⟩
    exact .inl (keeps a member active)

/-- Explicit candidates whose keys begin with different letters. -/
structure Apart (rounds : List (StoreAnswers × MemoryCandidate)) : Prop where
  explicit : ∀ round ∈ rounds, round.2.explicit = true
  letters : (rounds.map fun round => keyLetter round.2.key).Nodup
  filled : ∀ round ∈ rounds, ∃ letter, keyLetter round.2.key = some letter ∧
    Text.isSpace letter = false

theorem apart_of_forms {rounds : List (StoreAnswers × MemoryCandidate)}
    (all : (rounds.map fun round => formOf round.2).Sublist (forms true)) : Apart rounds where
  explicit round member := by
    have form := all.subset (List.mem_map.mpr ⟨round, member, rfl⟩)
    obtain ⟨_, _, same⟩ := List.mem_map.mp form
    exact (Prod.mk.inj same).2.symm
  letters := by
    have firsts := all.map Prod.fst
    rw [List.map_map] at firsts
    exact firsts.nodup (by decide)
  filled round member := by
    have form := all.subset (List.mem_map.mpr ⟨round, member, rfl⟩)
    obtain ⟨letter, known, same⟩ := List.mem_map.mp form
    have found : keyLetter round.2.key = letter := (Prod.mk.inj same).1.symm
    rw [found]
    simp only [formLetters, List.mem_cons, List.not_mem_nil, or_false] at known
    rcases known with rfl | rfl | rfl | rfl | rfl | rfl | rfl <;>
      exact ⟨_, rfl, by decide⟩

theorem Apart.tail (apart : Apart (round :: rounds)) : Apart rounds where
  explicit other member := apart.explicit other (List.mem_cons_of_mem round member)
  letters := (List.nodup_cons.mp apart.letters).2
  filled other member := apart.filled other (List.mem_cons_of_mem round member)

theorem Apart.later (apart : Apart (round :: rounds)) {key : String}
    (stored : key = (round.2.toWrite preferences turn).normalizedKey) :
    ∀ other ∈ rounds, keyLetter key ≠ keyLetter other.2.key := by
  intro other member same
  obtain ⟨letter, starts, filled⟩ := apart.filled round List.mem_cons_self
  have first : keyLetter key = some letter := by
    rw [stored]
    exact keyLetter_strip starts filled
  refine (List.nodup_cons.mp apart.letters).1 (List.mem_map.mpr ⟨other, member, ?_⟩)
  exact same.symm.trans (first.trans starts.symm)

theorem normalizedStatus_of_explicit {candidate : MemoryCandidate}
    (explicit : candidate.explicit = true) :
    (candidate.toWrite preferences turn).normalizedStatus = .active := by
  simp [FactWrite.normalizedStatus, MemoryCandidate.toWrite, MemoryCandidate.status, explicit]

theorem unconfirmed_of_explicit {candidate : MemoryCandidate}
    (explicit : candidate.explicit = true) (memories : Memories) (answers : StoreAnswers) :
    Unconfirmed lib memories answers (candidate.toWrite preferences turn) := by
  intro waiting
  rw [normalizedStatus_of_explicit explicit] at waiting
  cases waiting

variable {b : AgentMemory}

theorem of_active_next (going : state.failure = none)
    (member : b ∈ (state.next lib preferences turn round).memories.rows)
    (active : b.status = .active) :
    (b ∈ state.memories.rows ∧ ¬round.2.Replaces preferences turn state.memories b.id) ∨
      b.key = (round.2.toWrite preferences turn).normalizedKey := by
  rw [memories_next_of_going going] at member
  rcases stored_cases lib (state.archived preferences turn round) round.1
    (gentle_toWrite round.2) with ⟨existing, _, shape⟩ | ⟨_, members⟩
  · rw [shape] at member
    obtain ⟨a, known, same⟩ := mem_reinforce.mp member
    by_cases here : a.id = existing.id
    · rw [if_pos here] at same
      rw [← same]
      exact .inr rfl
    · rw [if_neg here] at same
      subst same
      exact .inl (of_active_archiveExisting known active)
  · rcases (members b).mp member with old | ⟨rfl, _⟩
    · exact .inl (of_active_archiveExisting old active)
    · exact .inr rfl

theorem next_of_active (lib : TextLibrary) (going : state.failure = none)
    (explicit : round.2.explicit = true) (member : b ∈ state.memories.rows)
    (active : b.status = .active) (kept : ¬round.2.Replaces preferences turn state.memories b.id) :
    ∃ c ∈ (state.next lib preferences turn round).memories.rows, c.id = b.id ∧
      c.status = .active ∧
        (c.key = b.key ∨ c.key = (round.2.toWrite preferences turn).normalizedKey) := by
  have inside : b ∈ (state.archived preferences turn round).rows :=
    mem_archiveExisting_of_kept member kept
  rw [memories_next_of_going going]
  rcases stored_cases lib (state.archived preferences turn round) round.1
    (gentle_toWrite round.2) with ⟨existing, _, shape⟩ | ⟨_, members⟩
  · rw [shape]
    by_cases here : b.id = existing.id
    · exact ⟨_, mem_reinforce.mpr ⟨b, inside, if_pos here⟩, rfl,
        normalizedStatus_of_explicit explicit, .inr rfl⟩
    · exact ⟨b, mem_reinforce.mpr ⟨b, inside, if_neg here⟩, rfl, active, .inl rfl⟩
  · exact ⟨b, (members b).mpr (.inl inside), rfl, active, .inl rfl⟩

theorem isActive_run_of_letters (apart : Apart rounds) (member : b ∈ state.memories.rows)
    (active : b.status = .active)
    (other : ∀ round ∈ rounds, keyLetter b.key ≠ keyLetter round.2.key) :
    IsActive (run (Consolidation.next lib preferences turn) state rounds).memories b.id := by
  induction rounds generalizing state b with
  | nil => exact ⟨b, member, rfl, active⟩
  | cons round rounds ih =>
    by_cases going : state.failure = none
    · have kept : ¬round.2.Replaces preferences turn state.memories b.id := by
        intro replaced
        obtain ⟨row, found, same⟩ := exists_of_replaces replaced
        obtain ⟨known, key, _⟩ := of_replacedRow found
        rw [state.memories.eq_of_key_eq known member same] at key
        exact other round List.mem_cons_self (congrArg keyLetter key)
      obtain ⟨c, inside, same, live, key⟩ := next_of_active lib going
        (apart.explicit round List.mem_cons_self) member active kept
      rw [← same]
      refine ih apart.tail inside live ?_
      rcases key with old | new
      · rw [old]
        exact fun next later => other next (List.mem_cons_of_mem round later)
      · exact apart.later new
    · rw [run_of_failed going]
      exact ⟨b, member, rfl, active⟩

theorem careful_of_atomic (apart : Apart rounds)
    (atomic : AtomicRounds lib preferences turn state rounds) :
    Guarded (CarefulRound lib preferences turn) (Consolidation.next lib preferences turn) state
      rounds := by
  induction rounds generalizing state with
  | nil => trivial
  | cons round rounds ih =>
    by_cases going : state.failure = none
    swap
    · exact careful_of_failed going
    constructor
    · intro _
      refine ⟨unconfirmed_of_explicit (apart.explicit round List.mem_cons_self) _ _, ?_⟩
      intro row found active
      by_contra refused
      -- the row is archived and the rounds end here
      have failed : (state.next lib preferences turn round).failure ≠ none := fun done =>
        refused ((failure_next_iff going).mp done)
      have known := (of_replacedRow found).1
      have replaced : round.2.Replaces preferences turn state.memories row.id := by
        rw [MemoryCandidate.Replaces, found]
        rfl
      rcases atomic row.id ⟨row, known, rfl, active⟩ with ⟨b, member, same, live⟩ | superseded
      · rw [run, run_of_failed failed, memories_next_of_going going,
          stored_of_refused (gentle_toWrite round.2) refused] at member
        obtain ⟨_, kept⟩ := of_active_archiveExisting member live
        rw [same] at kept
        exact kept replaced
      · rcases superseded with ⟨_, _, done⟩ | later
        · exact failed done
        · exact not_superseded_of_failed failed row.id later
    · apply ih apart.tail
      rintro id ⟨b, member, rfl, active⟩
      rcases of_active_next going member active with ⟨known, kept⟩ | key
      · rcases atomic b.id ⟨b, known, rfl, active⟩ with last | superseded
        · exact .inl last
        · rcases superseded with ⟨_, replaced, _⟩ | later
          · exact absurd replaced kept
          · exact .inr later
      · exact .inl (isActive_run_of_letters apart.tail member active (apart.later key))

variable (lib : TextLibrary) (patterns : PromptPatterns)

theorem atomic_iff_careful (preferences : MemoryPreferences) (turn : FinishedTurn)
    (answers : Nat → StoreAnswers) (memories : Memories) :
    AtomicRounds lib preferences turn ⟨memories, [], none⟩
        (consolidationRounds lib patterns preferences turn answers) ↔
      Guarded (CarefulRound lib preferences turn) (Consolidation.next lib preferences turn)
        ⟨memories, [], none⟩ (consolidationRounds lib patterns preferences turn answers) := by
  obtain ⟨explicit, all⟩ := forms_handledCandidates lib patterns preferences turn
  have rounds : (consolidationRounds lib patterns preferences turn answers).map
      (fun round => formOf round.2) =
        (handledCandidates lib patterns preferences turn).map formOf := by
    rw [consolidationRounds, List.map_map]
    conv_rhs => rw [← List.zipIdx_map_fst 0 (handledCandidates lib patterns preferences turn)]
    rw [List.map_map]
    rfl
  rw [← rounds] at all
  cases explicit with
  | true => exact ⟨careful_of_atomic (apart_of_forms all), atomic_of_careful⟩
  | false =>
    apply atomic_iff_of_inferred
    intro round member
    have form := all.subset (List.mem_map.mpr ⟨round, member, rfl⟩)
    obtain ⟨_, _, same⟩ := List.mem_map.mp form
    exact (Prod.mk.inj same).2.symm

theorem atomicRounds_iff {preferences : MemoryPreferences} {turn : FinishedTurn}
    {answers : Nat → StoreAnswers} {memories : Memories} :
    AtomicRounds lib preferences turn ⟨memories, [], none⟩
        (consolidationRounds lib patterns preferences turn answers) ↔
      ∀ a ∈ memories.rows, a.status = .active →
        IsActive (consolidateTurn lib patterns preferences turn answers memories).1 a.id ∨
          Superseded lib preferences turn ⟨memories, [], none⟩
            (consolidationRounds lib patterns preferences turn answers) a.id := by
  rw [MemoryStep.consolidateTurn_memories]
  constructor
  · intro atomic a member active
    exact atomic a.id ⟨a, member, rfl, active⟩
  · rintro kept id ⟨a, member, rfl, active⟩
    exact kept a member active

/-- A turn keeps every active memory active, or has stored what supersedes it, exactly when no
round archives an active memory without being able to store its fact, or writes a pending fact over
an active one. -/
theorem consolidateTurn_atomic_iff (preferences : MemoryPreferences) (turn : FinishedTurn)
    (answers : Nat → StoreAnswers) (memories : Memories) :
    (∀ a ∈ memories.rows, a.status = .active →
      IsActive (consolidateTurn lib patterns preferences turn answers memories).1 a.id ∨
        Superseded lib preferences turn ⟨memories, [], none⟩
          (consolidationRounds lib patterns preferences turn answers) a.id) ↔
    Guarded (CarefulRound lib preferences turn) (Consolidation.next lib preferences turn)
      ⟨memories, [], none⟩ (consolidationRounds lib patterns preferences turn answers) := by
  rw [← atomic_iff_careful, atomicRounds_iff]

/-- "Remember: my editor is Helix." -/
def editorPatterns : PromptPatterns where
  explicit text := if text = "Remember: my editor is Helix." then some "my editor is Helix." else none
  fact text := if text = "my editor is Helix." then some ("editor", "Helix.") else none
  preference _ := none
  workflow _ := none
  decision _ := none
  commitment _ := none
  goal _ := none
  artifact _ := none

def oldEditor : Memories := .single
  ⟨7900, 1, 2, "fact_editor", "My editor is Emacs.", none, .active, none, none, none, 0, none, .user,
    0, 0⟩

def editorTurn : FinishedTurn := ⟨1, 2, "79", "Remember: my editor is Helix."⟩

def fullStorage : Nat → StoreAnswers := fun _ => ⟨1, 7901, none, false, true⟩

theorem not_careful_fullStorage :
    ¬Guarded (CarefulRound .plain ⟨true, true⟩ editorTurn)
      (Consolidation.next .plain ⟨true, true⟩ editorTurn) ⟨oldEditor, [], none⟩
      (consolidationRounds .plain editorPatterns ⟨true, true⟩ editorTurn fullStorage) := by
  decide +kernel

/-- The old fact is archived, and the new one is not stored. -/
theorem not_consolidateTurn_atomic_fullStorage :
    ¬∀ (lib : TextLibrary) (patterns : PromptPatterns) (preferences : MemoryPreferences)
        (turn : FinishedTurn) (answers : Nat → StoreAnswers) (memories : Memories),
      ∀ a ∈ memories.rows, a.status = .active →
        IsActive (consolidateTurn lib patterns preferences turn answers memories).1 a.id ∨
          Superseded lib preferences turn ⟨memories, [], none⟩
            (consolidationRounds lib patterns preferences turn answers) a.id := by
  intro always
  have atomic := (atomicRounds_iff .plain editorPatterns).mpr
    (always .plain editorPatterns ⟨true, true⟩ editorTurn fullStorage oldEditor)
  have careful := (atomic_iff_careful .plain editorPatterns ⟨true, true⟩ editorTurn fullStorage
    oldEditor).mp atomic
  exact not_careful_fullStorage careful

end AverQel.DeepSpace
