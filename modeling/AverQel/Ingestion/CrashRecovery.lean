/- digest: Workers that die while they embed, and the document that the next one completes. -/
import AverQel.Foundation.Transition
import AverQel.Ingestion.IngestionWorker

namespace AverQel.Ingestion

open Foundation Transition

def Next.embedding : Next → Bool
  | .startEmbedding _ _ | .embed _ | .writeCursor _ | .writeProgress _ | .finish => true
  | _ => false

/-- How many transactions are left at most, for so many chunks. -/
def Next.rank (size : Nat) : Next → Nat
  | .download => 4 * size + 11
  | .parse => 4 * size + 10
  | .chunk => 4 * size + 9
  | .storeParts progressed => 3 * size + 8 + (size - progressed)
  | .checkpoint _ => 3 * size + 7
  | .startEmbedding _ _ => 3 * size + 6
  | .embed loop => 3 * loop.rows.length + 4
  | .writeCursor loop => 3 * loop.rows.length + 6
  | .writeProgress loop => 3 * loop.rows.length + 5
  | .finish => 2
  | .readCheckpoint => 2 * size + 5
  | .resumeBatch _ remaining => 2 * remaining.length + 3
  | .resumeProgress _ remaining => 2 * remaining.length + 4
  | .resumeFinish _ => 2
  | .leave _ => 1

def Point.rank {F : Type} (size : Nat) : Point F → Nat
  | .delivered => 4 * size + 12
  | .working _ next => next.rank size
  | .ended => 0

def Work.OnePerText {V F : Type} (work : Work V F) : Prop :=
  ∀ texts, (work.embed texts).length = texts.length

/-- An execution whose document has text and whose chunks can be stored. -/
structure ProducedWork (V F : Type) extends Work V F where
  readable : extraction.hasText = true
  produced : chunkRows parts ≠ []
  storable : (toTable (chunkRows parts)).isSome
  onePerText : toWork.OnePerText

section Executions

variable {V F : Type} [DecidableEq F]
variable (settings : Settings) (arithmetic : YieldArithmetic F)

def transaction (work : Work V F) (state : Records V F × Point F) : Records V F × Point F :=
  advanceWorker settings arithmetic work state.1 state.2

/-- The execution from `first` on ends and leaves `last`. -/
def Completes (work : Work V F) (first last : Records V F) : Prop :=
  ∃ n, (transaction settings arithmetic work)^[n] (first, .delivered) = (last, .ended)

/-- The rows that dead workers leave: the first of them dies while it embeds, every later one
while it resumes. -/
inductive Interrupted (work : Work V F) (first : Records V F) : Records V F → Prop
  | died {crashed : Records V F} {n : Nat} {session : Session F} {next : Next}
      (reached : (transaction settings arithmetic work)^[n] (first, .delivered) =
        (crashed, .working session next))
      (embedding : next.embedding = true) : Interrupted work first crashed
  | diedAgain {before crashed : Records V F} {resumer : Work V F} {n : Nat} {session : Session F}
      {next : Next} (earlier : Interrupted work first before) (onePerText : resumer.OnePerText)
      (reached : (transaction settings arithmetic resumer)^[n] (before, .delivered) =
        (crashed, .working session next))
      (incomplete : next ≠ .leave true) : Interrupted work first crashed

def SameOutcome (whole resumed : Records V F) : Prop :=
  resumed.document.status = whole.document.status ∧
    resumed.document.informationYield = whole.document.informationYield ∧
    resumed.document.quarantined = whole.document.quarantined ∧
    resumed.chunks.rows = whole.chunks.rows ∧ whole.FullyEmbedded ∧ resumed.FullyEmbedded

/-- The yield of a complete embedding, out of `total`. -/
def Work.yieldOf (work : Work V F) (total : Nat) : F :=
  arithmetic.informationYield (chunkRows work.parts).length total
    (arithmetic.coverage (some work.extraction.coverageScore))

/-- The interrupted execution left a chunk without its vector, and the yield over the stored
chunks is the yield over the parts of the text; or the document had the yield before. -/
def RecoversYield (work : Work V F) (first crashed : Records V F) : Prop :=
  if crashed.missing = [] then
    first.document.informationYield = some (work.yieldOf arithmetic work.parts.length) ∧
      (arithmetic.low (work.yieldOf arithmetic work.parts.length) = true →
        first.document.quarantined = true)
  else
    work.yieldOf arithmetic (chunkRows work.parts).length =
      work.yieldOf arithmetic work.parts.length

end Executions

structure Unfinished {V F : Type} (first now : Records V F) : Prop where
  informationYield : now.document.informationYield = first.document.informationYield
  quarantined : now.document.quarantined = first.document.quarantined
  pending : now.document.status ≠ .indexed

/-- The chunks and the coverage are committed. -/
structure Stored {V F : Type} (work : Work V F) (first now : Records V F) : Prop
    extends Unfinished first now where
  coverage : now.document.extractionCoverageScore = some work.extraction.coverageScore
  rows : now.chunks.rows = chunkRows work.parts
  checkpointed : now.job.checkpointStage = some .embedding

/-- The document is completed, with this yield and this quarantine. -/
structure Finished {V F : Type} (work : Work V F) (information : Option F) (quarantined : Bool)
    (now : Records V F) : Prop where
  status : now.document.status = .indexed
  informationYield : now.document.informationYield = information
  quarantined : now.document.quarantined = quarantined
  rows : now.chunks.rows = chunkRows work.parts
  full : now.FullyEmbedded

section Facts

variable {V F : Type} [DecidableEq F] {work : Work V F} {first now : Records V F}

omit [DecidableEq F] in
theorem Unfinished.at (unfinished : Unfinished first now) {stage : Stage}
    (pending : stage ≠ .indexed) (progress : Nat) (job : IngestionJob) :
    Unfinished first
      { now with document := now.document.at stage progress, job := job } :=
  ⟨unfinished.informationYield, unfinished.quarantined, pending⟩

omit [DecidableEq F] in
theorem Stored.at (stored : Stored work first now) {stage : Stage} (pending : stage ≠ .indexed)
    (progress : Nat) {job : IngestionJob} (checkpointed : job.checkpointStage = some .embedding) :
    Stored work first { now with document := now.document.at stage progress, job := job } :=
  ⟨stored.toUnfinished.at pending progress job, stored.coverage, stored.rows, checkpointed⟩

omit [DecidableEq F] in
theorem Stored.withJob (stored : Stored work first now) {job : IngestionJob}
    (checkpointed : job.checkpointStage = some .embedding) :
    Stored work first { now with job := job } :=
  ⟨⟨stored.informationYield, stored.quarantined, stored.pending⟩, stored.coverage, stored.rows,
    checkpointed⟩

omit [DecidableEq F] in
theorem Stored.withVectors (stored : Stored work first now) {after : Records V F}
    (document : after.document = now.document) (job : after.job = now.job)
    (chunks : after.chunks = now.chunks) : Stored work first after :=
  ⟨⟨document ▸ stored.informationYield, document ▸ stored.quarantined, document ▸ stored.pending⟩,
    document ▸ stored.coverage, chunks ▸ stored.rows, job ▸ stored.checkpointed⟩

omit [DecidableEq F] in
theorem Stored.length_le (stored : Stored work first now) {left : List Chunk}
    (perm : left.Perm now.missing) : left.length ≤ (chunkRows work.parts).length := by
  rw [perm.length_eq, ← stored.rows]
  exact List.length_filter_le _ _

theorem completed_of_stored {arithmetic : YieldArithmetic F} {total : Nat} {coverage : F}
    {job : IngestionJob} (stored : Stored work first now) (full : now.missing = [])
    (same : arithmetic.coverage (some work.extraction.coverageScore) = coverage) :
    Finished work (some (work.yieldOf arithmetic total))
      (first.document.quarantined || arithmetic.low (work.yieldOf arithmetic total))
      { now with
        document := now.document.completed arithmetic now.embeddedCount total coverage
        job := job } := by
  have complete : now.FullyEmbedded := Records.missing_eq_nil_iff.mp full
  have count : now.embeddedCount = (chunkRows work.parts).length := by
    rw [← stored.rows]
    exact Records.embeddedCount_of_fullyEmbedded complete
  constructor
  · rfl
  · simp only [Document.completed, Work.yieldOf, count, ← same]
  · simp only [Document.completed, Work.yieldOf, count, ← same, stored.quarantined]
  · exact stored.rows
  · exact complete

end Facts

section Whole

variable {V F : Type} [DecidableEq F]
variable {settings : Settings} {arithmetic : YieldArithmetic F} {work : ProducedWork V F}
variable {first now : Records V F}

/-- What an uninterrupted execution has committed when it comes to a transaction. -/
def Reaches (arithmetic : YieldArithmetic F) (work : ProducedWork V F)
    (first now : Records V F) : Next → Prop
  | .download | .parse => Unfinished first now
  | .chunk | .storeParts _ =>
    Unfinished first now ∧
      now.document.extractionCoverageScore = some work.extraction.coverageScore
  | .checkpoint rows =>
    Unfinished first now ∧
      now.document.extractionCoverageScore = some work.extraction.coverageScore ∧
      now.chunks.rows = chunkRows work.parts ∧ rows.Perm now.missing ∧ rows ≠ []
  | .startEmbedding rows _ => Stored work.toWork first now ∧ rows.Perm now.missing ∧ rows ≠ []
  | .embed loop => Stored work.toWork first now ∧ loop.rows.Perm now.missing ∧ loop.rows ≠ []
  | .writeCursor loop | .writeProgress loop =>
    Stored work.toWork first now ∧ loop.rows.Perm now.missing
  | .finish => Stored work.toWork first now ∧ now.missing = []
  | .leave false =>
    Finished work.toWork (some (work.yieldOf arithmetic work.parts.length))
      (first.document.quarantined || arithmetic.low (work.yieldOf arithmetic work.parts.length)) now
  | _ => False

/-- A transaction of an uninterrupted execution succeeds, and the next one has less to do. -/
theorem reaches_attempt {next : Next} (reached : Reaches arithmetic work first now next)
    (goes : next ≠ .leave false) :
    ∃ after following,
      attempt settings arithmetic work.toWork now ⟨now.document, now.job⟩ next =
        .ok (after, .working ⟨after.document, after.job⟩ following) ∧
      Reaches arithmetic work first after following ∧
      following.rank (chunkRows work.parts).length < next.rank (chunkRows work.parts).length := by
  cases next with
  | download =>
    refine ⟨_, _, congrArg Except.ok (Session.commit_of_current rfl rfl), ?_, ?_⟩
    · exact reached.at (by decide) 10 _
    · simp only [Next.rank]
      omega
  | parse =>
    refine ⟨{ now with document := { now.document with
        extractionCoverageScore := some work.extraction.coverageScore }.at .parsing 25 },
      .chunk, ?_, ?_, ?_⟩
    · simp only [attempt, work.readable, if_true]
      exact congrArg Except.ok (Session.commit_of_current rfl rfl)
    · have pending : Stage.parsing ≠ .indexed := by decide
      exact ⟨⟨reached.informationYield, reached.quarantined, pending⟩, rfl⟩
    · simp only [Next.rank]
      omega
  | chunk =>
    refine ⟨_, _, congrArg Except.ok (Session.commit_of_current rfl rfl), ?_, ?_⟩
    · exact ⟨reached.1.at (by decide) 30 _, reached.2⟩
    · simp only [Next.rank]
      omega
  | storeParts progressed =>
    obtain ⟨unfinished, coverage⟩ := reached
    simp only [attempt, if_neg work.produced]
    by_cases more : progressed < (chunkRows work.parts).length
    · rw [if_pos more, Session.commit_of_current rfl rfl]
      refine ⟨_, _, rfl, ⟨unfinished.at (by decide) _ _, coverage⟩, ?_⟩
      simp only [Next.rank]
      omega
    · obtain ⟨table, known⟩ := Option.isSome_iff_exists.mp work.storable
      have rows := rows_of_toTable known
      rw [if_neg more, known]
      simp only
      have pending : Stage.chunking ≠ .indexed := by decide
      refine ⟨{ now.replaceDocumentChunks table with document := now.document.at .chunking 60 },
        .checkpoint (chunkRows work.parts), congrArg Except.ok (Session.commit_of_current rfl rfl),
        ⟨?_, coverage, rows, ?_, ?_⟩, ?_⟩
      · exact ⟨unfinished.informationYield, unfinished.quarantined, pending⟩
      · have none_embedded : (now.replaceDocumentChunks table).missing = table.rows := by
          simp [Records.missing, Records.replaceDocumentChunks, Records.embedded, Table.find?,
            Table.empty]
        exact (none_embedded.trans rows).symm ▸ List.Perm.refl _
      · exact work.produced
      · simp only [Next.rank]
        omega
  | checkpoint =>
    obtain ⟨unfinished, coverage, stored, perm, some⟩ := reached
    refine ⟨_, _, congrArg Except.ok (Session.commit_of_current rfl rfl), ⟨?_, perm, some⟩, ?_⟩
    · exact ⟨⟨unfinished.informationYield, unfinished.quarantined, unfinished.pending⟩, coverage,
        stored, rfl⟩
    · simp only [Next.rank]
      omega
  | startEmbedding =>
    obtain ⟨stored, perm, some⟩ := reached
    refine ⟨_, _, congrArg Except.ok (Session.commit_of_current rfl rfl),
      ⟨stored.at (by decide) 60 stored.checkpointed, perm, some⟩, ?_⟩
    have bound := stored.length_le perm
    simp only [Next.rank]
    omega
  | embed loop =>
    obtain ⟨stored, perm, some⟩ := reached
    obtain ⟨after, count, inserted, document, job, chunks, left⟩ :=
      storeBatch_of_missing work.onePerText perm settings.batchSize
    have shorter : (loop.rows.drop settings.batchSize).length < loop.rows.length := by
      have positive := List.length_pos_iff.mpr some
      have size := settings.batchSize_pos
      rw [List.length_drop]
      omega
    refine ⟨after, .writeCursor { loop with
        rows := loop.rows.drop settings.batchSize
        embeddedCount := loop.embeddedCount + count }, ?_,
      ⟨stored.withVectors document job chunks, left⟩, ?_⟩
    · simp only [attempt, inserted, ← document, ← job]
      exact congrArg Except.ok (Session.commit_of_current rfl rfl)
    · simp only [Next.rank]
      omega
  | writeCursor =>
    obtain ⟨stored, perm⟩ := reached
    refine ⟨_, _, congrArg Except.ok (Session.commit_of_current rfl rfl),
      ⟨stored.withJob rfl, perm⟩, ?_⟩
    simp only [Next.rank]
    omega
  | writeProgress loop =>
    obtain ⟨stored, perm⟩ := reached
    refine ⟨_, _, congrArg Except.ok (Session.commit_of_current rfl rfl), ?_, ?_⟩
    · by_cases done : loop.rows = []
      · rw [if_pos done]
        refine ⟨stored.at (by decide) _ stored.checkpointed, ?_⟩
        exact List.nil_perm.mp (done ▸ perm)
      · rw [if_neg done]
        exact ⟨stored.at (by decide) _ stored.checkpointed, perm, done⟩
    · split <;> simp only [Next.rank] <;> omega
  | finish =>
    obtain ⟨stored, full⟩ := reached
    have positive : 0 < work.parts.length := by
      apply List.length_pos_iff.mpr
      intro none
      exact work.produced (by rw [none]; rfl)
    refine ⟨_, _, congrArg Except.ok (Session.commit_of_current rfl rfl), ?_, by simp [Next.rank]⟩
    rw [Nat.max_eq_left positive]
    exact completed_of_stored stored full rfl
  | leave resuming =>
    cases resuming with
    | false => exact absurd rfl goes
    | true => exact reached.elim
  | readCheckpoint | resumeBatch | resumeProgress | resumeFinish => exact reached.elim

end Whole

section Resumed

variable {V F : Type} [DecidableEq F]
variable {settings : Settings} {arithmetic : YieldArithmetic F} {work : ProducedWork V F}
variable {resumer : Work V F} {first crashed now : Records V F}

def recoveredYield (arithmetic : YieldArithmetic F) (work : Work V F)
    (first crashed : Records V F) : Option F :=
  if crashed.missing = [] then first.document.informationYield
  else some (work.yieldOf arithmetic (chunkRows work.parts).length)

def recoveredQuarantine (arithmetic : YieldArithmetic F) (work : Work V F)
    (first crashed : Records V F) : Bool :=
  if crashed.missing = [] then first.document.quarantined
  else first.document.quarantined ||
    arithmetic.low (work.yieldOf arithmetic (chunkRows work.parts).length)

/-- What a resumed execution has committed when it comes to a transaction. -/
def Recovers (arithmetic : YieldArithmetic F) (work : Work V F)
    (first crashed now : Records V F) : Next → Prop
  | .readCheckpoint => Stored work first now ∧ now.missing = crashed.missing
  | .resumeBatch total remaining =>
    Stored work first now ∧ crashed.missing ≠ [] ∧ total = (chunkRows work.parts).length ∧
      remaining.Perm now.missing ∧ remaining ≠ []
  | .resumeProgress total remaining =>
    Stored work first now ∧ crashed.missing ≠ [] ∧ total = (chunkRows work.parts).length ∧
      remaining.Perm now.missing
  | .resumeFinish total =>
    Stored work first now ∧ crashed.missing ≠ [] ∧ total = (chunkRows work.parts).length ∧
      now.missing = []
  | .leave true =>
    Finished work (recoveredYield arithmetic work first crashed)
      (recoveredQuarantine arithmetic work first crashed) now
  | _ => False

variable (settings) in
theorem recovers_resumeStep {job : IngestionJob} {remaining : List Chunk}
    (onePerText : resumer.OnePerText) (stored : Stored work.toWork first now)
    (pending : crashed.missing ≠ []) (perm : remaining.Perm now.missing)
    (checkpointed : job.checkpointStage = some .embedding)
    (same : job.maxAttempts = now.job.maxAttempts) :
    ∃ after,
      resumeStep settings resumer now ⟨now.document, now.job⟩ job (chunkRows work.parts).length
          remaining =
        .ok (after, .working ⟨after.document, after.job⟩
          (.resumeProgress (chunkRows work.parts).length
            (remaining.drop settings.batchSize))) ∧
      Recovers arithmetic work.toWork first crashed after
        (.resumeProgress (chunkRows work.parts).length (remaining.drop settings.batchSize)) := by
  obtain ⟨after, count, inserted, document, kept, chunks, left⟩ :=
    storeBatch_of_missing onePerText perm settings.batchSize
  refine ⟨{ after with job := job }, ?_, ?_⟩
  · simp only [resumeStep, inserted, ← document, ← kept]
    exact congrArg Except.ok (Session.commit_of_current rfl (same.trans (congrArg _ kept.symm)))
  · exact ⟨(stored.withVectors document kept chunks).withJob checkpointed, pending, rfl, left⟩

/-- A transaction of a resumed execution succeeds, and the next one has less to do. -/
theorem recovers_attempt {next : Next} (onePerText : resumer.OnePerText)
    (reached : Recovers arithmetic work.toWork first crashed now next) (goes : next ≠ .leave true) :
    ∃ after following,
      attempt settings arithmetic resumer now ⟨now.document, now.job⟩ next =
        .ok (after, .working ⟨after.document, after.job⟩ following) ∧
      Recovers arithmetic work.toWork first crashed after following ∧
      following.rank (chunkRows work.parts).length < next.rank (chunkRows work.parts).length := by
  cases next with
  | readCheckpoint =>
    obtain ⟨stored, same⟩ := reached
    have sorted := now.chunks.rows.perm_insertionSort fun a b => a.chunkIndex ≤ b.chunkIndex
    have perm : ((now.chunks.rows.insertionSort fun a b => a.chunkIndex ≤ b.chunkIndex).filter
        fun chunk => ¬ now.embedded chunk).Perm now.missing := sorted.filter _
    have size := sorted.length_eq.trans (congrArg List.length stored.rows)
    by_cases done : crashed.missing = []
    · have full : now.missing = [] := same.trans done
      have nothing := List.perm_nil.mp (full ▸ perm)
      refine ⟨{ now with
          document := now.document.at .indexed 100
          job := now.job.setStatus .indexed none }, .leave true, ?_, ?_, ?_⟩
      · simp only [attempt, if_pos nothing]
        exact congrArg Except.ok (Session.commit_of_current rfl rfl)
      · have outcome : Finished work.toWork now.document.informationYield now.document.quarantined
            { now with
              document := now.document.at .indexed 100
              job := now.job.setStatus .indexed none } :=
          ⟨rfl, rfl, rfl, stored.rows, Records.missing_eq_nil_iff.mp full⟩
        unfold Recovers recoveredYield recoveredQuarantine
        rwa [if_pos done, if_pos done, ← stored.informationYield, ← stored.quarantined]
      · simp only [Next.rank]
        omega
    · have pending : now.missing ≠ [] := same ▸ done
      have something : (now.chunks.rows.insertionSort fun a b => a.chunkIndex ≤ b.chunkIndex).filter
          (fun chunk => ¬ now.embedded chunk) ≠ [] := by
        intro none
        exact pending (List.nil_perm.mp (none ▸ perm))
      have checkpointed : (now.job.setStatus .embedding none).checkpointStage = some .embedding :=
        stored.checkpointed
      obtain ⟨after, committed, kept⟩ :=
        recovers_resumeStep settings onePerText stored done perm checkpointed rfl
      refine ⟨after, _, ?_, kept, ?_⟩
      · simp only [attempt, if_neg something, size]
        exact committed
      · have bound := stored.length_le perm
        simp only [Next.rank, List.length_drop]
        omega
  | resumeBatch =>
    obtain ⟨stored, pending, rfl, perm, something⟩ := reached
    obtain ⟨after, committed, kept⟩ :=
      recovers_resumeStep settings onePerText stored pending perm
        stored.checkpointed rfl
    refine ⟨after, _, committed, kept, ?_⟩
    have positive := List.length_pos_iff.mpr something
    have size := settings.batchSize_pos
    simp only [Next.rank, List.length_drop]
    omega
  | resumeProgress total remaining =>
    obtain ⟨stored, pending, same, perm⟩ := reached
    refine ⟨_, _, congrArg Except.ok (Session.commit_of_current rfl rfl), ?_, ?_⟩
    · by_cases done : remaining = []
      · rw [if_pos done]
        exact ⟨stored.at (by decide) _ rfl, pending, same, List.nil_perm.mp (done ▸ perm)⟩
      · rw [if_neg done]
        exact ⟨stored.at (by decide) _ rfl, pending, same, perm, done⟩
    · split <;> simp only [Next.rank] <;> omega
  | resumeFinish =>
    obtain ⟨stored, pending, rfl, full⟩ := reached
    have positive := List.length_pos_iff.mpr work.produced
    refine ⟨_, _, congrArg Except.ok (Session.commit_of_current rfl rfl), ?_, by simp [Next.rank]⟩
    rw [Nat.max_eq_left positive]
    unfold Recovers recoveredYield recoveredQuarantine
    rw [if_neg pending, if_neg pending]
    exact completed_of_stored stored full (congrArg _ stored.coverage.symm)
  | leave resuming =>
    cases resuming with
    | true => exact absurd rfl goes
    | false => exact reached.elim
  | download | parse | chunk | storeParts | checkpoint | startEmbedding | embed | writeCursor
  | writeProgress | finish => exact reached.elim

end Resumed

section Courses

variable {V F : Type} [DecidableEq F]
variable {settings : Settings} {arithmetic : YieldArithmetic F} {work : Work V F}

/-- An execution from `initial` on: what it has committed before each transaction, and what it
leaves. Every transaction succeeds and comes nearer to the end. -/
structure Course (settings : Settings) (arithmetic : YieldArithmetic F) (work : Work V F)
    (size : Nat) (initial : Records V F) (reach : Records V F → Next → Prop)
    (final : Records V F → Prop) : Prop where
  begins : ∃ now next, start initial = (now, .working ⟨now.document, now.job⟩ next) ∧
    reach now next ∧ next.rank size < 4 * size + 12
  goes : ∀ now next, reach now next →
    (∃ after following,
      attempt settings arithmetic work now ⟨now.document, now.job⟩ next =
        .ok (after, .working ⟨after.document, after.job⟩ following) ∧
      reach after following ∧ following.rank size < next.rank size) ∨
    ∃ resuming, next = .leave resuming ∧ final now

def Along (initial : Records V F) (reach : Records V F → Next → Prop)
    (final : Records V F → Prop) : Records V F × Point F → Prop
  | (now, .delivered) => now = initial
  | (now, .working session next) => session = ⟨now.document, now.job⟩ ∧ reach now next
  | (now, .ended) => final now

variable {size : Nat} {initial : Records V F} {reach : Records V F → Next → Prop}
variable {final : Records V F → Prop}

theorem Course.transaction (course : Course settings arithmetic work size initial reach final)
    {state : Records V F × Point F} (along : Along initial reach final state) :
    Along initial reach final (transaction settings arithmetic work state) ∧
      (state.2.rank size ≠ 0 →
        (Ingestion.transaction settings arithmetic work state).2.rank size <
          state.2.rank size) := by
  obtain ⟨now, point⟩ := state
  cases point with
  | delivered =>
    obtain rfl : now = initial := along
    obtain ⟨after, next, started, reached, less⟩ := course.begins
    simp only [Ingestion.transaction, advanceWorker, started]
    exact ⟨⟨rfl, reached⟩, fun _ => less⟩
  | working session next =>
    obtain ⟨rfl, reached⟩ := along
    rcases course.goes now next reached with ⟨after, following, done, kept, less⟩ |
      ⟨resuming, rfl, last⟩
    · simp only [Ingestion.transaction, advanceWorker, done]
      exact ⟨⟨rfl, kept⟩, fun _ => less⟩
    · exact ⟨last, fun _ => Nat.zero_lt_one⟩
  | ended => exact ⟨along, fun busy => absurd rfl busy⟩

theorem Course.iterate (course : Course settings arithmetic work size initial reach final)
    (n : Nat) : Along initial reach final
      ((Ingestion.transaction settings arithmetic work)^[n] (initial, .delivered)) := by
  have start : Along initial reach final (initial, .delivered) := rfl
  have keep : ∀ state, Along initial reach final state →
      Along initial reach final (Ingestion.transaction settings arithmetic work state) :=
    fun _ along => (course.transaction along).1
  exact invariant_iterate keep start n

theorem Course.completes (course : Course settings arithmetic work size initial reach final) :
    ∃ last, Completes settings arithmetic work initial last ∧ final last := by
  have start : Along initial reach final (initial, .delivered) := rfl
  have descend : ∀ state, Along initial reach final state → ¬ state.2.rank size = 0 →
      Along initial reach final (Ingestion.transaction settings arithmetic work state) ∧
        (Ingestion.transaction settings arithmetic work state).2.rank size < state.2.rank size :=
    fun state along busy => ⟨(course.transaction along).1, (course.transaction along).2 busy⟩
  obtain ⟨n, ended, along⟩ := exists_iterate_of_rank (fun state => state.2.rank size)
    (fun state => state.2.rank size = 0) descend start
  rcases reached : (Ingestion.transaction settings arithmetic work)^[n] (initial, .delivered)
    with ⟨last, point⟩
  rw [reached] at ended along
  cases point with
  | delivered =>
    simp only [Point.rank] at ended
    omega
  | working session next =>
    cases next <;> simp only [Point.rank, Next.rank] at ended <;> omega
  | ended => exact ⟨last, ⟨n, reached⟩, along⟩

end Courses

variable {V F : Type} [DecidableEq F]
variable (settings : Settings) (arithmetic : YieldArithmetic F)
variable {work : ProducedWork V F} {resumer : Work V F} {first crashed : Records V F}

variable (work) in
theorem course_whole (fresh : first.document.status ≠ .indexed)
    (uncheckpointed : first.job.checkpointStage ≠ some .embedding) :
    Course settings arithmetic work.toWork (chunkRows work.parts).length first
      (Reaches arithmetic work first)
      (Finished work.toWork (some (work.yieldOf arithmetic work.parts.length))
        (first.document.quarantined ||
          arithmetic.low (work.yieldOf arithmetic work.parts.length))) := by
  constructor
  · refine ⟨{ first with
        document := first.document.at .downloading 5
        job := { first.job with attemptCount := first.job.attemptCount + 1 }.setStatus
          .downloading none }, .download, ?_, ?_, ?_⟩
    · simp only [start, if_neg fresh, if_neg uncheckpointed]
      exact Session.commit_of_current rfl rfl
    · exact Unfinished.at ⟨rfl, rfl, fresh⟩ (by decide) 5 _
    · simp only [Next.rank]
      omega
  · intro now next reached
    by_cases last : next = .leave false
    · subst last
      exact .inr ⟨false, rfl, reached⟩
    · exact .inl (reaches_attempt reached last)

theorem course_resumed (onePerText : resumer.OnePerText)
    (stored : Stored work.toWork first crashed) :
    Course settings arithmetic resumer (chunkRows work.parts).length crashed
      (Recovers arithmetic work.toWork first crashed)
      (Finished work.toWork (recoveredYield arithmetic work.toWork first crashed)
        (recoveredQuarantine arithmetic work.toWork first crashed)) := by
  constructor
  · refine ⟨{ crashed with
        job := { crashed.job with attemptCount := crashed.job.attemptCount + 1 } },
      .readCheckpoint, ?_, ⟨stored.withJob stored.checkpointed, rfl⟩, ?_⟩
    · simp only [start, if_neg stored.pending, if_pos stored.checkpointed]
      exact Session.commit_of_current rfl rfl
    · simp only [Next.rank]
      omega
  · intro now next reached
    by_cases last : next = .leave true
    · subst last
      exact .inr ⟨true, rfl, reached⟩
    · exact .inl (recovers_attempt onePerText reached last)

theorem stored_of_embedding {now : Records V F} {next : Next}
    (reached : Reaches arithmetic work first now next) (embedding : next.embedding = true) :
    Stored work.toWork first now := by
  cases next with
  | startEmbedding | embed | writeCursor | writeProgress | finish => exact reached.1
  | _ => cases embedding

theorem stored_of_recovers {now : Records V F} {next : Next}
    (reached : Recovers arithmetic work.toWork first crashed now next)
    (incomplete : next ≠ .leave true) : Stored work.toWork first now := by
  cases next with
  | readCheckpoint | resumeBatch | resumeProgress | resumeFinish => exact reached.1
  | leave resuming =>
    cases resuming with
    | true => exact absurd rfl incomplete
    | false => exact reached.elim
  | _ => exact reached.elim

theorem stored_of_interrupted (fresh : first.document.status ≠ .indexed)
    (uncheckpointed : first.job.checkpointStage ≠ some .embedding)
    (interrupted : Interrupted settings arithmetic work.toWork first crashed) :
    Stored work.toWork first crashed := by
  induction interrupted with
  | @died crashed n session next reached embedding =>
    have along := (course_whole settings arithmetic work fresh uncheckpointed).iterate n
    rw [reached] at along
    exact stored_of_embedding arithmetic along.2 embedding
  | @diedAgain before crashed resumer n session next earlier onePerText reached incomplete ih =>
    have along := (course_resumed settings arithmetic onePerText ih).iterate n
    rw [reached] at along
    exact stored_of_recovers arithmetic along.2 incomplete

theorem sameOutcome_iff {whole resumed : Records V F}
    (ended : Finished work.toWork (some (work.yieldOf arithmetic work.parts.length))
      (first.document.quarantined ||
        arithmetic.low (work.yieldOf arithmetic work.parts.length)) whole)
    (recovered : Finished work.toWork (recoveredYield arithmetic work.toWork first crashed)
      (recoveredQuarantine arithmetic work.toWork first crashed) resumed) :
    SameOutcome whole resumed ↔ RecoversYield arithmetic work.toWork first crashed := by
  have rows : resumed.chunks.rows = whole.chunks.rows := recovered.rows.trans ended.rows.symm
  have status := recovered.status.trans ended.status.symm
  unfold SameOutcome RecoversYield
  rw [recovered.informationYield, recovered.quarantined, ended.informationYield, ended.quarantined]
  unfold recoveredYield recoveredQuarantine
  by_cases done : crashed.missing = []
  · simp only [if_pos done, status, rows, ended.full, recovered.full, true_and, and_true]
    apply and_congr_right
    intro _
    cases first.document.quarantined <;> simp
  · simp only [if_neg done, status, rows, ended.full, recovered.full, true_and, and_true,
      Option.some.injEq]
    constructor
    · exact And.left
    · intro same
      exact ⟨same, by rw [same]⟩

/-- Workers die while they embed one document, and the last one completes it. Its outcome is
that of an uninterrupted execution exactly when the interruption came before the last vector and
the chunks that were dropped do not show in the yield. -/
theorem resumed_sameOutcome_iff (fresh : first.document.status ≠ .indexed)
    (uncheckpointed : first.job.checkpointStage ≠ some .embedding)
    (interrupted : Interrupted settings arithmetic work.toWork first crashed)
    (onePerText : resumer.OnePerText) :
    ∃ whole resumed, Completes settings arithmetic work.toWork first whole ∧
      Completes settings arithmetic resumer crashed resumed ∧
      (SameOutcome whole resumed ↔ RecoversYield arithmetic work.toWork first crashed) := by
  have stored := stored_of_interrupted settings arithmetic fresh uncheckpointed interrupted
  obtain ⟨whole, ends, ended⟩ :=
    (course_whole settings arithmetic work fresh uncheckpointed).completes
  obtain ⟨resumed, ends', recovered⟩ :=
    (course_resumed settings arithmetic onePerText stored).completes
  exact ⟨whole, resumed, ends, ends', sameOutcome_iff arithmetic ended recovered⟩

/-- Two parts, of which the second has nothing left after sanitising. -/
def formFeed : ProducedWork Unit Nat where
  extraction := ⟨1, true, false⟩
  parts := [⟨0, 0, "a"⟩, ⟨1, 1, "\x0c"⟩]
  embed texts := texts.map fun _ => ()
  readable := rfl
  produced := by decide +kernel
  storable := by decide +kernel
  onePerText _ := List.length_map _

def formFeedAt (records : Records Unit Nat) (n : Nat) : Records Unit Nat × Point Nat :=
  (transaction ⟨2⟩ percent formFeed.toWork)^[n] (records, .delivered)

theorem formFeed_embeds : formFeedAt uploaded 8 = ((formFeedAt uploaded 8).1,
    .working ⟨⟨.embedding, 60, none, false, some 1⟩,
      ⟨.embedding, 1, 3, none, none, none, some .embedding, 0, 0⟩⟩
      (.embed ⟨[⟨0, 0, "a"⟩], 1, 1, 0⟩)) :=
  Prod.ext rfl (by decide +kernel)

theorem formFeed_embedded : formFeedAt uploaded 9 = ((formFeedAt uploaded 9).1,
    .working ⟨⟨.embedding, 60, none, false, some 1⟩,
      ⟨.embedding, 1, 3, none, none, none, some .embedding, 0, 0⟩⟩
      (.writeCursor ⟨[], 1, 1, 1⟩)) :=
  Prod.ext rfl (by decide +kernel)

/-- The document that the next worker completes has no yield when the worker before it had stored
the last vector, and otherwise the yield of a document without the dropped part. -/
theorem not_resumed_sameOutcome :
    (∃ crashed whole resumed,
      Interrupted ⟨2⟩ percent formFeed.toWork uploaded crashed ∧
      Completes ⟨2⟩ percent formFeed.toWork uploaded whole ∧
      Completes ⟨2⟩ percent formFeed.toWork crashed resumed ∧
      whole.document.informationYield = some 50 ∧ resumed.document.informationYield = none ∧
      ¬ SameOutcome whole resumed) ∧
    ∃ crashed whole resumed,
      Interrupted ⟨2⟩ percent formFeed.toWork uploaded crashed ∧
      Completes ⟨2⟩ percent formFeed.toWork uploaded whole ∧
      Completes ⟨2⟩ percent formFeed.toWork crashed resumed ∧
      whole.document.informationYield = some 50 ∧
      resumed.document.informationYield = some 100 ∧ ¬ SameOutcome whole resumed := by
  have ends : Completes ⟨2⟩ percent formFeed.toWork uploaded (formFeedAt uploaded 13).1 :=
    ⟨13, Prod.ext rfl (by decide +kernel)⟩
  refine ⟨⟨(formFeedAt uploaded 9).1, (formFeedAt uploaded 13).1,
    (formFeedAt (formFeedAt uploaded 9).1 3).1, .died formFeed_embedded rfl, ends,
    ⟨3, Prod.ext rfl (by decide +kernel)⟩, by decide +kernel, by decide +kernel, ?_⟩,
    ⟨(formFeedAt uploaded 8).1, (formFeedAt uploaded 13).1,
    (formFeedAt (formFeedAt uploaded 8).1 5).1, .died formFeed_embeds rfl, ends,
    ⟨5, Prod.ext rfl (by decide +kernel)⟩, by decide +kernel, by decide +kernel, ?_⟩⟩
  · intro same
    have yields := same.2.1
    revert yields
    decide +kernel
  · intro same
    have yields := same.2.1
    revert yields
    decide +kernel

theorem resumed_sameOutcome_iff_formFeed :
    uploaded.document.status ≠ .indexed ∧
      ∃ whole resumed, Completes ⟨2⟩ percent formFeed.toWork uploaded whole ∧
        Completes ⟨2⟩ percent formFeed.toWork (formFeedAt uploaded 8).1 resumed ∧
        (SameOutcome whole resumed ↔
          RecoversYield percent formFeed.toWork uploaded (formFeedAt uploaded 8).1) :=
  ⟨by decide, resumed_sameOutcome_iff ⟨2⟩ percent (by decide) (by decide)
    (.died formFeed_embeds rfl) formFeed.onePerText⟩

end AverQel.Ingestion
