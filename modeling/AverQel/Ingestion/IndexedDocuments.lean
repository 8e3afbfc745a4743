/- digest: Several executions of one job, and when an indexed document is complete and stays so. -/
import AverQel.Foundation.Interleaving
import AverQel.Ingestion.IngestionWorker

namespace AverQel.Ingestion

open Foundation Transition Interleaving

def Next.left : Next → Option (List Chunk)
  | .checkpoint rows | .startEmbedding rows _ => some rows
  | .embed loop | .writeCursor loop | .writeProgress loop => some loop.rows
  | .resumeBatch _ remaining | .resumeProgress _ remaining => some remaining
  | .finish | .resumeFinish _ => some []
  | _ => none

def Next.busy : Next → Bool
  | .leave _ => false
  | _ => true

def Point.busy {F : Type} : Point F → Bool
  | .working _ next => next.busy
  | _ => false

inductive Call (V F : Type) where
  | worker (work : Work V F) (point : Point F)
  | resume (stale : Bool)
  | resumed

def Call.busy {V F : Type} : Call V F → Bool
  | .worker _ point => point.busy
  | _ => false

def Call.begins {V F : Type} : Call V F → Bool
  | .worker _ .delivered => true
  | _ => false

def Call.givesUp {V F : Type} : Call V F → Bool
  | .worker work (.working _ .parse) => !work.extraction.hasText && work.extraction.downloadOnly
  | _ => false

def Call.leaves {V F : Type} : Call V F → Bool
  | .worker _ (.working _ (.leave _)) => true
  | _ => false

/-- What a call can meet at a turn of its own. -/
inductive Turn where
  | step
  | fail (failure : Failure)
  | die
  deriving DecidableEq

def Turn.fails : Turn → Bool
  | .fail _ => true
  | _ => false

section Calls

variable {V F : Type} [DecidableEq F]
variable (settings : Settings) (arithmetic : YieldArithmetic F)

def Call.next (turn : Turn) (records : Records V F) : Call V F → Records V F × Call V F
  | .worker work point =>
    match turn with
    | .step =>
      ((advanceWorker settings arithmetic work records point).1,
        .worker work (advanceWorker settings arithmetic work records point).2)
    | .fail failure =>
      ((failWorker records failure point).1, .worker work (failWorker records failure point).2)
    | .die => (records, .worker work .ended)
  | .resume stale =>
    match turn, resumeDocumentFromCheckpoint arithmetic stale records with
    | .step, .ok after => (after, .resumed)
    | _, _ => (records, .resumed)
  | .resumed => (records, .resumed)

/-- Call `i` takes its turn. -/
def advanceCalls (system : CallSystem (Records V F) (Call V F)) (turn : Nat × Turn) :
    CallSystem (Records V F) (Call V F) :=
  advance (fun _ _ => false) (Call.next settings arithmetic) system turn

def Careful (system : CallSystem (Records V F) (Call V F)) (turn : Nat × Turn) : Prop :=
  ∀ call ∈ system.calls[turn.1]?,
    (turn.2 = .step → call.begins = true →
      system.shared.document.status = .indexed ∨ ∀ other ∈ system.calls, other.busy = false) ∧
    (turn.2 = .step → call.givesUp = true → system.shared.FullyEmbedded) ∧
    (call.leaves = true → turn.2.fails = false)

instance (system : CallSystem (Records V F) (Call V F)) (turn : Nat × Turn) :
    Decidable (Careful system turn) := by
  delta Careful
  infer_instance

def Records.IndexedInFull (records : Records V F) : Prop :=
  records.document.status = .indexed → records.FullyEmbedded

instance (records : Records V F) : Decidable records.IndexedInFull := by
  delta Records.IndexedInFull
  infer_instance

def StaysIndexed (system : CallSystem (Records V F) (Call V F)) (turn : Nat × Turn) : Prop :=
  system.shared.document.status = .indexed →
    (advanceCalls settings arithmetic system turn).shared.document.status = .indexed

instance (system : CallSystem (Records V F) (Call V F)) (turn : Nat × Turn) :
    Decidable (StaysIndexed settings arithmetic system turn) := by
  delta StaysIndexed
  infer_instance

end Calls

section Steps

variable {V F : Type} [DecidableEq F]
variable {settings : Settings} {arithmetic : YieldArithmetic F} {work : Work V F}
variable {records after : Records V F} {session : Session F} {next : Next}

def Next.Covers (records : Records V F) (next : Next) : Prop :=
  ∀ left ∈ next.left, ∀ chunk ∈ records.chunks.rows, chunk ∉ left → records.embedded chunk

structure UnderWay (records : Records V F) (next : Next) : Prop where
  pending : records.document.status ≠ .indexed
  covered : next.Covers records

def Point.Holds (records : Records V F) : Point F → Prop
  | .working _ next => next.busy = true → UnderWay records next
  | _ => True

structure Left (records : Records V F) (point : Point F) : Prop where
  indexed : records.IndexedInFull
  holds : point.Holds records

theorem left_of_commit {document : Document F} {job : IngestionJob} {point : Point F}
    (committed : session.commit records document job next = (after, point))
    (pending : records.document.status ≠ .indexed)
    (stage : document.status ≠ .indexed ∨ document = session.document)
    (covered : next.Covers records) : Left after point := by
  cases committed
  have status : (Document.flush session.document document records.document).status ≠ .indexed := by
    rcases stage with earlier | same
    · exact Document.status_flush_ne pending earlier
    · simpa [same] using pending
  exact ⟨fun indexed => absurd indexed status, fun _ => ⟨status, covered⟩⟩

theorem left_of_full {document : Document F} {job : IngestionJob} {resuming : Bool}
    {point : Point F}
    (committed : session.commit records document job (.leave resuming) = (after, point))
    (full : records.FullyEmbedded) : Left after point := by
  cases committed
  exact ⟨fun _ => full, fun busy => by cases busy⟩

omit [DecidableEq F] in
theorem fullyEmbedded_of_covers (covered : next.Covers records) (none : next.left = some []) :
    records.FullyEmbedded :=
  Records.fullyEmbedded_iff.mpr fun chunk member =>
    covered [] none chunk member List.not_mem_nil

omit [DecidableEq F] in
theorem embedded_of_storeBatch {rows : List Chunk} {size count : Nat}
    (stored : storeBatch work records (rows.take size) = .ok (after, count))
    (covered : ∀ chunk ∈ records.chunks.rows, chunk ∉ rows → records.embedded chunk) :
    ∀ chunk ∈ after.chunks.rows, chunk ∉ rows.drop size → after.embedded chunk := by
  obtain ⟨_, _, chunks, known⟩ := storeBatch_spec stored
  intro chunk member later
  rw [chunks] at member
  rw [known]
  by_cases listed : chunk ∈ rows
  · rw [← List.take_append_drop size rows, List.mem_append] at listed
    rcases listed with taken | dropped
    · exact .inr (List.mem_map_of_mem taken)
    · exact absurd dropped later
  · exact .inl (covered chunk member listed)

theorem left_of_resumeStep {job : IngestionJob} {total : Nat} {remaining : List Chunk}
    {point : Point F} (pending : records.document.status ≠ .indexed)
    (covered : ∀ chunk ∈ records.chunks.rows, chunk ∉ remaining → records.embedded chunk)
    (done : resumeStep settings work records session job total remaining = .ok (after, point)) :
    Left after point := by
  obtain ⟨⟨stored, count⟩, inserted, committed⟩ := bind_eq_ok_iff.mp done
  obtain ⟨document, _⟩ := storeBatch_spec inserted
  refine left_of_commit (Except.ok.inj committed) (document ▸ pending) (.inr rfl) ?_
  intro left shape
  cases shape
  exact embedded_of_storeBatch inserted covered

omit [DecidableEq F] in
theorem Next.Covers.of_left {other : Next} (covered : next.Covers records)
    (same : other.left = next.left) : other.Covers records := by
  unfold Next.Covers
  rw [same]
  exact covered

omit [DecidableEq F] in
theorem covers_of_none (unknown : next.left = none) : next.Covers records := by
  intro left shape
  rw [unknown] at shape
  cases shape

/-- What a transaction of an execution under way leaves. -/
theorem left_of_attempt {point : Point F} (underWay : UnderWay records next)
    (busy : next.busy = true)
    (careful : (Call.worker work (.working session next)).givesUp = true → records.FullyEmbedded)
    (done : attempt settings arithmetic work records session next = .ok (after, point)) :
    Left after point := by
  obtain ⟨pending, covered⟩ := underWay
  cases next with
  | download =>
    exact left_of_commit (Except.ok.inj done) pending (.inl Stage.noConfusion) (covers_of_none rfl)
  | parse =>
    simp only [attempt] at done
    split at done
    · exact left_of_commit (Except.ok.inj done) pending (.inl Stage.noConfusion)
        (covers_of_none rfl)
    · rename_i empty
      split at done
      · rename_i downloadOnly
        have full : records.FullyEmbedded := careful (by simp [Call.givesUp, empty, downloadOnly])
        exact left_of_full (Except.ok.inj done) full
      · cases done
  | chunk =>
    exact left_of_commit (Except.ok.inj done) pending (.inl Stage.noConfusion) (covers_of_none rfl)
  | storeParts progressed =>
    simp only [attempt] at done
    split at done
    · cases done
    · split at done
      · exact left_of_commit (Except.ok.inj done) pending (.inl Stage.noConfusion)
          (covers_of_none rfl)
      · split at done
        · cases done
        · rename_i table stored
          refine left_of_commit (Except.ok.inj done) pending (.inl Stage.noConfusion) ?_
          intro left shape chunk member unlisted
          cases shape
          exact absurd (rows_of_toTable stored ▸ member) unlisted
  | checkpoint =>
    exact left_of_commit (Except.ok.inj done) pending (.inr rfl) (covered.of_left rfl)
  | startEmbedding =>
    exact left_of_commit (Except.ok.inj done) pending (.inl Stage.noConfusion) (covered.of_left rfl)
  | embed loop =>
    obtain ⟨⟨stored, count⟩, inserted, committed⟩ := bind_eq_ok_iff.mp done
    obtain ⟨document, _⟩ := storeBatch_spec inserted
    refine left_of_commit (Except.ok.inj committed) (document ▸ pending) (.inr rfl) ?_
    intro left shape
    cases shape
    exact embedded_of_storeBatch inserted (covered loop.rows rfl)
  | writeCursor =>
    exact left_of_commit (Except.ok.inj done) pending (.inr rfl) (covered.of_left rfl)
  | writeProgress loop =>
    refine left_of_commit (Except.ok.inj done) pending (.inl Stage.noConfusion) ?_
    split
    · rename_i none
      exact covered.of_left (congrArg some none.symm)
    · exact covered.of_left rfl
  | finish => exact left_of_full (Except.ok.inj done) (fullyEmbedded_of_covers covered rfl)
  | readCheckpoint =>
    have sorted := records.chunks.rows.perm_insertionSort fun a b => a.chunkIndex ≤ b.chunkIndex
    have missing : ∀ chunk ∈ records.chunks.rows,
        chunk ∉ (records.chunks.rows.insertionSort fun a b => a.chunkIndex ≤ b.chunkIndex).filter
          (fun chunk => ¬ records.embedded chunk) → records.embedded chunk := by
      intro chunk member unlisted
      by_contra absent
      exact unlisted (List.mem_filter.mpr ⟨sorted.mem_iff.mpr member, decide_eq_true absent⟩)
    simp only [attempt] at done
    split at done
    · rename_i none
      refine left_of_full (Except.ok.inj done) (Records.fullyEmbedded_iff.mpr ?_)
      intro chunk member
      exact missing chunk member (none ▸ List.not_mem_nil)
    · exact left_of_resumeStep pending missing done
  | resumeBatch total remaining =>
    exact left_of_resumeStep pending (covered remaining rfl) done
  | resumeProgress total remaining =>
    refine left_of_commit (Except.ok.inj done) pending (.inl Stage.noConfusion) ?_
    split
    · rename_i none
      exact covered.of_left (congrArg some none.symm)
    · exact covered.of_left rfl
  | resumeFinish =>
    exact left_of_full (Except.ok.inj done) (fullyEmbedded_of_covers covered rfl)
  | leave => cases busy

end Steps

variable {V F : Type} [DecidableEq F]
variable {settings : Settings} {arithmetic : YieldArithmetic F}
variable {system : CallSystem (Records V F) (Call V F)} {records after : Records V F}
variable {call : Call V F} {i : Nat} {turn : Turn}

def Call.Holds (records : Records V F) : Call V F → Prop
  | .worker _ point => point.Holds records
  | _ => True

omit [DecidableEq F] in
theorem Call.holds_of_idle (idle : call.busy = false) : call.Holds records := by
  cases call with
  | worker work point =>
    cases point with
    | working =>
      intro busy
      exact absurd (busy.symm.trans idle) Bool.noConfusion
    | _ => trivial
  | _ => trivial

/-- One execution at a time has commits to come, and an indexed document is complete. -/
structure Orderly (system : CallSystem (Records V F) (Call V F)) : Prop where
  indexed : system.shared.IndexedInFull
  alone : ∀ (i j : Nat) (a b : Call V F), system.calls[i]? = some a → system.calls[j]? = some b →
    a.busy = true → b.busy = true → i = j
  holds : ∀ call ∈ system.calls, call.Holds system.shared

/-- A turn that touches no chunk, no vector and no indexed status, and leaves nothing to do. -/
structure Quiet (records after : Records V F) (call : Call V F) : Prop where
  chunks : after.chunks = records.chunks
  embeddings : after.embeddings = records.embeddings
  status : after.document.status = .indexed ↔ records.document.status = .indexed
  idle : call.busy = false

/-- A turn of the only execution that has commits to come. -/
structure Sole (system : CallSystem (Records V F) (Call V F)) (i : Nat) (after : Records V F)
    (call : Call V F) : Prop where
  pending : system.shared.document.status ≠ .indexed
  others : ∀ (j : Nat) (other : Call V F), j ≠ i → system.calls[j]? = some other → other.busy = false
  indexed : after.IndexedInFull
  holds : call.Holds after

omit [DecidableEq F] in
theorem status_handleFailure (resuming : Bool) (failure : Failure) :
    (handleFailure records resuming failure).document.status ≠ .indexed := by
  unfold handleFailure
  simp only
  split <;> exact Stage.noConfusion

omit [DecidableEq F] in
theorem quiet_refl (idle : call.busy = false) : Quiet records records call :=
  ⟨rfl, rfl, Iff.rfl, idle⟩

omit [DecidableEq F] in
theorem Orderly.others (orderly : Orderly system) (here : system.calls[i]? = some call)
    (busy : call.busy = true) :
    ∀ j other, j ≠ i → system.calls[j]? = some other → other.busy = false := by
  intro j other apart there
  rw [← Bool.not_eq_true]
  intro alsoBusy
  exact apart (orderly.alone j i other call there here alsoBusy busy)

omit [DecidableEq F] in
theorem sole_of_failure {work : Work V F} {session : Session F} {next : Next}
    (orderly : Orderly system)
    (here : system.calls[i]? = some (.worker work (.working session next)))
    (busy : next.busy = true) (failure : Failure) :
    Sole system i (handleFailure system.shared next.resuming failure) (.worker work .ended) where
  pending := (orderly.holds _ (List.mem_of_getElem? here) busy).pending
  others := orderly.others here busy
  indexed := fun indexed => absurd indexed (status_handleFailure next.resuming failure)
  holds := trivial

theorem left_of_start (pending : records.document.status ≠ .indexed) :
    Left (start records).1 (start records).2 := by
  unfold start
  simp only [if_neg pending]
  split
  · exact left_of_commit rfl pending (.inr rfl) (covers_of_none rfl)
  · exact left_of_commit rfl pending (.inl Stage.noConfusion) (covers_of_none rfl)

omit [DecidableEq F] in
theorem pending_of_resumed {stale : Bool} (indexed : records.IndexedInFull)
    (resumed : resumeDocumentFromCheckpoint arithmetic stale records = .ok after) :
    records.document.status ≠ .indexed ∧ after.document.status = .embedding ∧
      after.chunks = records.chunks ∧ after.embeddings = records.embeddings := by
  obtain ⟨_, incomplete, rest⟩ := bind_eq_ok_iff.mp resumed
  obtain ⟨_, _, written⟩ := bind_eq_ok_iff.mp rest
  have gap := ensure_eq_ok_iff.mp incomplete
  have done := Except.ok.inj written
  refine ⟨fun complete => ?_, by rw [← done], by rw [← done], by rw [← done]⟩
  have count := Records.embeddedCount_of_fullyEmbedded (indexed complete)
  exact gap (.inr (Nat.le_of_eq count.symm))

theorem quiet_or_sole (orderly : Orderly system) (here : system.calls[i]? = some call)
    (careful : Careful system (i, turn)) :
    Quiet system.shared (Call.next settings arithmetic turn system.shared call).1
        (Call.next settings arithmetic turn system.shared call).2 ∨
      Sole system i (Call.next settings arithmetic turn system.shared call).1
        (Call.next settings arithmetic turn system.shared call).2 := by
  obtain ⟨begins, givesUp, leaves⟩ := careful call here
  cases call with
  | worker work point =>
    cases turn with
    | step =>
      cases point with
      | delivered =>
        by_cases indexed : system.shared.document.status = .indexed
        · left
          simp only [Call.next, advanceWorker, start, if_pos indexed]
          exact ⟨rfl, rfl, Iff.rfl, rfl⟩
        · right
          have free := (begins rfl rfl).resolve_left indexed
          have begun := left_of_start indexed
          exact ⟨indexed, fun j other _ there => free other (List.mem_of_getElem? there),
            begun.indexed, begun.holds⟩
      | working session next =>
        by_cases busy : next.busy = true
        · right
          have underWay : UnderWay system.shared next :=
            orderly.holds _ (List.mem_of_getElem? here) busy
          cases done : attempt settings arithmetic work system.shared session next with
          | error failure =>
            simp only [Call.next, advanceWorker, done]
            exact sole_of_failure orderly here busy failure
          | ok result =>
            have left : Left result.1 result.2 :=
              left_of_attempt underWay busy (givesUp rfl) done
            simp only [Call.next, advanceWorker, done]
            exact ⟨underWay.pending, orderly.others here busy, left.indexed, left.holds⟩
        · cases next with
          | leave => exact .inl (quiet_refl rfl)
          | _ => exact absurd rfl busy
      | ended => exact .inl (quiet_refl rfl)
    | fail failure =>
      cases point with
      | delivered => exact .inl (quiet_refl rfl)
      | working session next =>
        by_cases busy : next.busy = true
        · exact .inr (sole_of_failure orderly here busy failure)
        · cases next with
          | leave => cases leaves rfl
          | _ => exact absurd rfl busy
      | ended => exact .inl (quiet_refl rfl)
    | die => exact .inl (quiet_refl rfl)
  | resume stale =>
    left
    cases resumed : resumeDocumentFromCheckpoint arithmetic stale system.shared with
    | error =>
      cases turn <;> simp only [Call.next, resumed] <;> exact quiet_refl rfl
    | ok =>
      obtain ⟨pending, status, chunks, embeddings⟩ := pending_of_resumed orderly.indexed resumed
      cases turn with
      | step =>
        simp only [Call.next, resumed]
        refine ⟨chunks, embeddings, ?_, rfl⟩
        rw [status]
        exact ⟨Stage.noConfusion, fun indexed => absurd indexed pending⟩
      | fail | die =>
        simp only [Call.next]
        exact quiet_refl rfl
  | resumed => exact .inl (quiet_refl rfl)

omit [DecidableEq F] in
theorem Point.Holds.of_same {point : Point F} (holds : point.Holds records)
    (chunks : after.chunks = records.chunks) (embeddings : after.embeddings = records.embeddings)
    (status : after.document.status = .indexed ↔ records.document.status = .indexed) :
    point.Holds after := by
  cases point with
  | working =>
    intro busy
    obtain ⟨pending, covered⟩ := holds busy
    refine ⟨fun indexed => pending (status.mp indexed), ?_⟩
    simpa only [Next.Covers, Records.embedded, chunks, embeddings] using covered
  | _ => trivial

omit [DecidableEq F] in
theorem orderly_of_quiet {new : Call V F} (orderly : Orderly system)
    (here : system.calls[i]? = some call) (quiet : Quiet system.shared after new) :
    Orderly ⟨after, system.calls.set i new⟩ := by
  refine ⟨?_, ?_, ?_⟩
  · intro indexed
    have full := Records.fullyEmbedded_iff.mp (orderly.indexed (quiet.status.mp indexed))
    apply Records.fullyEmbedded_iff.mpr
    simpa only [Records.embedded, quiet.chunks, quiet.embeddings] using full
  · intro j k a b atJ atK busyA busyB
    rcases (getElem?_set_iff here).mp atJ with ⟨_, rfl⟩ | ⟨_, oldJ⟩
    · rw [quiet.idle] at busyA
      cases busyA
    · rcases (getElem?_set_iff here).mp atK with ⟨_, rfl⟩ | ⟨_, oldK⟩
      · rw [quiet.idle] at busyB
        cases busyB
      · exact orderly.alone j k a b oldJ oldK busyA busyB
  · intro other member
    rcases List.mem_or_eq_of_mem_set member with old | rfl
    · have held := orderly.holds other old
      cases other with
      | worker => exact held.of_same quiet.chunks quiet.embeddings quiet.status
      | _ => trivial
    · exact Call.holds_of_idle quiet.idle

omit [DecidableEq F] in
theorem orderly_of_sole {new : Call V F} (here : system.calls[i]? = some call)
    (sole : Sole system i after new) : Orderly ⟨after, system.calls.set i new⟩ := by
  have only {j : Nat} {a : Call V F} (atJ : (system.calls.set i new)[j]? = some a)
      (busy : a.busy = true) : j = i := by
    rcases (getElem?_set_iff here).mp atJ with ⟨same, _⟩ | ⟨apart, old⟩
    · exact same
    · rw [sole.others j a apart old] at busy
      cases busy
  refine ⟨sole.indexed, ?_, ?_⟩
  · intro j k a b atJ atK busyA busyB
    exact (only atJ busyA).trans (only atK busyB).symm
  · intro other member
    obtain ⟨j, there⟩ := List.mem_iff_getElem?.mp member
    rcases (getElem?_set_iff here).mp there with ⟨_, rfl⟩ | ⟨apart, old⟩
    · exact sole.holds
    · exact Call.holds_of_idle (sole.others j other apart old)

theorem orderly_advanceCalls (orderly : Orderly system) (turn : Nat × Turn)
    (careful : Careful system turn) :
    Orderly (advanceCalls settings arithmetic system turn) ∧
      StaysIndexed settings arithmetic system turn := by
  unfold StaysIndexed
  cases here : system.calls[turn.1]? with
  | none =>
    unfold advanceCalls
    rw [advance_of_none _ _ here]
    exact ⟨orderly, id⟩
  | some =>
    unfold advanceCalls
    rw [advance_of_free _ _ here (blocked_of_lockFree _ _ _)]
    rcases quiet_or_sole orderly here careful with quiet | sole
    · exact ⟨orderly_of_quiet orderly here quiet, quiet.status.mpr⟩
    · exact ⟨orderly_of_sole here sole, fun indexed => absurd indexed sole.pending⟩

/-- Executions of one job, redelivered and resumed at will, in any order and with any of them
failing at any turn. In a careful run an indexed document has one vector for every chunk in every
state, and no turn takes it out of that stage. -/
theorem indexed_of_careful (sound : system.shared.IndexedInFull)
    (fresh : ∀ call ∈ system.calls, call.busy = false) {turns : List (Nat × Turn)}
    (careful : Guarded Careful (advanceCalls settings arithmetic) system turns) :
    (∀ reached ∈ trace (advanceCalls settings arithmetic) system turns,
        reached.shared.IndexedInFull) ∧
      Guarded (StaysIndexed settings arithmetic) (advanceCalls settings arithmetic) system
        turns := by
  have start : Orderly system := by
    refine ⟨sound, ?_, fun call member => Call.holds_of_idle (fresh call member)⟩
    intro i j a b atI _ busy _
    rw [fresh a (List.mem_of_getElem? atI)] at busy
    cases busy
  have keep : ∀ (now : CallSystem (Records V F) (Call V F)) turn, Orderly now →
      Careful now turn → Orderly (advanceCalls settings arithmetic now turn) :=
    fun now turn held guard => (orderly_advanceCalls held turn guard).1
  constructor
  · intro reached member
    exact (invariant_of_guarded keep start careful reached member).indexed
  · exact guarded_mono_of_guarded keep
      (fun now turn held guard _ => (orderly_advanceCalls held turn guard).2) start careful careful

def oneChunk (rowId : Uuid) : Work Unit Nat where
  extraction := ⟨1, true, false⟩
  parts := [⟨rowId, 0, "a"⟩]
  embed texts := texts.map fun _ => ()

def deliveries : CallSystem (Records Unit Nat) (Call Unit Nat) :=
  ⟨uploaded, [.worker (oneChunk 0) .delivered, .worker (oneChunk 1) .delivered, .resume true,
    .worker (oneChunk 2) .delivered]⟩

def takes (call count : Nat) : List (Nat × Turn) := List.replicate count (call, .step)

/-- A second execution begins before the checkpoint of the first one, replaces the chunks after
its last batch, and goes on after it has marked the document. -/
theorem not_indexed_deliveries :
    (∀ call ∈ deliveries.calls, call.busy = false) ∧ deliveries.shared.IndexedInFull ∧
      ¬ (∀ reached ∈ trace (advanceCalls ⟨2⟩ percent) deliveries
        (takes 1 1 ++ takes 0 11 ++ takes 1 5 ++ takes 0 1), reached.shared.IndexedInFull) ∧
      ¬ Guarded (StaysIndexed ⟨2⟩ percent) (advanceCalls ⟨2⟩ percent) deliveries
        (takes 1 1 ++ takes 0 11 ++ takes 1 5 ++ takes 0 1 ++ takes 1 2) ∧
      ¬ Guarded (StaysIndexed ⟨2⟩ percent) (advanceCalls ⟨2⟩ percent) deliveries
        (takes 1 1 ++ takes 0 12 ++ [(1, .fail .unexpected)]) := by
  decide +kernel

/-- The first execution dies, the document is resumed by hand, and two more deliveries follow. -/
theorem indexed_of_careful_deliveries :
    Guarded Careful (advanceCalls ⟨2⟩ percent) deliveries
        (takes 0 8 ++ [(0, .die)] ++ takes 2 1 ++ takes 1 6 ++ takes 3 2) ∧
      (∀ reached ∈ trace (advanceCalls ⟨2⟩ percent) deliveries
        (takes 0 8 ++ [(0, .die)] ++ takes 2 1 ++ takes 1 6 ++ takes 3 2),
        reached.shared.IndexedInFull) := by
  have careful : Guarded Careful (advanceCalls ⟨2⟩ percent) deliveries
      (takes 0 8 ++ [(0, .die)] ++ takes 2 1 ++ takes 1 6 ++ takes 3 2) := by decide +kernel
  exact ⟨careful, (indexed_of_careful (by decide) (by decide) careful).1⟩

end AverQel.Ingestion
