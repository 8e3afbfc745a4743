/- digest: When a ready table index was built from the version of its source that it names. -/
import AverQel.Query.DatasetIndexing
import AverQel.Foundation.Transition

namespace AverQel.Query

open Foundation.Transition

variable (env : IndexEnvironment)

def QueryDatasetIndex.BuiltFrom (row : QueryDatasetIndex) (derivative : Option Bytes) : Prop :=
  ∃ payload built, env.sha256 payload = row.sourceSha256 ∧ env.build payload = .ok built ∧
    row.rowCount = some built.rowCount ∧ row.columns = built.columns ∧
    ∀ object ∈ derivative, object = built.parquetPayload

def IndexWorker.Honest : IndexWorker → Prop
  | saving _ payload built | stored _ payload built => env.build payload = .ok built
  | _ => True

/-- What the next write of a worker needs of the row and of the stored object. -/
def IndexWorker.KeepsSource (row : QueryDatasetIndex) (derivative : Option Bytes) :
    IndexWorker → Prop
  /- It stores its object under a ready row only when that was built from the same version. -/
  | saving _ payload built => row.status = .ready →
      env.sha256 payload = row.sourceSha256 ∧ row.rowCount = some built.rowCount ∧
        row.columns = built.columns
  /- It marks the row ready only while the row names the version it loaded, its own object is the
  one that is stored, and what its session does not write is what it built. -/
  | stored copy payload built =>
      env.sha256 payload = row.sourceSha256 ∧
        (∀ object ∈ derivative, object = built.parquetPayload) ∧
        (copy.rowCount = some built.rowCount → row.rowCount = some built.rowCount) ∧
        (copy.columns = built.columns → row.columns = built.columns)
  /- It clears the columns of a row that became ready only when there is nothing to write. -/
  | marking copy _ _ => copy.status = .failed → row.status = .ready →
      copy.rowCount = none ∧ copy.columns = []
  | _ => True

namespace IndexSystem

def Matches (s : IndexSystem) : Prop :=
  ∀ row ∈ s.row, row.status = .ready → row.BuiltFrom env s.derivative

def RequestQueues (s : IndexSystem) : Prop :=
  ∀ request ∈ s.request, request.new.status = .queued ∨ request.copy = some request.new

def WorkersHonest (s : IndexSystem) : Prop := ∀ worker ∈ s.workers, worker.Honest env

def KeepsSource (s : IndexSystem) : IndexAction → Prop
  | .requestCommit _ => ∀ request ∈ s.request, ∀ copy ∈ request.copy,
      copy.status = .queued → request.new ≠ copy → ∀ row ∈ s.row, row.status ≠ .ready
  | .work w none _ => ∀ worker ∈ s.workers[w]?, ∀ row ∈ s.row,
      worker.KeepsSource env row s.derivative
  | _ => True

end IndexSystem

namespace QueryDatasetIndex

variable {env} {row row' : QueryDatasetIndex} {derivative derivative' : Option Bytes}

theorem BuiltFrom.congr (built : row.BuiltFrom env derivative)
    (source : row'.sourceSha256 = row.sourceSha256) (rows : row'.rowCount = row.rowCount)
    (columns : row'.columns = row.columns) (fewer : ∀ object ∈ derivative', object ∈ derivative) :
    row'.BuiltFrom env derivative' := by
  obtain ⟨payload, result, digest, done, counted, named, stored⟩ := built
  refine ⟨payload, result, ?_, done, ?_, ?_, ?_⟩
  · rw [source]
    exact digest
  · rw [rows]
    exact counted
  · rw [columns]
    exact named
  · intro object member
    exact stored object (fewer object member)

end QueryDatasetIndex

namespace IndexSystem

variable {env} {s : IndexSystem}

theorem matches_commit (current : s.Matches env) {copy new : QueryDatasetIndex} (now : Time)
    (status : new.status = copy.status) (source : new.sourceSha256 = copy.sourceSha256)
    (rows : new.rowCount = copy.rowCount) (columns : new.columns = copy.columns) :
    ∀ row ∈ s.commit copy new now, row.status = .ready → row.BuiltFrom env s.derivative := by
  intro row member ready
  obtain ⟨old, here, rfl⟩ := Option.map_eq_some_iff.mp member
  rw [flush_status, status, changed_self] at ready
  apply (current old here ready).congr
  · rw [flush_sourceSha256, source, changed_self]
  · rw [flush_rowCount, rows, changed_self]
  · rw [flush_columns, columns, changed_self]
  · exact fun object stored => stored

theorem ne_ready_of_flush {copy new current : QueryDatasetIndex} {now : Time}
    (other : new.status ≠ .ready) (written : new.status ≠ copy.status) :
    (flush copy new current now).status ≠ .ready := by
  rw [flush_status, changed, if_neg written]
  exact other

theorem begin_status (row : QueryDatasetIndex) (document : SourceDocument) (now : Time) :
    (begin row document now).1 = row ∨ (begin row document now).1.status ≠ .ready := by
  simp only [begin]
  split_ifs <;> simp [QueryDatasetIndex.fail, QueryDatasetIndex.loading]

theorem matches_locked (current : s.Matches env) {row new : QueryDatasetIndex} {now : Time}
    (here : s.row = some row) (changes : new = row ∨ new.status ≠ .ready) :
    ∀ row' ∈ some (flush row new row now), row'.status = .ready →
      row'.BuiltFrom env s.derivative := by
  rintro _ ⟨⟩ ready
  rcases changes with same | other
  · rw [flush, if_pos same] at ready ⊢
    exact current row here ready
  · exfalso
    rw [flush_status, changed] at ready
    split_ifs at ready with same
    · exact other (same.trans ready)
    · exact other ready

theorem matches_requestCommit (current : s.Matches env) (queues : s.RequestQueues) {now : Time}
    (keeps : s.KeepsSource env (.requestCommit now)) : (s.requestCommit now).Matches env := by
  simp only [requestCommit]
  cases pending : s.request with
  | none => exact current
  | some request =>
    obtain ⟨copy, new⟩ := request
    cases copy with
    | none =>
      rintro row ⟨⟩ ready
      cases here : s.row with
      | some old =>
        rw [here] at ready
        have same := current old here ready
        simpa [here] using same
      | none =>
        rcases queues _ pending with queued | same
        · rw [here, Option.getD_none, queued] at ready
          cases ready
        · cases same
    | some copy =>
      intro row member ready
      obtain ⟨old, here, rfl⟩ := Option.map_eq_some_iff.mp member
      by_cases same : new = copy
      · rw [flush, if_pos same] at ready ⊢
        exact current old here ready
      · exfalso
        have queued : new.status = .queued := by
          rcases queues _ pending with queued | unchanged
          · exact queued
          · exact absurd (Option.some.inj unchanged).symm same
        by_cases was : copy.status = .queued
        · have idle := keeps _ pending copy rfl was same old here
          rw [flush_status, queued, was, changed_self] at ready
          exact idle ready
        · refine ne_ready_of_flush ?_ ?_ ready
          · rw [queued]
            decide
          · rw [queued]
            exact fun same => was same.symm

theorem matches_of_row (current : s.Matches env) {t : IndexSystem} (row : t.row = s.row)
    (fewer : ∀ object ∈ t.derivative, object ∈ s.derivative) : t.Matches env := by
  intro found member ready
  rw [row] at member
  exact (current found member ready).congr rfl rfl rfl fewer

/-- A worker's step keeps what a ready row promises when its writes keep the source. -/
theorem matches_work (current : s.Matches env) (honest : s.WorkersHonest env) {w : Nat}
    {raised : Option IndexFailure} {now : Time} (keeps : s.KeepsSource env (.work w raised now)) :
    (s.work env w raised now).Matches env := by
  have stays : ∀ next : IndexWorker, (s.setWorker w next).Matches env := by
    intro next
    exact matches_of_row current rfl fun object stored => stored
  simp only [work]
  cases at_ : s.workers[w]? with
  | none => exact current
  | some worker =>
    have built := honest worker (List.mem_of_getElem? at_)
    cases worker with
    | started =>
      cases here : s.row with
      | none => exact stays _
      | some row => exact matches_locked current here (begin_status row s.document now)
    | failing =>
      cases here : s.row with
      | none | some => exact stays _
    | cleaning =>
      refine matches_of_row current rfl ?_
      intro object stored
      cases raised with
      | some => exact stored
      | none => cases stored
    | done => exact current
    | marking copy failure =>
      cases raised with
      | some => exact stays _
      | none =>
        intro row member ready
        obtain ⟨old, here, rfl⟩ := Option.map_eq_some_iff.mp member
        by_cases was : copy.status = .failed
        · have unchanged : (copy.abandoned failure).status = copy.status := was.symm
          have ready' := ready
          rw [flush_status, unchanged, changed_self] at ready'
          obtain ⟨counted, named⟩ := keeps _ at_ old here was ready'
          have same := matches_commit current now unchanged rfl counted.symm named.symm
          exact same _ member ready
        · have other : (copy.abandoned failure).status ≠ .ready := by
            intro same
            cases same
          exact absurd ready (ne_ready_of_flush other fun same => was same.symm)
    | loading copy document =>
      cases raised with
      | some => exact stays _
      | none =>
        simp only [proceed]
        cases s.load document <;> exact stays _
    | loaded =>
      cases raised with
      | some => exact stays _
      | none => exact matches_commit current now rfl rfl rfl rfl
    | building copy payload =>
      cases raised with
      | some => exact stays _
      | none =>
        simp only [proceed]
        cases env.build payload with
        | error => exact stays _
        | ok => exact matches_commit current now rfl rfl rfl rfl
    | saving copy payload result =>
      cases raised with
      | some => exact stays _
      | none =>
        intro row member ready
        obtain ⟨digest, counted, named⟩ := keeps _ at_ row member ready
        refine ⟨payload, result, digest, built, counted, named, ?_⟩
        rintro object ⟨⟩
        rfl
    | stored copy payload result =>
      cases raised with
      | some => exact stays _
      | none =>
        intro row member _
        obtain ⟨old, here, rfl⟩ := Option.map_eq_some_iff.mp member
        obtain ⟨digest, own, counted, named⟩ := keeps _ at_ old here
        refine ⟨payload, result, ?_, built, ?_, ?_, own⟩
        · rw [flush_sourceSha256]
          exact digest.trans (changed_self copy.sourceSha256 old.sourceSha256).symm
        · rw [flush_rowCount, changed]
          split_ifs with same
          · exact counted same.symm
          · rfl
        · rw [flush_columns, changed]
          split_ifs with same
          · exact named same.symm
          · rfl

theorem matches_step (current : s.Matches env) (queues : s.RequestQueues)
    (honest : s.WorkersHonest env) {action : IndexAction} (keeps : s.KeepsSource env action) :
    (s.step env action).Matches env := by
  cases action with
  | changeDocument =>
    simp only [step, changeDocument]
    split_ifs
    · exact current
    · exact matches_of_row current rfl fun object stored => stored
  | deleteDocument =>
    simp only [step]
    split_ifs
    · exact current
    · exact matches_of_row current rfl fun object stored => stored
  | requestRead =>
    simp only [step, requestRead]
    split_ifs with blocked
    · exact current
    · cases here : s.row with
      | none => exact matches_of_row current here.symm fun object stored => stored
      | some =>
        refine matches_of_row current here.symm ?_
        intro object stored
        dsimp only at stored
        split_ifs at stored
        · cases stored
        · exact stored
  | requestCommit => exact matches_requestCommit current queues keeps
  | requestRollback | startWorker => exact matches_of_row current rfl fun object stored => stored
  | failStaleProcessing =>
    cases here : s.row with
    | none =>
      intro row member
      simp [step, failStaleProcessing, here] at member
    | some row =>
      intro row' member ready
      simp only [step, failStaleProcessing, here, Option.map_some] at member ready ⊢
      split_ifs at member with stale
      · have other : row.stopped.status ≠ .ready := by
          intro same
          cases same
        exact matches_locked current here (.inr other) row' member ready
      · obtain rfl := Option.some.inj member
        exact current row here ready
  | work => exact matches_work current honest keeps

theorem requestQueues_step (queues : s.RequestQueues) (action : IndexAction) :
    (s.step env action).RequestQueues := by
  have row_requested : ∀ (row : QueryDatasetIndex) (sha256 : String) (retry : Bool) (now : Time),
      (row.requested sha256 retry now).status = .queued ∨
        some row = some (row.requested sha256 retry now) := by
    intro row sha256 retry now
    simp only [QueryDatasetIndex.requested]
    split_ifs
    · exact .inl rfl
    · exact .inl rfl
    · exact .inl rfl
    · exact .inr rfl
  cases action with
  | changeDocument =>
    simp only [step, changeDocument]
    split_ifs <;> exact queues
  | deleteDocument =>
    simp only [step]
    split_ifs <;> exact queues
  | requestRead sha256 retry deletes now =>
    simp only [step, requestRead]
    split_ifs
    · exact queues
    · cases s.row with
      | none =>
        rintro request ⟨⟩
        exact .inl rfl
      | some row =>
        rintro request ⟨⟩
        exact row_requested row sha256 retry now
  | requestCommit =>
    simp only [step, requestCommit]
    cases pending : s.request with
    | none => exact queues
    | some =>
      intro request' member
      cases member
  | requestRollback =>
    intro request member
    cases member
  | failStaleProcessing | startWorker => exact queues
  | work w raised now =>
    have same : (s.work env w raised now).request = s.request := by
      simp only [work, proceed]
      repeat' split
      all_goals rfl
    intro request member
    rw [step, same] at member
    exact queues request member

theorem workersHonest_step (honest : s.WorkersHonest env) (action : IndexAction) :
    (s.step env action).WorkersHonest env := by
  have set_ : ∀ {w : Nat} {next : IndexWorker}, next.Honest env →
      ∀ worker ∈ s.workers.set w next, worker.Honest env := by
    intro w next holds worker member
    rcases List.mem_or_eq_of_mem_set member with old | rfl
    · exact honest worker old
    · exact holds
  cases action with
  | changeDocument =>
    simp only [step, changeDocument]
    split_ifs <;> exact honest
  | deleteDocument =>
    simp only [step]
    split_ifs <;> exact honest
  | requestRead =>
    simp only [step, requestRead]
    split_ifs
    · exact honest
    · cases s.row <;> exact honest
  | requestCommit =>
    simp only [step, requestCommit]
    cases s.request <;> exact honest
  | requestRollback | failStaleProcessing => exact honest
  | startWorker =>
    intro worker member
    rcases List.mem_append.mp member with old | new
    · exact honest worker old
    · obtain rfl := List.mem_singleton.mp new
      trivial
  | work w raised now =>
    simp only [step, work]
    cases at_ : s.workers[w]? with
    | none => exact honest
    | some worker =>
      have built := honest worker (List.mem_of_getElem? at_)
      cases worker with
      | started =>
        have started : ∀ row : QueryDatasetIndex, (begin row s.document now).2.Honest env := by
          intro row
          simp only [begin]
          split_ifs <;> trivial
        cases s.row with
        | none => exact set_ trivial
        | some row => exact set_ (started row)
      | failing failure stored =>
        cases s.row with
        | none => exact set_ (by cases stored <;> trivial)
        | some => exact set_ trivial
      | cleaning => exact set_ trivial
      | done => exact honest
      | marking copy failure stored =>
        cases raised with
        | some => exact set_ trivial
        | none => exact set_ (by cases stored <;> trivial)
      | loading copy document =>
        cases raised with
        | some => exact set_ trivial
        | none =>
          simp only [proceed]
          cases s.load document <;> exact set_ trivial
      | loaded | stored => cases raised <;> exact set_ trivial
      | building copy payload =>
        cases raised with
        | some => exact set_ trivial
        | none =>
          simp only [proceed]
          cases done : env.build payload with
          | error => exact set_ trivial
          | ok => exact set_ done
      | saving =>
        cases raised with
        | some => exact set_ trivial
        | none => exact set_ built

instance (row : QueryDatasetIndex) (derivative : Option Bytes) (worker : IndexWorker) :
    Decidable (worker.KeepsSource env row derivative) :=
  match worker with
  | .saving .. | .stored .. | .marking .. => by dsimp only [IndexWorker.KeepsSource]; infer_instance
  | .started | .loading .. | .loaded .. | .building .. | .failing .. | .cleaning | .done =>
    .isTrue trivial

instance (s : IndexSystem) (action : IndexAction) : Decidable (s.KeepsSource env action) :=
  match action with
  | .requestCommit .. | .work _ none _ => by dsimp only [KeepsSource]; infer_instance
  | .work _ (some _) _ | .changeDocument .. | .deleteDocument | .requestRead ..
  | .requestRollback | .failStaleProcessing _ | .startWorker => .isTrue trivial

/-- In every run whose writes keep the source, a ready index was built from a payload with the hash
that its row names. -/
theorem matches_of_keepsSource (document : SourceDocument)
    (sources : String × String → Option Bytes) (actions : List IndexAction)
    (guarded : Guarded (KeepsSource env) (step env) (initial document sources) actions) :
    ∀ s ∈ trace (step env) (initial document sources) actions, s.Matches env := by
  have start : (initial document sources).Matches env ∧
      (initial document sources).RequestQueues ∧
      (initial document sources).WorkersHonest env := by
    refine ⟨?_, ?_, ?_⟩
    · intro row member
      cases member
    · intro request member
      cases member
    · intro worker member
      cases member
  have keep : ∀ (s : IndexSystem) (action : IndexAction),
      (s.Matches env ∧ s.RequestQueues ∧ s.WorkersHonest env) → s.KeepsSource env action →
        (s.step env action).Matches env ∧ (s.step env action).RequestQueues ∧
          (s.step env action).WorkersHonest env := by
    rintro s action ⟨current, queues, honest⟩ keeps
    exact ⟨matches_step current queues honest keeps, requestQueues_step queues action,
      workersHonest_step honest action⟩
  intro s member
  exact (invariant_of_guarded keep start guarded s member).1

theorem built_of_derivativeProfile (current : s.Matches env)
    {columns : List (String × String)} {rowCount : Option Nat} {payload : Bytes}
    (served : s.derivativeProfile = .ok (columns, rowCount, payload)) :
    ∃ source built, env.sha256 source = s.document.sha256Hash ∧ env.build source = .ok built ∧
      rowCount = some built.rowCount ∧ columns = built.columns ∧
        payload = built.parquetPayload := by
  simp only [derivativeProfile] at served
  cases here : s.row with
  | none => simp [here] at served
  | some row =>
    cases stored : s.derivative with
    | none =>
      simp only [here, stored] at served
      split_ifs at served
    | some object =>
      simp only [here, stored] at served
      split_ifs at served with idle refused
      push Not at idle refused
      obtain ⟨rfl, rfl, rfl⟩ : row.columns = columns ∧ row.rowCount = rowCount ∧
          object = payload := by simpa using served
      obtain ⟨source, built, digest, done, counted, named, own⟩ := current row here idle.1
      exact ⟨source, built, digest.trans refused.2.2, done, counted, named, own object stored⟩

/-- `id,amount` and one line. -/
def firstVersion : Bytes := "id,amount\n1,10\n".toUTF8.toList

def secondVersion : Bytes := "id,amount\n1,10\n2,25\n".toUTF8.toList

/-- The digests and the tables of the two versions; the derivative stands for its source. -/
def twoVersions : IndexEnvironment where
  sha256 payload :=
    if payload = firstVersion then
      "246f53bbf26ec4f082a3bddd50e7628181b7506a025b81fb2a43d6536f76b1b9"
    else if payload = secondVersion then
      "410b097cb2dacf91315f7779428c99913f554e42f8a83a2e1002066a939b5c8e"
    else ""
  build payload :=
    if payload = firstVersion then
      .ok ⟨1, [("id", "BIGINT"), ("amount", "BIGINT")], payload⟩
    else if payload = secondVersion then
      .ok ⟨2, [("id", "BIGINT"), ("amount", "BIGINT")], payload⟩
    else .error ⟨"DATASET_PARSE_FAILED", "The table could not be parsed."⟩
  derivativePlace := ("documents", "tenant/document/_grounded_query_dataset.parquet")

def tableDocument : SourceDocument :=
  ⟨twoVersions.sha256 firstVersion, 15, some ("documents", "tenant/document/table.csv"), false,
    true, false⟩

def tableSources (place : String × String) : Option Bytes :=
  if place = ("documents", "tenant/document/table.csv") then some firstVersion else none

def untilLoaded : List IndexAction :=
  [.requestRead (twoVersions.sha256 firstVersion) false true 0, .requestCommit 0, .startWorker,
    .work 0 none 1, .work 0 none 2]

def replaceFile : List IndexAction :=
  [.changeDocument secondVersion ("documents", "tenant/document/table.csv") false true,
    .requestRead (twoVersions.sha256 secondVersion) false true 3, .requestCommit 3]

def untilReady : List IndexAction :=
  [.work 0 none 4, .work 0 none 5, .work 0 none 6, .work 0 none 7]

theorem unchanged_table_indexed :
    Guarded (KeepsSource twoVersions) (step twoVersions) (initial tableDocument tableSources)
        (untilLoaded ++ untilReady) ∧
      ∀ s ∈ trace (step twoVersions) (initial tableDocument tableSources)
        (untilLoaded ++ untilReady), s.Matches twoVersions :=
  ⟨by decide +kernel,
    matches_of_keepsSource tableDocument tableSources (untilLoaded ++ untilReady)
      (by decide +kernel)⟩

/-- A worker that loaded the first version marks the row of the second one ready. -/
theorem replaced_table_indexed_stale :
    ¬ ∀ (env : IndexEnvironment) (document : SourceDocument)
      (sources : String × String → Option Bytes) (actions : List IndexAction),
      ∀ s ∈ trace (step env) (initial document sources) actions, s.Matches env := by
  intro always
  let actions := untilLoaded ++ replaceFile ++ untilReady
  have current := always twoVersions tableDocument tableSources actions _
    (run_mem_trace (step twoVersions) (initial tableDocument tableSources) actions)
  have stale : ∃ row ∈ (run (step twoVersions) (initial tableDocument tableSources) actions).row,
      row.status = .ready ∧ row.rowCount = some 1 ∧
        row.sourceSha256 = "410b097cb2dacf91315f7779428c99913f554e42f8a83a2e1002066a939b5c8e" := by
    decide +kernel
  obtain ⟨row, here, ready, counted, named⟩ := stale
  obtain ⟨payload, built, digest, done, rows, _⟩ := current row here ready
  have second : payload = secondVersion := by
    rw [named] at digest
    simp only [twoVersions] at digest
    split_ifs at digest with first second
    · simp at digest
    · exact second
    · simp at digest
  have other : secondVersion ≠ firstVersion := by decide +kernel
  rw [second] at done
  simp only [twoVersions, if_neg other, if_true] at done
  obtain rfl := Except.ok.inj done
  rw [counted] at rows
  simp at rows

end IndexSystem

end AverQel.Query
