/- digest: Workers that claim, advance and complete the retention scan of a tenant at the same time. -/
import AverQel.Foundation.Interleaving
import AverQel.System.RetentionRuns

namespace AverQel.System

open Foundation Transition

/-- The point that a worker has reached in a call on the scan runs. -/
inductive ScanPoint where
  | idle
  /-- `claim_scan_run` has read the clock. -/
  | claiming (leaseMinutes : Int) (now : Time)
  /-- Its query has read `found` and locked the rows that it selected. -/
  | claimRead (leaseMinutes : Int) (now : Time) (found : Option RetentionRun) (locked : List Uuid)
  /-- `advance_scan_run` has locked its row. -/
  | advanceRead (runId : Uuid) (cursor : String)
  /-- `complete_scan_run` has locked its row. -/
  | completeRead (runId : Uuid) (candidateCount protectedCount : Nat)
  deriving DecidableEq, Repr

namespace ScanPoint

def locks : ScanPoint → List Uuid
  | claimRead _ _ _ locked => locked
  | advanceRead runId _ | completeRead runId _ _ => [runId]
  | idle | claiming _ _ => []

def isOpen : ScanPoint → Bool
  | claimRead .. | advanceRead .. | completeRead .. => true
  | idle | claiming .. => false

def acts : ScanPoint → Option Uuid
  | advanceRead runId _ | completeRead runId _ _ => some runId
  | idle | claiming _ _ | claimRead .. => none

def reads : ScanPoint → Option (Option RetentionRun)
  | claimRead _ _ found _ => some found
  | idle | claiming _ _ | advanceRead _ _ | completeRead .. => none

end ScanPoint

structure ScanWorker where
  owned : Option Uuid
  call : ScanPoint
  deriving DecidableEq, Repr

/-- The committed scan runs and the workers on them; `holder` is the worker whose claim returned a
run last. -/
structure ScanSystem where
  clock : Time
  runs : RetentionRuns
  workers : List ScanWorker
  holder : Uuid → Option Nat

inductive ScanMove where
  | begin (leaseMinutes : Int)
  | read
  | commitClaim (runId : Uuid) (policy : RetentionPolicy)
  | readAdvance (cursor : String)
  | readComplete (candidateCount protectedCount : Nat)
  | commit
  deriving DecidableEq, Repr

inductive ScanTurn where
  | wait (elapsed : Nat)
  | move (worker : Nat) (move : ScanMove)
  deriving DecidableEq, Repr

namespace ScanSystem

variable (tenantId : Uuid) (s : ScanSystem)

def lockedByOther (w : Nat) (runId : Uuid) : Bool :=
  s.workers.zipIdx.any fun other => other.2 ≠ w && runId ∈ other.1.call.locks

def setWorker (w : Nat) (worker : ScanWorker) : ScanSystem :=
  { s with workers := s.workers.set w worker }

/-- The query of a claim with `FOR UPDATE SKIP LOCKED`. -/
def readClaim (w : Nat) (worker : ScanWorker) (leaseMinutes : Int) (now : Time) : ScanSystem :=
  let free := fun run : RetentionRun => !s.lockedByOther w run.id
  let selected := s.runs.rows.filter fun run => run.scanning tenantId && free run
  s.setWorker w { worker with
    call := .claimRead leaseMinutes now (s.runs.scanRun tenantId free)
      (selected.map RetentionRun.id) }

/-- The rest of a claim: give up on a lease that still runs, else write and commit. -/
def commitClaim (w : Nat) (worker : ScanWorker) (leaseMinutes : Int) (now : Time)
    (found : Option RetentionRun) (runId : Uuid) (policy : RetentionPolicy) : ScanSystem :=
  if found.any (fun run => run.leased now) then s.setWorker w { worker with call := .idle }
  else
    match s.runs.claimScan found runId tenantId policy leaseMinutes now with
    | none => s.setWorker w { worker with call := .idle }
    | some (runs, run) =>
      { s.setWorker w ⟨some run.id, .idle⟩ with
        runs := runs
        holder := Function.update s.holder run.id (some w) }

/-- What a worker does next; a row that another worker has locked is waited for. -/
def moved (w : Nat) (worker : ScanWorker) : ScanPoint → ScanMove → ScanSystem
  | .idle, .begin leaseMinutes =>
    s.setWorker w { worker with call := .claiming leaseMinutes s.clock }
  | .claiming leaseMinutes now, .read => s.readClaim tenantId w worker leaseMinutes now
  | .claimRead leaseMinutes now found _, .commitClaim runId policy =>
    s.commitClaim tenantId w worker leaseMinutes now found runId policy
  | .idle, .readAdvance cursor =>
    match worker.owned with
    | none => s
    | some runId =>
      if s.lockedByOther w runId then s
      else
        match (s.runs.find? runId).filter (fun run => run.scanning tenantId) with
        | none => s
        | some _ => s.setWorker w { worker with call := .advanceRead runId cursor }
  | .idle, .readComplete candidateCount protectedCount =>
    match worker.owned with
    | none => s
    | some runId =>
      if s.lockedByOther w runId then s
      else
        match (s.runs.find? runId).filter (fun run => run.tenantId = tenantId) with
        | none => s
        | some _ =>
          s.setWorker w { worker with call := .completeRead runId candidateCount protectedCount }
  | .advanceRead runId cursor, .commit =>
    { s.setWorker w { worker with call := .idle } with
      runs := s.runs.modify runId (fun run => run.advanced cursor s.clock) (fun _ => rfl) }
  | .completeRead runId candidateCount protectedCount, .commit =>
    { s.setWorker w { worker with call := .idle } with
      runs := s.runs.modify runId
        (fun run => run.completed candidateCount protectedCount s.clock) (fun _ => rfl) }
  | _, _ => s

def step : ScanTurn → ScanSystem
  | .wait elapsed => { s with clock := s.clock + elapsed }
  | .move w move =>
    match s.workers[w]? with
    | none => s
    | some worker => s.moved tenantId w worker worker.call move

/-- `n` workers that have not begun, and no run yet. -/
def start (clock : Time) (n : Nat) : ScanSystem :=
  ⟨clock, .empty, List.replicate n ⟨none, .idle⟩, fun _ => none⟩

def OneLive : Prop :=
  s.runs.AtMostOne fun run => run.scanning tenantId && run.leased s.clock

def LostRefused : ScanTurn → Prop
  | .wait _ => True
  | .move w move => ∀ worker ∈ s.workers[w]?, ∀ runId ∈ worker.call.acts,
      (∃ v ∈ s.holder runId, v ≠ w) →
        (s.step tenantId (.move w move)).runs.rows = s.runs.rows

def othersClosed (w : Nat) : Bool :=
  s.workers.zipIdx.all fun other => other.2 = w || !other.1.call.isOpen

def orderlyMove (w : Nat) (worker : ScanWorker) : ScanPoint → ScanMove → Bool
  | .claiming _ _, .read => s.othersClosed w
  | .idle, .readAdvance _ => worker.owned.all fun runId => s.holder runId = some w ||
      ((s.runs.find? runId).filter (fun run => run.scanning tenantId)).isNone
  | .idle, .readComplete _ _ => worker.owned.all fun runId => s.holder runId = some w
  | _, _ => true

def Orderly : ScanTurn → Prop
  | .wait _ => True
  | .move w move => ∀ worker ∈ s.workers[w]?, s.orderlyMove tenantId w worker worker.call move

/-- What the turns of an orderly run keep. -/
structure Sound : Prop where
  single : s.runs.AtMostOne fun run => run.scanning tenantId
  alone : ∀ (u v : Nat) (p q : ScanWorker), s.workers[u]? = some p → s.workers[v]? = some q →
    p.call.reads.isSome → q.call.reads.isSome → u = v
  nothing : ∀ (v : Nat) (q : ScanWorker), s.workers[v]? = some q → q.call.reads = some none →
    ∀ run ∈ s.runs.rows, run.scanning tenantId = false
  locked : ∀ (v : Nat) (q : ScanWorker) (run : RetentionRun), s.workers[v]? = some q →
    q.call.reads = some (some run) →
      run.id ∈ q.call.locks ∧ ∃ row ∈ s.runs.rows, row.id = run.id
  apart : ∀ (u v : Nat) (p q : ScanWorker) (run : RetentionRun) (runId : Uuid),
    s.workers[u]? = some p → s.workers[v]? = some q → p.call.reads = some (some run) →
    q.call.acts = some runId → runId ≠ run.id
  kept : ∀ (v : Nat) (q : ScanWorker) (runId : Uuid), s.workers[v]? = some q →
    q.call.acts = some runId → s.holder runId = some v
  known : ∀ (runId : Uuid) (v : Nat), s.holder runId = some v → ∃ run ∈ s.runs.rows, run.id = runId

variable {tenantId s} {w : Nat} {worker new : ScanWorker}

variable {q : ScanWorker}

theorem setWorker_cases (here : s.workers[w]? = some worker) {v : Nat}
    (at_ : (s.workers.set w new)[v]? = some q) :
    (v = w ∧ q = new) ∨ (v ≠ w ∧ s.workers[v]? = some q) :=
  (Interleaving.getElem?_set_iff here).mp at_

theorem not_locked_of_free {runId : Uuid} (free : s.lockedByOther w runId = false) {v : Nat}
    (at_ : s.workers[v]? = some q) (other : v ≠ w) : runId ∉ q.call.locks := by
  have indexed : (q, v) ∈ s.workers.zipIdx := List.mem_zipIdx_iff_getElem?.mpr at_
  have all := List.any_eq_false.mp free (q, v) indexed
  simpa [other] using all

theorem othersClosed_iff : s.othersClosed w = true ↔
    ∀ (v : Nat) (q : ScanWorker), s.workers[v]? = some q → v ≠ w → q.call.isOpen = false := by
  constructor
  · intro closed v q at_ other
    have indexed : (q, v) ∈ s.workers.zipIdx := List.mem_zipIdx_iff_getElem?.mpr at_
    have all := List.all_eq_true.mp closed (q, v) indexed
    simpa [other] using all
  · intro closed
    refine List.all_eq_true.mpr ?_
    rintro ⟨q, v⟩ indexed
    by_cases other : v = w
    · simp [other]
    · simp [closed v q (List.mem_zipIdx_iff_getElem?.mp indexed) other]

theorem closed_of_othersClosed (closed : s.othersClosed w = true) {v : Nat}
    (at_ : s.workers[v]? = some q) (other : v ≠ w) : q.call.isOpen = false :=
  othersClosed_iff.mp closed v q at_ other

theorem free_of_othersClosed (closed : s.othersClosed w = true) (runId : Uuid) :
    s.lockedByOther w runId = false := by
  refine List.any_eq_false.mpr ?_
  rintro ⟨q, v⟩ indexed
  have at_ : s.workers[v]? = some q := List.mem_zipIdx_iff_getElem?.mp indexed
  by_cases other : v = w
  · simp [other]
  · have quiet := closed_of_othersClosed closed at_ other
    have unlocked : q.call.locks = [] := by
      cases point : q.call with
      | idle | claiming => rfl
      | claimRead | advanceRead | completeRead =>
        rw [point] at quiet
        cases quiet
    simp [unlocked]

theorem reads_of_closed {point : ScanPoint} (closed : point.isOpen = false) :
    point.reads = none ∧ point.acts = none := by
  cases point with
  | idle | claiming => exact ⟨rfl, rfl⟩
  | claimRead | advanceRead | completeRead => cases closed

theorem sound_of_closed (sound : s.Sound tenantId) (here : s.workers[w]? = some worker)
    (closed : new.call.isOpen = false) {runs : RetentionRuns}
    (fewer : ∀ run' ∈ runs.rows, run'.scanning tenantId = true →
      ∃ run ∈ s.runs.rows, run.scanning tenantId = true ∧ run.id = run'.id)
    (keys : ∀ run ∈ s.runs.rows, ∃ run' ∈ runs.rows, run'.id = run.id) :
    Sound tenantId { s.setWorker w new with runs := runs } := by
  obtain ⟨noRead, noAct⟩ := reads_of_closed closed
  have stays : ∀ {v : Nat} {q : ScanWorker}, (s.workers.set w new)[v]? = some q →
      (q.call.reads.isSome ∨ q.call.acts.isSome) → s.workers[v]? = some q := by
    intro v q at_ busy
    rcases setWorker_cases here at_ with ⟨_, rfl⟩ | ⟨_, old⟩
    · rw [noRead, noAct] at busy
      simp at busy
    · exact old
  refine ⟨?_, ?_, ?_, ?_, ?_, ?_, ?_⟩
  · intro a ha b hb scanA scanB
    obtain ⟨a', memberA, scanA', idA⟩ := fewer a ha scanA
    obtain ⟨b', memberB, scanB', idB⟩ := fewer b hb scanB
    have same := sound.single a' memberA b' memberB scanA' scanB'
    rw [← idA, ← idB]
    exact same
  · intro u v p q atU atV readsU readsV
    exact sound.alone u v p q (stays atU (.inl readsU)) (stays atV (.inl readsV)) readsU readsV
  · intro v q at_ reads run member
    have old := stays at_ (.inl (by rw [reads]; rfl))
    by_contra scanning
    obtain ⟨before, stored, scan, _⟩ := fewer run member (by simpa using scanning)
    rw [sound.nothing v q old reads before stored] at scan
    cases scan
  · intro v q run at_ reads
    obtain ⟨locked, row, member, id⟩ :=
      sound.locked v q run (stays at_ (.inl (by rw [reads]; rfl))) reads
    obtain ⟨row', member', id'⟩ := keys row member
    exact ⟨locked, row', member', id'.trans id⟩
  · intro u v p q run runId atU atV reads acts
    exact sound.apart u v p q run runId (stays atU (.inl (by rw [reads]; rfl)))
      (stays atV (.inr (by rw [acts]; rfl))) reads acts
  · intro v q runId at_ acts
    exact sound.kept v q runId (stays at_ (.inr (by rw [acts]; rfl))) acts
  · intro runId v held
    obtain ⟨run, member, id⟩ := sound.known runId v held
    obtain ⟨run', member', id'⟩ := keys run member
    exact ⟨run', member', id'.trans id⟩

theorem sound_setWorker (sound : s.Sound tenantId) (here : s.workers[w]? = some worker)
    (closed : new.call.isOpen = false) : (s.setWorker w new).Sound tenantId := by
  have kept : Sound tenantId { s.setWorker w new with runs := s.runs } :=
    sound_of_closed sound here closed (fun run member scan => ⟨run, member, scan, rfl⟩)
      (fun run member => ⟨run, member, rfl⟩)
  exact kept

theorem sound_modify (sound : s.Sound tenantId) (here : s.workers[w]? = some worker)
    (closed : new.call.isOpen = false) {runId : Uuid} {f : RetentionRun → RetentionRun}
    {hf : ∀ run, (f run).id = run.id}
    (ends : ∀ run, (f run).scanning tenantId = true → run.scanning tenantId = true) :
    Sound tenantId { s.setWorker w new with runs := s.runs.modify runId f hf } := by
  refine sound_of_closed sound here closed ?_ ?_
  · intro run' member scan
    obtain ⟨run, stored, written⟩ := Table.mem_modify.mp member
    refine ⟨run, stored, ?_⟩
    rw [← written] at scan ⊢
    split at scan
    · rename_i hit
      rw [if_pos hit]
      exact ⟨ends run scan, (hf run).symm⟩
    · rename_i hit
      rw [if_neg hit]
      exact ⟨scan, rfl⟩
  · intro run member
    refine ⟨_, Table.mem_modify.mpr ⟨run, member, rfl⟩, ?_⟩
    split
    · exact hf run
    · rfl

theorem sound_readClaim (sound : s.Sound tenantId) (here : s.workers[w]? = some worker)
    (closed : s.othersClosed w = true) (leaseMinutes : Int) (now : Time) :
    (s.readClaim tenantId w worker leaseMinutes now).Sound tenantId := by
  have mine : ∀ {v : Nat} {q new : ScanWorker}, (s.workers.set w new)[v]? = some q →
      (q.call.reads.isSome ∨ q.call.acts.isSome) → v = w ∧ q = new := by
    intro v q new at_ busy
    rcases setWorker_cases here at_ with same | ⟨other, old⟩
    · exact same
    · obtain ⟨noRead, noAct⟩ := reads_of_closed (closed_of_othersClosed closed old other)
      rw [noRead, noAct] at busy
      simp at busy
  refine ⟨sound.single, ?_, ?_, ?_, ?_, ?_, sound.known⟩
  · intro u v p q atU atV readsU readsV
    exact (mine atU (.inl readsU)).1.trans (mine atV (.inl readsV)).1.symm
  · intro v q at_ reads run member
    obtain ⟨_, rfl⟩ := mine at_ (.inl (by rw [reads]; rfl))
    have missing : s.runs.scanRun tenantId (fun run => !s.lockedByOther w run.id) = none :=
      Option.some.inj reads
    have empty := List.head?_eq_none_iff.mp missing
    by_contra scanning
    have selected : run ∈ descending RetentionRun.startedAt (s.runs.rows.filter fun run =>
        run.scanning tenantId && !s.lockedByOther w run.id) := by
      refine mem_descending.mpr (List.mem_filter.mpr ⟨member, ?_⟩)
      rw [free_of_othersClosed closed]
      simpa using scanning
    rw [empty] at selected
    exact absurd selected List.not_mem_nil
  · intro v q run at_ reads
    obtain ⟨_, rfl⟩ := mine at_ (.inl (by rw [reads]; rfl))
    have found : s.runs.scanRun tenantId (fun run => !s.lockedByOther w run.id) = some run :=
      Option.some.inj reads
    have selected := mem_descending.mp (List.mem_of_head? found)
    exact ⟨List.mem_map_of_mem selected, run, (List.mem_filter.mp selected).1, rfl⟩
  · intro u v p q run runId atU atV reads acts
    obtain ⟨_, rfl⟩ := mine atV (.inr (by rw [acts]; rfl))
    cases acts
  · intro v q runId at_ acts
    obtain ⟨_, rfl⟩ := mine at_ (.inr (by rw [acts]; rfl))
    cases acts

theorem sound_acts (sound : s.Sound tenantId) (here : s.workers[w]? = some worker) {runId : Uuid}
    (acts : new.call.acts = some runId) (reads : new.call.reads = none)
    (holds : s.holder runId = some w) (free : s.lockedByOther w runId = false) :
    (s.setWorker w new).Sound tenantId := by
  have reader : ∀ {v : Nat} {q : ScanWorker}, (s.workers.set w new)[v]? = some q →
      q.call.reads.isSome → v ≠ w ∧ s.workers[v]? = some q := by
    intro v q at_ busy
    rcases setWorker_cases here at_ with ⟨_, rfl⟩ | other
    · rw [reads] at busy
      cases busy
    · exact other
  refine ⟨sound.single, ?_, ?_, ?_, ?_, ?_, sound.known⟩
  · intro u v p q atU atV readsU readsV
    exact sound.alone u v p q (reader atU readsU).2 (reader atV readsV).2 readsU readsV
  · intro v q at_ found
    exact sound.nothing v q (reader at_ (by rw [found]; rfl)).2 found
  · intro v q run at_ found
    exact sound.locked v q run (reader at_ (by rw [found]; rfl)).2 found
  · intro u v p q run other atU atV found itsActs
    obtain ⟨distinct, old⟩ := reader atU (by rw [found]; rfl)
    rcases setWorker_cases here atV with ⟨_, rfl⟩ | ⟨_, oldV⟩
    · rw [acts] at itsActs
      cases itsActs
      intro same
      have unlocked := not_locked_of_free free old distinct
      have locked := (sound.locked u p run old found).1
      rw [← same] at locked
      exact unlocked locked
    · exact sound.apart u v p q run other old oldV found itsActs
  · intro v q other at_ itsActs
    rcases setWorker_cases here at_ with ⟨rfl, rfl⟩ | ⟨_, old⟩
    · rw [acts] at itsActs
      cases itsActs
      exact holds
    · exact sound.kept v q other old itsActs

theorem sound_claimed (sound : s.Sound tenantId) (here : s.workers[w]? = some worker)
    (reading : worker.call.reads.isSome) {runs : RetentionRuns} {runId : Uuid}
    (single : runs.AtMostOne fun run => run.scanning tenantId)
    (others : ∀ (v : Nat) (q : ScanWorker) (other : Uuid), s.workers[v]? = some q →
      q.call.acts = some other → other ≠ runId)
    (keys : ∀ run ∈ s.runs.rows, ∃ run' ∈ runs.rows, run'.id = run.id)
    (has : ∃ run ∈ runs.rows, run.id = runId) :
    Sound tenantId { s.setWorker w ⟨some runId, .idle⟩ with
      runs := runs
      holder := Function.update s.holder runId (some w) } := by
  have quiet : ∀ {v : Nat} {q : ScanWorker},
      (s.workers.set w ⟨some runId, .idle⟩)[v]? = some q → q.call.reads.isSome → False := by
    intro v q at_ reads
    rcases setWorker_cases here at_ with ⟨_, rfl⟩ | ⟨other, old⟩
    · cases reads
    · exact other (sound.alone v w q worker old here reads reading)
  refine ⟨single, ?_, ?_, ?_, ?_, ?_, ?_⟩
  · intro u v p q atU _ readsU _
    exact (quiet atU readsU).elim
  · intro v q at_ reads
    exact (quiet at_ (by rw [reads]; rfl)).elim
  · intro v q run at_ reads
    exact (quiet at_ (by rw [reads]; rfl)).elim
  · intro u v p q run other atU _ reads
    exact (quiet atU (by rw [reads]; rfl)).elim
  · intro v q other at_ acts
    rcases setWorker_cases here at_ with ⟨_, rfl⟩ | ⟨_, old⟩
    · cases acts
    · show Function.update s.holder runId (some w) other = some v
      rw [Function.update_of_ne (others v q other old acts)]
      exact sound.kept v q other old acts
  · intro other v held
    by_cases same : other = runId
    · rw [same]
      exact has
    · have before : s.holder other = some v := by
        rw [← held]
        exact (Function.update_of_ne same _ _).symm
      obtain ⟨run, member, id⟩ := sound.known other v before
      obtain ⟨run', member', id'⟩ := keys run member
      exact ⟨run', member', id'.trans id⟩

theorem sound_commitClaim (sound : s.Sound tenantId) (here : s.workers[w]? = some worker)
    {leaseMinutes : Int} {now : Time} {found : Option RetentionRun}
    (reads : worker.call.reads = some found) (runId : Uuid) (policy : RetentionPolicy) :
    (s.commitClaim tenantId w worker leaseMinutes now found runId policy).Sound tenantId := by
  have reading : worker.call.reads.isSome := by
    rw [reads]
    rfl
  rw [commitClaim]
  split
  · exact sound_setWorker sound here rfl
  cases found with
  | none =>
    have nothing := sound.nothing w worker here reads
    simp only [RetentionRuns.claimScan]
    cases inserted : s.runs.insert? (.newScan runId tenantId policy leaseMinutes now) with
    | none => exact sound_setWorker sound here rfl
    | some =>
      have rows := fun run => Table.mem_of_insert? (b := run) inserted
      refine sound_claimed sound here reading ?_ ?_ ?_ ?_
      · intro a ha b hb scanA scanB
        rcases (rows a).mp ha with old | rfl
        · exact absurd scanA (by simp [nothing a old])
        · rcases (rows b).mp hb with old | rfl
          · exact absurd scanB (by simp [nothing b old])
          · rfl
      · intro v q other at_ acts same
        obtain ⟨run, member, id⟩ := sound.known other v (sound.kept v q other at_ acts)
        exact Table.fresh_of_insert? inserted member (id.trans same)
      · intro run member
        exact ⟨run, (rows run).mpr (.inl member), rfl⟩
      · exact ⟨_, (rows _).mpr (.inr rfl), rfl⟩
  | some run =>
    obtain ⟨row, member, id⟩ := (sound.locked w worker run here reads).2
    have written : ∀ {row' : RetentionRun}, row' ∈ (s.runs.modify run.id
        (fun row => row.reclaimed policy leaseMinutes now) (fun _ => rfl)).rows →
          ∃ row ∈ s.runs.rows, row.id = row'.id ∧ row.scanning tenantId = row'.scanning tenantId := by
      intro row' stored
      obtain ⟨before, old, rewritten⟩ := Table.mem_modify.mp stored
      refine ⟨before, old, ?_⟩
      rw [← rewritten]
      split <;> exact ⟨rfl, rfl⟩
    have keys : ∀ before ∈ s.runs.rows, ∃ row' ∈ (s.runs.modify run.id
        (fun row => row.reclaimed policy leaseMinutes now) (fun _ => rfl)).rows,
          row'.id = before.id := by
      intro before old
      refine ⟨_, Table.mem_modify.mpr ⟨before, old, rfl⟩, ?_⟩
      split <;> rfl
    refine sound_claimed sound here reading ?_ ?_ keys ?_
    · intro a ha b hb scanA scanB
      obtain ⟨a', memberA, idA, sameA⟩ := written ha
      obtain ⟨b', memberB, idB, sameB⟩ := written hb
      rw [← idA, ← idB]
      exact sound.single a' memberA b' memberB (sameA.trans scanA) (sameB.trans scanB)
    · intro v q other at_ acts
      exact sound.apart w v worker q run other here at_ reads acts
    · obtain ⟨row', member', id'⟩ := keys row member
      exact ⟨row', member', id'.trans id⟩

theorem sound_step (sound : s.Sound tenantId) {turn : ScanTurn}
    (orderly : s.Orderly tenantId turn) : (s.step tenantId turn).Sound tenantId := by
  cases turn with
  | wait =>
    exact ⟨sound.single, sound.alone, sound.nothing, sound.locked, sound.apart, sound.kept,
      sound.known⟩
  | move w move =>
    rw [step]
    cases here : s.workers[w]? with
    | none => exact sound
    | some worker =>
      have guard := orderly worker here
      show (s.moved tenantId w worker worker.call move).Sound tenantId
      cases point : worker.call with
      | idle =>
        rw [point] at guard
        cases move with
        | begin => exact sound_setWorker sound here rfl
        | readAdvance cursor =>
          simp only [moved]
          cases owned : worker.owned with
          | none => exact sound
          | some runId =>
            dsimp only
            split
            · exact sound
            rename_i free
            split
            · exact sound
            rename_i found
            have holds : s.holder runId = some w := by
              simp only [orderlyMove, owned, Option.all_some, Bool.or_eq_true,
                decide_eq_true_eq] at guard
              rcases guard with holds | missing
              · exact holds
              · rw [found] at missing
                cases missing
            exact sound_acts sound here rfl rfl holds (Bool.eq_false_iff.mpr free)
        | readComplete candidateCount protectedCount =>
          simp only [moved]
          cases owned : worker.owned with
          | none => exact sound
          | some runId =>
            dsimp only
            split
            · exact sound
            rename_i free
            split
            · exact sound
            · have holds : s.holder runId = some w := by
                simpa only [orderlyMove, owned, Option.all_some, decide_eq_true_eq] using guard
              exact sound_acts sound here rfl rfl holds (Bool.eq_false_iff.mpr free)
        | read | commitClaim | commit => exact sound
      | claiming leaseMinutes now =>
        rw [point] at guard
        cases move with
        | read => exact sound_readClaim sound here guard leaseMinutes now
        | begin | commitClaim | readAdvance | readComplete | commit => exact sound
      | claimRead leaseMinutes now found =>
        have reads : worker.call.reads = some found := by
          rw [point]
          rfl
        cases move with
        | commitClaim runId policy => exact sound_commitClaim sound here reads runId policy
        | begin | read | readAdvance | readComplete | commit => exact sound
      | advanceRead =>
        cases move with
        | commit => exact sound_modify sound here rfl (fun run scan => scan)
        | begin | read | commitClaim | readAdvance | readComplete => exact sound
      | completeRead =>
        cases move with
        | commit =>
          refine sound_modify sound here rfl ?_
          intro run scan
          exact absurd scan (by simp [RetentionRun.scanning, RetentionRun.completed])
        | begin | read | commitClaim | readAdvance | readComplete => exact sound

theorem oneLive_of_sound (sound : s.Sound tenantId) : s.OneLive tenantId := by
  intro a ha b hb liveA liveB
  have scanA := (Bool.and_eq_true_iff.mp liveA).1
  have scanB := (Bool.and_eq_true_iff.mp liveB).1
  exact sound.single a ha b hb scanA scanB

theorem lostRefused_of_sound (sound : s.Sound tenantId) (turn : ScanTurn) :
    s.LostRefused tenantId turn := by
  cases turn with
  | wait => trivial
  | move w =>
    rintro worker here runId acts ⟨v, held, other⟩
    have holds := sound.kept w worker runId here acts
    have same : w = v := Option.some.inj (holds.symm.trans held)
    exact absurd same.symm other

theorem sound_start (tenantId : Uuid) (clock : Time) (n : Nat) :
    (start clock n).Sound tenantId := by
  have idle : ∀ (v : Nat) (q : ScanWorker), (start clock n).workers[v]? = some q →
      q.call = .idle := by
    intro v q at_
    rw [List.eq_of_mem_replicate (List.mem_of_getElem? at_)]
  have none_yet : ∀ run : RetentionRun, run ∉ (start clock n).runs.rows :=
    fun _ => List.not_mem_nil
  refine ⟨?_, ?_, ?_, ?_, ?_, ?_, ?_⟩
  · intro a member
    exact absurd member (none_yet a)
  · intro u v p q atU _ reads
    rw [idle u p atU] at reads
    cases reads
  · intro v q _ _ run member
    exact absurd member (none_yet run)
  · intro v q run at_ reads
    rw [idle v q at_] at reads
    cases reads
  · intro u v p q run runId atU _ reads
    rw [idle u p atU] at reads
    cases reads
  · intro v q runId at_ acts
    rw [idle v q at_] at acts
    cases acts
  · intro runId v held
    cases held

/-- In every run whose turns are all orderly, at most one running scan of the tenant holds a lease
that has not run out, and no worker advances or completes a run that another one has reclaimed. -/
theorem one_live_scan_of_orderly (tenantId : Uuid) (clock : Time) (n : Nat)
    (turns : List ScanTurn)
    (orderly : Guarded (Orderly tenantId) (step tenantId) (start clock n) turns) :
    (∀ s ∈ trace (step tenantId) (start clock n) turns, s.OneLive tenantId) ∧
      Guarded (LostRefused tenantId) (step tenantId) (start clock n) turns := by
  have keep : ∀ s turn, Sound tenantId s → s.Orderly tenantId turn →
      (s.step tenantId turn).Sound tenantId := fun s turn sound guard => sound_step sound guard
  have first := sound_start tenantId clock n
  refine ⟨?_, ?_⟩
  · intro s member
    exact oneLive_of_sound (invariant_of_guarded keep first orderly s member)
  · refine (guarded_iff_of_guarded keep ?_ first orderly).mpr
      (guarded_true (step tenantId) (start clock n) turns)
    intro s turn sound _
    exact iff_of_true (lostRefused_of_sound sound turn) trivial

instance (tenantId : Uuid) (s : ScanSystem) (turn : ScanTurn) :
    Decidable (s.Orderly tenantId turn) :=
  match turn with
  | .wait _ => .isTrue trivial
  | .move w _ => inferInstanceAs (Decidable (∀ worker ∈ s.workers[w]?, _ = true))

instance (tenantId : Uuid) (s : ScanSystem) : Decidable (s.OneLive tenantId) :=
  inferInstanceAs (Decidable (∀ a ∈ s.runs.rows, ∀ b ∈ s.runs.rows, _ → _ → a.id = b.id))

instance (tenantId : Uuid) (s : ScanSystem) (turn : ScanTurn) :
    Decidable (s.LostRefused tenantId turn) :=
  match turn with
  | .move .. => by dsimp only [LostRefused]; infer_instance
  | .wait _ => .isTrue trivial

def thirty : RetentionPolicy := ⟨"30", 30, 1⟩

/-- Worker `w` claims without a pause; a new run takes the id `runId`. -/
def claimTurns (w : Nat) (runId : Uuid) : List ScanTurn :=
  [.move w (.begin 15), .move w .read, .move w (.commitClaim runId thirty)]

def completeTurns (w : Nat) : List ScanTurn :=
  [.move w (.readComplete 3 1), .move w .commit]

/-- Two workers scan one after the other. -/
theorem second_scan_after_first :
    (∀ s ∈ trace (step 1) (start 0 2) (claimTurns 0 7 ++ completeTurns 0 ++ claimTurns 1 8),
        s.OneLive 1) ∧
      Guarded (LostRefused 1) (step 1) (start 0 2)
        (claimTurns 0 7 ++ completeTurns 0 ++ claimTurns 1 8) :=
  one_live_scan_of_orderly 1 0 2 _ (by decide +kernel)

/-- Two claims that both read before either of them commits, and a worker that completes a scan
after another one has reclaimed it. -/
theorem overlapping_claims_both_hold :
    (¬ ∀ (n : Nat) (turns : List ScanTurn), ∀ s ∈ trace (step 1) (start 0 n) turns, s.OneLive 1) ∧
      ¬ ∀ (n : Nat) (turns : List ScanTurn),
        Guarded (LostRefused 1) (step 1) (start 0 n) turns := by
  refine ⟨?_, ?_⟩
  · intro always
    let turns : List ScanTurn :=
      [ .move 0 (.begin 15), .move 1 (.begin 15), .move 0 .read, .move 1 .read
      , .move 0 (.commitClaim 7 thirty), .move 1 (.commitClaim 8 thirty) ]
    have two : ¬ (run (step 1) (start 0 2) turns).OneLive 1 := by decide +kernel
    exact two (always 2 turns _ (run_mem_trace _ _ turns))
  · intro always
    let turns : List ScanTurn :=
      claimTurns 0 7 ++ [.wait 900000001] ++ claimTurns 1 8 ++ completeTurns 0
    have completed : ¬ Guarded (LostRefused 1) (step 1) (start 0 2) turns := by decide +kernel
    exact completed (always 2 turns)

end ScanSystem

end AverQel.System
