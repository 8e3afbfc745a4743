/- digest: When a workspace is purged once, with a valid approval, and never halfway. -/
import AverQel.Documents.TenantDeletion
import AverQel.Foundation.Interleaving

namespace AverQel.Documents.Deletion

open Foundation.Interleaving Foundation.Transition

def Worker.isActive : Worker → Bool
  | .purging _ | .failing _ => true
  | _ => false

namespace Service

variable (s : Service)

def hasStatus (status : Status) : Bool := s.row.any fun row => row.status = status

def canProcess : Bool := s.hasStatus .queued || s.hasStatus .failed

end Service

def Authorised (audit : List AuditEvent) : Prop :=
  ∃ requester notBefore, .requested requester notBefore ∈ audit ∧
    ((∃ actor, .approved actor ∈ audit ∧ actor ≠ requester) ∨
      ∃ time, .selfApproved requester time ∈ audit ∧ notBefore ≤ time)

/-- Nothing of the tenant is deleted without an approval, after a cancellation, by two workers, or
in part. -/
structure PurgedOnce (initial : TenantData) (s : Service) : Prop where
  authorised : s.data ≠ initial → Authorised s.audit ∧ ∀ actor, .cancelled actor ∉ s.audit
  alone : s.workers.countP Worker.isActive ≤ 1
  once : s.audit.count .completed ≤ 1
  whole : s.data = initial ∨ (∀ table, s.data table = 0) ∧ s.hasStatus .completed = true

/-- A worker that ends after it has taken up the request leaves it completed, or untouched and to be
processed again. -/
def EndsWhole (initial : TenantData) (delay : Time) (s : Service) : Turn → Prop
  | .worker i event => ∀ worker ∈ s.workers[i]?, worker.isActive = true →
      (s.processDeletion event worker).2.isActive = false →
        let after := s.step delay (.worker i event)
        ((∀ table, after.data table = 0) ∧ after.hasStatus .completed = true) ∨
          (after.data = initial ∧ after.canProcess = true)
  | _ => True

def Service.Careful (s : Service) : Event → Worker → Prop
  | .goes, .marking => s.canProcess = true
  | .fails aborts, .purging statements =>
    aborts = false ∧ ∀ table, purged s.data statements table = s.data table
  | .fails _, .failing _ => False
  | _, _ => True

def Marker.Careful (s : Service) : Marker → Prop
  | .marking _ loaded => loaded ≠ .failed → s.canProcess = true
  | _ => True

instance (s : Service) : ∀ marker, Decidable (Marker.Careful s marker)
  | .marking .. => by dsimp only [Marker.Careful]; infer_instance
  | .arriving _ | .ended => .isTrue trivial

def CarefulTurn (s : Service) : Turn → Prop
  | .marker i => ∀ marker ∈ s.markers[i]?, marker.Careful s
  | .worker i event => ∀ worker ∈ s.workers[i]?, s.Careful event worker
  | _ => True

instance (s : Service) : ∀ event worker, Decidable (s.Careful event worker)
  | .goes, .marking | .fails _, .purging _ => by dsimp only [Service.Careful]; infer_instance
  | .fails _, .failing _ => .isFalse id
  | .goes, .arriving | .fails _, .arriving | .goes, .blocking _ | .fails _, .blocking _
  | .fails _, .marking | .goes, .purging _ | .goes, .failing _ | .goes, .returned
  | .fails _, .returned | .goes, .raised | .fails _, .raised => .isTrue trivial

instance (s : Service) : ∀ turn, Decidable (CarefulTurn s turn)
  | .marker .. | .worker .. => by dsimp only [CarefulTurn]; infer_instance
  | .tick _ | .request _ | .approve _ | .selfApprove _ | .cancel _ => .isTrue trivial

def Status.isLive : Status → Bool
  | .queued | .processing | .completed | .failed => true
  | .awaitingApproval | .cancelled => false

/-- What holds between the steps of careful workers. -/
structure Sound (initial : TenantData) (s : Service) : Prop where
  requested : ∀ row ∈ s.row, ∃ notBefore, row.selfApprovalNotBefore = some notBefore ∧
    .requested row.requestedByUserId notBefore ∈ s.audit
  valid : ∀ row ∈ s.row, row.status.isLive = true →
    row.approvalValid s.now = true ∧ Authorised s.audit
  spared : ∀ actor, .cancelled actor ∈ s.audit → s.hasStatus .cancelled = true
  active : s.workers.countP Worker.isActive = (s.hasStatus .processing).toNat
  marking : .marking ∈ s.workers → ∃ row ∈ s.row, row.status.isLive = true
  unblocked : ∀ row, .blocking row ∉ s.workers
  rescued : ∀ n, .failing n ∈ s.workers → ∀ table, purged initial n table = initial table
  finished : s.audit.count .completed = (s.hasStatus .completed).toNat
  emptied : s.hasStatus .completed = true → ∀ table, s.data table = 0
  untouched : s.hasStatus .completed = false → s.data = initial

theorem purged_length (data : TenantData) (table : TenantTable) :
    purged data purgeTenantData.length table = 0 := by
  cases table <;> rfl

/-- Before its first deletion a purge has changed nothing. -/
example (data : TenantData) : purged data 12 = data := rfl

theorem hasStatus_iff {s : Service} {status : Status} :
    s.hasStatus status = true ↔ ∃ row ∈ s.row, row.status = status := by
  rw [Service.hasStatus, Option.any_eq_true]
  simp only [decide_eq_true_eq, Option.mem_def]

theorem hasStatus_of_row {s : Service} {row : DataDeletion} (here : s.row = some row)
    (status : Status) : s.hasStatus status = decide (row.status = status) := by
  rw [Service.hasStatus, here]
  rfl

theorem approvalValid_later {row : DataDeletion} {now : Time} (later : Nat)
    (valid : row.approvalValid now = true) : row.approvalValid (now + later) = true := by
  simp only [DataDeletion.approvalValid, Bool.or_eq_true] at valid ⊢
  refine valid.imp id fun delayed => ?_
  simp only [DataDeletion.delayedSelfApprovalValid, decide_eq_true_eq, Option.any_eq_true] at delayed ⊢
  obtain ⟨mode, approver, approved, known, notBefore, set, after, passed⟩ := delayed
  exact ⟨mode, approver, approved, known, notBefore, set, after,
    Int.le_trans passed (Int.le_add_of_nonneg_right (Int.natCast_nonneg later))⟩

theorem Authorised.append {audit : List AuditEvent} (authorised : Authorised audit)
    (events : List AuditEvent) : Authorised (audit ++ events) := by
  obtain ⟨requester, notBefore, requested, approval⟩ := authorised
  refine ⟨requester, notBefore, List.mem_append_left _ requested, ?_⟩
  rcases approval with ⟨actor, approved, other⟩ | ⟨time, approved, late⟩
  · exact .inl ⟨actor, List.mem_append_left _ approved, other⟩
  · exact .inr ⟨time, List.mem_append_left _ approved, late⟩

variable {row : Option DataDeletion} {userId : Uuid} {now : Time} {decided : DataDeletion}
variable {event : AuditEvent}

/-- What the calls that lock the row do to a request that awaits its approval. -/
structure Decides (now : Time) (before after : DataDeletion) (event : AuditEvent) : Prop where
  awaiting : before.status = .awaitingApproval
  requester : after.requestedByUserId = before.requestedByUserId
  notBefore : after.selfApprovalNotBefore = before.selfApprovalNotBefore
  outcome : (∃ actor, after.status = .cancelled ∧ event = .cancelled actor) ∨
    after.status = .queued ∧ after.approvalValid now = true ∧
      ((∃ actor, event = .approved actor ∧ actor ≠ before.requestedByUserId) ∨
        event = .selfApproved before.requestedByUserId now ∧
          ∃ time ∈ before.selfApprovalNotBefore, time ≤ now)

theorem approveDeletion_ok (result : approveDeletion row userId now = .ok (decided, event)) :
    ∃ before, row = some before ∧ Decides now before decided event := by
  unfold approveDeletion at result
  split at result
  · cases result
  · rename_i before
    split at result
    · cases result
    · rename_i other
      split at result
      · cases result
      · rename_i awaiting
        cases result
        refine ⟨before, rfl, not_not.mp awaiting, rfl, rfl, .inr ⟨rfl, ?_, .inl ⟨userId, rfl, ?_⟩⟩⟩
        · simp [DataDeletion.approvalValid, DataDeletion.secondAdminApprovalValid, Ne.symm other]
        · exact Ne.symm other

theorem selfApproveDeletion_ok
    (result : selfApproveDeletion row userId now = .ok (decided, event)) :
    ∃ before, row = some before ∧ Decides now before decided event := by
  unfold selfApproveDeletion at result
  split at result
  · cases result
  · rename_i before
    split at result
    · cases result
    · rename_i mine
      split at result
      · cases result
      · rename_i awaiting
        split at result
        · cases result
        · rename_i late
          cases result
          have same : before.requestedByUserId = userId := not_not.mp mine
          have waited : ∃ time, before.selfApprovalNotBefore = some time ∧ time ≤ now := by
            cases set : before.selfApprovalNotBefore with
            | none => simp [set] at late
            | some time => exact ⟨time, rfl, by simpa [set] using late⟩
          obtain ⟨time, set, passed⟩ := waited
          refine ⟨before, rfl, not_not.mp awaiting, rfl, rfl,
            .inr ⟨rfl, ?_, .inr ⟨by rw [same], time, set, passed⟩⟩⟩
          simp [DataDeletion.approvalValid, DataDeletion.delayedSelfApprovalValid, same, set,
            passed]

theorem cancelDeletion_ok (result : cancelDeletion row userId = .ok (decided, event)) :
    ∃ before, row = some before ∧ Decides now before decided event := by
  unfold cancelDeletion at result
  split at result
  · cases result
  · rename_i before
    split at result
    · cases result
    · split at result
      · cases result
      · rename_i awaiting
        cases result
        exact ⟨before, rfl, not_not.mp awaiting, rfl, rfl, .inl ⟨userId, rfl, rfl⟩⟩

variable {initial : TenantData} {s : Service} {delay : Time}

theorem Sound.purgedOnce (sound : Sound initial s) : PurgedOnce initial s where
  authorised touched := by
    cases completed : s.hasStatus .completed with
    | false => exact absurd (sound.untouched completed) touched
    | true =>
      obtain ⟨row, here, status⟩ := hasStatus_iff.mp completed
      refine ⟨(sound.valid row here (by rw [status]; rfl)).2, fun actor cancelled => ?_⟩
      obtain ⟨same, found, other⟩ := hasStatus_iff.mp (sound.spared actor cancelled)
      rw [Option.mem_unique found here, status] at other
      cases other
  alone := by
    rw [sound.active]
    exact Bool.toNat_le _
  once := by
    rw [sound.finished]
    exact Bool.toNat_le _
  whole := by
    cases completed : s.hasStatus .completed with
    | false => exact .inl (sound.untouched completed)
    | true => exact .inr ⟨sound.emptied completed, rfl⟩

theorem Sound.tick (sound : Sound initial s) (later : Nat) :
    Sound initial { s with now := s.now + later } :=
  ⟨sound.requested,
    fun row here live => ⟨approvalValid_later later (sound.valid row here live).1,
      (sound.valid row here live).2⟩,
    sound.spared, sound.active, sound.marking, sound.unblocked, sound.rescued, sound.finished,
    sound.emptied, sound.untouched⟩

theorem Sound.request (sound : Sound initial s) (absent : s.row = none) (userId : Uuid) :
    Sound initial (s.locked (.ok (requestDeletion delay userId s.now))) := by
  have silent : ∀ status, s.hasStatus status = false := by
    intro status
    rw [Service.hasStatus, absent]
    rfl
  have active := sound.active
  have finished := sound.finished
  rw [silent] at active finished
  refine ⟨?_, ?_, fun actor cancelled => ?_, active, fun waits => ?_,
    sound.unblocked, sound.rescued, ?_, fun wrong => (by cases wrong),
    fun _ => sound.untouched (silent _)⟩
  · rintro row ⟨⟩
    exact ⟨_, rfl, List.mem_append_right _ (List.mem_singleton_self _)⟩
  · rintro row ⟨⟩ live
    cases live
  · rcases List.mem_append.mp cancelled with old | new
    · have status := sound.spared actor old
      rw [silent] at status
      cases status
    · cases List.mem_singleton.mp new
  · obtain ⟨row, here, _⟩ := sound.marking waits
    rw [absent] at here
    cases here
  · show (s.audit ++ [_]).count AuditEvent.completed = 0
    rw [List.count_append, finished]
    rfl

theorem Sound.decides (sound : Sound initial s) {before after : DataDeletion} {event : AuditEvent}
    (here : s.row = some before) (decides : Decides s.now before after event) :
    Sound initial (s.locked (.ok (after, event))) := by
  have known := hasStatus_of_row here
  have awaiting := decides.awaiting
  have active := sound.active
  have finished := sound.finished
  rw [known, awaiting] at active finished
  have calm : after.status ≠ .processing ∧ after.status ≠ .completed ∧ event ≠ .completed := by
    rcases decides.outcome with ⟨actor, status, rfl⟩ | ⟨status, _, ⟨actor, rfl, _⟩ | ⟨rfl, _⟩⟩ <;>
      rw [status] <;> exact ⟨Status.noConfusion, Status.noConfusion, AuditEvent.noConfusion⟩
  obtain ⟨notBefore, set, requested⟩ := sound.requested before here
  have spared : ∀ actor, .cancelled actor ∉ s.audit := by
    intro actor cancelled
    have status := sound.spared actor cancelled
    rw [known, awaiting] at status
    cases status
  refine ⟨?_, ?_, fun actor cancelled => ?_, ?_, fun waits => ?_,
    sound.unblocked, sound.rescued, ?_, fun wrong => ?_, fun _ => sound.untouched ?_⟩
  · rintro row ⟨⟩
    rw [decides.requester, decides.notBefore]
    exact ⟨notBefore, set, List.mem_append_left _ requested⟩
  · rintro row ⟨⟩ live
    rcases decides.outcome with ⟨actor, status, _⟩ | ⟨status, valid, approval⟩
    · rw [status] at live
      cases live
    · refine ⟨valid, before.requestedByUserId, notBefore, List.mem_append_left _ requested, ?_⟩
      rcases approval with ⟨actor, rfl, other⟩ | ⟨rfl, time, same, passed⟩
      · exact .inl ⟨actor, List.mem_append_right _ (List.mem_singleton_self _), other⟩
      · obtain rfl : notBefore = time := Option.some.inj (set.symm.trans same)
        exact .inr ⟨s.now, List.mem_append_right _ (List.mem_singleton_self _), passed⟩
  · rcases List.mem_append.mp cancelled with old | new
    · exact absurd old (spared actor)
    · have mine := List.mem_singleton.mp new
      rcases decides.outcome with ⟨_, status, _⟩ | ⟨_, _, ⟨_, same, _⟩ | ⟨same, _⟩⟩
      · exact hasStatus_iff.mpr ⟨after, rfl, status⟩
      · rw [← mine] at same
        cases same
      · rw [← mine] at same
        cases same
  · rw [hasStatus_of_row (s := s.locked (.ok (after, event))) rfl, decide_eq_false calm.1]
    exact active
  · obtain ⟨row, found, live⟩ := sound.marking waits
    rw [Option.mem_unique found here, awaiting] at live
    cases live
  · rw [hasStatus_of_row (s := s.locked (.ok (after, event))) rfl, decide_eq_false calm.2.1]
    show (s.audit ++ [event]).count AuditEvent.completed = 0
    rw [List.count_append, finished, List.count_singleton]
    simp [calm.2.2]
  · rw [hasStatus_of_row (s := s.locked (.ok (after, event))) rfl, decide_eq_false calm.2.1] at wrong
    cases wrong
  · rw [known, awaiting]
    rfl

theorem Sound.rewrite (sound : Sound initial s) {row : DataDeletion} (here : s.row = some row)
    (live : row.status.isLive = true) {status : Status} (nowLive : status.isLive = true)
    {events : List AuditEvent} (silent : ∀ actor, .cancelled actor ∉ events)
    {data : TenantData} {markers : List Marker} {workers : List Worker}
    (active : workers.countP Worker.isActive = (decide (status = .processing)).toNat)
    (unblocked : ∀ row, .blocking row ∉ workers)
    (rescued : ∀ n, .failing n ∈ workers → ∀ table, purged initial n table = initial table)
    (finished : (s.audit ++ events).count .completed = (decide (status = .completed)).toNat)
    (emptied : status = .completed → ∀ table, data table = 0)
    (untouched : status ≠ .completed → data = initial) :
    Sound initial { s.writeStatus status events with
      data := data, markers := markers, workers := workers } := by
  have written : (s.writeStatus status events).row = some { row with status := status } := by
    rw [Service.writeStatus, here]
    rfl
  have known := fun other => hasStatus_of_row
    (s := { s.writeStatus status events with data := data, markers := markers, workers := workers })
    written other
  obtain ⟨notBefore, set, requested⟩ := sound.requested row here
  obtain ⟨valid, authorised⟩ := sound.valid row here live
  refine ⟨fun after found => ?_, fun after found _ => ?_, fun actor cancelled => ?_, ?_,
    fun _ => ⟨_, written, nowLive⟩, unblocked, rescued, ?_, fun done => ?_, fun open_ => ?_⟩
  · obtain rfl := Option.some.inj (written.symm.trans found)
    exact ⟨notBefore, set, List.mem_append_left _ requested⟩
  · obtain rfl := Option.some.inj (written.symm.trans found)
    exact ⟨valid, authorised.append events⟩
  · rcases List.mem_append.mp cancelled with old | new
    · have status_before := sound.spared actor old
      rw [hasStatus_of_row here, decide_eq_true_eq] at status_before
      rw [status_before] at live
      cases live
    · exact absurd new (silent actor)
  · rw [known]
    exact active
  · rw [known]
    exact finished
  · rw [known] at done
    exact emptied (of_decide_eq_true done)
  · rw [known] at open_
    exact untouched (of_decide_eq_false open_)

theorem canProcess_iff : s.canProcess = true ↔
    ∃ row, s.row = some row ∧ (row.status = .queued ∨ row.status = .failed) := by
  rw [Service.canProcess, Bool.or_eq_true, hasStatus_iff, hasStatus_iff]
  constructor
  · rintro (⟨row, here, status⟩ | ⟨row, here, status⟩)
    · exact ⟨row, here, .inl status⟩
    · exact ⟨row, here, .inr status⟩
  · rintro ⟨row, here, status | status⟩
    · exact .inl ⟨row, here, status⟩
    · exact .inr ⟨row, here, status⟩

theorem Sound.marker (sound : Sound initial s) {marker : Marker} (careful : marker.Careful s)
    (markers : List Marker) :
    Sound initial { (s.markEnqueueFailed marker).1 with markers := markers } := by
  have same : Sound initial { s with markers := markers } :=
    ⟨sound.requested, sound.valid, sound.spared, sound.active, sound.marking, sound.unblocked,
      sound.rescued, sound.finished, sound.emptied, sound.untouched⟩
  cases marker with
  | arriving =>
    simp only [Service.markEnqueueFailed]
    split <;> exact same
  | marking actor loaded =>
    simp only [Service.markEnqueueFailed]
    split
    · refine ⟨fun row here => ?_, fun row here live => ?_, fun other cancelled => ?_, sound.active,
        sound.marking, sound.unblocked, sound.rescued, ?_, sound.emptied, sound.untouched⟩
      · obtain ⟨notBefore, set, requested⟩ := sound.requested row here
        exact ⟨notBefore, set, List.mem_append_left _ requested⟩
      · exact ⟨(sound.valid row here live).1, (sound.valid row here live).2.append _⟩
      · rcases List.mem_append.mp cancelled with old | new
        · exact sound.spared other old
        · cases List.mem_singleton.mp new
      · show (s.audit ++ [_]).count AuditEvent.completed = _
        rw [List.count_append, sound.finished]
        rfl
    · rename_i fresh
      obtain ⟨row, here, status⟩ := canProcess_iff.mp (careful fresh)
      have known := hasStatus_of_row here
      have active := sound.active
      have finished := sound.finished
      have untouched := sound.untouched
      rw [known] at active finished untouched
      have live : row.status.isLive = true := by
        rcases status with status | status <;> rw [status] <;> rfl
      refine sound.rewrite here live rfl ?_ ?_ sound.unblocked sound.rescued ?_ ?_ fun _ =>
        untouched ?_
      · intro other cancelled
        cases List.mem_singleton.mp cancelled
      · rcases status with status | status <;> rw [status] at active <;> exact active
      · rw [List.count_append, finished]
        rcases status with status | status <;> rw [status] <;> rfl
      · intro wrong
        cases wrong
      · rcases status with status | status <;> rw [status] <;> rfl
  | ended => exact same

theorem Sound.others (sound : Sound initial s) (i : Nat) (new : Worker)
    (unblocked : ∀ row, new ≠ .blocking row)
    (rescued : ∀ n, new = .failing n → ∀ table, purged initial n table = initial table) :
    (∀ row, .blocking row ∉ s.workers.set i new) ∧
      ∀ n, .failing n ∈ s.workers.set i new → ∀ table, purged initial n table = initial table := by
  constructor
  · intro row blocks
    rcases List.mem_or_eq_of_mem_set blocks with before | same
    · exact sound.unblocked row before
    · exact unblocked row same.symm
  · intro n fails
    rcases List.mem_or_eq_of_mem_set fails with before | same
    · exact sound.rescued n before
    · exact rescued n same.symm

theorem Sound.moves (sound : Sound initial s) {i : Nat} {old new : Worker}
    (here : s.workers[i]? = some old) (active : new.isActive = old.isActive)
    (marking : new = .marking → ∃ row ∈ s.row, row.status.isLive = true)
    (unblocked : ∀ row, new ≠ .blocking row)
    (rescued : ∀ n, new = .failing n → ∀ table, purged initial n table = initial table) :
    Sound initial { s with workers := s.workers.set i new } := by
  obtain ⟨blocking, failing⟩ := sound.others i new unblocked rescued
  refine ⟨sound.requested, sound.valid, sound.spared, ?_, fun waits => ?_, blocking, failing,
    sound.finished, sound.emptied, sound.untouched⟩
  · have count := countP_set_add new Worker.isActive here
    rw [active] at count
    show (s.workers.set i new).countP Worker.isActive = _
    rw [Nat.add_right_cancel count]
    exact sound.active
  · rcases List.mem_or_eq_of_mem_set waits with before | same
    · exact sound.marking before
    · exact marking same.symm

theorem Sound.ends (sound : Sound initial s) {i : Nat} {old new : Worker}
    (here : s.workers[i]? = some old) (inactive : old.isActive = false)
    (ended : new = .returned ∨ new = .raised) :
    Sound initial { s with workers := s.workers.set i new } := by
  rcases ended with rfl | rfl
  · exact sound.moves here inactive.symm Worker.noConfusion (fun _ => Worker.noConfusion)
      fun _ => Worker.noConfusion
  · exact sound.moves here inactive.symm Worker.noConfusion (fun _ => Worker.noConfusion)
      fun _ => Worker.noConfusion

theorem Sound.processing (sound : Sound initial s) {worker : Worker} (inside : worker ∈ s.workers)
    (active : worker.isActive = true) :
    ∃ row, s.row = some row ∧ row.status = .processing ∧ s.data = initial := by
  have count : 0 < s.workers.countP Worker.isActive :=
    List.countP_pos_iff.mpr ⟨worker, inside, active⟩
  rw [sound.active] at count
  have status : s.hasStatus .processing = true := by
    cases known : s.hasStatus .processing with
    | true => rfl
    | false => simp [known] at count
  obtain ⟨row, here, same⟩ := hasStatus_iff.mp status
  refine ⟨row, here, same, sound.untouched ?_⟩
  rw [hasStatus_of_row here, same]
  rfl

theorem takeUp_cases (sound : Sound initial s) : s.takeUp = .returned ∨ s.takeUp = .raised ∨
    s.takeUp = .marking ∧ ∃ row ∈ s.row, row.status.isLive = true := by
  unfold Service.takeUp
  cases known : s.row with
  | none => exact .inr (.inl rfl)
  | some row =>
    simp only
    split
    · exact .inl rfl
    · rename_i open_
      have live : row.status.isLive = true := by
        cases status : row.status <;> first | rfl | simp [status] at open_
      split
      · rename_i blocked
        have valid := (sound.valid row known live).1
        rw [blocked.2] at valid
        cases valid
      · exact .inr (.inr ⟨rfl, row, rfl, live⟩)

/-- A careful step of a worker keeps the invariant. -/
theorem Sound.worker (sound : Sound initial s) {i : Nat} {worker : Worker} {event : Event}
    (here : s.workers[i]? = some worker) (careful : s.Careful event worker) :
    Sound initial { (s.processDeletion event worker).1 with
      workers := s.workers.set i (s.processDeletion event worker).2 } := by
  have inside := List.mem_of_getElem? here
  have finished := sound.finished
  cases worker with
  | arriving =>
    cases event with
    | goes =>
      simp only [Service.processDeletion]
      rcases takeUp_cases sound with taken | taken | ⟨taken, live⟩ <;> rw [taken]
      · exact sound.ends here rfl (.inl rfl)
      · exact sound.ends here rfl (.inr rfl)
      · exact sound.moves here rfl (fun _ => live) (fun _ => Worker.noConfusion)
          fun _ => Worker.noConfusion
    | fails => exact sound.ends here rfl (.inr rfl)
  | blocking row => exact absurd inside (sound.unblocked row)
  | marking =>
    cases event with
    | goes =>
      obtain ⟨row, known, status⟩ := canProcess_iff.mp careful
      have live : row.status.isLive = true := by
        rcases status with status | status <;> rw [status] <;> rfl
      have calm : s.hasStatus .processing = false ∧ s.hasStatus .completed = false := by
        rw [hasStatus_of_row known, hasStatus_of_row known]
        rcases status with status | status <;> rw [status] <;> exact ⟨rfl, rfl⟩
      have count := countP_set_add (.purging 0) Worker.isActive here
      obtain ⟨blocking, failing⟩ := sound.others i (.purging 0) (fun _ => Worker.noConfusion)
        fun _ => Worker.noConfusion
      refine sound.rewrite known live rfl (fun _ => List.not_mem_nil) ?_ blocking failing ?_
        Status.noConfusion fun _ => sound.untouched calm.2
      · rw [sound.active, calm.1] at count
        exact count
      · rw [List.append_nil, finished, calm.2]
        rfl
    | fails => exact sound.ends here rfl (.inr rfl)
  | purging statements =>
    obtain ⟨row, known, status, data⟩ := sound.processing inside rfl
    have live : row.status.isLive = true := by
      rw [status]
      rfl
    rw [hasStatus_of_row known, status] at finished
    cases event with
    | goes =>
      by_cases more : statements < purgeTenantData.length
      · simp only [Service.processDeletion, if_pos more]
        exact sound.moves here rfl Worker.noConfusion (fun _ => Worker.noConfusion)
          fun _ => Worker.noConfusion
      · simp only [Service.processDeletion, if_neg more]
        have count := countP_set_add .returned Worker.isActive here
        obtain ⟨blocking, failing⟩ := sound.others i .returned (fun _ => Worker.noConfusion)
          fun _ => Worker.noConfusion
        refine sound.rewrite known live rfl ?_ ?_ blocking failing ?_ (fun _ table => ?_)
          fun wrong => absurd rfl wrong
        · intro actor cancelled
          cases List.mem_singleton.mp cancelled
        · rw [sound.active, hasStatus_of_row known, status] at count
          exact Nat.add_right_cancel count
        · rw [List.count_append, finished]
          rfl
        · have all : purged s.data statements = purged s.data purgeTenantData.length := by
            unfold purged
            rw [List.take_of_length_le (Nat.le_of_not_lt more), List.take_length]
          rw [all]
          exact purged_length s.data table
    | fails =>
      obtain ⟨usable, same⟩ := careful
      simp only [Service.processDeletion, usable, Bool.false_eq_true, if_false]
      refine sound.moves here rfl Worker.noConfusion (fun _ => Worker.noConfusion) ?_
      rintro n ⟨⟩ table
      rw [← data]
      exact same table
  | failing statements =>
    obtain ⟨row, known, status, data⟩ := sound.processing inside rfl
    have live : row.status.isLive = true := by
      rw [status]
      rfl
    rw [hasStatus_of_row known, status] at finished
    cases event with
    | goes =>
      have count := countP_set_add .raised Worker.isActive here
      obtain ⟨blocking, failing⟩ := sound.others i .raised (fun _ => Worker.noConfusion)
        fun _ => Worker.noConfusion
      refine sound.rewrite known live rfl ?_ ?_ blocking failing ?_ Status.noConfusion fun _ => ?_
      · intro actor cancelled
        cases List.mem_singleton.mp cancelled
      · rw [sound.active, hasStatus_of_row known, status] at count
        exact Nat.add_right_cancel count
      · rw [List.count_append, finished]
        rfl
      · show purged s.data statements = initial
        rw [data]
        exact funext (sound.rescued statements inside)
    | fails => exact absurd careful id
  | returned => cases event <;> exact sound.ends here rfl (.inl rfl)
  | raised => cases event <;> exact sound.ends here rfl (.inr rfl)

theorem sound_step (delay : Time) (sound : Sound initial s) {turn : Turn} (careful : CarefulTurn s turn) :
    Sound initial (s.step delay turn) := by
  have locked : ∀ result : Except ApiError (DataDeletion × AuditEvent),
      (∀ decided event, result = .ok (decided, event) →
        ∃ before, s.row = some before ∧ Decides s.now before decided event) →
      Sound initial (s.locked result) := by
    intro result decides
    cases result with
    | error => exact sound
    | ok pair =>
      obtain ⟨before, here, known⟩ := decides pair.1 pair.2 rfl
      exact sound.decides here known
  cases turn with
  | tick later => exact sound.tick later
  | request userId =>
    cases known : s.row with
    | none =>
      simp only [Service.step, known]
      exact sound.request known userId
    | some =>
      simp only [Service.step, known]
      exact sound
  | approve => exact locked _ fun _ _ => approveDeletion_ok
  | selfApprove => exact locked _ fun _ _ => selfApproveDeletion_ok
  | cancel => exact locked _ fun _ _ => cancelDeletion_ok
  | marker i =>
    cases here : s.markers[i]? with
    | none =>
      simp only [Service.step, here]
      exact sound
    | some marker =>
      simp only [Service.step, here]
      exact sound.marker (careful marker here) _
  | worker i =>
    cases here : s.workers[i]? with
    | none =>
      simp only [Service.step, here]
      exact sound
    | some worker =>
      simp only [Service.step, here]
      exact sound.worker here (careful worker here)

theorem endsWhole_step (sound : Sound initial s) {turn : Turn} (careful : CarefulTurn s turn) :
    EndsWhole initial delay s turn := by
  cases turn with
  | worker i event =>
    intro worker here active ended
    have after := sound_step delay sound careful
    have known := careful worker here
    have inside := List.mem_of_getElem? here
    obtain ⟨row, found, _, _⟩ := sound.processing inside active
    have stepped : s.step delay (.worker i event) = { (s.processDeletion event worker).1 with
        workers := s.workers.set i (s.processDeletion event worker).2 } := by
      simp only [Service.step, show s.workers[i]? = some worker from here]
    have written : ∀ status events, (s.writeStatus status events).hasStatus status = true := by
      intro status events
      rw [Service.hasStatus, Service.writeStatus, found]
      exact decide_eq_true rfl
    rw [stepped] at after ⊢
    cases worker with
    | purging statements =>
      cases event with
      | goes =>
        by_cases more : statements < purgeTenantData.length
        · simp only [Service.processDeletion, if_pos more] at ended
          cases ended
        · simp only [Service.processDeletion, if_neg more] at after ⊢
          have done := written .completed [.completed]
          exact .inl ⟨after.emptied done, done⟩
      | fails =>
        simp only [Service.processDeletion, known.1, Bool.false_eq_true, if_false] at ended
        cases ended
    | failing =>
      cases event with
      | goes =>
        have failed := written .failed [.failed]
        refine .inr ⟨after.untouched ?_, ?_⟩
        · rw [Service.hasStatus, Service.processDeletion, Service.writeStatus, found]
          rfl
        · rw [Service.canProcess, Bool.or_eq_true]
          exact .inr failed
      | fails => exact absurd known id
    | _ => cases active
  | _ => trivial

def Service.start (now : Time) (data : TenantData) (markers : List Marker) (workers : Nat) :
    Service :=
  ⟨now, none, [], data, markers, List.replicate workers .arriving⟩

theorem sound_start (now : Time) (data : TenantData) (markers : List Marker) (workers : Nat) :
    Sound data (Service.start now data markers workers) := by
  have arriving : ∀ worker ∈ List.replicate workers Worker.arriving, worker = .arriving :=
    fun worker inside => List.eq_of_mem_replicate inside
  refine ⟨fun _ wrong => (by cases wrong), fun _ wrong => (by cases wrong),
    fun _ wrong => (by cases wrong), ?_, fun waits => ?_, fun row blocks => ?_, fun n fails => ?_,
    rfl, fun wrong => (by cases wrong), fun _ => rfl⟩
  · refine List.countP_eq_zero.mpr fun worker inside => ?_
    rw [arriving worker inside]
    exact Bool.false_ne_true
  · cases arriving _ waits
  · cases arriving _ blocks
  · cases arriving _ fails

/-- In every run of careful turns the workspace is purged once, with an approval and as a whole, and
every worker ends with it purged or untouched. -/
theorem purgedOnce_of_careful (delay now : Time) (data : TenantData) (markers : List Marker)
    (workers : Nat) {turns : List Turn}
    (careful : Guarded CarefulTurn (Service.step delay) (Service.start now data markers workers)
      turns) :
    (∀ reached ∈ trace (Service.step delay) (Service.start now data markers workers) turns,
        PurgedOnce data reached) ∧
      Guarded (EndsWhole data delay) (Service.step delay) (Service.start now data markers workers)
        turns := by
  have start := sound_start now data markers workers
  have all := invariant_of_guarded (I := Sound data)
    (fun _ _ sound holds => sound_step delay sound holds) start careful
  refine ⟨fun reached visited => (all reached visited).purgedOnce, ?_⟩
  exact guarded_mono_of_guarded (I := Sound data)
    (fun _ _ sound holds => sound_step delay sound holds)
    (fun _ _ sound holds _ => endsWhole_step sound holds) start careful careful

def oneRowEach : TenantData := fun _ => 1

def retried : List Turn :=
  [.request 62, .approve 62, .approve 63, .marker 0, .marker 0, .worker 0 .goes, .worker 0 .goes,
    .worker 0 .goes, .worker 0 (.fails false), .worker 1 .goes, .worker 0 .goes, .worker 1 .goes,
    .worker 2 .goes] ++ List.replicate 26 (.worker 2 .goes)

theorem purgedOnce_of_careful_retried :
    (∀ reached ∈ trace (Service.step 100) (Service.start 7 oneRowEach [.arriving 63] 3) retried,
        PurgedOnce oneRowEach reached) ∧
      Guarded (EndsWhole oneRowEach 100) (Service.step 100)
        (Service.start 7 oneRowEach [.arriving 63] 3) retried := by
  have guarded : Guarded CarefulTurn (Service.step 100)
      (Service.start 7 oneRowEach [.arriving 63] 3) retried := by
    decide +kernel
  exact purgedOnce_of_careful 100 7 oneRowEach [.arriving 63] 3 guarded

def deliveredTwice : List Turn :=
  [.request 62, .approve 63, .worker 0 .goes, .worker 1 .goes, .worker 0 .goes, .worker 1 .goes]

def struckHalfway : List Turn :=
  [.request 62, .approve 63, .worker 0 .goes, .worker 0 .goes] ++
    List.replicate 14 (.worker 0 .goes) ++ [.worker 0 (.fails false), .worker 0 .goes]

theorem not_purgedOnce_deliveredTwice :
    ¬ PurgedOnce oneRowEach (run (Service.step 100) (Service.start 7 oneRowEach [] 2)
        deliveredTwice) ∧
      ¬ PurgedOnce oneRowEach (run (Service.step 100) (Service.start 7 oneRowEach [] 1)
        struckHalfway) := by
  constructor
  · intro once
    have alone := once.alone
    revert alone
    decide +kernel
  · intro once
    rcases once.whole with same | ⟨empty, _⟩
    · have lost := congrFun same .queries
      revert lost
      decide +kernel
    · have kept := empty .documents
      revert kept
      decide +kernel

end AverQel.Documents.Deletion
