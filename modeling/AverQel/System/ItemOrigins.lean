/- digest: Where the rows of the retention index come from after one of its operations. -/
import AverQel.System.ArchiveAgreement

namespace AverQel.System

open Foundation

def RetentionPolicy.Allows (policy : RetentionPolicy) (now : Time) (item : LifecycleItem) : Prop :=
  0 < policy.days ∧ item.lastMeaningfulActivityAt ≤ now - policy.days * day

instance (policy : RetentionPolicy) (now : Time) (item : LifecycleItem) :
    Decidable (policy.Allows now item) :=
  inferInstanceAs (Decidable (_ ∧ _))

structure Reach where
  now : Time
  sees : SourceKey → Time → Prop
  takes : LifecycleItem → Prop

def LifecycleItem.use (item : LifecycleItem) : Uuid × SourceKey × Option String × Time :=
  (item.id, item.source, item.dependencyGroupId, item.lastMeaningfulActivityAt)

namespace LifecycleStore

variable (s : LifecycleStore) (conversations : ConversationIndex) (tenantId : Uuid) (now : Time)

/-- The item that `archive_item` takes. -/
def takenItem (itemId userId : Uuid) (isAdmin : Bool) : List LifecycleItem :=
  (s.tenantItem tenantId itemId).toList.filter fun item =>
    (isAdmin || item.ownerUserId = some userId) && item.state = .eligible &&
      (s.protectionReason conversations item tenantId now).isNone

/-- The items that `archive_eligible_items` takes. -/
def takenItems (limit : Int) : List LifecycleItem :=
  (s.eligibleItems tenantId limit).filter fun item =>
    (s.protectionReason conversations item tenantId now).isNone

/-- The items that a call takes into the archive. -/
def taken (s : LifecycleStore) (call : LifecycleCall) : List LifecycleItem :=
  match call.operation with
  | .archiveItem tenantId itemId userId isAdmin =>
    s.takenItem call.conversations tenantId call.now itemId userId isAdmin
  | .archiveEligibleItems tenantId _ _ limit =>
    s.takenItems call.conversations tenantId call.now limit
  | .recordActivity .. | .touchSource .. | .preview .. | .restoreItem .. | .setSourceProtection .. =>
    []

/-- A row that is active, or of which at most the activity was reconciled. -/
inductive Observed (s : LifecycleStore) (reach : Reach) (row : LifecycleItem) : Prop where
  | active (state : row.state = .active)
  | kept (item : LifecycleItem) (member : item ∈ s.items.rows) (id : item.id = row.id)
      (source : item.source = row.source) (state : item.state = row.state)
      (time : row.lastMeaningfulActivityAt = item.lastMeaningfulActivityAt ∨
        reach.sees row.source row.lastMeaningfulActivityAt)

/-- Where a row comes from that the index holds after an operation. -/
inductive Comes (s : LifecycleStore) (reach : Reach) (row : LifecycleItem) : Prop where
  | observed (seen : s.Observed reach row)
  | marked (state : row.state = .eligible)
      (allowed : (s.policy row.source.tenantId).Allows reach.now row)
  | archived (item : LifecycleItem) (member : item ∈ s.items.rows) (id : item.id = row.id)
      (source : item.source = row.source) (was : item.state = .eligible)
      (state : row.state = .archived)
      (time : row.lastMeaningfulActivityAt = item.lastMeaningfulActivityAt)
      (taken : reach.takes item)

structure Follows (s : LifecycleStore) (reach : Reach) (after : LifecycleStore) : Prop where
  rows : ∀ row ∈ after.items.rows, s.Comes reach row
  retention : after.retention = s.retention

variable {s after : LifecycleStore} {reach : Reach}

theorem observed_self {row : LifecycleItem} (member : row ∈ s.items.rows) :
    s.Observed reach row :=
  .kept row member rfl rfl rfl (.inl rfl)

theorem comes_self {row : LifecycleItem} (member : row ∈ s.items.rows) : s.Comes reach row :=
  .observed (observed_self member)

theorem Follows.mono {wider : Reach} (follows : s.Follows reach after) (now : wider.now = reach.now)
    (sees : ∀ source moment, reach.sees source moment → wider.sees source moment)
    (takes : ∀ item, reach.takes item → wider.takes item) : s.Follows wider after := by
  refine ⟨?_, follows.retention⟩
  intro row member
  cases follows.rows row member with
  | observed seen =>
    cases seen with
    | active state => exact .observed (.active state)
    | kept item stored id source state time =>
      exact .observed (.kept item stored id source state (time.imp_right (sees _ _)))
  | marked state allowed =>
    rw [← now] at allowed
    exact .marked state allowed
  | archived item stored id source was state time taken =>
    exact .archived item stored id source was state time (takes item taken)

theorem follows_refl : s.Follows reach s := ⟨fun _ member => comes_self member, rfl⟩

theorem Observed.trans {row : LifecycleItem} (seen : after.Observed reach row)
    (earlier : ∀ item ∈ after.items.rows, s.Observed reach item) : s.Observed reach row := by
  cases seen with
  | active state => exact .active state
  | kept item member id source state time =>
    cases earlier item member with
    | active was => exact .active (state.symm.trans was)
    | kept old oldMember oldId oldSource oldState oldTime =>
      refine .kept old oldMember (oldId.trans id) (oldSource.trans source)
        (oldState.trans state) ?_
      rcases time with same | new
      · rw [same, ← source]
        exact oldTime
      · exact .inr new

/-- A row still comes from `s` when its columns beside identity, state and time are rewritten. -/
theorem Comes.congr {row other : LifecycleItem} (comes : s.Comes reach row)
    (id : other.id = row.id) (source : other.source = row.source) (state : other.state = row.state)
    (time : other.lastMeaningfulActivityAt = row.lastMeaningfulActivityAt) :
    s.Comes reach other := by
  cases comes with
  | observed seen =>
    cases seen with
    | active was => exact .observed (.active (state.trans was))
    | kept item member itsId itsSource itsState itsTime =>
      refine .observed (.kept item member (itsId.trans id.symm) (itsSource.trans source.symm)
        (itsState.trans state.symm) ?_)
      rw [time, source]
      exact itsTime
  | marked was allowed =>
    refine .marked (state.trans was) ?_
    rw [source]
    exact ⟨allowed.1, time.le.trans allowed.2⟩
  | archived item member itsId itsSource was itsState itsTime taken =>
    exact .archived item member (itsId.trans id.symm) (itsSource.trans source.symm) was
      (state.trans itsState) (time.trans itsTime) taken

variable {f : LifecycleItem → LifecycleItem}

theorem follows_modifyItem {itemId : Uuid} {hf : ∀ item, (f item).id = item.id}
    (one : ∀ item ∈ s.items.rows, item.id = itemId → s.Comes reach (f item)) :
    s.Follows reach (s.modifyItem itemId f hf) := by
  refine ⟨?_, rfl⟩
  intro row member
  obtain ⟨item, old, written⟩ := mem_modifyItem.mp member
  by_cases hit : item.id = itemId
  · rw [if_pos hit] at written
    rw [← written]
    exact one item old hit
  · rw [if_neg hit] at written
    rw [← written]
    exact comes_self old

theorem policy_congr (same : after.retention = s.retention) (tenantId : Uuid) :
    after.policy tenantId = s.policy tenantId := by
  simp only [policy, same]

theorem retention_putManifest {manifest : ArchiveManifest}
    {revise : ArchiveManifest → ArchiveManifest} {hr : ∀ row, (revise row).item = row.item}
    (put : s.putManifest manifest revise hr = some after) : after.retention = s.retention := by
  rw [putManifest] at put
  split at put
  · obtain ⟨_, _, rfl⟩ := Option.map_eq_some_iff.mp put
    rfl
  · cases put
    rfl

def SameUse (s after : LifecycleStore) : Prop :=
  after.items.rows.map LifecycleItem.use = s.items.rows.map LifecycleItem.use

theorem SameUse.modifyItem (same : s.SameUse after) {itemId : Uuid}
    {hf : ∀ item, (f item).id = item.id} (use : ∀ item, (f item).use = item.use) :
    s.SameUse (after.modifyItem itemId f hf) := by
  refine Eq.trans ?_ same
  show (after.items.rows.map _).map LifecycleItem.use = _
  rw [List.map_map]
  refine List.map_congr_left ?_
  intro item _
  show (if item.id = itemId then f item else item).use = item.use
  split
  · exact use item
  · rfl

theorem SameUse.mem (same : s.SameUse after) {row : LifecycleItem}
    (member : row ∈ after.items.rows) : ∃ item ∈ s.items.rows, item.use = row.use := by
  have used : row.use ∈ after.items.rows.map LifecycleItem.use := List.mem_map_of_mem member
  rw [same] at used
  exact List.mem_map.mp used

theorem SameUse.protectionReason (same : s.SameUse after) (conversations : ConversationIndex)
    (item : LifecycleItem) (tenantId : Uuid) (now : Time) :
    after.protectionReason conversations item tenantId now =
      s.protectionReason conversations item tenantId now := by
  have newer : ∀ group : String,
      (after.items.rows.any fun other => other.source.tenantId = tenantId ∧
        other.dependencyGroupId = some group ∧
        item.lastMeaningfulActivityAt < other.lastMeaningfulActivityAt) =
      (s.items.rows.any fun other => other.source.tenantId = tenantId ∧
        other.dependencyGroupId = some group ∧
        item.lastMeaningfulActivityAt < other.lastMeaningfulActivityAt) := by
    intro group
    let isNewer : Uuid × SourceKey × Option String × Time → Bool := fun use =>
      use.2.1.tenantId = tenantId ∧ use.2.2.1 = some group ∧
        item.lastMeaningfulActivityAt < use.2.2.2
    have mapped := congrArg (fun uses => uses.any isNewer) same
    simp only [List.any_map] at mapped
    exact mapped
  simp only [LifecycleStore.protectionReason, newer]

variable {s : LifecycleStore} {conversations : ConversationIndex} {tenantId : Uuid} {reach : Reach}

def Reconciles (activity : Activity) (clock : Time) (source : SourceKey) (moment : Time) : Prop :=
  activity.activityKind = "reconciliation" ∧ activity.source = source ∧
    moment = activity.moment.getD clock

theorem observed_recordActivity {newId : Uuid} {activity : Activity} {now : Time}
    {result : LifecycleStore × LifecycleItem}
    (recorded : s.recordActivity newId activity now = .ok result)
    (seen : ∀ source moment, Reconciles activity now source moment → reach.sees source moment) :
    (∀ row ∈ result.1.items.rows, s.Observed reach row) ∧ result.1.retention = s.retention := by
  rw [recordActivity] at recorded
  cases found : s.itemOf activity.source with
  | some existing =>
    rw [found] at recorded
    cases recorded
    have member := mem_of_itemOf found
    have itsSource : existing.source = activity.source := by simpa using List.find?_some found
    refine ⟨?_, rfl⟩
    intro row written
    obtain ⟨item, stored, rewritten⟩ := mem_modifyItem.mp written
    rw [← rewritten]
    by_cases hit : item.id = existing.id
    · rw [if_pos hit, s.items.eq_of_key_eq stored member hit]
      by_cases kind : activity.activityKind = "reconciliation"
      · refine .kept existing member rfl rfl (by simp [Activity.onConflict, kind]) ?_
        show max existing.lastMeaningfulActivityAt (activity.moment.getD now) = _ ∨ _
        rcases max_choice existing.lastMeaningfulActivityAt (activity.moment.getD now) with
          old | new
        · exact .inl old
        · exact .inr (seen _ _ ⟨kind, itsSource.symm, new⟩)
      · exact .active (by simp [Activity.onConflict, kind])
    · rw [if_neg hit]
      exact observed_self stored
  | none =>
    simp only [found, insertItem] at recorded
    cases inserted : s.items.insert? (activity.row newId (activity.moment.getD now)) with
    | none =>
      rw [inserted] at recorded
      cases recorded
    | some =>
      rw [inserted] at recorded
      cases recorded
      refine ⟨?_, rfl⟩
      intro row member
      rcases (Table.mem_of_insert? inserted).mp member with old | rfl
      · exact observed_self old
      · exact .active rfl

theorem follows_recordActivity {newId : Uuid} {activity : Activity} {now : Time}
    (seen : ∀ source moment, Reconciles activity now source moment → reach.sees source moment) :
    s.Follows reach (s.committed Prod.fst (s.recordActivity newId activity now)) := by
  cases recorded : s.recordActivity newId activity now with
  | error => exact follows_refl
  | ok =>
    obtain ⟨rows, retention⟩ := observed_recordActivity recorded seen
    exact ⟨fun row member => .observed (rows row member), retention⟩

theorem follows_preview {runId : Uuid} :
    s.Follows reach (s.committed Prod.fst (s.preview conversations tenantId runId reach.now)) := by
  rw [preview]
  dsimp only
  split
  · exact follows_refl
  · rename_i days
    split
    · exact follows_refl
    · refine ⟨?_, rfl⟩
      intro row member
      obtain ⟨item, stored, written⟩ := List.mem_map.mp member
      rw [← written]
      split
      · rename_i inactive
        obtain ⟨tenant, _, old⟩ := of_decide_eq_true inactive
        cases s.protectionReason conversations item tenantId reach.now with
        | some => exact .observed (.kept item stored rfl rfl rfl (.inl rfl))
        | none =>
          refine .marked rfl ?_
          show (s.policy item.source.tenantId).Allows reach.now item
          rw [tenant]
          exact ⟨not_le.mp days, old⟩
      · exact comes_self stored

theorem follows_archiveItem {itemId userId : Uuid} {isAdmin : Bool} {now : Time}
    (takes : ∀ item ∈ s.takenItem conversations tenantId now itemId userId isAdmin,
      reach.takes item) :
    s.Follows reach
      (s.committed id (s.archiveItem conversations tenantId itemId userId isAdmin now)) := by
  rw [archiveItem]
  cases found : s.tenantItem tenantId itemId with
  | none => exact follows_refl
  | some item =>
    obtain ⟨member, _, _⟩ := owns_of_tenantItem found
    dsimp only
    split
    · exact follows_refl
    rename_i owned
    split
    · exact follows_refl
    rename_i eligible
    split
    · exact follows_refl
    rename_i unprotected
    split
    · exact follows_refl
    · rename_i put
      have kept := retention_putManifest put
      refine ⟨?_, kept⟩
      intro row written
      obtain ⟨old, stored, rewritten⟩ := mem_modifyItem.mp written
      rw [items_putManifest put] at stored
      rw [← rewritten]
      by_cases hit : old.id = item.id
      · have mine : isAdmin = true ∨ item.ownerUserId = some userId := by
          cases isAdmin with
          | true => exact .inl rfl
          | false => exact .inr (not_not.mp fun other => owned ⟨rfl, other⟩)
        have taken : item ∈ s.takenItem conversations tenantId now itemId userId isAdmin := by
          simp only [takenItem, found, Option.toList_some, List.mem_filter, List.mem_singleton,
            Bool.and_eq_true, Bool.or_eq_true, decide_eq_true_eq, true_and]
          exact ⟨⟨mine, not_not.mp eligible⟩, by rw [unprotected]; rfl⟩
        rw [if_pos hit, s.items.eq_of_key_eq stored member hit]
        exact .archived item member rfl rfl (not_not.mp eligible) rfl rfl (takes item taken)
      · rw [if_neg hit]
        exact comes_self stored

/-- One round of `archive_eligible_items` on an item that it may take. -/
theorem follows_archiveEligible {version : Int} {runId : Uuid} {now : Time} {count : Nat}
    {t : LifecycleStore} {item : LifecycleItem} {next : LifecycleStore × Nat}
    (follows : s.Follows reach t) (same : s.SameUse t) (member : item ∈ s.items.rows)
    (eligible : item.state = .eligible)
    (takes : s.protectionReason conversations item tenantId now = none → reach.takes item)
    (round : archiveEligible conversations tenantId version runId now (t, count) item = some next) :
    s.Follows reach next.1 ∧ s.SameUse next.1 := by
  rw [archiveEligible] at round
  dsimp only at round
  split at round
  · cases round
    refine ⟨⟨?_, follows.retention⟩, same.modifyItem (by intro row; rfl)⟩
    intro row written
    obtain ⟨old, stored, rewritten⟩ := mem_modifyItem.mp written
    rw [← rewritten]
    split
    · exact (follows.rows old stored).congr rfl rfl rfl rfl
    · exact follows.rows old stored
  · rename_i unprotected
    rw [same.protectionReason] at unprotected
    obtain ⟨manifested, put, rest⟩ := Option.bind_eq_some_iff.mp round
    obtain ⟨decided, insert, done⟩ := Option.bind_eq_some_iff.mp rest
    obtain ⟨decisions, _, rfl⟩ := Option.map_eq_some_iff.mp insert
    cases done
    have sameRows : s.SameUse manifested := by
      rw [SameUse, items_putManifest put]
      exact same
    have archivedRows : s.SameUse (manifested.modifyItem item.id (archived now) (fun _ => rfl)) :=
      sameRows.modifyItem (by intro row; rfl)
    refine ⟨⟨?_, (retention_putManifest put).trans follows.retention⟩, archivedRows⟩
    intro row written
    obtain ⟨old, stored, rewritten⟩ := List.mem_map.mp written
    rw [items_putManifest put] at stored
    rw [← rewritten]
    by_cases hit : old.id = item.id
    · rw [if_pos hit]
      obtain ⟨first, firstMember, use⟩ := same.mem stored
      have sameId : first.id = old.id := congrArg Prod.fst use
      have single : first = item := s.items.eq_of_key_eq firstMember member (sameId.trans hit)
      rw [single] at use
      have source : item.source = old.source := congrArg (fun use => use.2.1) use
      have time : item.lastMeaningfulActivityAt = old.lastMeaningfulActivityAt :=
        congrArg (fun use => use.2.2.2) use
      exact .archived item member hit.symm source eligible rfl time.symm (takes unprotected)
    · rw [if_neg hit]
      exact follows.rows old stored

theorem follows_archiveEligibleItems {version : Int} {runId : Uuid} {limit : Int} {now : Time}
    (takes : ∀ item ∈ s.takenItems conversations tenantId now limit, reach.takes item) :
    s.Follows reach (s.committed Prod.fst
      (s.archiveEligibleItems conversations tenantId version runId limit now)) := by
  have loop : ∀ (items : List LifecycleItem) (t : LifecycleStore) (count : Nat)
      (last : LifecycleStore × Nat), s.Follows reach t → s.SameUse t →
      (∀ item ∈ items, item ∈ s.items.rows ∧ item.state = .eligible ∧
        (s.protectionReason conversations item tenantId now = none → reach.takes item)) →
      items.foldlM (archiveEligible conversations tenantId version runId now) (t, count) =
        some last → s.Follows reach last.1 := by
    intro items
    induction items with
    | nil =>
      intro t count last follows _ _ done
      cases done
      exact follows
    | cons item items ih =>
      intro t count last follows same listed done
      obtain ⟨⟨next, soFar⟩, round, rest⟩ := Option.bind_eq_some_iff.mp done
      obtain ⟨member, eligible, itsTaken⟩ := listed item List.mem_cons_self
      obtain ⟨nextFollows, nextSame⟩ :=
        follows_archiveEligible follows same member eligible itsTaken round
      refine ih next soFar last nextFollows nextSame ?_ rest
      intro other later
      exact listed other (List.mem_cons_of_mem _ later)
  rw [archiveEligibleItems]
  split
  · exact follows_refl
  · rename_i last done
    refine loop (s.eligibleItems tenantId limit) s 0 last follows_refl rfl ?_ done
    intro item listed
    have selected := List.mem_filter.mp (mem_ascending.mp (List.mem_of_mem_take listed))
    refine ⟨selected.1, (of_decide_eq_true selected.2).2.1, ?_⟩
    intro unprotected
    exact takes item (List.mem_filter.mpr ⟨listed, by rw [unprotected]; rfl⟩)

theorem follows_restoreItem {itemId userId : Uuid} {isAdmin : Bool} {now : Time} :
    s.Follows reach (s.committed id (s.restoreItem tenantId itemId userId isAdmin now)) := by
  rw [restoreItem]
  cases s.manifestOf tenantId itemId with
  | none => exact follows_refl
  | some =>
    cases s.tenantItem tenantId itemId with
    | none => exact follows_refl
    | some =>
      dsimp only
      split
      · exact follows_refl
      · refine ⟨?_, rfl⟩
        intro row written
        obtain ⟨old, stored, rewritten⟩ := List.mem_map.mp written
        rw [← rewritten]
        split
        · exact .observed (.active rfl)
        · exact comes_self stored

theorem follows_setSourceProtection {source : SourceKey} {protection : Protection} {now : Time} :
    s.Follows reach (s.committed id (s.setSourceProtection source protection now)) := by
  rw [setSourceProtection]
  cases s.itemOf source with
  | none => exact follows_refl
  | some =>
    refine follows_modifyItem ?_
    intro row stored _
    exact (comes_self stored).congr rfl rfl rfl rfl

theorem unprotected_of_taken {call : LifecycleCall} {item : LifecycleItem}
    (taken : item ∈ s.taken call) :
    s.protectionReason call.conversations item item.source.tenantId call.now = none := by
  obtain ⟨now, conversations, operation⟩ := call
  cases operation with
  | archiveItem =>
    obtain ⟨listed, free⟩ := List.mem_filter.mp taken
    obtain ⟨_, _, tenant⟩ := owns_of_tenantItem (Option.mem_toList.mp listed)
    rw [tenant]
    simp only [Bool.and_eq_true] at free
    exact Option.isNone_iff_eq_none.mp free.2
  | archiveEligibleItems tenantId =>
    obtain ⟨listed, free⟩ := List.mem_filter.mp taken
    have selected := List.mem_filter.mp (mem_ascending.mp (List.mem_of_mem_take listed))
    have tenant : item.source.tenantId = tenantId := (of_decide_eq_true selected.2).1
    rw [tenant]
    exact Option.isNone_iff_eq_none.mp free
  | recordActivity | touchSource | preview | restoreItem | setSourceProtection => cases taken

end LifecycleStore

/-- The activity times of a source that an operation reconciles at `now`. -/
def LifecycleOperation.reconciled (now : Time) (source : SourceKey) : LifecycleOperation → List Time
  | recordActivity _ activity =>
    if activity.activityKind = "reconciliation" ∧ activity.source = source then
      [activity.moment.getD now]
    else []
  | touchSource _ touched _ _ kind =>
    if kind = "reconciliation" ∧ touched = source then [now] else []
  | preview .. | archiveItem .. | archiveEligibleItems .. | restoreItem ..
  | setSourceProtection .. => []

def LifecycleCall.reach (s : LifecycleStore) (call : LifecycleCall) : Reach where
  now := call.now
  sees := fun source moment => moment ∈ call.operation.reconciled call.now source
  takes := fun item => item ∈ s.taken call

namespace LifecycleStore

theorem follows_step (s : LifecycleStore) (call : LifecycleCall) :
    s.Follows (call.reach s) (s.step call) := by
  obtain ⟨now, conversations, operation⟩ := call
  rw [step]
  cases operation with
  | recordActivity =>
    refine follows_recordActivity ?_
    rintro source moment ⟨kind, same, rfl⟩
    simp [LifecycleCall.reach, LifecycleOperation.reconciled, kind, same]
  | touchSource newId source owner group kind =>
    refine follows_recordActivity ?_
    rintro other moment ⟨isReconciliation, same, rfl⟩
    have seen : kind = "reconciliation" ∧ source = other := ⟨isReconciliation, same⟩
    simp [LifecycleCall.reach, LifecycleOperation.reconciled, seen]
  | preview => exact follows_preview
  | archiveItem => exact follows_archiveItem fun _ taken => taken
  | archiveEligibleItems =>
    exact follows_archiveEligibleItems fun _ taken => taken
  | restoreItem => exact follows_restoreItem
  | setSourceProtection => exact follows_setSourceProtection

end LifecycleStore

end AverQel.System
