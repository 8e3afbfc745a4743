/- digest: The retention index of the tenants: lifecycle items, archive manifests, decisions. -/
import AverQel.Base
import AverQel.Foundation.Ranking
import AverQel.Foundation.Text

namespace AverQel.System

open Foundation

inductive ItemState where
  | active
  | eligible
  | archived
  deriving DecidableEq, Repr

inductive ManifestState where
  | archived
  | restored
  deriving DecidableEq, Repr

/-- The columns of `uq_storage_lifecycle_item_identity`. -/
structure SourceKey where
  tenantId : Uuid
  (category sourceType sourceId : String)
  deriving DecidableEq, Repr

/-- `storage_lifecycle_items` -/
structure LifecycleItem where
  id : Uuid
  source : SourceKey
  ownerUserId : Option Uuid
  state : ItemState
  sizeBytes : Nat
  lastMeaningfulActivityAt : Time
  (lastActivityKind dependencyGroupId : Option String)
  protectedUntil : Option Time
  protectionReason : Option String
  (pinned legalHold adminExempt : Bool)
  policyVersion : Int
  (archivedAt purgeAfter : Option Time)
  updatedAt : Time
  deriving DecidableEq, Repr

/-- `storage_archive_manifests` -/
structure ArchiveManifest where
  (tenantId lifecycleItemId : Uuid)
  (category sourceType sourceId : String)
  state : ManifestState
  policyVersion : Int
  archivedAt : Time
  restoredAt : Option Time
  deriving DecidableEq, Repr

/-- The columns of `uq_storage_archive_manifest_item`. -/
def ArchiveManifest.item (manifest : ArchiveManifest) : Uuid × Uuid :=
  (manifest.tenantId, manifest.lifecycleItemId)

/-- `storage_retention_decisions` -/
structure RetentionDecision where
  (runId tenantId lifecycleItemId : Uuid)
  (action reason : String)
  policyVersion : Int
  deriving DecidableEq, Repr

/-- The columns of `uq_storage_retention_decision`. -/
def RetentionDecision.key (decision : RetentionDecision) : Uuid × Uuid × String :=
  (decision.runId, decision.lifecycleItemId, decision.action)

structure RetentionSetting where
  retentionMode : String
  retentionPolicyVersion : Int
  deriving DecidableEq, Repr

structure RetentionPolicy where
  mode : String
  (days version : Int)
  deriving DecidableEq, Repr

/-- What the tables of one conversation say about its use. -/
structure ConversationFacts where
  (unresolvedEvent linkedActiveEvent activeRun activeQueue pausedQueue activeUpload
    activeArtifactJob referencedArtifact activeSchedule : Bool)
  deriving DecidableEq, Repr

/-- The conversation behind a source id of a tenant; `none` when the id is no UUID. -/
abbrev ConversationIndex := Uuid → String → Option ConversationFacts

structure LifecycleStore where
  items : Table LifecycleItem LifecycleItem.id
  manifests : Table ArchiveManifest ArchiveManifest.item
  decisions : Table RetentionDecision RetentionDecision.key
  retention : Uuid → Option RetentionSetting

inductive LifecycleError where
  /-- A `ValueError` with its text. -/
  | value (message : String)
  /-- A violated constraint, or a row that a `scalar_one` misses. -/
  | database
  deriving DecidableEq, Repr

def retentionDaysByMode : String → Option Int
  | "off" => some 0
  | "30" => some 30
  | "60" => some 60
  | "90" => some 90
  | _ => none

def protectedCategories : List String := ["provider_settings", "security", "audit"]

def userContentCategories : List String :=
  ["files", "library", "artifacts", "chat_history", "memory", "queries", "collections", "queues"]

def day : Time := 86400 * 1000000

namespace ConversationFacts

/-- The end of `_protection_reason`: why a conversation is in use. -/
def reason (facts : ConversationFacts) : Option String :=
  if facts.unresolvedEvent then some "unresolved_legacy_run_event"
  else if facts.linkedActiveEvent then some "active_linked_run_event"
  else if facts.activeRun then some "active_or_waiting_deepspace_run"
  else if facts.activeQueue then some "queued_or_retryable_turn"
  else if facts.pausedQueue then some "paused_queue"
  else if facts.activeUpload then some "active_upload"
  else if facts.activeArtifactJob then some "active_artifact_job"
  else if facts.referencedArtifact then some "referenced_artifact"
  else if facts.activeSchedule then some "active_schedule"
  else none

theorem idle_of_reason_eq_none {facts : ConversationFacts} (free : facts.reason = none) :
    facts.activeRun = false ∧ facts.activeQueue = false := by
  have passes : ∀ {used : Bool} {text : String} {later : Option String},
      (if used then some text else later) = none → used = false ∧ later = none := by
    intro used text later unused
    cases used with
    | true => cases unused
    | false => exact ⟨rfl, unused⟩
  obtain ⟨_, free⟩ := passes free
  obtain ⟨_, free⟩ := passes free
  obtain ⟨run, free⟩ := passes free
  obtain ⟨queue, _⟩ := passes free
  exact ⟨run, queue⟩

end ConversationFacts

namespace LifecycleStore

variable (s : LifecycleStore)

def itemOf (source : SourceKey) : Option LifecycleItem :=
  s.items.rows.find? (fun item => item.source = source)

def tenantItem (tenantId itemId : Uuid) : Option LifecycleItem :=
  (s.items.find? itemId).filter (fun item => item.source.tenantId = tenantId)

def manifestOf (tenantId itemId : Uuid) : Option ArchiveManifest :=
  s.manifests.find? (tenantId, itemId)

def policy (tenantId : Uuid) : RetentionPolicy :=
  match s.retention tenantId with
  | none => ⟨"off", 0, 1⟩
  | some setting =>
    let version := max 1 setting.retentionPolicyVersion
    match retentionDaysByMode setting.retentionMode with
    | none => ⟨"off", 0, version⟩
    | some days => ⟨setting.retentionMode, days, version⟩

/-- `_protection_reason` -/
def protectionReason (conversations : ConversationIndex) (item : LifecycleItem)
    (tenantId : Uuid) (now : Time) : Option String :=
  let newerDependency : Bool :=
    match Text.nonempty item.dependencyGroupId with
    | none => false
    | some group => s.items.rows.any fun other =>
      other.source.tenantId = tenantId ∧ other.dependencyGroupId = some group ∧
        item.lastMeaningfulActivityAt < other.lastMeaningfulActivityAt
  if item.source.category ∈ protectedCategories then some "protected_category"
  else if item.source.category ∉ userContentCategories then some "unclassified_category"
  else if item.legalHold then some "legal_hold"
  else if item.pinned then some "pinned"
  else if item.adminExempt then some "administrator_retention_exemption"
  else if item.protectedUntil.any (fun limit => now ≤ limit) then some "explicit_protection_window"
  else if newerDependency then some "newer_dependency_in_group"
  else if item.source.sourceType = "conversation" then
    match conversations tenantId item.source.sourceId with
    | none => some "unparseable_source_identity"
    | some facts => facts.reason
  else none

def modifyItem (itemId : Uuid) (f : LifecycleItem → LifecycleItem)
    (hf : ∀ item, (f item).id = item.id) : LifecycleStore :=
  { s with items := s.items.modify itemId f hf }

def insertItem (item : LifecycleItem) : Option LifecycleStore :=
  (s.items.insert? item).map fun items => { s with items := items }

def putManifest (manifest : ArchiveManifest) (revise : ArchiveManifest → ArchiveManifest)
    (hr : ∀ row, (revise row).item = row.item) : Option LifecycleStore :=
  match s.manifests.find? manifest.item with
  | none => (s.manifests.insert? manifest).map fun manifests => { s with manifests := manifests }
  | some _ => some { s with manifests := s.manifests.modify manifest.item revise hr }

def insertDecision (decision : RetentionDecision) : Option LifecycleStore :=
  (s.decisions.insert? decision).map fun decisions => { s with decisions := decisions }

end LifecycleStore

/-- The arguments of `record_activity`. -/
structure Activity where
  source : SourceKey
  activityKind : String
  sizeBytes : Int
  ownerUserId : Option Uuid
  dependencyGroupId : Option String
  protectedUntil : Option Time
  protectionReason : Option String
  moment : Option Time
  replaceSize : Bool
  deriving DecidableEq, Repr

namespace Activity

variable (activity : Activity)

/-- The row that the upsert inserts. -/
def row (newId : Uuid) (now : Time) : LifecycleItem where
  id := newId
  source := activity.source
  ownerUserId := activity.ownerUserId
  state := .active
  sizeBytes := activity.sizeBytes.toNat
  lastMeaningfulActivityAt := now
  lastActivityKind := some activity.activityKind
  dependencyGroupId := activity.dependencyGroupId
  protectedUntil := activity.protectedUntil
  protectionReason := activity.protectionReason
  pinned := false
  legalHold := false
  adminExempt := false
  policyVersion := 1
  archivedAt := none
  purgeAfter := none
  updatedAt := now

/-- The `on_conflict_do_update` of the upsert. -/
def onConflict (now : Time) (existing : LifecycleItem) : LifecycleItem :=
  { existing with
    ownerUserId := activity.ownerUserId.or existing.ownerUserId
    sizeBytes :=
      if activity.replaceSize then activity.sizeBytes.toNat
      else max existing.sizeBytes activity.sizeBytes.toNat
    lastMeaningfulActivityAt := max existing.lastMeaningfulActivityAt now
    lastActivityKind :=
      if existing.lastMeaningfulActivityAt ≤ now then some activity.activityKind
      else existing.lastActivityKind
    dependencyGroupId := activity.dependencyGroupId.or existing.dependencyGroupId
    protectedUntil := activity.protectedUntil.or existing.protectedUntil
    protectionReason := activity.protectionReason.or existing.protectionReason
    state := if activity.activityKind = "reconciliation" then existing.state else .active
    archivedAt := none
    purgeAfter := none
    updatedAt := now }

end Activity

/-- The counts that `preview` returns beside the policy. -/
structure RetentionPreview where
  runId : Option Uuid
  mode : String
  days : Int
  cutoff : Option Time
  (candidateCount candidateBytes protectedCount : Nat)
  legacyDataPreserved : Bool
  deriving DecidableEq, Repr

namespace LifecycleStore

variable (s : LifecycleStore)

/-- `record_activity`; a new row takes the id `newId`. -/
def recordActivity (newId : Uuid) (activity : Activity) (clock : Time) :
    Except LifecycleError (LifecycleStore × LifecycleItem) :=
  let now := activity.moment.getD clock
  match s.itemOf activity.source with
  | some existing =>
    .ok (s.modifyItem existing.id (activity.onConflict now) (fun _ => rfl),
      activity.onConflict now existing)
  | none =>
    match s.insertItem (activity.row newId now) with
    | none => .error .database
    | some after => .ok (after, activity.row newId now)

/-- `touch_source` -/
def touchSource (newId : Uuid) (source : SourceKey) (ownerUserId : Option Uuid)
    (dependencyGroupId : Option String) (activityKind : String) (clock : Time) :
    Except LifecycleError (LifecycleStore × LifecycleItem) :=
  s.recordActivity newId
    { source := source
      activityKind := activityKind
      sizeBytes := 0
      ownerUserId := ownerUserId
      dependencyGroupId := dependencyGroupId
      protectedUntil := none
      protectionReason := none
      moment := none
      replaceSize := false } clock

/-- The items that `preview` looks at. -/
def isInactive (tenantId : Uuid) (cutoff : Time) (item : LifecycleItem) : Bool :=
  item.source.tenantId = tenantId ∧ (item.state = .active ∨ item.state = .eligible) ∧
    item.lastMeaningfulActivityAt ≤ cutoff

/-- What `preview` does to an item that it looks at. -/
def previewed (reason : Option String) (item : LifecycleItem) : LifecycleItem :=
  match reason with
  | some text => { item with protectionReason := some text }
  | none => { item with state := .eligible }

theorem previewed_id (reason : Option String) (item : LifecycleItem) :
    (previewed reason item).id = item.id := by
  cases reason <;> rfl

def preview (conversations : ConversationIndex) (tenantId runId : Uuid) (now : Time) :
    Except LifecycleError (LifecycleStore × RetentionPreview) :=
  let policy := s.policy tenantId
  if policy.days ≤ 0 then .ok (s, ⟨none, "off", 0, none, 0, 0, 0, true⟩)
  else
    let cutoff := now - policy.days * day
    let items := ascending LifecycleItem.lastMeaningfulActivityAt
      (s.items.rows.filter (isInactive tenantId cutoff))
    let reason := fun item => s.protectionReason conversations item tenantId now
    let decisions : List RetentionDecision := items.map fun item =>
      { runId := runId
        tenantId := tenantId
        lifecycleItemId := item.id
        action := if (reason item).isSome then "protected" else "candidate"
        reason := (reason item).getD "inactive_threshold_reached"
        policyVersion := policy.version }
    let candidates := items.filter fun item => (reason item).isNone
    match decisions.foldlM Table.insert? s.decisions with
    | none => .error .database
    | some stored =>
      .ok (
        { s with
          items := s.items.mapRows
            (fun item =>
              if isInactive tenantId cutoff item then previewed (reason item) item else item)
            (fun item => by split <;> simp [previewed_id])
          decisions := stored },
        { runId := some runId
          mode := policy.mode
          days := policy.days
          cutoff := some cutoff
          candidateCount := candidates.length
          candidateBytes := candidates.foldl (fun bytes item => bytes + item.sizeBytes) 0
          protectedCount := (items.filter fun item => (reason item).isSome).length
          legacyDataPreserved := true })

def archived (now : Time) (item : LifecycleItem) : LifecycleItem :=
  { item with state := .archived, archivedAt := some now, updatedAt := now }

/-- The manifest row of an item that is archived for the first time. -/
def newManifest (tenantId : Uuid) (item : LifecycleItem) (policyVersion : Int) (now : Time) :
    ArchiveManifest where
  tenantId := tenantId
  lifecycleItemId := item.id
  category := item.source.category
  sourceType := item.source.sourceType
  sourceId := item.source.sourceId
  state := .archived
  policyVersion := policyVersion
  archivedAt := now
  restoredAt := none

def archiveItem (conversations : ConversationIndex) (tenantId itemId userId : Uuid)
    (isAdmin : Bool) (now : Time) : Except LifecycleError LifecycleStore :=
  match s.tenantItem tenantId itemId with
  | none => .error (.value "Storage item was not found.")
  | some item =>
    if !isAdmin ∧ item.ownerUserId ≠ some userId then
      .error (.value "Storage item is not owned by this user.")
    else if item.state ≠ .eligible then
      .error (.value "Only a preview-eligible item can be archived.")
    else
      match s.protectionReason conversations item tenantId now with
      | some reason => .error (.value ("Storage item is protected: " ++ reason ++ "."))
      | none =>
        match s.putManifest (newManifest tenantId item item.policyVersion now)
            (fun manifest => { manifest with state := .archived, restoredAt := none })
            (fun _ => rfl) with
        | none => .error .database
        | some after => .ok (after.modifyItem item.id (archived now) (fun _ => rfl))

/-- One round of the loop of `archive_eligible_items`, with the number of items archived. -/
def archiveEligible (conversations : ConversationIndex) (tenantId : Uuid) (policyVersion : Int)
    (runId : Uuid) (now : Time) (state : LifecycleStore × Nat) (item : LifecycleItem) :
    Option (LifecycleStore × Nat) :=
  let s := state.1
  match s.protectionReason conversations item tenantId now with
  | some reason =>
    some (s.modifyItem item.id (fun row => { row with protectionReason := some reason })
      (fun _ => rfl), state.2)
  | none => do
    let manifested ← s.putManifest (newManifest tenantId item policyVersion now)
      (fun manifest =>
        { manifest with state := .archived, policyVersion := policyVersion, restoredAt := none })
      (fun _ => rfl)
    let decided ← (manifested.modifyItem item.id (archived now) (fun _ => rfl)).insertDecision
      { runId := runId
        tenantId := tenantId
        lifecycleItemId := item.id
        action := "archived"
        reason := "inactive_threshold_reached"
        policyVersion := policyVersion }
    return (decided, state.2 + 1)

/-- The items that `archive_eligible_items` locks. -/
def eligibleItems (tenantId : Uuid) (limit : Int) : List LifecycleItem :=
  let rows := s.items.rows.filter fun item =>
    item.source.tenantId = tenantId ∧ item.state = .eligible ∧
      item.source.category ∈ userContentCategories
  (ascending LifecycleItem.lastMeaningfulActivityAt rows).take (max 1 (min limit 5000)).toNat

def archiveEligibleItems (conversations : ConversationIndex) (tenantId : Uuid)
    (policyVersion : Int) (runId : Uuid) (limit : Int) (now : Time) :
    Except LifecycleError (LifecycleStore × Nat) :=
  match (s.eligibleItems tenantId limit).foldlM
      (archiveEligible conversations tenantId policyVersion runId now) (s, 0) with
  | none => .error .database
  | some result => .ok result

def restored (now : Time) (item : LifecycleItem) : LifecycleItem :=
  { item with
    state := .active
    archivedAt := none
    purgeAfter := none
    lastMeaningfulActivityAt := now
    lastActivityKind := some "restore"
    updatedAt := now }

def restoreItem (tenantId itemId userId : Uuid) (isAdmin : Bool) (now : Time) :
    Except LifecycleError LifecycleStore :=
  match s.manifestOf tenantId itemId, s.tenantItem tenantId itemId with
  | none, _ => .error (.value "Archived storage item was not found.")
  | some _, none => .error .database
  | some manifest, some item =>
    if !isAdmin ∧ item.ownerUserId ≠ some userId then
      .error (.value "Storage item is not owned by this user.")
    else
      let after := s.modifyItem item.id (restored now) (fun _ => rfl)
      .ok { after with
        manifests := after.manifests.modify manifest.item
          (fun row => { row with state := .restored, restoredAt := some now }) (fun _ => rfl) }

/-- The arguments of `set_source_protection`; a missing one leaves its column alone. -/
structure Protection where
  (pinned legalHold adminExempt : Option Bool)
  reason : Option String
  deriving DecidableEq, Repr

def Protection.applied (protection : Protection) (now : Time) (item : LifecycleItem) :
    LifecycleItem :=
  { item with
    pinned := protection.pinned.getD item.pinned
    legalHold := protection.legalHold.getD item.legalHold
    adminExempt := protection.adminExempt.getD item.adminExempt
    protectionReason :=
      match protection.reason with
      | none => item.protectionReason
      | some reason => Text.nonempty (some (Text.truncate 2000 (Text.strip reason)))
    updatedAt := now }

def setSourceProtection (source : SourceKey) (protection : Protection) (now : Time) :
    Except LifecycleError LifecycleStore :=
  match s.itemOf source with
  | none => .error (.value "Storage lifecycle item was not found.")
  | some item => .ok (s.modifyItem item.id (protection.applied now) (fun _ => rfl))

end LifecycleStore

end AverQel.System
