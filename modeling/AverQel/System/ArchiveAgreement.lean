/- digest: Whether lifecycle items and their archive manifests tell the same story. -/
import AverQel.Foundation.Transition
import AverQel.System.StorageLifecycle

namespace AverQel.System

open Foundation Transition

inductive LifecycleOperation where
  | recordActivity (newId : Uuid) (activity : Activity)
  | touchSource (newId : Uuid) (source : SourceKey) (ownerUserId : Option Uuid)
      (dependencyGroupId : Option String) (activityKind : String)
  | preview (tenantId runId : Uuid)
  | archiveItem (tenantId itemId userId : Uuid) (isAdmin : Bool)
  | archiveEligibleItems (tenantId : Uuid) (policyVersion : Int) (runId : Uuid) (limit : Int)
  | restoreItem (tenantId itemId userId : Uuid) (isAdmin : Bool)
  | setSourceProtection (source : SourceKey) (protection : LifecycleStore.Protection)

def LifecycleOperation.touched : LifecycleOperation → Option SourceKey
  | recordActivity _ activity => some activity.source
  | touchSource _ source _ _ _ => some source
  | preview _ _ | archiveItem _ _ _ _ | archiveEligibleItems _ _ _ _ | restoreItem _ _ _ _
  | setSourceProtection _ _ => none

structure LifecycleCall where
  now : Time
  conversations : ConversationIndex
  operation : LifecycleOperation

namespace LifecycleStore

variable {s after : LifecycleStore}

def committed {ε α : Type} (s : LifecycleStore) (state : α → LifecycleStore) :
    Except ε α → LifecycleStore
  | .ok result => state result
  | .error _ => s

def step (s : LifecycleStore) (call : LifecycleCall) : LifecycleStore :=
  match call.operation with
  | .recordActivity newId activity =>
    s.committed Prod.fst (s.recordActivity newId activity call.now)
  | .touchSource newId source owner group kind =>
    s.committed Prod.fst (s.touchSource newId source owner group kind call.now)
  | .preview tenantId runId =>
    s.committed Prod.fst (s.preview call.conversations tenantId runId call.now)
  | .archiveItem tenantId itemId userId isAdmin =>
    s.committed id (s.archiveItem call.conversations tenantId itemId userId isAdmin call.now)
  | .archiveEligibleItems tenantId version runId limit =>
    s.committed Prod.fst
      (s.archiveEligibleItems call.conversations tenantId version runId limit call.now)
  | .restoreItem tenantId itemId userId isAdmin =>
    s.committed id (s.restoreItem tenantId itemId userId isAdmin call.now)
  | .setSourceProtection source protection =>
    s.committed id (s.setSourceProtection source protection call.now)

def fresh (retention : Uuid → Option RetentionSetting) : LifecycleStore :=
  ⟨.empty, .empty, .empty, retention⟩

def manifested (s : LifecycleStore) (item : LifecycleItem) : Bool :=
  (s.manifestOf item.source.tenantId item.id).any fun manifest => manifest.state = .archived

def AgreesOn (s : LifecycleStore) (item : LifecycleItem) : Prop :=
  (item.state = .archived ↔ item.archivedAt.isSome) ∧
    (item.state = .archived ↔ s.manifested item = true)

instance (s : LifecycleStore) (item : LifecycleItem) : Decidable (s.AgreesOn item) :=
  inferInstanceAs (Decidable (_ ∧ _))

def Agrees (s : LifecycleStore) : Prop := ∀ item ∈ s.items.rows, s.AgreesOn item

instance (s : LifecycleStore) : Decidable s.Agrees := by
  delta Agrees
  infer_instance

def Owns (s : LifecycleStore) (tenantId itemId : Uuid) : Prop :=
  ∃ item ∈ s.items.rows, item.id = itemId ∧ item.source.tenantId = tenantId

def ManifestsRefer (s : LifecycleStore) : Prop :=
  ∀ manifest ∈ s.manifests.rows, s.Owns manifest.tenantId manifest.lifecycleItemId

structure Keeps (s after : LifecycleStore) : Prop where
  refer : after.ManifestsRefer
  agrees : s.Agrees → after.Agrees

def MeetsNoArchive (s : LifecycleStore) (call : LifecycleCall) : Prop :=
  ∀ source ∈ call.operation.touched, ∀ item, s.itemOf source = some item →
    item.state ≠ .archived

variable {itemId : Uuid} {f : LifecycleItem → LifecycleItem} {hf : ∀ item, (f item).id = item.id}

theorem mem_modifyItem {row : LifecycleItem} : row ∈ (s.modifyItem itemId f hf).items.rows ↔
    ∃ item ∈ s.items.rows, (if item.id = itemId then f item else item) = row := by
  have modified : (s.modifyItem itemId f hf).items = s.items.modify itemId f hf := rfl
  rw [modified, Table.mem_modify]

theorem owns_modifyItem (source : ∀ item, (f item).source = item.source) {tenantId other : Uuid}
    (owns : s.Owns tenantId other) : (s.modifyItem itemId f hf).Owns tenantId other := by
  obtain ⟨item, member, same, tenant⟩ := owns
  refine ⟨if item.id = itemId then f item else item, mem_modifyItem.mpr ⟨item, member, rfl⟩, ?_⟩
  by_cases hit : item.id = itemId
  · rw [if_pos hit, hf, source]
    exact ⟨same, tenant⟩
  · rw [if_neg hit]
    exact ⟨same, tenant⟩

theorem refer_modifyItem (source : ∀ item, (f item).source = item.source)
    (refer : s.ManifestsRefer) : (s.modifyItem itemId f hf).ManifestsRefer :=
  fun manifest member => owns_modifyItem source (refer manifest member)

theorem agrees_modifyItem (agrees : s.Agrees)
    (one : ∀ item ∈ s.items.rows, item.id = itemId → s.AgreesOn (f item)) :
    (s.modifyItem itemId f hf).Agrees := by
  intro row member
  obtain ⟨item, old, written⟩ := mem_modifyItem.mp member
  by_cases hit : item.id = itemId
  · rw [if_pos hit] at written
    rw [← written]
    exact one item old hit
  · rw [if_neg hit] at written
    rw [← written]
    exact agrees item old

theorem agrees_modifyItem_of_same (agrees : s.Agrees)
    (source : ∀ item, (f item).source = item.source) (state : ∀ item, (f item).state = item.state)
    (time : ∀ item, (f item).archivedAt = item.archivedAt) :
    (s.modifyItem itemId f hf).Agrees := by
  refine agrees_modifyItem agrees ?_
  intro item member _
  have before := agrees item member
  have manifest : s.manifested (f item) = s.manifested item := by
    simp only [manifested, source, hf]
  simpa only [AgreesOn, state, time, manifest] using before

theorem manifested_of_not_owns (refer : s.ManifestsRefer) {item : LifecycleItem}
    (missing : ¬ s.Owns item.source.tenantId item.id) : s.manifested item = false := by
  have none : s.manifestOf item.source.tenantId item.id = none := by
    refine Table.find?_eq_none_iff.mpr ?_
    intro manifest member same
    have owner := refer manifest member
    have tenant : manifest.tenantId = item.source.tenantId := congrArg Prod.fst same
    have id : manifest.lifecycleItemId = item.id := congrArg Prod.snd same
    rw [tenant, id] at owner
    exact missing owner
  rw [manifested, none]
  rfl

variable {manifest : ArchiveManifest} {revise : ArchiveManifest → ArchiveManifest}
  {hr : ∀ row, (revise row).item = row.item}

theorem items_putManifest (put : s.putManifest manifest revise hr = some after) :
    after.items = s.items := by
  rw [putManifest] at put
  split at put
  · obtain ⟨_, _, rfl⟩ := Option.map_eq_some_iff.mp put
    rfl
  · cases put
    rfl

theorem owns_putManifest (put : s.putManifest manifest revise hr = some after)
    {tenantId other : Uuid} : after.Owns tenantId other ↔ s.Owns tenantId other := by
  simp only [Owns, items_putManifest put]

theorem refer_putManifest (refer : s.ManifestsRefer)
    (owns : s.Owns manifest.tenantId manifest.lifecycleItemId)
    (put : s.putManifest manifest revise hr = some after) : after.ManifestsRefer := by
  intro row member
  rw [owns_putManifest put]
  rw [putManifest] at put
  split at put
  · obtain ⟨manifests, inserted, rfl⟩ := Option.map_eq_some_iff.mp put
    rcases (Table.mem_of_insert? inserted).mp member with old | rfl
    · exact refer row old
    · exact owns
  · cases put
    have modified : row ∈ (s.manifests.modify manifest.item revise hr).rows := member
    obtain ⟨old, stored, written⟩ := Table.mem_modify.mp modified
    have key : row.item = old.item := by
      rw [← written]
      split
      · exact hr old
      · rfl
    have tenant : row.tenantId = old.tenantId := congrArg Prod.fst key
    have id : row.lifecycleItemId = old.lifecycleItemId := congrArg Prod.snd key
    rw [tenant, id]
    exact refer old stored

theorem manifested_putManifest (put : s.putManifest manifest revise hr = some after)
    (new : manifest.state = .archived) (old : ∀ row, (revise row).state = .archived)
    (item : LifecycleItem) : after.manifested item =
      if (item.source.tenantId, item.id) = manifest.item then true else s.manifested item := by
  rw [putManifest] at put
  split at put
  · obtain ⟨manifests, inserted, rfl⟩ := Option.map_eq_some_iff.mp put
    rw [manifested, manifestOf, Table.find?_of_insert? inserted]
    split
    · simp [new]
    · rfl
  · rename_i row found
    cases put
    rw [manifested, manifestOf, Table.find?_modify]
    split
    · rename_i same
      simp [same, found, old]
    · rfl

theorem agrees_archived (agrees : s.Agrees)
    (owns : s.Owns manifest.tenantId manifest.lifecycleItemId)
    (put : s.putManifest manifest revise hr = some after)
    (new : manifest.state = .archived) (old : ∀ row, (revise row).state = .archived)
    (now : Time) :
    (after.modifyItem manifest.lifecycleItemId (archived now) (fun _ => rfl)).Agrees := by
  have shows := manifested_putManifest put new old
  have rows := items_putManifest put
  intro row member
  obtain ⟨item, stored, written⟩ := mem_modifyItem.mp member
  rw [rows] at stored
  by_cases hit : item.id = manifest.lifecycleItemId
  · rw [if_pos hit] at written
    obtain ⟨owner, owned, id, tenant⟩ := owns
    have same : item = owner := s.items.eq_of_key_eq stored owned (hit.trans id.symm)
    have key : (row.source.tenantId, row.id) = manifest.item := by
      rw [← written, same]
      exact Prod.ext tenant id
    have shown : after.manifested row = true := by rw [shows, if_pos key]
    have state : row.state = .archived := by rw [← written]; rfl
    have time : row.archivedAt = some now := by rw [← written]; rfl
    refine ⟨?_, ?_⟩
    · rw [time]
      exact iff_of_true state rfl
    · exact iff_of_true state shown
  · rw [if_neg hit] at written
    have other : (item.source.tenantId, item.id) ≠ manifest.item :=
      fun same => hit (congrArg Prod.snd same)
    have kept : after.manifested item = s.manifested item := by rw [shows, if_neg other]
    have before := agrees item stored
    rw [← written]
    show (_ ↔ _) ∧ (_ ↔ after.manifested item = true)
    rw [kept]
    exact before

variable {conversations : ConversationIndex} {tenantId : Uuid}

theorem mem_of_itemOf {source : SourceKey} {item : LifecycleItem}
    (found : s.itemOf source = some item) : item ∈ s.items.rows :=
  List.mem_of_find?_eq_some found

theorem owns_of_tenantItem {itemId : Uuid} {item : LifecycleItem}
    (found : s.tenantItem tenantId itemId = some item) :
    item ∈ s.items.rows ∧ item.id = itemId ∧ item.source.tenantId = tenantId := by
  obtain ⟨located, tenant⟩ := Option.filter_eq_some_iff.mp found
  obtain ⟨member, id⟩ := Table.find?_eq_some_iff.mp located
  exact ⟨member, id, of_decide_eq_true tenant⟩

theorem agrees_recordActivity_iff {newId : Uuid} {activity : Activity} {clock : Time}
    (refer : s.ManifestsRefer) (agrees : s.Agrees) :
    (s.committed Prod.fst (s.recordActivity newId activity clock)).Agrees ↔
      ∀ item, s.itemOf activity.source = some item → item.state ≠ .archived := by
  rw [recordActivity]
  cases found : s.itemOf activity.source with
  | some existing =>
    have member := mem_of_itemOf found
    obtain ⟨time, manifest⟩ := agrees existing member
    constructor
    · intro kept item same archivedItem
      cases same
      have row : activity.onConflict (activity.moment.getD clock) existing ∈
          (s.modifyItem existing.id (activity.onConflict (activity.moment.getD clock))
            (fun _ => rfl)).items.rows :=
        mem_modifyItem.mpr ⟨existing, member, if_pos rfl⟩
      obtain ⟨later, _⟩ := kept _ row
      have state : (activity.onConflict (activity.moment.getD clock) existing).state ≠
          .archived := by
        intro still
        exact Bool.noConfusion (later.mp still)
      have shown : (activity.onConflict (activity.moment.getD clock) existing).state =
          .archived := (kept _ row).2.mpr (manifest.mp archivedItem)
      exact state shown
    · intro open_
      have notArchived : existing.state ≠ .archived := open_ existing rfl
      refine agrees_modifyItem agrees ?_
      intro item stored same
      have single : item = existing := s.items.eq_of_key_eq stored member same
      have state : (activity.onConflict (activity.moment.getD clock) item).state ≠
          .archived := by
        show (if activity.activityKind = "reconciliation" then item.state else .active) ≠ _
        rw [single]
        split
        · exact notArchived
        · decide
      have unmanifested : ¬ s.manifested existing = true := fun shown =>
        notArchived (manifest.mpr shown)
      rw [single] at state ⊢
      exact ⟨iff_of_false state Bool.noConfusion, iff_of_false state unmanifested⟩
  | none =>
    have unknown : ∀ item, (none : Option LifecycleItem) = some item → item.state ≠ .archived := by
      intro item same
      cases same
    refine iff_of_true ?_ unknown
    cases inserted : s.items.insert? (activity.row newId (activity.moment.getD clock)) with
    | none =>
      simp only [insertItem, inserted, Option.map_none]
      exact agrees
    | some =>
      simp only [insertItem, inserted, Option.map_some]
      intro item member
      rcases (Table.mem_of_insert? inserted).mp member with old | rfl
      · exact agrees item old
      · have missing : ¬ s.Owns activity.source.tenantId newId := by
          rintro ⟨other, stored, same, _⟩
          exact Table.fresh_of_insert? inserted stored same
        have unmanifested : s.manifested (activity.row newId (activity.moment.getD clock)) = false :=
          manifested_of_not_owns refer missing
        have state : (activity.row newId (activity.moment.getD clock)).state ≠ .archived := by
          show ItemState.active ≠ .archived
          decide
        refine ⟨iff_of_false state Bool.noConfusion, iff_of_false state ?_⟩
        show ¬ s.manifested _ = true
        rw [unmanifested]
        decide

theorem refer_recordActivity {newId : Uuid} {activity : Activity} {clock : Time}
    (refer : s.ManifestsRefer) :
    (s.committed Prod.fst (s.recordActivity newId activity clock)).ManifestsRefer := by
  rw [recordActivity]
  cases s.itemOf activity.source with
  | some => exact refer_modifyItem (fun _ => rfl) refer
  | none =>
    cases inserted : s.items.insert? (activity.row newId (activity.moment.getD clock)) with
    | none =>
      simp only [insertItem, inserted, Option.map_none]
      exact refer
    | some =>
      simp only [insertItem, inserted, Option.map_some]
      intro manifest member
      obtain ⟨item, stored, owned⟩ := refer manifest member
      exact ⟨item, (Table.mem_of_insert? inserted).mpr (Or.inl stored), owned⟩

theorem previewed_source (reason : Option String) (item : LifecycleItem) :
    (previewed reason item).source = item.source := by
  cases reason <;> rfl

theorem agreesOn_previewed {item : LifecycleItem} (reason : Option String)
    (agrees : s.AgreesOn item) (notArchived : item.state ≠ .archived) :
    s.AgreesOn (previewed reason item) := by
  obtain ⟨time, manifest⟩ := agrees
  cases reason with
  | some => exact ⟨time, manifest⟩
  | none =>
    have state : (previewed none item).state ≠ .archived := by
      show ItemState.eligible ≠ .archived
      decide
    have unset : ¬ item.archivedAt.isSome = true := fun set => notArchived (time.mpr set)
    have unmanifested : ¬ s.manifested item = true := fun shown => notArchived (manifest.mpr shown)
    exact ⟨iff_of_false state unset, iff_of_false state unmanifested⟩

variable {runId : Uuid}

theorem agrees_preview {now : Time} (agrees : s.Agrees) :
    (s.committed Prod.fst (s.preview conversations tenantId runId now)).Agrees := by
  rw [preview]
  dsimp only
  split
  · exact agrees
  · split
    · exact agrees
    · intro row member
      obtain ⟨item, stored, written⟩ := List.mem_map.mp member
      rw [← written]
      split
      · rename_i inactive
        have open_ : item.state = .active ∨ item.state = .eligible :=
          (of_decide_eq_true inactive).2.1
        have notArchived : item.state ≠ .archived := by
          rcases open_ with state | state <;> rw [state] <;> decide
        exact agreesOn_previewed _ (agrees item stored) notArchived
      · exact agrees item stored

theorem refer_preview {now : Time} (refer : s.ManifestsRefer) :
    (s.committed Prod.fst (s.preview conversations tenantId runId now)).ManifestsRefer := by
  rw [preview]
  dsimp only
  split
  · exact refer
  · split
    · exact refer
    · intro manifest member
      obtain ⟨item, stored, id, tenant⟩ := refer manifest member
      refine ⟨_, List.mem_map.mpr ⟨item, stored, rfl⟩, ?_⟩
      split
      · rw [previewed_id, previewed_source]
        exact ⟨id, tenant⟩
      · exact ⟨id, tenant⟩

theorem keeps_refl (refer : s.ManifestsRefer) : s.Keeps s := ⟨refer, id⟩

theorem keeps_archived {manifest : ArchiveManifest} {revise : ArchiveManifest → ArchiveManifest}
    {hr : ∀ row, (revise row).item = row.item} (refer : s.ManifestsRefer)
    (owns : s.Owns manifest.tenantId manifest.lifecycleItemId)
    (put : s.putManifest manifest revise hr = some after)
    (new : manifest.state = .archived) (old : ∀ row, (revise row).state = .archived)
    (now : Time) {written : LifecycleStore}
    (write : after.modifyItem manifest.lifecycleItemId (archived now) (fun _ => rfl) = written) :
    s.Keeps written := by
  rw [← write]
  exact ⟨refer_modifyItem (fun _ => rfl) (refer_putManifest refer owns put),
    fun agrees => agrees_archived agrees owns put new old now⟩

theorem keeps_archiveItem {itemId userId : Uuid} {isAdmin : Bool} {now : Time}
    (refer : s.ManifestsRefer) : s.Keeps
      (s.committed id (s.archiveItem conversations tenantId itemId userId isAdmin now)) := by
  have same := keeps_refl refer
  rw [archiveItem]
  cases found : s.tenantItem tenantId itemId with
  | none => exact same
  | some item =>
    obtain ⟨member, _, tenant⟩ := owns_of_tenantItem found
    dsimp only
    split
    · exact same
    split
    · exact same
    split
    · exact same
    split
    · exact same
    · rename_i after put
      exact keeps_archived refer ⟨item, member, rfl, tenant⟩ put rfl (fun _ => rfl) now rfl

/-- One round of `archive_eligible_items`, and what the tenant owns after it. -/
theorem keeps_archiveEligible {version : Int} {now : Time} {count : Nat} {item : LifecycleItem}
    {next : LifecycleStore × Nat} (refer : s.ManifestsRefer) (owns : s.Owns tenantId item.id)
    (round : archiveEligible conversations tenantId version runId now (s, count) item = some next) :
    s.Keeps next.1 ∧ ∀ other, s.Owns tenantId other → next.1.Owns tenantId other := by
  rw [archiveEligible] at round
  dsimp only at round
  split at round
  · cases round
    refine ⟨⟨refer_modifyItem (fun _ => rfl) refer, fun agrees =>
      agrees_modifyItem_of_same agrees (fun _ => rfl) (fun _ => rfl) (fun _ => rfl)⟩, ?_⟩
    intro other owned
    exact owns_modifyItem (f := fun row => { row with protectionReason := some _ })
      (fun _ => rfl) owned
  · obtain ⟨manifested, put, rest⟩ := Option.bind_eq_some_iff.mp round
    obtain ⟨decided, insert, done⟩ := Option.bind_eq_some_iff.mp rest
    obtain ⟨decisions, _, rfl⟩ := Option.map_eq_some_iff.mp insert
    cases done
    have kept := keeps_archived refer owns put rfl (fun _ => rfl) now rfl
    refine ⟨⟨kept.refer, kept.agrees⟩, ?_⟩
    intro other owned
    have still : (manifested.modifyItem item.id (archived now) (fun _ => rfl)).Owns tenantId other :=
      owns_modifyItem (by intro row; rfl) ((owns_putManifest put).mpr owned)
    exact still

theorem keeps_archiveEligibleItems {version limit : Int} {now : Time}
    (refer : s.ManifestsRefer) : s.Keeps
      (s.committed Prod.fst
        (s.archiveEligibleItems conversations tenantId version runId limit now)) := by
  have loop : ∀ (items : List LifecycleItem) (t : LifecycleStore) (count : Nat)
      (last : LifecycleStore × Nat), t.ManifestsRefer →
      (∀ item ∈ items, t.Owns tenantId item.id) →
      items.foldlM (archiveEligible conversations tenantId version runId now) (t, count) =
        some last → t.Keeps last.1 := by
    intro items
    induction items with
    | nil =>
      intro t count last refer _ done
      cases done
      exact keeps_refl refer
    | cons item items ih =>
      intro t count last refer owns done
      obtain ⟨⟨next, archivedSoFar⟩, round, rest⟩ := Option.bind_eq_some_iff.mp done
      obtain ⟨first, kept⟩ := keeps_archiveEligible refer (owns item List.mem_cons_self) round
      have later := ih next archivedSoFar last first.refer
        (fun other member => kept _ (owns other (List.mem_cons_of_mem _ member))) rest
      exact ⟨later.refer, fun agrees => later.agrees (first.agrees agrees)⟩
  rw [archiveEligibleItems]
  split
  · exact keeps_refl refer
  · rename_i last done
    refine loop (s.eligibleItems tenantId limit) s 0 last refer ?_ done
    intro item listed
    have selected := List.mem_filter.mp (mem_ascending.mp (List.mem_of_mem_take listed))
    exact ⟨item, selected.1, rfl, (of_decide_eq_true selected.2).1⟩

def restoredManifest (now : Time) (manifest : ArchiveManifest) : ArchiveManifest :=
  { manifest with state := .restored, restoredAt := some now }

theorem restoredManifest_item (now : Time) (manifest : ArchiveManifest) :
    (restoredManifest now manifest).item = manifest.item := rfl

theorem manifested_restoredManifest (now : Time) (key : Uuid × Uuid) (item : LifecycleItem) :
    { s with
      manifests := s.manifests.modify key (restoredManifest now)
        (restoredManifest_item now) }.manifested item =
      if (item.source.tenantId, item.id) = key then false else s.manifested item := by
  rw [manifested, manifestOf, Table.find?_modify]
  split
  · rename_i same
    cases found : s.manifests.find? (item.source.tenantId, item.id) with
    | none => rfl
    | some manifest =>
      have state : (restoredManifest now manifest).state ≠ .archived := by
        show ManifestState.restored ≠ .archived
        decide
      simp only [Option.map_some, Option.any_some, decide_eq_false state]
  · rfl

theorem keeps_restored {item : LifecycleItem} (refer : s.ManifestsRefer)
    (member : item ∈ s.items.rows) (now : Time) {written : LifecycleStore}
    (write : { s.modifyItem item.id (restored now) (fun _ => rfl) with
      manifests := s.manifests.modify (item.source.tenantId, item.id) (restoredManifest now)
        (restoredManifest_item now) } = written) : s.Keeps written := by
  rw [← write]
  refine ⟨?_, ?_⟩
  · intro row stored
    obtain ⟨old, before, rewritten⟩ := List.mem_map.mp stored
    have same : row.tenantId = old.tenantId ∧ row.lifecycleItemId = old.lifecycleItemId := by
      rw [← rewritten]
      split <;> exact ⟨rfl, rfl⟩
    have kept : (s.modifyItem item.id (restored now) (fun _ => rfl)).Owns old.tenantId
        old.lifecycleItemId := owns_modifyItem (by intro row; rfl) (refer old before)
    rw [same.1, same.2]
    exact kept
  · intro agrees row stored
    obtain ⟨old, before, rewritten⟩ := List.mem_map.mp stored
    have shows := manifested_restoredManifest (s := s) now (item.source.tenantId, item.id)
    by_cases hit : old.id = item.id
    · have single : old = item := s.items.eq_of_key_eq before member hit
      rw [if_pos hit, single] at rewritten
      have state : row.state ≠ .archived := by
        rw [← rewritten]
        show ItemState.active ≠ .archived
        decide
      have time : row.archivedAt = none := by rw [← rewritten]; rfl
      have key : (row.source.tenantId, row.id) = (item.source.tenantId, item.id) := by
        rw [← rewritten]
        rfl
      have hidden := shows row
      rw [if_pos key] at hidden
      refine ⟨?_, ?_⟩
      · rw [time]
        exact iff_of_false state Bool.noConfusion
      · exact iff_of_false state (Bool.eq_false_iff.mp hidden)
    · rw [if_neg hit] at rewritten
      have other : (old.source.tenantId, old.id) ≠ (item.source.tenantId, item.id) :=
        fun same => hit (congrArg Prod.snd same)
      have kept := shows old
      rw [if_neg other] at kept
      obtain ⟨time, manifest⟩ := agrees old before
      rw [← rewritten]
      refine ⟨time, manifest.trans ?_⟩
      rw [← kept]
      exact Iff.rfl

theorem keeps_restoreItem {itemId userId : Uuid} {isAdmin : Bool} {now : Time}
    (refer : s.ManifestsRefer) :
    s.Keeps (s.committed id (s.restoreItem tenantId itemId userId isAdmin now)) := by
  have same := keeps_refl refer
  rw [restoreItem]
  cases located : s.manifestOf tenantId itemId with
  | none => exact same
  | some manifest =>
    cases found : s.tenantItem tenantId itemId with
    | none => exact same
    | some item =>
      obtain ⟨member, sameItem, tenant⟩ := owns_of_tenantItem found
      obtain ⟨_, key⟩ := Table.find?_eq_some_iff.mp located
      have keyed : manifest.item = (item.source.tenantId, item.id) := by
        rw [key, sameItem, tenant]
      dsimp only
      split
      · exact same
      · refine keeps_restored refer member now ?_
        rw [← keyed]
        rfl

theorem keeps_setSourceProtection {source : SourceKey} {protection : Protection} {now : Time}
    (refer : s.ManifestsRefer) :
    s.Keeps (s.committed id (s.setSourceProtection source protection now)) := by
  rw [setSourceProtection]
  cases s.itemOf source with
  | none => exact keeps_refl refer
  | some =>
    exact ⟨refer_modifyItem (fun _ => rfl) refer, fun agrees =>
      agrees_modifyItem_of_same agrees (fun _ => rfl) (fun _ => rfl) (fun _ => rfl)⟩

theorem keeps_step (call : LifecycleCall) (refer : s.ManifestsRefer)
    (untouched : call.operation.touched = none) : s.Keeps (s.step call) := by
  rw [step]
  cases operation : call.operation with
  | recordActivity | touchSource =>
    rw [operation] at untouched
    cases untouched
  | preview => exact ⟨refer_preview refer, agrees_preview⟩
  | archiveItem => exact keeps_archiveItem refer
  | archiveEligibleItems => exact keeps_archiveEligibleItems refer
  | restoreItem => exact keeps_restoreItem refer
  | setSourceProtection => exact keeps_setSourceProtection refer

theorem step_of_touched {call : LifecycleCall} {source : SourceKey}
    (touched : call.operation.touched = some source) :
    ∃ newId activity, activity.source = source ∧
      s.step call = s.committed Prod.fst (s.recordActivity newId activity call.now) := by
  cases operation : call.operation with
  | recordActivity newId activity =>
    rw [operation] at touched
    cases touched
    exact ⟨newId, activity, rfl, by rw [step, operation]⟩
  | touchSource newId =>
    rw [operation] at touched
    cases touched
    exact ⟨newId, _, rfl, by rw [step, operation]; rfl⟩
  | preview | archiveItem | archiveEligibleItems | restoreItem | setSourceProtection =>
    rw [operation] at touched
    cases touched

theorem refer_step (call : LifecycleCall) (refer : s.ManifestsRefer) :
    (s.step call).ManifestsRefer := by
  cases touched : call.operation.touched with
  | none => exact (keeps_step call refer touched).refer
  | some =>
    obtain ⟨newId, activity, _, same⟩ := step_of_touched (s := s) touched
    rw [same]
    exact refer_recordActivity refer

theorem agrees_step_iff (call : LifecycleCall) (refer : s.ManifestsRefer) (agrees : s.Agrees) :
    (s.step call).Agrees ↔ s.MeetsNoArchive call := by
  cases touched : call.operation.touched with
  | none =>
    have kept : (s.step call).Agrees := (keeps_step call refer touched).agrees agrees
    refine iff_of_true kept ?_
    intro source recorded
    rw [touched] at recorded
    cases recorded
  | some source =>
    obtain ⟨newId, activity, recorded, same⟩ := step_of_touched (s := s) touched
    have guard : s.MeetsNoArchive call ↔
        ∀ item, s.itemOf source = some item → item.state ≠ .archived := by
      simp [MeetsNoArchive, touched]
    rw [same, guard, ← recorded]
    exact agrees_recordActivity_iff refer agrees

/-- In every run a manifest belongs to an item of its tenant. -/
theorem manifests_refer (retention : Uuid → Option RetentionSetting) (calls : List LifecycleCall) :
    (run step (fresh retention) calls).ManifestsRefer :=
  run_of_keeps (fun _ call refer => refer_step call refer)
    (fun _ member => absurd member List.not_mem_nil) calls

/-- In every run from an empty index, items, archive times and manifests agree in every state
reached exactly when no activity is recorded for a source whose item is archived. -/
theorem items_agree_with_manifests_iff (retention : Uuid → Option RetentionSetting)
    (calls : List LifecycleCall) :
    (∀ s ∈ trace step (fresh retention) calls, s.Agrees) ↔
      Guarded MeetsNoArchive step (fresh retention) calls := by
  have none_yet : (fresh retention).ManifestsRefer := by
    intro manifest member
    cases member
  have agreed : (fresh retention).Agrees := by
    intro item member
    cases member
  exact forall_trace_iff_guarded (fun s call refer => refer_step call refer)
    (fun s call refer agrees => agrees_step_iff call refer agrees) none_yet agreed

def memorySource : SourceKey := ⟨1, "memory", "note", "n"⟩

def memoryActivity (kind : String) : Activity :=
  ⟨memorySource, kind, 10, some 2, none, none, none, none, false⟩

def reconciledArchive : List LifecycleCall :=
  [ ⟨0, fun _ _ => none, .recordActivity 5 (memoryActivity "source_write")⟩
  , ⟨31 * day, fun _ _ => none, .preview 1 6⟩
  , ⟨31 * day, fun _ _ => none, .archiveItem 1 5 2 false⟩
  , ⟨32 * day, fun _ _ => none, .recordActivity 7 (memoryActivity "reconciliation")⟩ ]

/-- Reconciliation keeps the archived state and erases its time. -/
theorem reconciliation_erases_archive_time :
    ¬ ∀ (retention : Uuid → Option RetentionSetting) (calls : List LifecycleCall),
      ∀ s ∈ trace step (fresh retention) calls, s.Agrees := by
  intro always
  let retention : Uuid → Option RetentionSetting := fun _ => some ⟨"30", 1⟩
  have agrees : (run step (fresh retention) reconciledArchive).Agrees :=
    always retention reconciledArchive _ (run_mem_trace _ _ reconciledArchive)
  have broken : ¬ (run step (fresh retention) reconciledArchive).Agrees := by decide +kernel
  exact broken agrees

end LifecycleStore

end AverQel.System
