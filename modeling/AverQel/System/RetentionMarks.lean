/- digest: Whether an item is archived before the retention policy of its tenant allows it. -/
import AverQel.System.ItemOrigins
import AverQel.System.RetentionRuns
import Mathlib.Tactic.MkIffOfInductiveProp

namespace AverQel.System

open Auth (Lower)
open Foundation Transition

structure RetentionHistory where
  clock : Time
  store : RetentionStore

namespace RetentionCall

variable (call : RetentionCall)

def reconciled (source : SourceKey) : List Time :=
  match call.operation with
  | .lifecycle operation => operation.reconciled call.now source
  | .reconcileTenant rows =>
    (rows.filter fun row => row.2.source = source).map fun row => row.2.updatedAt
  | _ => []

def newDays (lower : Lower) (tenantId : Uuid) : Option Int :=
  match call.operation with
  | .setPolicy tenant mode =>
    if tenant = tenantId then retentionDaysByMode (lower (Text.strip mode)) else none
  | _ => none

def reach : Reach where
  now := call.now
  sees := fun source moment => moment ∈ call.reconciled source
  takes := fun _ => True

end RetentionCall

namespace RetentionStore

open LifecycleStore (Follows follows_refl)

variable {lower : Lower} {s : RetentionStore}

theorem follows_reconcileTenant {rows : List (Uuid × SourceRow)} {now : Time} {reach : Reach}
    (sees : ∀ row ∈ rows, reach.sees row.2.source row.2.updatedAt) :
    s.lifecycle.Follows reach (s.committed id (s.reconcileTenant rows now)).lifecycle := by
  have loop : ∀ (rest : List (Uuid × SourceRow)) (t last : LifecycleStore),
      (∀ row ∈ rest, reach.sees row.2.source row.2.updatedAt) →
      (∀ row ∈ t.items.rows, s.lifecycle.Observed reach row) →
      t.retention = s.lifecycle.retention → rest.foldlM (reconcileRow now) t = .ok last →
      (∀ row ∈ last.items.rows, s.lifecycle.Observed reach row) ∧
        last.retention = s.lifecycle.retention := by
    intro rest
    induction rest with
    | nil =>
      intro t last _ observed retention done
      cases done
      exact ⟨observed, retention⟩
    | cons row rest ih =>
      intro t last all observed retention done
      rw [List.foldlM_cons] at done
      cases recorded : t.recordActivity row.1 row.2.activity now with
      | error =>
        rw [reconcileRow, recorded] at done
        cases done
      | ok result =>
        rw [reconcileRow, recorded] at done
        have one : ∀ source moment, LifecycleStore.Reconciles row.2.activity now source moment →
            reach.sees source moment := by
          rintro source moment ⟨_, same, rfl⟩
          rw [← same]
          exact all row List.mem_cons_self
        obtain ⟨rows, kept⟩ := LifecycleStore.observed_recordActivity recorded one
        refine ih result.1 last (fun other later => all other (List.mem_cons_of_mem row later)) ?_
          (kept.trans retention) done
        intro item member
        exact (rows item member).trans observed
  cases done : rows.foldlM (reconcileRow now) s.lifecycle with
  | error =>
    rw [reconcileTenant, done]
    exact follows_refl
  | ok last =>
    rw [reconcileTenant, done]
    obtain ⟨observed, retention⟩ := loop rows s.lifecycle last sees
      (fun row member => LifecycleStore.observed_self member) rfl done
    exact ⟨fun row member => .observed (observed row member), retention⟩

theorem follows_step {call : RetentionCall}
    (stays : ∀ tenantId mode, call.operation ≠ .setPolicy tenantId mode) :
    s.lifecycle.Follows call.reach (s.step lower call).lifecycle := by
  obtain ⟨now, conversations, operation⟩ := call
  cases operation with
  | lifecycle operation =>
    have follows := s.lifecycle.follows_step ⟨now, conversations, operation⟩
    exact follows.mono rfl (fun _ _ seen => seen) (fun _ _ => trivial)
  | reconcileTenant =>
    refine follows_reconcileTenant ?_
    intro row member
    exact List.mem_map.mpr ⟨row, List.mem_filter.mpr ⟨member, by simp⟩, rfl⟩
  | setPolicy tenantId mode => exact absurd rfl (stays tenantId mode)
  | claimScanRun =>
    simp only [step, claimScanRun]
    split
    · exact follows_refl
    · split <;> exact follows_refl
  | advanceScanRun tenantId runId cursor =>
    simp only [step, advanceScanRun]
    cases s.runs.advanceScanRun tenantId runId cursor now <;> exact follows_refl
  | preview tenantId runId =>
    let reach := (RetentionCall.mk now conversations (.preview tenantId runId)).reach
    have previewed : s.lifecycle.Follows reach (s.lifecycle.committed Prod.fst
        (s.lifecycle.preview conversations tenantId runId reach.now)) :=
      LifecycleStore.follows_preview
    simp only [step, preview]
    cases result : s.lifecycle.preview conversations tenantId runId now with
    | error => exact follows_refl
    | ok outcome =>
      have shown : s.lifecycle.preview conversations tenantId runId reach.now = .ok outcome := result
      rw [shown] at previewed
      dsimp only
      split
      · exact follows_refl
      · split
        · exact follows_refl
        · exact previewed
  | archiveStage tenantId runId previewRunId counts =>
    let version := (s.runs.find? previewRunId).elim 1 RetentionRun.policyVersion
    let reach := (RetentionCall.mk now conversations
      (.archiveStage tenantId runId previewRunId counts)).reach
    have taken : s.lifecycle.Follows reach (s.lifecycle.committed Prod.fst
        (s.lifecycle.archiveEligibleItems conversations tenantId version runId 500 now)) :=
      LifecycleStore.follows_archiveEligibleItems fun _ _ => trivial
    simp only [step, archiveStage]
    cases result : s.lifecycle.archiveEligibleItems conversations tenantId version runId 500 now with
    | error => exact follows_refl
    | ok =>
      rw [result] at taken
      dsimp only
      split
      · exact follows_refl
      · exact taken
  | completeScanRun => exact follows_refl

theorem setPolicy_step {call : RetentionCall} {tenantId : Uuid} {mode : String}
    (sets : call.operation = .setPolicy tenantId mode) :
    (s.step lower call).lifecycle.items = s.lifecycle.items ∧ ∀ tenant,
      (∃ days ∈ call.newDays lower tenant,
        ((s.step lower call).lifecycle.policy tenant).days = days) ∨
      (call.newDays lower tenant = none ∧
        (s.step lower call).lifecycle.policy tenant = s.lifecycle.policy tenant) := by
  simp only [step, sets, setPolicy, LifecycleStore.setPolicy]
  cases known : retentionDaysByMode (lower (Text.strip mode)) with
  | none =>
    refine ⟨rfl, fun tenant => .inr ⟨?_, rfl⟩⟩
    simp [RetentionCall.newDays, sets, known]
  | some days =>
    refine ⟨rfl, ?_⟩
    intro tenant
    by_cases same : tenantId = tenant
    · left
      refine ⟨days, by simp [RetentionCall.newDays, sets, known, same], ?_⟩
      simp [committed, Except.map, LifecycleStore.policy, same, known]
    · right
      refine ⟨by simp [RetentionCall.newDays, sets, same], ?_⟩
      simp [committed, Except.map, LifecycleStore.policy, Function.update_of_ne (Ne.symm same)]

end RetentionStore

namespace RetentionHistory

variable (lower : Lower) (h : RetentionHistory)

def step (call : RetentionCall) : RetentionHistory := ⟨call.now, h.store.step lower call⟩

def MarksCurrent : Prop :=
  ∀ item ∈ h.store.lifecycle.items.rows, item.state = .eligible →
    (h.store.lifecycle.policy item.source.tenantId).Allows h.clock item

/-- Time passes, and no mark is left behind that the new policy or the new activity would not
give. -/
@[mk_iff]
structure KeepsMarks (call : RetentionCall) : Prop where
  ordered : h.clock ≤ call.now
  policy : ∀ item ∈ h.store.lifecycle.items.rows, item.state = .eligible →
    ∀ days ∈ call.newDays lower item.source.tenantId,
      0 < days ∧ item.lastMeaningfulActivityAt ≤ call.now - days * day
  activity : ∀ item ∈ h.store.lifecycle.items.rows, item.state = .eligible →
    ∀ moment ∈ call.reconciled item.source,
      moment ≤ call.now - (h.store.lifecycle.policy item.source.tenantId).days * day

def ArchivesAllowed (call : RetentionCall) : Prop :=
  ∀ row ∈ (h.store.step lower call).lifecycle.items.rows, row.state = .archived →
    (∀ item ∈ h.store.lifecycle.items.rows, item.id = row.id → item.state ≠ .archived) →
    ((h.store.step lower call).lifecycle.policy row.source.tenantId).Allows call.now row

variable {lower h}

theorem allows_later {policy : RetentionPolicy} {now later : Time} {item : LifecycleItem}
    (order : now ≤ later) (allowed : policy.Allows now item) : policy.Allows later item := by
  obtain ⟨positive, old⟩ := allowed
  refine ⟨positive, ?_⟩
  have shifted : now - policy.days * day ≤ later - policy.days * day := sub_le_sub_right order _
  exact old.trans shifted

theorem step_of_setPolicy {call : RetentionCall} {tenantId : Uuid} {mode : String}
    (sets : call.operation = .setPolicy tenantId mode) (current : h.MarksCurrent)
    (keeps : h.KeepsMarks lower call) :
    (h.step lower call).MarksCurrent ∧ h.ArchivesAllowed lower call := by
  have written : (h.store.step lower call).lifecycle.items = h.store.lifecycle.items ∧ ∀ tenant,
      (∃ days ∈ call.newDays lower tenant,
        ((h.store.step lower call).lifecycle.policy tenant).days = days) ∨
      (call.newDays lower tenant = none ∧
        (h.store.step lower call).lifecycle.policy tenant = h.store.lifecycle.policy tenant) :=
    RetentionStore.setPolicy_step sets
  obtain ⟨items, policies⟩ := written
  refine ⟨?_, ?_⟩
  · intro item member eligible
    have stored : item ∈ h.store.lifecycle.items.rows := by
      rw [← items]
      exact member
    have before := allows_later keeps.ordered (current item stored eligible)
    rcases policies item.source.tenantId with ⟨days, set, inForce⟩ | ⟨_, same⟩
    · have fits := keeps.policy item stored eligible days set
      rw [← inForce] at fits
      exact fits
    · show ((h.store.step lower call).lifecycle.policy item.source.tenantId).Allows call.now item
      rw [same]
      exact before
  · intro row member archived fresh
    rw [items] at member
    exact absurd archived (fresh row member rfl)

theorem step_of_follows {call : RetentionCall}
    (stays : ∀ tenantId mode, call.operation ≠ .setPolicy tenantId mode)
    (current : h.MarksCurrent) (keeps : h.KeepsMarks lower call) :
    (h.step lower call).MarksCurrent ∧ h.ArchivesAllowed lower call := by
  have follows : h.store.lifecycle.Follows call.reach (h.store.step lower call).lifecycle :=
    RetentionStore.follows_step stays
  have policies := LifecycleStore.policy_congr follows.retention
  refine ⟨?_, ?_⟩
  · intro row member eligible
    show ((h.store.step lower call).lifecycle.policy row.source.tenantId).Allows call.now row
    rw [policies]
    cases follows.rows row member with
    | observed seen =>
      cases seen with
      | active state =>
        rw [state] at eligible
        cases eligible
      | kept item stored id source state time =>
        have marked : item.state = .eligible := state.trans eligible
        have before := allows_later keeps.ordered (current item stored marked)
        rw [source] at before
        rcases time with same | moment
        · exact ⟨before.1, same.le.trans before.2⟩
        · rw [← source] at moment
          have recent := keeps.activity item stored marked _ moment
          rw [source] at recent
          exact ⟨before.1, recent⟩
    | marked _ allowed => exact allowed
    | archived item stored id source was state =>
      rw [state] at eligible
      cases eligible
  · intro row member archived fresh
    rw [policies]
    cases follows.rows row member with
    | observed seen =>
      cases seen with
      | active state =>
        rw [state] at archived
        cases archived
      | kept item stored id source state =>
        exact absurd (state.trans archived) (fresh item stored id)
    | marked state =>
      rw [state] at archived
      cases archived
    | archived item stored id source was _ time =>
      have before := allows_later keeps.ordered (current item stored was)
      rw [source] at before
      exact ⟨before.1, time.le.trans before.2⟩

theorem step_of_keepsMarks {call : RetentionCall} (current : h.MarksCurrent)
    (keeps : h.KeepsMarks lower call) :
    (h.step lower call).MarksCurrent ∧ h.ArchivesAllowed lower call := by
  by_cases sets : ∃ tenantId mode, call.operation = .setPolicy tenantId mode
  · obtain ⟨tenantId, mode, sets⟩ := sets
    exact step_of_setPolicy sets current keeps
  · have stays : ∀ tenantId mode, call.operation ≠ .setPolicy tenantId mode :=
      fun tenantId mode same => sets ⟨tenantId, mode, same⟩
    exact step_of_follows stays current keeps

def fresh (retention : Uuid → Option RetentionSetting) (clock : Time) : RetentionHistory :=
  ⟨clock, LifecycleStore.fresh retention, .empty⟩

theorem marksCurrent_fresh (retention : Uuid → Option RetentionSetting) (clock : Time) :
    (fresh retention clock).MarksCurrent := by
  intro item member
  cases member

/-- In every run whose calls leave no stale mark behind, nothing is archived before the policy in
force at that moment allows it. -/
theorem archives_allowed_of_keepsMarks (lower : Lower)
    (retention : Uuid → Option RetentionSetting) (clock : Time) (calls : List RetentionCall)
    (keeps : Guarded (KeepsMarks lower) (step lower) (fresh retention clock) calls) :
    Guarded (ArchivesAllowed lower) (step lower) (fresh retention clock) calls := by
  refine (guarded_iff_of_guarded (I := MarksCurrent) ?_ ?_ (marksCurrent_fresh retention clock)
    keeps).mpr (guarded_true (step lower) (fresh retention clock) calls)
  · intro h call current guard
    exact (step_of_keepsMarks current guard).1
  · intro h call current guard
    exact iff_of_true (step_of_keepsMarks current guard).2 trivial

instance (lower : Lower) (h : RetentionHistory) (call : RetentionCall) :
    Decidable (h.ArchivesAllowed lower call) :=
  inferInstanceAs (Decidable (∀ row ∈ _, _ → _ → _))

instance (lower : Lower) (h : RetentionHistory) (call : RetentionCall) :
    Decidable (h.KeepsMarks lower call) :=
  decidable_of_iff _ (keepsMarks_iff lower h call).symm

def asciiLower : Lower := fun text => String.ofList (text.toList.map Char.toLower)

def thirtyDays : Uuid → Option RetentionSetting := fun _ => some ⟨"30", 1⟩

def noteWritten : RetentionCall :=
  ⟨0, fun _ _ => none, .lifecycle (.recordActivity 5 (LifecycleStore.memoryActivity "source_write"))⟩

def notePreviewed : RetentionCall := ⟨31 * day, fun _ _ => none, .preview 1 6⟩

def noteArchived : RetentionCall :=
  ⟨31 * day, fun _ _ => none, .lifecycle (.archiveItem 1 5 2 false)⟩

/-- A note that stays unused for a month is archived. -/
theorem unused_note_archived :
    Guarded (ArchivesAllowed asciiLower) (step asciiLower) (fresh thirtyDays 0)
      [noteWritten, notePreviewed, noteArchived] :=
  archives_allowed_of_keepsMarks asciiLower thirtyDays 0 _ (by decide +kernel)

/-- The tenant asks for ninety days after the preview; the mark of the preview still counts. -/
theorem longer_policy_ignored :
    ¬ ∀ (retention : Uuid → Option RetentionSetting) (clock : Time) (calls : List RetentionCall),
      Guarded (fun h call => h.clock ≤ call.now) (step asciiLower) (fresh retention clock) calls →
      Guarded (ArchivesAllowed asciiLower) (step asciiLower) (fresh retention clock) calls := by
  intro always
  let calls : List RetentionCall :=
    [noteWritten, notePreviewed, ⟨31 * day, fun _ _ => none, .setPolicy 1 "90"⟩, noteArchived]
  have ordered : Guarded (fun h call => h.clock ≤ call.now) (step asciiLower) (fresh thirtyDays 0)
      calls := by decide +kernel
  have early : ¬ Guarded (ArchivesAllowed asciiLower) (step asciiLower) (fresh thirtyDays 0)
      calls := by decide +kernel
  exact early (always thirtyDays 0 calls ordered)

end RetentionHistory

end AverQel.System
