/- digest: Storage plans, allocations, admission of writes and reservations of one tenant. -/
import AverQel.Auth.Roles
import AverQel.Base
import AverQel.Foundation.Totals

namespace AverQel.System

open Foundation
open Auth (Lower canonicalizeRoleNames)

structure StoragePlan where
  (id name : String)
  storageLimitBytes : Nat
  deriving DecidableEq, Repr

def bytesPerMb : Nat := 1024 * 1024

def freePlan : StoragePlan := ⟨"free", "Free", 500 * bytesPerMb⟩
def editorPlan : StoragePlan := ⟨"editor", "Editor", 1024 * bytesPerMb⟩
def adminPlan : StoragePlan := ⟨"admin", "Admin", 1024 * bytesPerMb⟩

/-- `PLANS` -/
def plans : String → Option StoragePlan
  | "free" => some freePlan
  | "editor" => some editorPlan
  | "admin" => some adminPlan
  | _ => none

def resolveStoragePlan (lower : Lower) (roles : Finset String) : StoragePlan :=
  if "admin" ∈ canonicalizeRoleNames lower roles then adminPlan
  else if "editor" ∈ canonicalizeRoleNames lower roles then editorPlan
  else freePlan

structure QuotaRoles where
  roles : Finset String
  userId : Option Uuid
  stored : Finset String

def QuotaRoles.plan (lower : Lower) (who : QuotaRoles) : StoragePlan :=
  if who.roles = ∅ then
    match who.userId with
    | none => freePlan
    | some _ => resolveStoragePlan lower who.stored
  else resolveStoragePlan lower who.roles

/-- Every plan that is requested is one of `PLANS`. -/
theorem plans_resolveStoragePlan (lower : Lower) (roles : Finset String) :
    plans (resolveStoragePlan lower roles).id = some (resolveStoragePlan lower roles) := by
  rw [resolveStoragePlan]
  split
  · rfl
  · split <;> rfl

theorem plans_plan (lower : Lower) (who : QuotaRoles) :
    plans (who.plan lower).id = some (who.plan lower) := by
  rw [QuotaRoles.plan]
  split
  · split
    · rfl
    · exact plans_resolveStoragePlan lower who.stored
  · exact plans_resolveStoragePlan lower who.roles

/-- `tenant_storage_allocations` -/
structure StorageAllocation where
  planId : String
  (allocatedBytes measuredBytes : Nat)
  measuredAt : Option Time
  deriving DecidableEq, Repr

inductive ReservationStatus where
  | active
  | expired
  | released
  | committed
  deriving DecidableEq, Repr

/-- `storage_quota_reservations` -/
structure QuotaReservation where
  reservationKey : String
  ownerUserId : Option Uuid
  reservedBytes : Nat
  status : ReservationStatus
  expiresAt : Time
  releasedAt : Option Time
  deriving DecidableEq, Repr

/-- The quota rows of a tenant and the total that `usage` measures for it. -/
structure TenantQuota where
  allocation : Option StorageAllocation
  usageBytes : Nat
  reservations : Table QuotaReservation QuotaReservation.reservationKey

inductive QuotaError where
  | exceeded (plan : StoragePlan) (usageBytes requestedBytes : Nat)
  | reservation (message : String)
  /-- A violated unique constraint. -/
  | database
  deriving DecidableEq, Repr

section Admission

/-- `ensure_allocation` -/
def ensureAllocation (allocation : Option StorageAllocation) (requestedPlan : StoragePlan) :
    StorageAllocation :=
  match allocation with
  | none => ⟨requestedPlan.id, requestedPlan.storageLimitBytes, 0, none⟩
  | some row =>
    let current := (plans row.planId).getD freePlan
    if current.storageLimitBytes < requestedPlan.storageLimitBytes then
      { row with planId := requestedPlan.id, allocatedBytes := requestedPlan.storageLimitBytes }
    else if requestedPlan.storageLimitBytes = current.storageLimitBytes ∧
        requestedPlan.id ≠ current.id then
      { row with planId := requestedPlan.id }
    else row

/-- The thresholds in percent whose notice `ensure_capacity` adds. -/
def quotaThresholds (projectedUsage allocatedBytes : Nat) : List Nat :=
  [80, 90, 100].filter fun threshold => allocatedBytes * threshold ≤ projectedUsage * 100

/-- What `ensure_capacity` writes for a write that it admits. -/
structure Admission where
  allocation : StorageAllocation
  thresholds : List Nat
  planChanged : Bool
  deriving DecidableEq, Repr

def ensureCapacity (allocation : Option StorageAllocation) (usageBytes : Nat)
    (plan : StoragePlan) (userId : Option Uuid) (additionalBytes replacingBytes : Int)
    (now : Time) : Except QuotaError Admission :=
  let safeAdditional := additionalBytes.toNat
  let safeReplacing := replacingBytes.toNat
  let row := ensureAllocation allocation plan
  let effectiveUsage := usageBytes - safeReplacing
  let allocatedPlan := (plans row.planId).getD plan
  let projectedUsage := effectiveUsage + safeAdditional
  if row.allocatedBytes < projectedUsage then
    .error (.exceeded allocatedPlan effectiveUsage safeAdditional)
  else
    .ok
      { allocation := { row with measuredBytes := effectiveUsage, measuredAt := some now }
        thresholds :=
          if userId.isSome ∧ 0 < row.allocatedBytes then
            quotaThresholds projectedUsage row.allocatedBytes
          else []
        planChanged :=
          userId.isSome && allocation.any (fun prior => prior.planId ≠ allocatedPlan.id) }

variable {allocation : Option StorageAllocation} {requested : StoragePlan}

theorem ensureAllocation_planned (known : plans requested.id = some requested)
    (planned : ∀ row ∈ allocation, ∃ plan,
      plans row.planId = some plan ∧ row.allocatedBytes = plan.storageLimitBytes) :
    (∃ plan, plans (ensureAllocation allocation requested).planId = some plan ∧
        (ensureAllocation allocation requested).allocatedBytes = plan.storageLimitBytes) ∧
      (allocation.map StorageAllocation.allocatedBytes).getD 0 ≤
        (ensureAllocation allocation requested).allocatedBytes := by
  cases allocation with
  | none => exact ⟨⟨requested, known, rfl⟩, Nat.zero_le _⟩
  | some row =>
    obtain ⟨plan, current, bytes⟩ := planned row rfl
    simp only [ensureAllocation, current, Option.getD_some, Option.map_some]
    by_cases larger : plan.storageLimitBytes < requested.storageLimitBytes
    · rw [if_pos larger]
      refine ⟨⟨requested, known, rfl⟩, ?_⟩
      show row.allocatedBytes ≤ requested.storageLimitBytes
      omega
    · rw [if_neg larger]
      by_cases renamed : requested.storageLimitBytes = plan.storageLimitBytes ∧
          requested.id ≠ plan.id
      · rw [if_pos renamed]
        refine ⟨⟨requested, known, ?_⟩, Nat.le_refl _⟩
        show row.allocatedBytes = requested.storageLimitBytes
        omega
      · rw [if_neg renamed]
        exact ⟨⟨plan, current, bytes⟩, Nat.le_refl _⟩

theorem ensureCapacity_ok_iff {usageBytes : Nat} {userId : Option Uuid}
    {additional replacing : Int} {now : Time} :
    (∃ admission, ensureCapacity allocation usageBytes requested userId additional replacing now =
        .ok admission) ↔
      usageBytes - replacing.toNat + additional.toNat ≤
        (ensureAllocation allocation requested).allocatedBytes := by
  by_cases full : (ensureAllocation allocation requested).allocatedBytes <
      usageBytes - replacing.toNat + additional.toNat
  · simp only [ensureCapacity, if_pos full]
    refine iff_of_false ?_ (by omega)
    rintro ⟨admission, admitted⟩
    cases admitted
  · simp only [ensureCapacity, if_neg full]
    exact iff_of_true ⟨_, rfl⟩ (by omega)

theorem ensureCapacity_allocation {usageBytes : Nat} {userId : Option Uuid}
    {additional replacing : Int} {now : Time} {admission : Admission}
    (admitted : ensureCapacity allocation usageBytes requested userId additional replacing now =
      .ok admission) :
    admission.allocation.planId = (ensureAllocation allocation requested).planId ∧
      admission.allocation.allocatedBytes =
        (ensureAllocation allocation requested).allocatedBytes := by
  rw [ensureCapacity] at admitted
  split at admitted
  · cases admitted
  · cases admitted
    exact ⟨rfl, rfl⟩

end Admission

namespace QuotaReservation

variable (row : QuotaReservation)

def isOpen (now : Time) : Bool := row.status = .active ∧ now < row.expiresAt

def held (now : Time) : Nat := if row.isOpen now then row.reservedBytes else 0

def expire (now : Time) : QuotaReservation :=
  if row.status = .active ∧ row.expiresAt ≤ now then
    { row with status := .expired, releasedAt := some now }
  else row

/-- A row whose reservation ended is used again. -/
def renew (ownerUserId : Option Uuid) (reservedBytes : Nat) (expiresAt : Time) : QuotaReservation :=
  { row with
    ownerUserId := ownerUserId.or row.ownerUserId
    reservedBytes := reservedBytes
    status := .active
    expiresAt := expiresAt
    releasedAt := none }

def close (status : ReservationStatus) (now : Time) : QuotaReservation :=
  if row.status = .active then { row with status := status, releasedAt := some now } else row

theorem close_key (status : ReservationStatus) (now : Time) :
    (row.close status now).reservationKey = row.reservationKey := by
  rw [close]
  split <;> rfl

theorem expire_key (now : Time) : (row.expire now).reservationKey = row.reservationKey := by
  rw [expire]
  split <;> rfl

end QuotaReservation

namespace TenantQuota

variable (q : TenantQuota)

def reserved (now : Time) : Nat := total (fun row => row.held now) q.reservations.rows

/-- The arguments of `reserve_capacity`. -/
structure Reserve where
  reservationKey : String
  reservedBytes : Int
  who : QuotaRoles
  ttlSeconds : Int

def reserveCapacity (lower : Lower) (args : Reserve) (now : Time) :
    Except QuotaError (TenantQuota × QuotaReservation) :=
  let key := Text.strip args.reservationKey
  let amount := args.reservedBytes.toNat
  let ttl := max 1 (min args.ttlSeconds (24 * 60 * 60))
  let plan := args.who.plan lower
  let allocation := ensureAllocation q.allocation plan
  let existing := q.reservations.find? key
  if key = "" ∨ 255 < key.length then
    .error (.reservation "A bounded reservation key is required.")
  else if amount = 0 then
    .error (.reservation "Reserved bytes must be greater than zero.")
  else
    match existing.filter fun row => row.isOpen now with
    | some row => .ok ({ q with allocation := some allocation }, row)
    | none =>
      let current := q.reservations.mapRows (fun row => row.expire now)
        (fun row => row.expire_key now)
      let used := q.usageBytes + total (fun row => row.held now) current.rows
      if allocation.allocatedBytes < used + amount then
        .error (.exceeded ((plans allocation.planId).getD plan) used amount)
      else
        let expiresAt := now + ttl * 1000000
        match existing with
        | none =>
          let row : QuotaReservation := ⟨key, args.who.userId, amount, .active, expiresAt, none⟩
          match current.insert? row with
          | none => .error .database
          | some reservations =>
            .ok ({ q with allocation := some allocation, reservations := reservations }, row)
        | some row =>
          .ok ({ q with
            allocation := some allocation
            reservations := current.modify key
              (fun row => row.renew args.who.userId amount expiresAt) (fun _ => rfl) },
            row.renew args.who.userId amount expiresAt)

/-- The statuses that `release_capacity` accepts. -/
def releaseStatus : String → Option ReservationStatus
  | "released" => some .released
  | "committed" => some .committed
  | _ => none

/-- `release_capacity`: the key is looked up as it is given. -/
def releaseCapacity (reservationKey status : String) (now : Time) :
    Except QuotaError (TenantQuota × Bool) :=
  match releaseStatus status with
  | none => .error (.reservation "Reservation status must be released or committed.")
  | some status =>
    match q.reservations.find? reservationKey with
    | none => .ok (q, false)
    | some _ =>
      .ok ({ q with
        reservations := q.reservations.modify reservationKey (fun row => row.close status now)
          (fun row => row.close_key status now) }, true)

end TenantQuota

end AverQel.System
