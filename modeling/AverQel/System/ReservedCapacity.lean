/- digest: Whether the bytes that reservations hold stay available to them. -/
import AverQel.Foundation.Transition
import AverQel.System.StorageQuota

namespace AverQel.System

open Foundation Transition
open Auth (Lower)

structure QuotaState where
  quota : TenantQuota
  clock : Time

inductive QuotaOperation where
  | wait
  | reserve (args : TenantQuota.Reserve)
  | release (reservationKey status : String)
  /-- A write that asks `ensure_capacity` and, when it is admitted, leaves a measured usage. -/
  | write (who : QuotaRoles) (additionalBytes replacingBytes : Int) (usageAfter : Nat)

structure QuotaCall where
  elapsed : Nat
  operation : QuotaOperation

namespace TenantQuota

def new : TenantQuota := ⟨none, 0, .empty⟩

def allocatedBytes (q : TenantQuota) : Nat :=
  (q.allocation.map StorageAllocation.allocatedBytes).getD 0

def ensure (lower : Lower) (q : TenantQuota) (who : QuotaRoles) : StorageAllocation :=
  ensureAllocation q.allocation (who.plan lower)

/-- What an operation leaves committed; a refused one is rolled back. -/
def apply (lower : Lower) (q : TenantQuota) (now : Time) : QuotaOperation → TenantQuota
  | .wait => q
  | .reserve args =>
    match q.reserveCapacity lower args now with
    | .ok (after, _) => after
    | .error _ => q
  | .release reservationKey status =>
    match q.releaseCapacity reservationKey status now with
    | .ok (after, _) => after
    | .error _ => q
  | .write who additional replacing usageAfter =>
    match ensureCapacity q.allocation q.usageBytes (who.plan lower) who.userId additional
        replacing now with
    | .ok admission => { q with allocation := some admission.allocation, usageBytes := usageAfter }
    | .error _ => q

end TenantQuota

namespace QuotaState

variable (lower : Lower)

def start (clock : Time) : QuotaState := ⟨.new, clock⟩

def step (s : QuotaState) (call : QuotaCall) : QuotaState :=
  let now := s.clock + call.elapsed
  ⟨s.quota.apply lower now call.operation, now⟩

def Available (s : QuotaState) : Prop :=
  s.quota.usageBytes + s.quota.reserved s.clock ≤ s.quota.allocatedBytes

instance (s : QuotaState) : Decidable s.Available := inferInstanceAs (Decidable (_ ≤ _))

def Truthful (s : QuotaState) (call : QuotaCall) : Prop :=
  match call.operation with
  | .write _ additional replacing usageAfter =>
    usageAfter ≤ s.quota.usageBytes - replacing.toNat + additional.toNat
  | _ => True

/-- A write that is admitted leaves the open reservations their bytes. -/
def SparesReservations (s : QuotaState) (call : QuotaCall) : Prop :=
  match call.operation with
  | .write who additional replacing usageAfter =>
    let allocated := (s.quota.ensure lower who).allocatedBytes
    s.quota.usageBytes - replacing.toNat + additional.toNat ≤ allocated →
      usageAfter + s.quota.reserved (s.clock + call.elapsed) ≤ allocated
  | _ => True

def Planned (s : QuotaState) : Prop :=
  ∀ row ∈ s.quota.allocation, ∃ plan,
    plans row.planId = some plan ∧ row.allocatedBytes = plan.storageLimitBytes

end QuotaState

namespace QuotaReservation

variable {row : QuotaReservation} {now : Time}

theorem held_le_of_later {later : Time} (order : now ≤ later) : row.held later ≤ row.held now := by
  by_cases still : row.isOpen later = true
  · have opened : row.status = .active ∧ later < row.expiresAt := of_decide_eq_true still
    have open_ : row.isOpen now = true := by
      refine decide_eq_true ⟨opened.1, ?_⟩
      exact lt_of_le_of_lt order opened.2
    rw [held, held, if_pos still, if_pos open_]
  · rw [held, if_neg still]
    exact Nat.zero_le _

theorem held_expire : (row.expire now).held now = row.held now := by
  rw [expire]
  split
  · rename_i passed
    have closed : ¬ row.isOpen now = true := by
      intro still
      have opened : row.status = .active ∧ now < row.expiresAt := of_decide_eq_true still
      exact absurd opened.2 (not_lt.mpr passed.2)
    have expired : ¬ ({ row with
        status := .expired, releasedAt := some now } : QuotaReservation).isOpen now = true := by
      intro still
      have status : ReservationStatus.expired = .active := (of_decide_eq_true still).1
      cases status
    rw [held, held, if_neg closed, if_neg expired]
  · rfl

theorem held_close_le {status : ReservationStatus} (ended : status ≠ .active) :
    (row.close status now).held now ≤ row.held now := by
  rw [close]
  split
  · have closed : ¬ ({ row with
        status := status, releasedAt := some now } : QuotaReservation).isOpen now = true := by
      intro still
      exact ended (of_decide_eq_true still).1
    rw [held, if_neg closed]
    exact Nat.zero_le _
  · exact Nat.le_refl _

theorem held_le_reserved : row.held now ≤ row.reservedBytes := by
  rw [held]
  split
  · exact Nat.le_refl _
  · exact Nat.zero_le _

theorem held_renew {ownerUserId : Option Uuid} {reservedBytes : Nat} {expiresAt : Time}
    (later : now < expiresAt) :
    (row.renew ownerUserId reservedBytes expiresAt).held now = reservedBytes := by
  have opened : (row.renew ownerUserId reservedBytes expiresAt).isOpen now = true :=
    decide_eq_true ⟨rfl, later⟩
  rw [held, if_pos opened]
  rfl

end QuotaReservation

namespace TenantQuota

variable {lower : Lower} {q after : TenantQuota} {now : Time}

theorem reserved_le_of_later {later : Time} (order : now ≤ later) :
    q.reserved later ≤ q.reserved now :=
  total_le_total fun _ _ => QuotaReservation.held_le_of_later order

theorem total_expired : total (fun row => row.held now)
    (q.reservations.mapRows (fun row => row.expire now) (fun row => row.expire_key now)).rows =
      q.reserved now := by
  show total _ (q.reservations.rows.map _) = _
  rw [total_map]
  exact total_congr fun _ _ => QuotaReservation.held_expire

theorem lt_add_ttl (now ttl : Int) : now < now + max 1 (min ttl (24 * 60 * 60)) * 1000000 := by
  omega

theorem reserveCapacity_spec {args : Reserve} {row : QuotaReservation}
    (reserves : q.reserveCapacity lower args now = .ok (after, row)) :
    after.usageBytes = q.usageBytes ∧ after.allocation = some (q.ensure lower args.who) ∧
      (after.reserved now = q.reserved now ∨
        q.usageBytes + after.reserved now ≤ (q.ensure lower args.who).allocatedBytes) := by
  have counted : total (fun row => row.held now)
      (q.reservations.mapRows (fun row => row.expire now) (fun row => row.expire_key now)).rows =
        q.reserved now := total_expired
  rw [reserveCapacity] at reserves
  dsimp only at reserves
  split at reserves
  · cases reserves
  split at reserves
  · cases reserves
  rename_i positive
  split at reserves
  · cases reserves
    exact ⟨rfl, rfl, Or.inl rfl⟩
  rename_i notOpen
  split at reserves
  · cases reserves
  rename_i fits
  rw [counted] at fits
  have later : now < now + max 1 (min args.ttlSeconds (24 * 60 * 60)) * 1000000 :=
    lt_add_ttl now args.ttlSeconds
  split at reserves
  · split at reserves
    · cases reserves
    · rename_i reservations inserted
      cases reserves
      have sum := Table.total_of_insert? (fun row => row.held now) inserted
      have opened : QuotaReservation.held
          ⟨Text.strip args.reservationKey, args.who.userId, args.reservedBytes.toNat, .active,
            now + max 1 (min args.ttlSeconds (24 * 60 * 60)) * 1000000, none⟩ now ≤
          args.reservedBytes.toNat := QuotaReservation.held_le_reserved
      refine ⟨rfl, rfl, Or.inr ?_⟩
      show q.usageBytes + total (fun row => row.held now) reservations.rows ≤
        (ensureAllocation q.allocation (args.who.plan lower)).allocatedBytes
      omega
  · rename_i existing found
    cases reserves
    have current : (q.reservations.mapRows (fun row => row.expire now)
        (fun row => row.expire_key now)).find? (Text.strip args.reservationKey) =
        some (existing.expire now) := by
      rw [Table.find?_mapRows, found]
      rfl
    have sum := Table.total_modify (fun row => row.held now) current
      (fun row => row.renew args.who.userId args.reservedBytes.toNat
        (now + max 1 (min args.ttlSeconds (24 * 60 * 60)) * 1000000)) (fun _ => rfl)
    have renewed : ((existing.expire now).renew args.who.userId args.reservedBytes.toNat
        (now + max 1 (min args.ttlSeconds (24 * 60 * 60)) * 1000000)).held now =
        args.reservedBytes.toNat := QuotaReservation.held_renew later
    have grown := Nat.le_of_eq sum
    rw [renewed, counted] at grown
    have bound : q.usageBytes + (q.reserved now + args.reservedBytes.toNat) ≤
        (q.ensure lower args.who).allocatedBytes := by
      rw [ensure]
      omega
    refine ⟨rfl, rfl, Or.inr (Nat.le_trans (Nat.add_le_add_left ?_ _) bound)⟩
    exact Nat.le_trans (Nat.le_add_right _ _) grown

theorem releaseStatus_ne_active {name : String} {status : ReservationStatus}
    (accepted : releaseStatus name = some status) : status ≠ .active := by
  unfold releaseStatus at accepted
  split at accepted <;> cases accepted <;> decide

theorem reserved_releaseCapacity {reservationKey status : String} {found : Bool}
    (releases : q.releaseCapacity reservationKey status now = .ok (after, found)) :
    after.usageBytes = q.usageBytes ∧ after.allocation = q.allocation ∧
      after.reserved now ≤ q.reserved now := by
  rw [releaseCapacity] at releases
  split at releases
  · cases releases
  rename_i ended accepted
  split at releases
  · cases releases
    exact ⟨rfl, rfl, Nat.le_refl _⟩
  · cases releases
    refine ⟨rfl, rfl, ?_⟩
    show total _ (q.reservations.rows.map _) ≤ _
    rw [total_map]
    refine total_le_total ?_
    intro row _
    split
    · exact QuotaReservation.held_close_le (releaseStatus_ne_active accepted)
    · exact Nat.le_refl _

end TenantQuota

namespace QuotaState

variable {lower : Lower} {s : QuotaState} {call : QuotaCall}

theorem planned_ensure (planned : s.Planned) (who : QuotaRoles) :
    (∃ plan, plans (s.quota.ensure lower who).planId = some plan ∧
        (s.quota.ensure lower who).allocatedBytes = plan.storageLimitBytes) ∧
      s.quota.allocatedBytes ≤ (s.quota.ensure lower who).allocatedBytes :=
  ensureAllocation_planned (plans_plan lower who) planned

theorem planned_step (planned : s.Planned) : (s.step lower call).Planned := by
  rw [step]
  cases call.operation with
  | wait => exact planned
  | reserve args =>
    rw [TenantQuota.apply]
    split
    · rename_i after row reserves
      obtain ⟨_, allocation, _⟩ := TenantQuota.reserveCapacity_spec reserves
      intro stored kept
      rw [allocation] at kept
      cases kept
      exact (planned_ensure planned args.who).1
    · exact planned
  | release key status =>
    rw [TenantQuota.apply]
    split
    · rename_i after found releases
      obtain ⟨_, allocation, _⟩ := TenantQuota.reserved_releaseCapacity releases
      intro stored kept
      rw [allocation] at kept
      exact planned stored kept
    · exact planned
  | write who additional replacing usageAfter =>
    rw [TenantQuota.apply]
    split
    · rename_i admission admitted
      obtain ⟨plan, bytes⟩ := ensureCapacity_allocation admitted
      intro stored kept
      cases kept
      rw [plan, bytes]
      exact (planned_ensure planned who).1
    · exact planned

theorem available_step_iff (planned : s.Planned) (available : s.Available) :
    (s.step lower call).Available ↔ s.SparesReservations lower call := by
  have order : s.clock ≤ s.clock + call.elapsed :=
    le_add_of_nonneg_right (Int.natCast_nonneg call.elapsed)
  have waited : s.quota.usageBytes + s.quota.reserved (s.clock + call.elapsed) ≤
      s.quota.allocatedBytes := by
    have fewer := TenantQuota.reserved_le_of_later (q := s.quota) order
    exact Nat.le_trans (Nat.add_le_add_left fewer _) available
  rw [step, SparesReservations, Available]
  dsimp only
  cases call.operation with
  | wait => exact iff_of_true waited trivial
  | reserve args =>
    refine iff_of_true ?_ trivial
    rw [TenantQuota.apply]
    split
    · rename_i after row reserves
      obtain ⟨usage, allocation, held⟩ := TenantQuota.reserveCapacity_spec reserves
      have grown : s.quota.allocatedBytes ≤ (s.quota.ensure lower args.who).allocatedBytes :=
        (planned_ensure planned args.who).2
      have allocated : after.allocatedBytes = (s.quota.ensure lower args.who).allocatedBytes := by
        rw [TenantQuota.allocatedBytes, allocation]
        rfl
      rw [usage, allocated]
      rcases held with same | fits
      · rw [same]
        omega
      · exact fits
    · exact waited
  | release key status =>
    refine iff_of_true ?_ trivial
    rw [TenantQuota.apply]
    split
    · rename_i after found releases
      obtain ⟨usage, allocation, fewer⟩ := TenantQuota.reserved_releaseCapacity releases
      have allocated : after.allocatedBytes = s.quota.allocatedBytes := by
        rw [TenantQuota.allocatedBytes, allocation]
        rfl
      rw [usage, allocated]
      omega
    · exact waited
  | write who additional replacing usageAfter =>
    have fits : (∃ admission, ensureCapacity s.quota.allocation s.quota.usageBytes
        (who.plan lower) who.userId additional replacing (s.clock + call.elapsed) = .ok admission) ↔
        s.quota.usageBytes - replacing.toNat + additional.toNat ≤
          (ensureAllocation s.quota.allocation (who.plan lower)).allocatedBytes :=
      ensureCapacity_ok_iff
    dsimp only
    rw [TenantQuota.apply]
    split
    · rename_i admission admitted
      have room := fits.mp ⟨admission, admitted⟩
      have bytes : (admission.allocation).allocatedBytes =
          (s.quota.ensure lower who).allocatedBytes := (ensureCapacity_allocation admitted).2
      show usageAfter + s.quota.reserved _ ≤ admission.allocation.allocatedBytes ↔ _
      rw [bytes]
      exact ⟨fun spared _ => spared, fun spared => spared room⟩
    · rename_i error refused
      refine iff_of_true waited ?_
      intro room
      obtain ⟨admission, admitted⟩ := fits.mpr room
      rw [refused] at admitted
      cases admitted

end QuotaState

/-- In every run the allocation of a tenant is that of its plan. -/
theorem allocation_planned (lower : Lower) (clock : Time) (calls : List QuotaCall) :
    (run (QuotaState.step lower) (.start clock) calls).Planned :=
  run_of_keeps (fun _ _ planned => QuotaState.planned_step planned)
    (fun _ stored => by cases stored) calls

/-- In every run of a new tenant, the usage and the open reservations fit the allocation in every
state reached exactly when each admitted write leaves the open reservations their bytes. -/
theorem reserved_capacity_available_iff (lower : Lower) (clock : Time) (calls : List QuotaCall) :
    (∀ s ∈ trace (QuotaState.step lower) (.start clock) calls, s.Available) ↔
      Guarded (QuotaState.SparesReservations lower) (QuotaState.step lower) (.start clock)
        calls := by
  have planned : (QuotaState.start clock).Planned := by
    intro row stored
    cases stored
  have available : (QuotaState.start clock).Available := Nat.le_refl 0
  exact forall_trace_iff_guarded (fun s call planned => QuotaState.planned_step planned)
    (fun s call planned available => QuotaState.available_step_iff planned available) planned
    available

def memberRoles : QuotaRoles := ⟨{"user"}, some 3, ∅⟩

def writeBesideUpload : List QuotaCall :=
  [ ⟨0, .reserve ⟨"library-upload:1", 400 * bytesPerMb, memberRoles, 900⟩⟩
  , ⟨1, .write memberRoles (200 * bytesPerMb) 0 (200 * bytesPerMb)⟩ ]

/-- A truthful write is admitted into the bytes of an open reservation. -/
theorem write_admitted_into_reservation :
    ¬ ∀ (lower : Lower) (clock : Time) (calls : List QuotaCall),
      Guarded QuotaState.Truthful (QuotaState.step lower) (.start clock) calls →
        ∀ s ∈ trace (QuotaState.step lower) (.start clock) calls, s.Available := by
  intro always
  have truthful : Guarded QuotaState.Truthful (QuotaState.step id) (.start 0)
      writeBesideUpload := by
    refine ⟨trivial, ?_, trivial⟩
    show 200 * bytesPerMb ≤ _
    decide +kernel
  have available : (run (QuotaState.step id) (.start 0) writeBesideUpload).Available :=
    always id 0 writeBesideUpload truthful _ (run_mem_trace _ _ writeBesideUpload)
  have broken : ¬ (run (QuotaState.step id) (.start 0) writeBesideUpload).Available := by
    decide +kernel
  exact broken available

end AverQel.System
