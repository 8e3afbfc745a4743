/- digest: When the limits of a space hold and every change of its members advances its epoch. -/
import AverQel.Documents.MembershipCalls

namespace AverQel.Documents.Membership

open Foundation Interleaving Transition

/-- One owner, at most ten connected members, and at most one pending invitation, which the lookup
finds. -/
structure SpaceRow.Limited (space : SpaceRow) : Prop where
  owner : space.countRole .owner = 1
  members : space.countConnectedMembers ≤ 10
  pending : space.countRole .pending ≤ 1
  lookup : space.hasPendingInvite ≠ none

def Limits (system : System) : Prop := ∀ space ∈ system.shared, space.Limited

def Advances (system : System) (turn : Nat × Bool) : Prop :=
  ∀ space ∈ system.shared, ∀ after ∈ (system.step turn).shared,
    (∃ userId, space.isConnected userId ≠ after.isConnected userId) →
      space.securityEpoch < after.securityEpoch

def WithinLimits (space : SpaceRow) : Write → Prop
  | .invite target => space.permission target = none → space.countRole .pending = 0
  | .promote _ (some row) => (∃ p ∈ space.permissions.rows, p.id = row ∧ isConnectedRole p.role = false) →
      space.countConnectedMembers < 10
  | _ => True

/-- The commits that change who is connected write over an epoch that is still the one they have
loaded. -/
def UpToDate (space : SpaceRow) : Write → Prop
  | .promote epoch (some row) =>
    (∃ p ∈ space.permissions.rows, p.id = row ∧ isConnectedRole p.role = false) →
      space.securityEpoch ≤ epoch
  | .decline epoch userId => space.isConnected userId = true → space.securityEpoch ≤ epoch
  | .remove epoch userIds =>
    (∃ userId ∈ userIds, space.isConnected userId = true) → space.securityEpoch ≤ epoch
  | _ => True

def committed (system : System) (turn : Nat × Bool) : Option (SpaceRow × Write) :=
  match turn.2, system.shared, (system.calls[turn.1]?).map Call.point with
  | false, some space, some (.committing write) => some (space, write)
  | _, _, _ => none

def Careful (system : System) (turn : Nat × Bool) : Prop :=
  ∀ pair ∈ committed system turn, WithinLimits pair.1 pair.2 ∧ UpToDate pair.1 pair.2

variable {space after : SpaceRow} {owner : Uuid}

theorem hasPendingInvite_ne_none : space.hasPendingInvite ≠ none ↔ space.countRole .pending ≤ 1 := by
  rw [SpaceRow.hasPendingInvite, SpaceRow.countRole, List.countP_eq_length_filter]
  split
  · rename_i nobody
    rw [nobody]
    simp
  · rename_i one
    rw [one]
    simp
  · rename_i rest none_there one_there
    cases pending : space.permissions.rows.filter fun p => decide (p.role = .pending) with
    | nil => exact absurd pending none_there
    | cons first others =>
      cases others with
      | nil => exact absurd pending (one_there first)
      | cons => simp

/-- The owner's row is the only one with the role of an owner. -/
structure Owned (owner : Uuid) (space : SpaceRow) : Prop where
  ids : (space.permissions.rows.map MemberRow.id).Nodup
  fresh : ∀ p ∈ space.permissions.rows, p.id < space.made
  role : ∀ p ∈ space.permissions.rows, p.role = .owner ↔ p.userId = owner
  present : ∃ p ∈ space.permissions.rows, p.userId = owner

theorem owned_created (owner : Uuid) : Owned owner (SpaceRow.created owner) where
  ids := List.nodup_singleton _
  fresh p here := by
    rw [List.mem_singleton.mp here]
    exact Nat.one_pos
  role p here := by
    rw [List.mem_singleton.mp here]
    exact iff_of_true rfl rfl
  present := ⟨_, List.mem_singleton_self _, rfl⟩

theorem Owned.countRole_owner (owned : Owned owner space) : space.countRole .owner = 1 := by
  obtain ⟨p, inside, mine⟩ := owned.present
  have once := space.permissions.countP_key inside
  rw [← once, SpaceRow.countRole]
  refine List.countP_congr fun q here => ?_
  simp only [decide_eq_true_eq, mine]
  exact owned.role q here

theorem Owned.limited_iff (owned : Owned owner space) :
    space.Limited ↔ space.countConnectedMembers ≤ 10 ∧ space.countRole .pending ≤ 1 := by
  constructor
  · intro limited
    exact ⟨limited.members, limited.pending⟩
  · rintro ⟨members, pending⟩
    exact ⟨owned.countRole_owner, members, pending, hasPendingInvite_ne_none.mpr pending⟩

def Fits (owner : Uuid) (space : SpaceRow) : Write → Prop
  | .promote _ (some row) =>
    row < space.made ∧ ∀ p ∈ space.permissions.rows, p.id = row → p.userId ≠ owner
  | .decline _ userId => userId ≠ owner
  | .remove _ userIds => owner ∉ userIds
  | _ => True

structure Follows (space after : SpaceRow) : Prop where
  more : space.made ≤ after.made
  old : ∀ q ∈ after.permissions.rows, q.id < space.made →
    ∃ p ∈ space.permissions.rows, p.id = q.id ∧ p.userId = q.userId

theorem Follows.refl (space : SpaceRow) : Follows space space :=
  ⟨Nat.le_refl _, fun q here _ => ⟨q, here, rfl, rfl⟩⟩

theorem Fits.later {write : Write} (fits : Fits owner space write)
    (follows : Follows space after) : Fits owner after write := by
  cases write with
  | promote epoch row =>
    cases row with
    | none => trivial
    | some =>
      refine ⟨Nat.lt_of_lt_of_le fits.1 follows.more, fun q here same => ?_⟩
      obtain ⟨p, before, id, user⟩ := follows.old q here (same ▸ fits.1)
      rw [← user]
      exact fits.2 p before (id.trans same)
  | _ => exact fits

variable {target : Uuid}

theorem invite_eq_some (invited : space.invite target = some after) :
    after.permissions.rows = space.permissions.rows ++ [⟨space.made, target, .pending⟩] ∧
      after.made = space.made + 1 ∧ after.securityEpoch = space.securityEpoch ∧
      space.permission target = none := by
  obtain ⟨permissions, inserted, rfl⟩ := Option.map_eq_some_iff.mp invited
  refine ⟨Table.rows_of_insert? inserted, rfl, rfl, ?_⟩
  exact Table.find?_eq_none_iff.mpr fun p here => Table.fresh_of_insert? inserted here

theorem owned_invite (owned : Owned owner space) (invited : space.invite target = some after) :
    Owned owner after ∧ Follows space after := by
  obtain ⟨rows, made, _, absent⟩ := invite_eq_some invited
  have apart : ∀ p ∈ space.permissions.rows, p.userId ≠ target :=
    Table.find?_eq_none_iff.mp absent
  have mem : ∀ q ∈ after.permissions.rows, q ∈ space.permissions.rows ∨
      q = ⟨space.made, target, .pending⟩ := by
    intro q here
    rw [rows] at here
    exact (List.mem_append.mp here).imp id List.mem_singleton.mp
  obtain ⟨mine, inside, user⟩ := owned.present
  refine ⟨⟨?_, ?_, ?_, mine, ?_, user⟩, ?_, ?_⟩
  · rw [rows, List.map_append]
    refine owned.ids.append (List.nodup_singleton _) fun id old new => ?_
    obtain ⟨p, here, rfl⟩ := List.mem_map.mp old
    have below := owned.fresh p here
    have same : p.id = space.made := List.mem_singleton.mp new
    omega
  · intro q here
    rw [made]
    rcases mem q here with old | rfl
    · exact Nat.lt_succ_of_lt (owned.fresh q old)
    · exact Nat.lt_succ_self _
  · intro q here
    rcases mem q here with old | rfl
    · exact owned.role q old
    · have other : target ≠ owner := fun same => apart mine inside (user.trans same.symm)
      exact iff_of_false AccessRole.noConfusion other
  · rw [rows]
    exact List.mem_append_left _ inside
  · omega
  · intro q here below
    rcases mem q here with old | rfl
    · exact ⟨q, old, rfl, rfl⟩
    · exact absurd below (Nat.lt_irrefl _)

theorem countConnected_invite (invited : space.invite target = some after) :
    after.countConnectedMembers = space.countConnectedMembers := by
  rw [SpaceRow.countConnectedMembers, (invite_eq_some invited).1, List.countP_append]
  rfl

theorem countPending_invite (invited : space.invite target = some after) :
    after.countRole .pending = space.countRole .pending + 1 := by
  rw [SpaceRow.countRole, (invite_eq_some invited).1, List.countP_append]
  rfl

theorem isConnected_invite (invited : space.invite target = some after) (userId : Uuid) :
    after.isConnected userId = space.isConnected userId := by
  obtain ⟨permissions, inserted, rfl⟩ := Option.map_eq_some_iff.mp invited
  have absent := (invite_eq_some invited).2.2.2
  simp only [SpaceRow.isConnected, SpaceRow.permission, Table.find?_of_insert? inserted] at absent ⊢
  by_cases same : userId = target
  · rw [if_pos same, same, absent]
    rfl
  · rw [if_neg same]

variable {row : Nat} {p : MemberRow} (epoch : Nat)

theorem rows_promote (owned : Owned owner space) (inside : p ∈ space.permissions.rows)
    (id : p.id = row) : ∃ i, space.permissions.rows[i]? = some p ∧
      (space.promote epoch row).permissions.rows =
        space.permissions.rows.set i { p with role := .member } := by
  obtain ⟨i, here⟩ := List.mem_iff_getElem?.mp inside
  refine ⟨i, here, ?_⟩
  have written := set_eq_map MemberRow.id owned.ids here fun p => { p with role := .member }
  rw [written, id]
  rfl

theorem owned_promote (owned : Owned owner space)
    (fits : ∀ p ∈ space.permissions.rows, p.id = row → p.userId ≠ owner) :
    Owned owner (space.promote epoch row) ∧ Follows space (space.promote epoch row) := by
  have mem : ∀ q ∈ (space.promote epoch row).permissions.rows, ∃ p ∈ space.permissions.rows,
      p.id = q.id ∧ p.userId = q.userId ∧ (q.role = p.role ∨ p.id = row ∧ q.role = .member) := by
    intro q here
    obtain ⟨p, inside, rfl⟩ := List.mem_map.mp here
    refine ⟨p, inside, ?_⟩
    split
    · rename_i mine
      exact ⟨rfl, rfl, .inr ⟨mine, rfl⟩⟩
    · exact ⟨rfl, rfl, .inl rfl⟩
  obtain ⟨mine, inside, user⟩ := owned.present
  refine ⟨⟨?_, ?_, ?_, ?_⟩, Nat.le_refl _, ?_⟩
  · have same : (space.promote epoch row).permissions.rows.map MemberRow.id =
        space.permissions.rows.map MemberRow.id := by
      show (space.permissions.rows.map _).map MemberRow.id = _
      rw [List.map_map]
      refine List.map_congr_left fun p _ => ?_
      show (if p.id = row then { p with role := .member } else p : MemberRow).id = p.id
      split <;> rfl
    rw [same]
    exact owned.ids
  · intro q here
    obtain ⟨p, old, id, _⟩ := mem q here
    rw [← id]
    exact owned.fresh p old
  · intro q here
    obtain ⟨p, old, _, user, same | ⟨id, member⟩⟩ := mem q here
    · rw [same, ← user]
      exact owned.role p old
    · rw [member, ← user]
      exact iff_of_false (by decide) (fits p old id)
  · refine ⟨_, List.mem_map_of_mem inside, ?_⟩
    rw [if_neg fun id => fits mine inside id user]
    exact user
  · intro q here _
    obtain ⟨p, old, id, user, _⟩ := mem q here
    exact ⟨p, old, id, user⟩

theorem counts_promote (owned : Owned owner space) (inside : p ∈ space.permissions.rows)
    (id : p.id = row) :
    (space.promote epoch row).countConnectedMembers + (isConnectedRole p.role).toNat =
        space.countConnectedMembers + 1 ∧
      (space.promote epoch row).countRole .pending + (!isConnectedRole p.role).toNat =
        space.countRole .pending := by
  obtain ⟨i, here, rows⟩ := rows_promote epoch owned inside id
  have written := fun c : AccessRole → Bool =>
    countP_set_add { p with role := .member } (fun q : MemberRow => c q.role) here
  have pending : decide (p.role = .pending) = !isConnectedRole p.role := by
    cases p.role <;> rfl
  constructor
  · rw [SpaceRow.countConnectedMembers, rows]
    exact written isConnectedRole
  · rw [SpaceRow.countRole, rows, ← pending]
    exact written fun role => decide (role = .pending)

theorem permission_promote (userId : Uuid) : (space.promote epoch row).permission userId =
    (space.permission userId).map fun p => if p.id = row then { p with role := .member } else p :=
  Table.find?_mapRows _ _ (fun p => by split <;> rfl) _

theorem isConnected_promote : (∃ userId, space.isConnected userId ≠
      (space.promote epoch row).isConnected userId) ↔
    ∃ p ∈ space.permissions.rows, p.id = row ∧ isConnectedRole p.role = false := by
  constructor
  · rintro ⟨userId, changed⟩
    simp only [SpaceRow.isConnected, permission_promote] at changed
    cases found : space.permission userId with
    | none => simp [found] at changed
    | some p =>
      refine ⟨p, (Table.find?_eq_some_iff.mp found).1, ?_⟩
      by_cases mine : p.id = row
      · refine ⟨mine, ?_⟩
        cases role : isConnectedRole p.role with
        | false => rfl
        | true =>
          simp only [found, Option.any_some, Option.map_some, if_pos mine, role] at changed
          exact absurd rfl changed
      · simp [found, mine] at changed
  · rintro ⟨p, inside, mine, apart⟩
    refine ⟨p.userId, ?_⟩
    have found : space.permission p.userId = some p := Table.find?_eq_some_iff.mpr ⟨inside, rfl⟩
    simp only [SpaceRow.isConnected, permission_promote, found, Option.map_some, Option.any_some,
      apart, if_pos mine]
    decide

variable {userIds : List Uuid} (epoch : Nat)

theorem owned_drop (owned : Owned owner space) (kept : owner ∉ userIds) :
    Owned owner (space.drop epoch userIds) ∧ Follows space (space.drop epoch userIds) := by
  have mem : ∀ q ∈ (space.drop epoch userIds).permissions.rows, q ∈ space.permissions.rows :=
    fun q here => (Table.mem_filter.mp here).1
  obtain ⟨mine, inside, user⟩ := owned.present
  refine ⟨⟨?_, fun q here => owned.fresh q (mem q here), fun q here => owned.role q (mem q here),
    mine, ?_, user⟩, Nat.le_refl _, fun q here _ => ⟨q, mem q here, rfl, rfl⟩⟩
  · exact owned.ids.sublist (List.filter_sublist.map _)
  · refine Table.mem_filter.mpr ⟨inside, ?_⟩
    rw [user]
    exact decide_eq_true kept

theorem limited_drop (owned : Owned owner space) (kept : owner ∉ userIds)
    (limited : space.Limited) : (space.drop epoch userIds).Limited := by
  refine (owned_drop epoch owned kept).1.limited_iff.mpr ⟨?_, ?_⟩
  · exact Nat.le_trans (List.filter_sublist.countP_le) limited.members
  · exact Nat.le_trans (List.filter_sublist.countP_le) limited.pending

theorem isConnected_drop (userId : Uuid) : (space.drop epoch userIds).isConnected userId =
    (space.isConnected userId && decide (userId ∉ userIds)) := by
  have found : (space.drop epoch userIds).permission userId =
      if userId ∈ userIds then none else space.permission userId := by
    ext p
    rw [SpaceRow.permission, Table.find?_eq_some_iff]
    show p ∈ (space.permissions.filter _).rows ∧ p.userId = userId ↔ _
    rw [Table.mem_filter, decide_eq_true_eq]
    split
    · rename_i dropped
      constructor
      · rintro ⟨⟨_, kept⟩, rfl⟩
        exact absurd dropped kept
      · intro wrong
        cases wrong
    · rename_i kept
      rw [SpaceRow.permission, Table.find?_eq_some_iff]
      constructor
      · rintro ⟨⟨inside, _⟩, rfl⟩
        exact ⟨inside, rfl⟩
      · rintro ⟨inside, rfl⟩
        exact ⟨⟨inside, kept⟩, rfl⟩
  rw [SpaceRow.isConnected, found]
  by_cases dropped : userId ∈ userIds
  · simp [dropped]
  · simp [dropped, SpaceRow.isConnected]

theorem isConnected_drop_iff : (∃ userId, space.isConnected userId ≠
      (space.drop epoch userIds).isConnected userId) ↔
    ∃ userId ∈ userIds, space.isConnected userId = true := by
  constructor
  · rintro ⟨userId, changed⟩
    rw [isConnected_drop] at changed
    by_cases dropped : userId ∈ userIds
    · refine ⟨userId, dropped, ?_⟩
      cases here : space.isConnected userId with
      | true => rfl
      | false => simp [here] at changed
    · simp [dropped] at changed
  · rintro ⟨userId, dropped, here⟩
    refine ⟨userId, ?_⟩
    rw [isConnected_drop, here]
    simp [dropped]

variable {write : Write}

theorem owned_commit (owned : Owned owner space) (fits : Fits owner space write)
    (done : commit write (some space) = some (some after)) :
    Owned owner after ∧ Follows space after := by
  cases write with
  | invite =>
    obtain ⟨_, invited, same⟩ := Option.map_eq_some_iff.mp done
    cases same
    exact owned_invite owned invited
  | promote epoch row =>
    cases row with
    | none =>
      cases done
      have same := Follows.refl space
      exact ⟨⟨owned.ids, owned.fresh, owned.role, owned.present⟩, same.more, same.old⟩
    | some =>
      simp only [commit] at done
      split at done
      · cases done
        exact owned_promote epoch owned fits.2
      · cases done
  | decline epoch =>
    cases done
    exact owned_drop epoch owned fun here => fits (List.mem_singleton.mp here).symm
  | remove epoch =>
    simp only [commit] at done
    split at done
    · cases done
    · cases done
      exact owned_drop epoch owned fits
  | delete => cases done

/-- A commit keeps the limits exactly when it is within them. -/
theorem limited_commit_iff (owned : Owned owner space) (limited : space.Limited)
    (fits : Fits owner space write) :
    (∀ after ∈ (commit write (some space)).getD (some space), SpaceRow.Limited after) ↔
      WithinLimits space write := by
  cases write with
  | invite target =>
    cases invited : space.invite target with
    | none =>
      have taken : space.permission target ≠ none := by
        intro absent
        have fresh : target ∉ space.permissions.rows.map MemberRow.userId := by
          intro inside
          obtain ⟨p, here, same⟩ := List.mem_map.mp inside
          exact Table.find?_eq_none_iff.mp absent p here same
        obtain ⟨permissions, inserted, _⟩ :=
          Table.insert?_of_fresh (a := (⟨space.made, target, .pending⟩ : MemberRow)) fresh
        rw [SpaceRow.invite, inserted] at invited
        cases invited
      simp only [commit, invited, Option.map_none, Option.getD_none, Option.mem_some_iff]
      constructor
      · exact fun _ absent => absurd absent taken
      · rintro _ after rfl
        exact limited
    | some after =>
      simp only [commit, invited, Option.map_some, Option.getD_some, Option.mem_some_iff]
      have absent := (invite_eq_some invited).2.2.2
      have result := (owned_invite owned invited).1.limited_iff
      rw [countConnected_invite invited, countPending_invite invited] at result
      constructor
      · intro holds _
        have bounds := result.mp (holds after rfl)
        omega
      · rintro within _ rfl
        have empty := within absent
        exact result.mpr ⟨limited.members, by omega⟩
  | promote epoch row =>
    cases row with
    | none =>
      simp only [commit, Option.getD_some, Option.mem_some_iff]
      refine iff_of_true ?_ trivial
      rintro after rfl
      exact ⟨limited.owner, limited.members, limited.pending, limited.lookup⟩
    | some row =>
      by_cases there : ∃ p ∈ space.permissions.rows, p.id = row
      · have found : space.permissions.rows.any (fun p => p.id = row) = true := by
          simpa using there
        obtain ⟨p, inside, mine⟩ := there
        simp only [commit, if_pos found, Option.getD_some, Option.mem_some_iff]
        have result := (owned_promote epoch owned fits.2).1.limited_iff
        obtain ⟨members, pending⟩ := counts_promote epoch owned inside mine
        have bound := limited.members
        have invited := limited.pending
        cases role : isConnectedRole p.role with
        | true =>
          simp only [role, Bool.toNat_true, Bool.not_true, Bool.toNat_false] at members pending
          refine iff_of_true ?_ ?_
          · rintro _ rfl
            exact result.mpr ⟨by omega, by omega⟩
          · rintro ⟨q, here, same, apart⟩
            have only : q = p :=
              List.inj_on_of_nodup_map owned.ids here inside (same.trans mine.symm)
            rw [only, role] at apart
            cases apart
        | false =>
          simp only [role, Bool.toNat_false, Bool.not_false, Bool.toNat_true] at members pending
          constructor
          · intro holds _
            have after_bound := (result.mp (holds _ rfl)).1
            omega
          · rintro within _ rfl
            have room_left := within ⟨p, inside, mine, role⟩
            exact result.mpr ⟨by omega, by omega⟩
      · have missing : ¬ space.permissions.rows.any (fun p => p.id = row) = true := by
          simpa using there
        simp only [commit, if_neg missing, Option.getD_none, Option.mem_some_iff]
        refine iff_of_true ?_ ?_
        · rintro _ rfl
          exact limited
        · rintro ⟨p, inside, mine, _⟩
          exact absurd ⟨p, inside, mine⟩ there
  | decline epoch =>
    refine iff_of_true ?_ trivial
    rintro after ⟨⟩
    exact limited_drop epoch owned (fun here => fits (List.mem_singleton.mp here).symm) limited
  | remove epoch =>
    refine iff_of_true ?_ trivial
    intro after here
    simp only [commit] at here
    split at here
    · cases here
    · cases here
      exact limited_drop epoch owned fits limited
  | delete =>
    refine iff_of_true ?_ trivial
    rintro after ⟨⟩

theorem advances_commit_iff (owned : Owned owner space) (fits : Fits owner space write) :
    (∀ after ∈ (commit write (some space)).getD (some space),
        (∃ userId, space.isConnected userId ≠ SpaceRow.isConnected after userId) →
          space.securityEpoch < SpaceRow.securityEpoch after) ↔
      UpToDate space write := by
  have still : (∀ after ∈ some space,
      (∃ userId, space.isConnected userId ≠ SpaceRow.isConnected after userId) →
        space.securityEpoch < SpaceRow.securityEpoch after) := by
    rintro after ⟨⟩ ⟨userId, changed⟩
    exact absurd rfl changed
  cases write with
  | invite target =>
    refine iff_of_true ?_ trivial
    cases invited : space.invite target with
    | none =>
      simp only [commit, invited, Option.map_none, Option.getD_none]
      exact still
    | some =>
      simp only [commit, invited, Option.map_some, Option.getD_some]
      rintro _ ⟨⟩ ⟨userId, changed⟩
      exact absurd (isConnected_invite invited userId).symm changed
  | promote epoch row =>
    cases row with
    | none =>
      refine iff_of_true ?_ trivial
      rintro after ⟨⟩ ⟨userId, changed⟩
      exact absurd rfl changed
    | some row =>
      by_cases there : ∃ p ∈ space.permissions.rows, p.id = row
      · have found : space.permissions.rows.any (fun p => p.id = row) = true := by
          simpa using there
        simp only [commit, if_pos found, Option.getD_some, Option.mem_some_iff, forall_eq',
          isConnected_promote]
        exact imp_congr_right fun _ => Nat.lt_succ_iff
      · have missing : ¬ space.permissions.rows.any (fun p => p.id = row) = true := by
          simpa using there
        simp only [commit, if_neg missing, Option.getD_none]
        refine iff_of_true still ?_
        rintro ⟨p, inside, mine, _⟩
        exact absurd ⟨p, inside, mine⟩ there
  | decline =>
    simp only [commit, Option.getD_some, Option.mem_some_iff, forall_eq', isConnected_drop_iff,
      List.mem_singleton, exists_eq_left]
    exact imp_congr_right fun _ => Nat.lt_succ_iff
  | remove epoch userIds =>
    simp only [commit]
    split
    · rename_i nobody
      obtain ⟨p, inside, _⟩ := (owned_drop epoch owned fits).1.present
      rw [nobody] at inside
      cases inside
    · simp only [Option.getD_some, Option.mem_some_iff, forall_eq', isConnected_drop_iff]
      exact imp_congr_right fun _ => Nat.lt_succ_iff
  | delete =>
    refine iff_of_true ?_ trivial
    rintro after ⟨⟩

def Call.Fits (owner : Uuid) (space : SpaceRow) (call : Call) : Prop :=
  match call.point with
  | .approving _ _ | .rereading _ _ => ∀ userId approve, call.request = .respond userId approve →
      userId ≠ owner
  | .committing write => Membership.Fits owner space write
  | _ => True

def Kept (owner : Uuid) (system : System) : Prop :=
  ∀ space ∈ system.shared, Owned owner space ∧ ∀ call ∈ system.calls, call.Fits owner space

theorem role_of_permissionOf {space : SpaceRow} {userId : Uuid} {p : MemberRow}
    (owned : Owned owner space) (found : permissionOf (some space) userId = some p) :
    p ∈ space.permissions.rows ∧ p.userId = userId ∧ (p.role = .owner ↔ userId = owner) := by
  obtain ⟨inside, user⟩ := Table.find?_eq_some_iff.mp
    (show space.permissions.find? userId = some p from found)
  refine ⟨inside, user, ?_⟩
  rw [owned.role p inside, user]

theorem normalizeMemberRole_eq_owner {role : AccessRole} :
    normalizeMemberRole role = .owner ↔ role = .owner := by
  cases role <;> decide

theorem fits_checkRole {space : SpaceRow} (owned : Owned owner space) (request : Request)
    (epoch : Nat) :
    Call.Fits owner space ⟨request, request.checkRole (some space) epoch⟩ := by
  cases request with
  | addPermissions =>
    simp only [Request.checkRole]
    repeat' split
    all_goals trivial
  | respond userId approve =>
    simp only [Request.checkRole]
    split
    · trivial
    · rename_i p found
      obtain ⟨_, _, role⟩ := role_of_permissionOf owned found
      split
      · trivial
      · rename_i pending
        have other : userId ≠ owner := by
          intro same
          have mine := role.mpr same
          rw [mine] at pending
          exact pending AccessRole.noConfusion
        split
        · rintro _ _ ⟨⟩
          exact other
        · exact other
  | removePermissions userId userIds =>
    simp only [Request.checkRole]
    split
    · trivial
    · rename_i p found
      obtain ⟨_, _, role⟩ := role_of_permissionOf owned found
      split
      · trivial
      · rename_i mine
        split
        · trivial
        · show owner ∉ userIds.filter _
          intro inside
          have user := role.mp (normalizeMemberRole_eq_owner.mp mine)
          have apart := (List.mem_filter.mp inside).2
          exact absurd user.symm (of_decide_eq_true apart)
      · rename_i member
        split
        · trivial
        · show owner ∉ [userId]
          intro inside
          have mine := role.mpr (List.mem_singleton.mp inside).symm
          rw [mine] at member
          cases member
  | deleteCollection =>
    simp only [Request.checkRole]
    split
    · trivial
    · split <;> trivial

theorem fits_query {space : SpaceRow} (owned : Owned owner space) {call : Call}
    (fits : call.Fits owner space) (open_ : ∀ write, call.point ≠ .committing write) :
    Call.Fits owner space ⟨call.request, call.request.query (some space) call.point⟩ := by
  obtain ⟨request, point⟩ := call
  cases point with
  | arriving => trivial
  | found epoch => exact fits_checkRole owned request epoch
  | counting | asking | looking | adding =>
    simp only [Request.query]
    split <;> trivial
  | approving =>
    simp only [Request.query]
    split
    · trivial
    · exact fits
  | rereading epoch held =>
    cases request with
    | respond userId approve =>
      simp only [Request.query]
      cases found : (permissionOf (some space) userId).filter fun permission =>
          decide (permission.id = held ∨ permission.role ≠ .member) with
      | none => trivial
      | some p =>
        have known := (Option.filter_eq_some_iff.mp found).1
        obtain ⟨inside, user, _⟩ := role_of_permissionOf owned known
        refine ⟨owned.fresh p inside, fun q here same => ?_⟩
        have only : q = p := List.inj_on_of_nodup_map owned.ids here inside same
        rw [only, user]
        exact fits userId approve rfl
    | _ => exact fits
  | committing write => exact absurd rfl (open_ write)
  | done => trivial

theorem next_cases (fails : Bool) (space : Option SpaceRow) (call : Call) :
    (∃ write answer, call.point = .committing write ∧ fails = false ∧
      call.next fails space = ((commit write space).getD space, ⟨call.request, .done answer⟩)) ∨
    (∀ write, call.point = .committing write → fails = true) ∧
      ((∃ answer, call.next fails space = (space, ⟨call.request, .done answer⟩)) ∨
        (∀ write, call.point ≠ .committing write) ∧
          call.next fails space = (space, ⟨call.request, call.request.query space call.point⟩)) := by
  obtain ⟨request, point⟩ := call
  cases point with
  | committing write =>
    cases fails with
    | true =>
      refine .inr ⟨fun _ _ => rfl, .inl ⟨_, rfl⟩⟩
    | false =>
      left
      cases result : commit write space with
      | none =>
        refine ⟨write, .error (some request.failure), rfl, rfl, ?_⟩
        simp only [Call.next, Bool.false_eq_true, if_false, result, Option.getD_none]
        rfl
      | some =>
        refine ⟨write, .ok (), rfl, rfl, ?_⟩
        simp only [Call.next, Bool.false_eq_true, if_false, result, Option.getD_some]
  | done answer => exact .inr ⟨fun _ wrong => (by cases wrong), .inl ⟨answer, rfl⟩⟩
  | _ =>
    refine .inr ⟨fun _ wrong => (by cases wrong), ?_⟩
    cases fails with
    | true => exact .inl ⟨_, rfl⟩
    | false => exact .inr ⟨fun _ wrong => (by cases wrong), rfl⟩

theorem commit_none (write : Write) : (commit write none).getD none = none := by
  cases write with
  | promote _ row => cases row <;> rfl
  | _ => rfl

theorem step_of_some {system : System} {turn : Nat × Bool} {call : Call}
    (here : system.calls[turn.1]? = some call) :
    system.step turn = ⟨(call.next turn.2 system.shared).1,
      system.calls.set turn.1 (call.next turn.2 system.shared).2⟩ :=
  advance_of_free _ _ here (blocked_of_lockFree _ _ _)

theorem step_of_none {system : System} {turn : Nat × Bool}
    (absent : system.calls[turn.1]? = none) : system.step turn = system :=
  advance_of_none _ _ absent

theorem step_cases (system : System) (turn : Nat × Bool) :
    (committed system turn = none ∧ (system.step turn).shared = system.shared) ∨
      ∃ space write, committed system turn = some (space, write) ∧ system.shared = some space ∧
        (∃ call ∈ system.calls, call.point = .committing write) ∧
        (system.step turn).shared = (commit write (some space)).getD (some space) := by
  cases here : system.calls[turn.1]? with
  | none =>
    refine .inl ⟨?_, congrArg CallSystem.shared (step_of_none here)⟩
    unfold committed
    rw [here]
    split
    · rename_i wrong
      cases wrong
    · rfl
  | some call =>
    rw [step_of_some here]
    rcases next_cases turn.2 system.shared call with
      ⟨write, answer, point, goes, moved⟩ | ⟨idle, moved⟩
    · rw [moved]
      cases known : system.shared with
      | none =>
        refine .inl ⟨?_, commit_none write⟩
        simp only [committed, goes, known]
      | some space =>
        refine .inr ⟨space, write, ?_, rfl, ⟨call, List.mem_of_getElem? here, point⟩, rfl⟩
        simp only [committed, goes, known, here, Option.map_some, point]
    · refine .inl ⟨?_, ?_⟩
      · unfold committed
        rw [here]
        split
        · rename_i goes _ point
          have failing := idle _ (Option.some.inj point)
          rw [failing] at goes
          cases goes
        · rfl
      · rcases moved with ⟨answer, moved⟩ | ⟨_, moved⟩ <;> rw [moved]

theorem kept_step {system : System} (kept : Kept owner system) (turn : Nat × Bool) :
    Kept owner (system.step turn) := by
  cases here : system.calls[turn.1]? with
  | none =>
    rw [step_of_none here]
    exact kept
  | some call =>
    have inside := List.mem_of_getElem? here
    rw [step_of_some here]
    rcases next_cases turn.2 system.shared call with
      ⟨write, answer, point, _, moved⟩ | ⟨_, moved⟩
    · rw [moved]
      intro after reached
      cases known : system.shared with
      | none =>
        rw [known, commit_none] at reached
        cases reached
      | some space =>
        obtain ⟨owned, fits⟩ := kept space known
        have mine : Fits owner space write := by
          have held := fits call inside
          rw [Call.Fits, point] at held
          exact held
        have result : Owned owner after ∧ Follows space after := by
          rw [known] at reached
          cases done : commit write (some space) with
          | none =>
            rw [done] at reached
            have same : space = after := Option.some.inj reached
            rw [← same]
            exact ⟨owned, Follows.refl space⟩
          | some =>
            rw [done] at reached
            cases reached
            exact owned_commit owned mine done
        refine ⟨result.1, fun other among => ?_⟩
        rcases List.mem_or_eq_of_mem_set among with old | rfl
        · have held := fits other old
          rw [Call.Fits] at held ⊢
          split
          · rename_i start
            rw [start] at held
            exact held
          · rename_i start
            rw [start] at held
            exact held
          · rename_i start
            rw [start] at held
            exact held.later result.2
          · trivial
        · trivial
    · intro space known
      have same : system.shared = some space := by
        rcases moved with ⟨answer, moved⟩ | ⟨_, moved⟩ <;> rw [moved] at known <;> exact known
      obtain ⟨owned, fits⟩ := kept space same
      refine ⟨owned, fun other among => ?_⟩
      rcases List.mem_or_eq_of_mem_set among with old | rfl
      · exact fits other old
      · rcases moved with ⟨answer, moved⟩ | ⟨open_, moved⟩ <;> rw [moved]
        · trivial
        · rw [same]
          exact fits_query owned (fits call inside) open_

theorem kept_start (owner : Uuid) (requests : List Request) : Kept owner (start owner requests) := by
  rintro space ⟨⟩
  refine ⟨owned_created owner, fun call inside => ?_⟩
  obtain ⟨request, _, rfl⟩ := List.mem_map.mp inside
  trivial

theorem limits_start (owner : Uuid) (requests : List Request) : Limits (start owner requests) := by
  rintro space ⟨⟩
  exact (owned_created owner).limited_iff.mpr ⟨Nat.le_add_left 1 9, Nat.zero_le 1⟩

theorem fits_of_committing {system : System} {space : SpaceRow} {write : Write}
    (kept : Kept owner system) (known : system.shared = some space)
    (waits : ∃ call ∈ system.calls, call.point = .committing write) : Fits owner space write := by
  obtain ⟨call, inside, point⟩ := waits
  have held := (kept space known).2 call inside
  rw [Call.Fits, point] at held
  exact held

theorem limits_step_iff {system : System} (kept : Kept owner system) (limits : Limits system)
    (turn : Nat × Bool) : Limits (system.step turn) ↔
      ∀ pair ∈ committed system turn, WithinLimits pair.1 pair.2 := by
  rcases step_cases system turn with ⟨none_committed, same⟩ | ⟨space, write, pair, known, waits, after⟩
  · rw [Limits, same, none_committed]
    exact iff_of_true limits fun pair wrong => by cases wrong
  · rw [Limits, after, pair]
    simp only [Option.mem_some_iff, forall_eq']
    exact limited_commit_iff (kept space known).1 (limits space known)
      (fits_of_committing kept known waits)

theorem advances_iff {system : System} (kept : Kept owner system) (turn : Nat × Bool) :
    Advances system turn ↔ ∀ pair ∈ committed system turn, UpToDate pair.1 pair.2 := by
  rcases step_cases system turn with ⟨none_committed, same⟩ | ⟨space, write, pair, known, waits, after⟩
  · rw [Advances, same, none_committed]
    refine iff_of_true ?_ fun pair wrong => by cases wrong
    intro space here after there
    obtain rfl : space = after := Option.some.inj (here.symm.trans there)
    rintro ⟨userId, changed⟩
    exact absurd rfl changed
  · rw [Advances, after, pair, known]
    simp only [Option.mem_some_iff, forall_eq']
    exact advances_commit_iff (kept space known).1 (fits_of_committing kept known waits)

/-- In every run the creator stays the one owner of a space. -/
theorem owner_stays (owner : Uuid) (requests : List Request) (turns : List (Nat × Bool)) :
    ∀ space ∈ (run System.step (start owner requests) turns).shared, Owned owner space := by
  intro space known
  have kept := run_of_keeps (I := Kept owner) (fun _ turn before => kept_step before turn)
    (kept_start owner requests) turns
  exact (kept space known).1

theorem owner_stays_invited :
    ∃ space ∈ (run System.step (start 61 [.addPermissions 61 (some 62) false])
      (List.replicate 7 (0, false))).shared, Owned 61 space :=
  ⟨_, rfl, owner_stays 61 [.addPermissions 61 (some 62) false] (List.replicate 7 (0, false)) _ rfl⟩

/-- The limits hold in every state of a run, and every change of the members increases the epoch,
exactly when every commit of the run is within the limits and up to date. -/
theorem limits_iff_careful (owner : Uuid) (requests : List Request) (turns : List (Nat × Bool)) :
    ((∀ reached ∈ trace System.step (start owner requests) turns, Limits reached) ∧
        Guarded Advances System.step (start owner requests) turns) ↔
      Guarded Careful System.step (start owner requests) turns := by
  have limits : (∀ reached ∈ trace System.step (start owner requests) turns, Limits reached) ↔
      Guarded (fun s turn => ∀ pair ∈ committed s turn, WithinLimits pair.1 pair.2) System.step
        (start owner requests) turns :=
    forall_trace_iff_guarded (fun _ turn kept => kept_step kept turn)
      (fun _ turn kept held => limits_step_iff kept held turn) (kept_start owner requests)
      (limits_start owner requests)
  have epochs := guarded_iff_of_guarded (I := Kept owner) (C := Advances)
    (fun _ turn kept _ => kept_step kept turn) (fun _ turn kept _ => advances_iff kept turn)
    (kept_start owner requests) (guarded_true System.step (start owner requests) turns)
  rw [limits, epochs, ← guarded_and]
  refine guarded_iff_of_guarded (I := fun _ => True) (fun _ _ _ _ => trivial) (fun s turn _ _ => ?_)
    trivial (guarded_true System.step (start owner requests) turns)
  exact forall₂_and.symm

def twoInvitations : List (Nat × Bool) :=
  List.replicate 6 (0, false) ++ List.replicate 6 (1, false) ++ [(0, false), (1, false)]

theorem not_limits_twoInvitations :
    ∃ space, (run System.step (start 61 [.addPermissions 61 (some 62) false,
        .addPermissions 61 (some 63) false]) twoInvitations).shared = some space ∧
      space.countRole .pending = 2 ∧ space.hasPendingInvite = none := by
  refine ⟨_, rfl, ?_⟩
  decide +kernel

end AverQel.Documents.Membership
