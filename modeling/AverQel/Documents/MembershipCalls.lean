/- digest: The membership endpoints of one shared space, one query or commit at a time. -/
import AverQel.Documents.Collections
import AverQel.Foundation.Interleaving

namespace AverQel.Documents.Membership

open Foundation Interleaving AverQel.System

structure MemberRow where
  id : Nat
  userId : Uuid
  role : AccessRole
  deriving DecidableEq

/-- The row of a space with its permission rows, one for each user. `made` numbers new rows. -/
structure SpaceRow where
  securityEpoch : Nat
  permissions : Table MemberRow MemberRow.userId
  made : Nat

/-- The commit that ends a call. An epoch is the one that the call has loaded. -/
inductive Write where
  | invite (target : Uuid)
  | promote (epoch : Nat) (row : Option Nat)
  | decline (epoch : Nat) (userId : Uuid)
  | remove (epoch : Nat) (userIds : List Uuid)
  | delete
  deriving DecidableEq

namespace SpaceRow

/-- What `create_collection` commits. -/
def created (owner : Uuid) : SpaceRow := ⟨0, Table.single ⟨0, owner, .owner⟩, 1⟩

variable (space : SpaceRow)

def permission (userId : Uuid) : Option MemberRow := space.permissions.find? userId

/-- `count_connected_members_global` -/
def countConnectedMembers : Nat :=
  space.permissions.rows.countP fun p => isConnectedRole p.role

def countRole (role : AccessRole) : Nat :=
  space.permissions.rows.countP fun p => decide (p.role = role)

/-- `has_pending_invite_global`; several rows raise `MultipleResultsFound`. -/
def hasPendingInvite : Option Bool :=
  match space.permissions.rows.filter (fun p => p.role = .pending) with
  | [] => some false
  | [_] => some true
  | _ => none

def isConnected (userId : Uuid) : Bool :=
  (space.permission userId).any fun p => isConnectedRole p.role

def invite (target : Uuid) : Option SpaceRow :=
  (space.permissions.insert? ⟨space.made, target, .pending⟩).map fun permissions =>
    { space with permissions := permissions, made := space.made + 1 }

def promote (epoch row : Nat) : SpaceRow :=
  { space with
    securityEpoch := epoch + 1
    permissions := space.permissions.mapRows
      (fun p => if p.id = row then { p with role := .member } else p) (fun p => by split <;> rfl) }

def drop (epoch : Nat) (userIds : List Uuid) : SpaceRow :=
  { space with
    securityEpoch := epoch + 1
    permissions := space.permissions.filter fun p => decide (p.userId ∉ userIds) }

end SpaceRow

/-- The space after a commit. A commit is refused when it violates a constraint, and when a row that
it updates is no longer there. -/
def commit : Write → Option SpaceRow → Option (Option SpaceRow)
  | .invite _, none => none
  | .invite target, some space => (space.invite target).map some
  | .promote _ _, none => none
  | .promote epoch none, some space => some (some { space with securityEpoch := epoch + 1 })
  | .promote epoch (some row), some space =>
    if space.permissions.rows.any fun p => p.id = row then some (some (space.promote epoch row))
    else none
  | .decline _ _, none => none
  | .decline epoch userId, some space => some (some (space.drop epoch [userId]))
  | .remove _ _, none => some none
  | .remove epoch userIds, some space =>
    let left := space.drop epoch userIds
    if left.permissions.rows = [] then some none else some (some left)
  | .delete, _ => some none

/-- A call of an endpoint. `target` is the active user behind the connection code, and `duplicate`
says that a direct connection of the two users was found. -/
inductive Request where
  | addPermissions (userId : Uuid) (target : Option Uuid) (duplicate : Bool)
  | respond (userId : Uuid) (approve : Bool)
  | removePermissions (userId : Uuid) (userIds : List Uuid)
  | deleteCollection (userId : Uuid)
  deriving DecidableEq

/-- An answer without an `ApiError` is an error that the endpoint does not handle. -/
abbrev Answer := Except (Option ApiError) Unit

/-- What a call does next, with what it has read. -/
inductive Point where
  | arriving
  | found (epoch : Nat)
  | counting (target : Uuid)
  | asking (target : Uuid)
  | looking (target : Uuid)
  | adding (target : Uuid)
  | approving (epoch held : Nat)
  | rereading (epoch held : Nat)
  | committing (write : Write)
  | done (answer : Answer)

/-- What the `try` of an endpoint makes of an error. -/
def Request.failure : Request → ApiError
  | .addPermissions _ _ _ => internalError "Failed to update Qel Connect permissions."
  | .respond _ _ => internalError "Failed to respond to Qel Connect invitation."
  | .removePermissions _ _ => internalError "Failed to remove Qel Connect permissions."
  | .deleteCollection _ => internalError "Failed to delete Qel Connect."

/-- The points inside of the `try`. -/
def Point.isTried : Point → Bool
  | .adding _ | .approving _ _ | .rereading _ _ | .committing _ => true
  | _ => false

def refused (error : ApiError) : Point := .done (.error (some error))

section Calls

variable (space : Option SpaceRow)

def permissionOf (userId : Uuid) : Option MemberRow := space.bind fun row => row.permission userId

/-- `_enforce_collection_access_global`, and the check of the caller's role. -/
def Request.checkRole (epoch : Nat) : Request → Point
  | .addPermissions userId target duplicate =>
    match permissionOf space userId with
    | none => refused noAccess
    | some permission =>
      if normalizeMemberRole permission.role ≠ .owner then
        refused (forbidden "Only the Qel Connect owner can send invitations.")
      else
        match target with
        | none => refused (invalidMember "That Qel Connect ID was not found." 404)
        | some target =>
          if target = userId then
            refused (invalidMember "Use another user's Qel Connect ID to connect." 400)
          else if duplicate then
            refused ⟨"DUPLICATE_CONNECTION", "Qel Connect connection already exists!", 400⟩
          else .counting target
  | .respond userId approve =>
    match permissionOf space userId with
    | none => refused (forbidden "No pending Qel Connect invitation was found.")
    | some permission =>
      if permission.role ≠ .pending then
        refused (forbidden "No pending Qel Connect invitation was found.")
      else if approve then .approving epoch permission.id
      else .committing (.decline epoch userId)
  | .removePermissions userId userIds =>
    match permissionOf space userId with
    | none => refused noAccess
    | some permission =>
      match normalizeMemberRole permission.role with
      | .pending => refused (forbidden "Approve the Qel Connect connection before changing members.")
      | .owner =>
        let others := userIds.filter fun id => id ≠ userId
        if others = [] then
          refused (invalidMember "Select at least one non-owner member to remove." 400)
        else .committing (.remove epoch others)
      | .member =>
        if userIds.any fun id => id ≠ userId then
          refused (forbidden "Members can only leave Qel Connect spaces themselves.")
        else .committing (.remove epoch [userId])
  | .deleteCollection userId =>
    match permissionOf space userId with
    | none => refused noAccess
    | some permission =>
      if normalizeMemberRole permission.role ≠ .owner then
        refused (forbidden "Only the Qel Connect owner can delete this Qel Connect space.")
      else .committing .delete

/-- The next query of a call. A row that is loaded twice keeps its first role, and a role that does
not change is not written. -/
def Request.query (request : Request) : Point → Point
  | .arriving =>
    match space with
    | none => refused collectionNotFound
    | some row => .found row.securityEpoch
  | .found epoch => request.checkRole space epoch
  | .counting target =>
    if 10 ≤ space.elim 0 SpaceRow.countConnectedMembers then refused bridgeFull
    else .asking target
  | .asking target =>
    match space.elim (some false) SpaceRow.hasPendingInvite with
    | none => .done (.error none)
    | some true => refused ⟨"COLLECTION_BRIDGE_PENDING",
        "This Qel Connect space already has a pending connection request.", 400⟩
    | some false => .looking target
  | .looking target =>
    if (permissionOf space target).isSome then
      refused ⟨"COLLECTION_BRIDGE_EXISTS",
        "That user is already connected to this Qel Connect space.", 400⟩
    else .adding target
  | .adding target =>
    if (permissionOf space target).isSome then .done (.ok ())
    else .committing (.invite target)
  | .approving epoch held =>
    if 10 ≤ space.elim 0 SpaceRow.countConnectedMembers then refused request.failure
    else .rereading epoch held
  | .rereading epoch held =>
    match request with
    | .respond userId _ =>
      .committing (.promote epoch (((permissionOf space userId).filter fun permission =>
        permission.id = held ∨ permission.role ≠ .member).map MemberRow.id))
    | _ => .rereading epoch held
  | point => point

end Calls

structure Call where
  request : Request
  point : Point

/-- A call goes on, or fails where it is. -/
def Call.next (fails : Bool) (space : Option SpaceRow) (call : Call) : Option SpaceRow × Call :=
  match call.point with
  | .done _ => (space, call)
  | .committing write =>
    match (if fails then none else commit write space) with
    | none => (space, { call with point := refused call.request.failure })
    | some after => (after, { call with point := .done (.ok ()) })
  | point =>
    if fails then
      (space, { call with
        point := .done (.error (if point.isTried then some call.request.failure else none)) })
    else (space, { call with point := call.request.query space point })

abbrev System := CallSystem (Option SpaceRow) Call

def System.step : System → Nat × Bool → System := advance (fun _ _ => false) Call.next

def start (owner : Uuid) (requests : List Request) : System :=
  ⟨some (SpaceRow.created owner), requests.map fun request => ⟨request, .arriving⟩⟩

end AverQel.Documents.Membership
