/- digest: Role names up to case and aliases, and the permissions that roles carry. -/
import AverQel.Foundation.Text
import Mathlib.Data.Finset.Union

namespace AverQel.Auth

open Foundation (Text.strip)

/-- `str.lower` -/
abbrev Lower := String → String

/-- `ROLE_ALIASES` -/
def roleAlias (name : String) : String :=
  if name = "reader" then "user" else if name = "super_admin" then "admin" else name

variable (lower : Lower)

def canonicalizeRoleName (role : String) : String := roleAlias (lower (Text.strip role))

/-- `canonicalize_role_names`, and what `_normalize_roles` and `_load_live_role_names` do to the
roles that they read. Blank names are dropped. -/
def canonicalizeRoleNames (roles : Finset String) : Finset String :=
  (roles.filter (fun role => Text.strip role ≠ "")).image (canonicalizeRoleName lower)

/-- `is_platform_admin_email` -/
def isPlatformAdminEmail (email : String) (allowedEmails : List String) : Bool :=
  let normalizedEmail := lower (Text.strip email)
  normalizedEmail ≠ "" && (allowedEmails.filter (fun allowed => Text.strip allowed ≠ "")).any
    (fun allowed => lower (Text.strip allowed) = normalizedEmail)

def selfPermissions : List String := ["auth:login_self", "auth:refresh_self", "auth:logout_self"]

def workspacePermissions : List String :=
  ["documents:upload", "documents:read", "documents:delete", "documents:organization:basic",
    "collections:read", "collections:write", "queries:run", "providers:read", "providers:write",
    "providers:test", "providers:assign", "providers:oauth"]

def adminPermissions : List String :=
  ["documents:organization:advanced", "documents:organization:admin", "deepspace:diagnostics",
    "admin:audit_logs:read", "admin:break_glass:write", "admin:data_deletions:write",
    "admin:data_deletions:approve", "admin:data_deletions:read", "admin:support:read",
    "admin:support:write", "admin:feedback:read", "admin:feedback:write", "admin:metrics:read",
    "admin:users:read", "admin:users:disable", "admin:users:reactivate", "admin:users:logout",
    "admin:users:delete", "mcp:catalog:manage"]

/-- `PERMISSIONS_BY_ROLE.get(role, frozenset())`. Every role lists its permissions in full in the
source; the lists that several roles have in common are named here. -/
def permissionsByRole (role : String) : Finset String :=
  match role with
  | "admin" | "super_admin" => (selfPermissions ++ workspacePermissions ++ adminPermissions).toFinset
  | "support_manager" | "feedback_manager" => selfPermissions.toFinset
  | "collection_moderator" =>
    (selfPermissions ++ ["collections:moderation:read", "collections:moderation:write"]).toFinset
  | "editor" =>
    (selfPermissions ++ workspacePermissions ++ ["documents:organization:advanced"]).toFinset
  | "user" | "reader" | "member" => (selfPermissions ++ workspacePermissions).toFinset
  | "service" => ["documents:upload", "documents:read", "queries:run"].toFinset
  | _ => ∅

/-- `resolve_permissions` -/
def resolvePermissions (lower : Lower) (roles directPermissions : Finset String) :
    Finset String :=
  roles.biUnion (fun role => permissionsByRole (canonicalizeRoleName lower role)) ∪
    directPermissions

theorem resolvePermissions_mono (lower : Lower) {roles roles' : Finset String}
    (more : roles ⊆ roles') (direct : Finset String) :
    resolvePermissions lower roles direct ⊆ resolvePermissions lower roles' direct :=
  Finset.union_subset_union_left (Finset.biUnion_subset_biUnion_of_subset_left _ more)

end AverQel.Auth
