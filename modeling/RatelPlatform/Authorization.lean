import RatelPlatform.Workflow

/-!
# Principals and permissions

Who a request comes from is read from its token: a `UserPrincipal` with the roles
of the user and a single organization, that of their first role. What a role may
do is a row of `role_permissions`, with the scope it may do it in.

The rows are evaluated in two places. `PermissionGuard` decides on one resource:
any grant that covers it is enough. `PrismaEffectiveScopeResolver` names the
widest scope there is, for queries that have no single resource.
-/

namespace RatelPlatform

/-! ## Principals -/

/-- A role as it stands in a token: the organization it belongs to is left out. -/
structure PrincipalRole where
  role : RoleName
  departmentId : Option Id
  deriving DecidableEq

/-- Who a request comes from. -/
structure UserPrincipal where
  id : Id
  organizationId : Id
  roles : List PrincipalRole
  stepUpAt : Option ℕ

/-- The principal of a user with these role assignments; a user without any cannot
log in. -/
def AuthService.buildPrincipal (userId : Id) (stepUpAt : Option ℕ) :
    List RoleAssignment → Option UserPrincipal
  | [] => none
  | first :: rest => some
    { id := userId
      organizationId := first.organizationId
      roles := (first :: rest).map fun r => ⟨r.role, r.departmentId⟩
      stepUpAt := stepUpAt }

/-! ## Permissions -/

/-- What of an organization a permission is granted for. -/
inductive PermissionScope where
  | own
  | department
  | organization
  deriving DecidableEq

/-- A row of `role_permissions`. -/
structure RolePermission where
  role : RoleName
  permission : String
  scope : PermissionScope

/-- The rows that grant the permission to one of the roles. -/
def grantsOf (permissions : List RolePermission) (roles : List RoleName) (permission : String) :
    List RolePermission :=
  permissions.filter fun g => g.role ∈ roles ∧ g.permission = permission

/-- Some grant has the scope. -/
def GrantsScope (grants : List RolePermission) (scope : PermissionScope) : Prop :=
  ∃ g ∈ grants, g.scope = scope

instance (grants : List RolePermission) (scope : PermissionScope) :
    Decidable (GrantsScope grants scope) :=
  inferInstanceAs (Decidable (∃ g ∈ grants, _))

theorem GrantsScope.ne_nil {grants : List RolePermission} {scope : PermissionScope}
    (h : GrantsScope grants scope) : grants ≠ [] := by
  obtain ⟨g, hmem, -⟩ := h
  exact List.ne_nil_of_mem hmem

/-! ## The guard -/

/-- Why the guard turns a request away. -/
inductive GuardError where
  /-- a `ForbiddenException` -/
  | forbidden (message : String)
  /-- an `EntityNotFoundError` -/
  | entityNotFound (resourceType : String) (resourceId : Id)
  /-- an `Error` of the registry -/
  | noProvider (resourceType : String)

/-- What a route asks for. -/
structure PermissionRequirement where
  permission : String
  resourceType : Option String
  requiresStepUp : Bool

/-- What the guard wants to know of a resource. -/
structure ResourceScopeInfo where
  departmentId : Option Id
  requesterId : Id

/-- The registered provider of a resource type, if there is one. -/
abbrev ResourceScopeRegistry := String → Option (Id → Option ResourceScopeInfo)

/-- The step-up was at most `windowMs` ago. -/
def isStepUpFresh (stepUpAt : Option ℕ) (windowMs now : ℕ) : Bool :=
  match stepUpAt with
  | none => false
  | some stepUpAt => decide ((now : ℤ) - stepUpAt ≤ windowMs)

namespace PermissionGuard

/-- The check that comes last. -/
def allow (windowMs now : ℕ) (requirement : PermissionRequirement) (user : UserPrincipal) :
    Except GuardError Unit :=
  if requirement.requiresStepUp = true ∧ isStepUpFresh user.stepUpAt windowMs now = false then
    .error (.forbidden (
      "This action requires a recent step-up re-authentication — POST /auth/step-up with your " ++
        s!"password, then retry within {(windowMs + 30000) / 60000} minutes"))
  else .ok ()

/-- What the caller may do is named in the refusals. -/
def action (permission : String) : String := ((permission.splitOn ":")[1]?).getD "access"

/-- The refusal of a user whose grants do not cover the resource. -/
def scopeError (grants : List RolePermission) (permission : String) : GuardError :=
  if GrantsScope grants .own then
    .forbidden s!"You can only {action permission} resources you created yourself"
  else if GrantsScope grants .department then
    .forbidden s!"You can only {action permission} resources within your own department"
  else .forbidden "You do not have sufficient permission scope for this action"

/-- The grants cover the resource: the user's own, or one of their departments. -/
def CoversResource (grants : List RolePermission) (user : UserPrincipal)
    (info : ResourceScopeInfo) : Prop :=
  (GrantsScope grants .own ∧ info.requesterId = user.id) ∨
    (GrantsScope grants .department ∧
      ∃ r ∈ user.roles, SameDepartment r.departmentId info.departmentId)

instance (grants : List RolePermission) (user : UserPrincipal) (info : ResourceScopeInfo) :
    Decidable (CoversResource grants user info) :=
  inferInstanceAs (Decidable (_ ∨ _ ∧ ∃ r ∈ user.roles, _))

/-- Whether a request to a route may go on; `id` is the route's parameter of that
name. -/
def canActivate (permissions : List RolePermission) (registry : ResourceScopeRegistry)
    (windowMs now : ℕ) (requirement : Option PermissionRequirement) (user : Option UserPrincipal)
    (id : Option Id) : Except GuardError Unit :=
  match requirement with
  | none => .ok ()
  | some requirement =>
    match user with
    | none => .error (.forbidden "Not authenticated")
    | some user =>
      let userRoles := user.roles.map PrincipalRole.role
      if userRoles = [] then
        .error (.forbidden "You have no assigned roles, so you cannot perform this action")
      else
        let grants := grantsOf permissions userRoles requirement.permission
        if grants = [] then
          let names := ", ".intercalate (userRoles.map RoleName.name)
          .error (.forbidden
            s!"None of your roles ({names}) grant the '{requirement.permission}' permission")
        else if GrantsScope grants .organization then allow windowMs now requirement user
        else
          match requirement.resourceType, id with
          | some resourceType, some id =>
            match registry resourceType with
            | none => .error (.noProvider resourceType)
            | some provider =>
              match provider id with
              | none => .error (.entityNotFound resourceType id)
              | some info =>
                if CoversResource grants user info then allow windowMs now requirement user
                else .error (scopeError grants requirement.permission)
          | _, _ => allow windowMs now requirement user

end PermissionGuard

/-! ## The widest scope -/

/-- The widest scope the roles grant, if they grant any. -/
def PrismaEffectiveScopeResolver.resolveWidestScope (permissions : List RolePermission)
    (roles : List RoleName) (permission : String) : Option PermissionScope :=
  if roles = [] then none
  else
    let grants := grantsOf permissions roles permission
    if grants = [] then none
    else if GrantsScope grants .organization then some .organization
    else if GrantsScope grants .department then some .department
    else if GrantsScope grants .own then some .own
    else none

variable {permissions : List RolePermission} {registry : ResourceScopeRegistry} {windowMs now : ℕ}
  {requirement : PermissionRequirement} {user : UserPrincipal} {id : Id}

theorem grantsOf_nil {permission : String} : grantsOf permissions [] permission = [] := by
  refine List.filter_eq_nil_iff.mpr fun g _ => ?_
  rw [decide_eq_true_eq]
  exact fun h => absurd h.1 List.not_mem_nil

/-- **What lets a request through** to a single resource, on a route without
step-up: a grant for the organization, or one that covers the resource. -/
theorem PermissionGuard.canActivate_ok_iff {resourceType : String}
    {provider : Id → Option ResourceScopeInfo} {info : ResourceScopeInfo}
    (hstepUp : requirement.requiresStepUp = false)
    (htype : requirement.resourceType = some resourceType)
    (hprovider : registry resourceType = some provider) (hinfo : provider id = some info) :
    canActivate permissions registry windowMs now (some requirement) (some user) (some id) =
        .ok () ↔
      GrantsScope (grantsOf permissions (user.roles.map PrincipalRole.role) requirement.permission)
        .organization ∨
      CoversResource
        (grantsOf permissions (user.roles.map PrincipalRole.role) requirement.permission) user
        info := by
  have hallow : allow windowMs now requirement user = .ok () := by
    rw [allow, hstepUp, if_neg (fun h => Bool.false_ne_true h.1)]
  obtain ⟨grants, hgrants⟩ : ∃ grants, grants = grantsOf permissions
    (user.roles.map PrincipalRole.role) requirement.permission := ⟨_, rfl⟩
  have hnone : grants = [] → ¬ (GrantsScope grants .organization ∨
      CoversResource grants user info) := by
    rintro hnil (h | ⟨h, -⟩ | ⟨h, -⟩)
    · exact h.ne_nil hnil
    · exact h.ne_nil hnil
    · exact h.ne_nil hnil
  simp only [canActivate, ← hgrants, htype, hprovider, hinfo, hallow]
  split_ifs with hroles hnil horganization hcovers
  · -- no role, so no grant
    refine iff_of_false nofun (hnone ?_)
    rw [hgrants, hroles]
    exact grantsOf_nil
  · exact iff_of_false nofun (hnone hnil)
  · exact iff_of_true rfl (.inl horganization)
  · exact iff_of_true rfl (.inr hcovers)
  · exact iff_of_false nofun (not_or.mpr ⟨horganization, hcovers⟩)

/-- The widest scope is granted, and no wider one is. -/
theorem PrismaEffectiveScopeResolver.resolveWidestScope_eq_some {roles : List RoleName}
    {permission : String} {scope : PermissionScope}
    (h : resolveWidestScope permissions roles permission = some scope) :
    GrantsScope (grantsOf permissions roles permission) scope ∧
      (scope ≠ .organization →
        ¬ GrantsScope (grantsOf permissions roles permission) .organization) := by
  unfold resolveWidestScope at h
  simp only at h
  split_ifs at h with _ _ horganization hdepartment hown
  · cases h
    exact ⟨horganization, fun hne => absurd rfl hne⟩
  · cases h
    exact ⟨hdepartment, fun _ => horganization⟩
  · cases h
    exact ⟨hown, fun _ => horganization⟩

end RatelPlatform
