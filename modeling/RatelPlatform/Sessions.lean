import RatelPlatform.Authorization
import RatelPlatform.RefreshTokens
import RatelPlatform.Repositories
import RatelPlatform.Tasks

/-!
# Sessions

A session begins with a password. `AuthService.login` verifies it and hands out two tokens: an
access token that says who the user is, in which roles, and a refresh token, which can be
exchanged for two new ones. An access token is believed until it expires; nothing is looked up
for it but what its roles may do. With one, and the password once more, `AuthService.stepUp` hands
out an access token that says when.

Each of these methods is a few calls, of the database or of the hash function, and between any
two of them other methods make theirs. Users, roles and permissions change meanwhile.

Of refresh tokens only the hash is stored, and tokens are known by it. What is drawn, what the
clock shows and which calls fail is in the labels.
-/

namespace RatelPlatform

/-! ## Data -/

/-- A token as `JwtService.sign` makes it, with its times in seconds. -/
structure AccessToken where
  principal : UserPrincipal
  iat : ℤ
  exp : ℤ

/-- A password that was compared with the hash of the user, and the number of the table of users
the user was read from. -/
structure PasswordCheck where
  user : UserRow
  password : String
  readFrom : ℕ

/-- A login, by what it verified and the first refresh token it issued. -/
structure Login where
  check : PasswordCheck
  token : TokenHash

/-- Why an access token is signed. -/
inductive Grounds
  | login (check : PasswordCheck)
  | refresh (presented newToken : TokenHash)
  | stepUp (check : PasswordCheck)

/-- An access token, when and why it was signed, and how many administrations there had been when
the roles in it began to be read. -/
structure Signing where
  token : AccessToken
  now : JsDate
  grounds : Grounds
  since : ℕ

/-- A request that the guards let through. -/
structure Admission where
  token : AccessToken
  requirement : PermissionRequirement
  resourceId : Option Id
  now : JsDate

/-- Why a call of `AuthService` throws. -/
inductive AuthError
  /-- an `UnauthorizedException` -/
  | unauthorized (message : String)
  /-- what a call throws -/
  | unexpected (message : String)

/-- What has happened so far. None of it is read, but those who present an access token choose one
that was handed out. -/
structure SessionHistory where
  checks : List PasswordCheck
  /-- all there have been, the present one last -/
  administrations : List Administration
  /-- all tables of users there have been, the present one last -/
  userTables : List (List UserRow)
  /-- the login a refresh token goes back to -/
  loginOf : Table TokenHash Login
  handedOut : List Signing
  admitted : List Admission

/-- The tables. -/
structure SessionTables extends SessionHistory where
  users : List UserRow
  administration : Administration
  rolePermissions : List RolePermission
  refreshTokens : Table TokenHash RefreshToken

/-- Nobody has logged in yet. -/
def SessionTables.initial (users : List UserRow) (administration : Administration)
    (rolePermissions : List RolePermission) : SessionTables where
  checks := []
  administrations := [administration]
  userTables := [users]
  loginOf := ∅
  handedOut := []
  admitted := []
  users := users
  administration := administration
  rolePermissions := rolePermissions
  refreshTokens := ∅

/-! ## Roles -/

/-- The first of the two queries of `getRolesForUser`. -/
def Administration.departmentRoles (a : Administration) (userId : Id) : List RoleAssignment :=
  (a.departmentRoleAssignments.filter fun r => r.userId = userId).map fun r =>
    ⟨r.role, some r.departmentId, r.organizationId⟩

/-- The second one. -/
def Administration.organizationRoles (a : Administration) (userId : Id) : List RoleAssignment :=
  (a.organizationRoleAssignments.filter fun r => r.userId = userId).map fun r =>
    ⟨r.role, none, r.organizationId⟩

/-- Read at one time, they are the roles of the user. -/
theorem Administration.rolesOf_eq (a : Administration) (userId : Id) :
    a.rolesOf userId = a.departmentRoles userId ++ a.organizationRoles userId := rfl

/-! ## Tasks -/

/-- What a method answers with. -/
structure SessionAnswer where
  accessToken : Option AccessToken
  refreshToken : Option TokenHash

/-- Which call a task is about to make. -/
inductive SessionTask
  | idle
  /-- `login`: about to find the user -/
  | findingUser (email password : String)
  /-- about to verify the password, for a step-up or a login -/
  | verifying (check : PasswordCheck) (stepUp : Bool)
  /-- `getRolesForUser`: about to read what has not been read yet -/
  | readingRoles (userId : Id) (grounds : Grounds) (since : ℕ)
      (departmentRoles organizationRoles : Option (List RoleAssignment))
  /-- `issue`, of `login`: about to create the row -/
  | issuing (check : PasswordCheck) (signing : Signing)
  /-- `validateAndRotate`: about to find the row -/
  | findingToken (presented : TokenHash)
  /-- it found the row valid: about to revoke it -/
  | rotating (presented : TokenHash) (userId : Id)
  /-- it revoked the row: about to create the successor -/
  | succeeding (presented : TokenHash) (userId : Id)
  /-- `refresh`: about to find the user -/
  | findingOwner (userId : Id) (presented newToken : TokenHash)
  /-- `revoke`: about to revoke the row -/
  | revoking (presented : TokenHash)
  /-- `stepUp`: about to find the user -/
  | findingCaller (userId : Id) (password : String)
  /-- about to answer with an access token, and maybe a refresh token -/
  | answering (signing : Signing) (refreshToken : Option TokenHash)
  /-- answered, thrown out of its method, or dead -/
  | ended (answer : Except AuthError SessionAnswer)

/-- There is a call to make. -/
def SessionTask.isOpen : SessionTask → Bool
  | idle | ended _ => false
  | _ => true

/-- What a call takes from its surroundings. -/
structure SessionEnv where
  now : JsDate
  /-- the hash of the token that is drawn, if one is -/
  newToken : TokenHash
  /-- the query on departments is answered first, or the other one -/
  departmentsFirst : Bool

/-- `this.jwt.sign(principal)` -/
def AccessToken.sign (accessTtl : ℕ) (principal : UserPrincipal) (now : JsDate) : AccessToken where
  principal := principal
  iat := now.ms / 1000
  exp := now.ms / 1000 + accessTtl

/-- `ignoreExpiration: false` -/
def AccessToken.Unexpired (token : AccessToken) (now : JsDate) : Prop := now.ms / 1000 < token.exp

instance (token : AccessToken) (now : JsDate) : Decidable (token.Unexpired now) :=
  inferInstanceAs (Decidable (_ < _))

section

variable (verify : String → String → Bool) (ttlMs : ℤ) (accessTtl : ℕ)

/-- What `AuthService` does with the roles it has read. -/
def AuthService.signFor (env : SessionEnv) (userId : Id) (grounds : Grounds) (since : ℕ)
    (roleAssignments : List RoleAssignment) : Except AuthError SessionTask :=
  let stepUpAt : Option ℕ :=
    match grounds with
    | .stepUp _ => some env.now.ms.toNat
    | _ => none
  match AuthService.buildPrincipal userId stepUpAt roleAssignments with
  | none => .error (.unauthorized "User has no role assignments")
  | some principal =>
    let signing : Signing := ⟨.sign accessTtl principal env.now, env.now, grounds, since⟩
    match grounds with
    | .login check => .ok (.issuing check signing)
    | .refresh _ newToken => .ok (.answering signing (some newToken))
    | .stepUp _ => .ok (.answering signing none)

/-- The row of a new refresh token, and the login it goes back to. -/
def SessionTables.createToken (t : SessionTables) (newToken : TokenHash) (userId : Id)
    (now : JsDate) (login : Option Login) : SessionTables :=
  { t with
    refreshTokens := t.refreshTokens.insert newToken ⟨userId, now.ms + ttlMs, none⟩
    loginOf :=
      match login with
      | some login => t.loginOf.insert newToken login
      | none => t.loginOf }

/-- A call of a task: what it does to the tables and where the task goes on, or what it
throws. -/
def SessionTask.perform (env : SessionEnv) (t : SessionTables) :
    SessionTask → Except AuthError (SessionTables × SessionTask)
  | findingUser email password =>
    match t.users.find? fun user => user.email = email with
    | none => .error (.unauthorized "Invalid credentials")
    | some user => .ok (t, .verifying ⟨user, password, t.userTables.length - 1⟩ false)
  | verifying check stepUp =>
    if verify check.user.passwordHash check.password = true then
      .ok ({ t with checks := t.checks ++ [check] },
        .readingRoles check.user.id (if stepUp then .stepUp check else .login check)
          (t.administrations.length - 1) none none)
    else .error (.unauthorized "Invalid credentials")
  | readingRoles userId grounds since none none =>
    if env.departmentsFirst then
      .ok (t, .readingRoles userId grounds since
        (some (t.administration.departmentRoles userId)) none)
    else
      .ok (t, .readingRoles userId grounds since none
        (some (t.administration.organizationRoles userId)))
  | readingRoles userId grounds since (some departmentRoles) none =>
    (AuthService.signFor accessTtl env userId grounds since
      (departmentRoles ++ t.administration.organizationRoles userId)).map (Prod.mk t)
  | readingRoles userId grounds since none (some organizationRoles) =>
    (AuthService.signFor accessTtl env userId grounds since
      (t.administration.departmentRoles userId ++ organizationRoles)).map (Prod.mk t)
  | readingRoles userId grounds since (some departmentRoles) (some organizationRoles) =>
    (AuthService.signFor accessTtl env userId grounds since
      (departmentRoles ++ organizationRoles)).map (Prod.mk t)
  | issuing check signing =>
    -- the hash is unique
    if env.newToken ∈ t.refreshTokens then .error (.unexpected "Unique constraint failed")
    else
      .ok (t.createToken ttlMs env.newToken check.user.id env.now (some ⟨check, env.newToken⟩),
        .answering signing (some env.newToken))
  | findingToken presented =>
    match (t.refreshTokens.lookup presented).filter fun row => row.IsValid env.now with
    | none => .error (.unauthorized "Invalid or expired refresh token")
    | some row => .ok (t, .rotating presented row.userId)
  | rotating presented userId =>
    if presented ∈ t.refreshTokens then
      -- whatever the row says by now
      .ok ({ t with refreshTokens := Table.update t.refreshTokens presented fun row =>
        { row with revokedAt := some env.now } }, .succeeding presented userId)
    else .error (.unexpected "Record to update not found.")
  | succeeding presented userId =>
    -- the hash is unique
    if env.newToken ∈ t.refreshTokens then .error (.unexpected "Unique constraint failed")
    else
      .ok (t.createToken ttlMs env.newToken userId env.now (t.loginOf.lookup presented),
        .findingOwner userId presented env.newToken)
  | findingOwner userId presented newToken =>
    match t.users.find? fun user => user.id = userId with
    | none => .error (.unexpected "No User found")
    | some user => .ok (t, .readingRoles user.id (.refresh presented newToken)
        (t.administrations.length - 1) none none)
  | revoking presented =>
    .ok ({ t with refreshTokens := Table.update t.refreshTokens presented fun row =>
      if row.revokedAt = none then { row with revokedAt := some env.now } else row },
      .ended (.ok ⟨none, none⟩))
  | findingCaller userId password =>
    match t.users.find? fun user => user.id = userId with
    | none => .error (.unexpected "No User found")
    | some user => .ok (t, .verifying ⟨user, password, t.userTables.length - 1⟩ true)
  | answering signing refreshToken =>
    .ok ({ t with handedOut := t.handedOut ++ [signing] },
      .ended (.ok ⟨some signing.token, refreshToken⟩))
  | idle => .ok (t, .idle)
  | ended answer => .ok (t, .ended answer)

/-! ## The machine -/

/-- What a task does. -/
inductive SessionCall
  /-- it begins: a request comes in -/
  | login (email password : String)
  | refresh (presented : TokenHash)
  | logout (presented : TokenHash)
  /-- with the access token that was handed out at this place -/
  | stepUp (place : ℕ) (password : String) (now : JsDate)
  /-- its next call -/
  | call (env : SessionEnv)
  /-- its next call takes effect, and fails all the same -/
  | lose (env : SessionEnv)
  /-- its next call fails, or its process dies -/
  | fail

/-- The task after it, with the tables. -/
def callSession (t : SessionTables) (task : SessionTask) :
    SessionCall → Option (SessionTables × SessionTask)
  | .login email password =>
    match task with
    | .idle => some (t, .findingUser email password)
    | _ => none
  | .refresh presented =>
    match task with
    | .idle => some (t, .findingToken presented)
    | _ => none
  | .logout presented =>
    match task with
    | .idle => some (t, .revoking presented)
    | _ => none
  | .stepUp place password now =>
    match task, t.handedOut[place]? with
    | .idle, some signing =>
      -- `JwtAuthGuard`
      if signing.token.Unexpired now then
        some (t, .findingCaller signing.token.principal.id password)
      else none
    | _, _ => none
  | .call env =>
    if task.isOpen then
      match task.perform verify ttlMs accessTtl env t with
      | .ok (t, task) => some (t, task)
      | .error e => some (t, .ended (.error e))
    else none
  | .lose env =>
    if task.isOpen then
      match task.perform verify ttlMs accessTtl env t with
      | .ok (t, _) => some (t, .ended (.error (.unexpected "")))
      | .error e => some (t, .ended (.error e))
    else none
  | .fail => if task.isOpen then some (t, .ended (.error (.unexpected ""))) else none

/-- What happens besides the tasks. -/
inductive SessionEvent
  /-- users, roles or permissions are changed -/
  | administer (users : List UserRow) (administration : Administration)
      (rolePermissions : List RolePermission)
  /-- a request comes in with the access token that was handed out at this place, for a route
  that requires a permission -/
  | request (place : ℕ) (requirement : PermissionRequirement) (resourceId : Option Id)
      (registry : ResourceScopeRegistry) (now : JsDate)

/-- The tables after it. A request is let through by `JwtAuthGuard` and `PermissionGuard`. -/
def sessionEvent (windowMs : ℕ) (t : SessionTables) : SessionEvent → Option SessionTables
  | .administer users administration rolePermissions => some { t with
      users := users
      administration := administration
      rolePermissions := rolePermissions
      administrations := t.administrations ++ [administration]
      userTables := t.userTables ++ [users] }
  | .request place requirement resourceId registry now =>
    match t.handedOut[place]? with
    | none => none
    | some signing =>
      if signing.token.Unexpired now ∧
          (PermissionGuard.canActivate t.rolePermissions registry windowMs now.ms.toNat
            (some requirement) (some signing.token.principal) resourceId).toBool = true then
        some { t with admitted := t.admitted ++ [⟨signing.token, requirement, resourceId, now⟩] }
      else none

/-- The machine of sessions. -/
def sessionMachine (windowMs : ℕ) :
    TaskMachine SessionTables SessionTask SessionCall SessionEvent where
  call := callSession verify ttlMs accessTtl
  event := sessionEvent windowMs

end

/-- Nothing has begun. -/
def sessionSystem (users : List UserRow) (administration : Administration)
    (rolePermissions : List RolePermission) : TaskState SessionTables SessionTask where
  shared := .initial users administration rolePermissions
  tasks := fun _ => .idle

end RatelPlatform
