import RatelPlatform.Commands
import RatelPlatform.Sessions

/-!
# What a request that gets through goes back to

The guards believe an access token. What it says was true once: the roles were read when it was
signed, and behind it is a password of its user, verified by the very call that signed it or by
the login that its refresh token goes back to. A route that requires a step-up is only reached
with a token signed by a step-up, which verified the password again (`admissions_backed`).

It takes any number of exchanges to lose none of this on the way. The proofs look at one call at
a time: the history only grows, and what a task knows of it stays true.
-/

namespace RatelPlatform

/-! ## Growth -/

/-- What happens to the history: nothing is lost. By default nothing happens. -/
structure SessionTables.Grows (t t' : SessionTables) : Prop where
  checks : t.checks ⊆ t'.checks := by exact List.Subset.refl _
  administrations : t.administrations <+: t'.administrations := by exact List.prefix_refl _
  userTables : t.userTables <+: t'.userTables := by exact List.prefix_refl _
  loginOf : ∀ token login, t.loginOf.lookup token = some login →
    t'.loginOf.lookup token = some login := by exact fun _ _ h => h
  handedOut : t.handedOut ⊆ t'.handedOut := by exact List.Subset.refl _

instance : Preorder SessionTables where
  le := SessionTables.Grows
  le_refl t := ({} : SessionTables.Grows t t)
  le_trans _ _ _ h h' :=
    ⟨List.Subset.trans h.checks h'.checks, h.administrations.trans h'.administrations,
      h.userTables.trans h'.userTables,
      fun token login hl => h'.loginOf token login (h.loginOf token login hl),
      List.Subset.trans h.handedOut h'.handedOut⟩

namespace SessionTables

variable {t t' : SessionTables} {userId : Id} {grounds : Grounds} {since : ℕ}

/-- The refresh token goes back to a login of the user. -/
def GoesBack (t : SessionTables) (userId : Id) (token : TokenHash) : Prop :=
  ∃ login, t.loginOf.lookup token = some login ∧ login.check ∈ t.checks ∧
    login.check.user.id = userId

/-- The password that was verified for an access token, or for the login that its refresh token
goes back to. -/
def checkBehind (t : SessionTables) : Grounds → Option PasswordCheck
  | .login check => some check
  | .stepUp check => some check
  | .refresh presented _ => (t.loginOf.lookup presented).map Login.check

/-- It is a password of the user. -/
def Grounded (t : SessionTables) (userId : Id) : Grounds → Prop
  | .login check => check ∈ t.checks ∧ check.user.id = userId
  | .stepUp check => check ∈ t.checks ∧ check.user.id = userId
  | .refresh presented _ => t.GoesBack userId presented

/-- The user is a row of the table it was read from. -/
def WasRow (t : SessionTables) (check : PasswordCheck) : Prop :=
  ∃ users, t.userTables[check.readFrom]? = some users ∧ check.user ∈ users

/-- The roles are those of the user, each half as it was at some time since. -/
def WereRoles (t : SessionTables) (userId : Id) (since : ℕ) (roles : List RoleAssignment) : Prop :=
  ∃ a ∈ t.administrations.drop since, ∃ b ∈ t.administrations.drop since,
    roles = a.departmentRoles userId ++ b.organizationRoles userId

/-- What is behind an access token. -/
structure Backed (t : SessionTables) (accessTtl : ℕ) (s : Signing) : Prop where
  signed : s.token = .sign accessTtl s.token.principal s.now
  grounded : t.Grounded s.token.principal.id s.grounds
  roles : ∃ roles, t.WereRoles s.token.principal.id s.since roles ∧
    AuthService.buildPrincipal s.token.principal.id s.token.principal.stepUpAt roles =
      some s.token.principal
  stepUp : ∀ stepUpAt, s.token.principal.stepUpAt = some stepUpAt →
    stepUpAt = s.now.ms.toNat ∧ ∃ check, s.grounds = .stepUp check

theorem GoesBack.mono (hle : t ≤ t') {token : TokenHash} (h : t.GoesBack userId token) :
    t'.GoesBack userId token := by
  obtain ⟨login, hlogin, hcheck, huser⟩ := h
  exact ⟨login, hle.loginOf token login hlogin, hle.checks hcheck, huser⟩

theorem Grounded.exists_check (h : t.Grounded userId grounds) :
    ∃ check ∈ t.checks, t.checkBehind grounds = some check ∧ check.user.id = userId := by
  cases grounds with
  | login check => exact ⟨check, h.1, rfl, h.2⟩
  | stepUp check => exact ⟨check, h.1, rfl, h.2⟩
  | refresh presented newToken =>
    obtain ⟨login, hlogin, hcheck, huser⟩ := h
    exact ⟨login.check, hcheck, congrArg (Option.map Login.check) hlogin, huser⟩

theorem Grounded.mono (hle : t ≤ t') (h : t.Grounded userId grounds) :
    t'.Grounded userId grounds := by
  cases grounds with
  | login check => exact h.imp_left fun hcheck => hle.checks hcheck
  | stepUp check => exact h.imp_left fun hcheck => hle.checks hcheck
  | refresh presented newToken => exact GoesBack.mono hle h

theorem drop_subset (hle : t ≤ t') :
    t.administrations.drop since ⊆ t'.administrations.drop since := by
  obtain ⟨later, hlater⟩ := hle.administrations
  rw [← hlater, List.drop_append]
  exact List.subset_append_left _ _

theorem WereRoles.mono (hle : t ≤ t') {roles : List RoleAssignment}
    (h : t.WereRoles userId since roles) : t'.WereRoles userId since roles := by
  obtain ⟨a, ha, b, hb, hroles⟩ := h
  exact ⟨a, drop_subset hle ha, b, drop_subset hle hb, hroles⟩

theorem WasRow.mono (hle : t ≤ t') {check : PasswordCheck} (h : t.WasRow check) :
    t'.WasRow check := by
  obtain ⟨users, hread, huser⟩ := h
  obtain ⟨later, hlater⟩ := hle.userTables
  refine ⟨users, ?_, huser⟩
  rw [← hlater]
  exact List.getElem?_append_left (List.getElem?_eq_some_iff.mp hread).1 ▸ hread

theorem Backed.mono (hle : t ≤ t') {accessTtl : ℕ} {s : Signing} (h : t.Backed accessTtl s) :
    t'.Backed accessTtl s where
  signed := h.signed
  grounded := h.grounded.mono hle
  roles := h.roles.imp fun _ hroles => ⟨hroles.1.mono hle, hroles.2⟩
  stepUp := h.stepUp

/-! ## What is sound -/

/-- A request was let through with a token that was handed out and had not expired. -/
def Admitted (t : SessionTables) (windowMs : ℕ) (a : Admission) : Prop :=
  (∃ s ∈ t.handedOut, s.token = a.token) ∧ a.token.Unexpired a.now ∧
    (a.requirement.requiresStepUp = true →
      isStepUpFresh a.token.principal.stepUpAt windowMs a.now.ms.toNat = true)

/-- Passwords fit the hashes of users that were read, refresh tokens go back to logins, access
tokens are backed. -/
structure Sound (verify : String → String → Bool) (accessTtl windowMs : ℕ) (t : SessionTables) :
    Prop where
  checks : ∀ check ∈ t.checks, t.WasRow check ∧
    verify check.user.passwordHash check.password = true
  present : ∃ before, t.administrations = before ++ [t.administration]
  presentUsers : ∃ before, t.userTables = before ++ [t.users]
  tokens : ∀ token row, t.refreshTokens.lookup token = some row → t.GoesBack row.userId token
  stored : ∀ token login, t.loginOf.lookup token = some login → token ∈ t.refreshTokens
  handedOut : ∀ s ∈ t.handedOut, t.Backed accessTtl s
  admitted : ∀ a ∈ t.admitted, t.Admitted windowMs a

end SessionTables

open SessionTables

/-- What a task knows of the tables. -/
def SessionTask.Knows (accessTtl : ℕ) (t : SessionTables) : SessionTask → Prop
  | readingRoles userId grounds since departmentRoles organizationRoles =>
    t.Grounded userId grounds ∧ since < t.administrations.length ∧
      (∀ roles, departmentRoles = some roles → ∃ a ∈ t.administrations.drop since,
        roles = a.departmentRoles userId) ∧
      ∀ roles, organizationRoles = some roles → ∃ b ∈ t.administrations.drop since,
        roles = b.organizationRoles userId
  | verifying check _ => t.WasRow check
  | issuing check signing => check ∈ t.checks ∧ t.Backed accessTtl signing
  | rotating presented userId => t.GoesBack userId presented
  | succeeding presented userId => t.GoesBack userId presented
  | findingOwner userId presented _ => t.GoesBack userId presented
  | answering signing _ => t.Backed accessTtl signing
  | _ => True

variable {verify : String → String → Bool} {ttlMs : ℤ} {accessTtl windowMs : ℕ}
  {t t' : SessionTables} {task task' : SessionTask} {env : SessionEnv}

theorem SessionTask.Knows.mono (hle : t ≤ t') (h : task.Knows accessTtl t) :
    task.Knows accessTtl t' := by
  cases task with
  | readingRoles userId grounds since departmentRoles organizationRoles =>
    obtain ⟨hgrounded, hsince, hdepartment, horganization⟩ := h
    refine ⟨hgrounded.mono hle, hsince.trans_le hle.administrations.length_le, ?_, ?_⟩
    · intro roles hroles
      obtain ⟨a, ha, hread⟩ := hdepartment roles hroles
      exact ⟨a, drop_subset hle ha, hread⟩
    · intro roles hroles
      obtain ⟨b, hb, hread⟩ := horganization roles hroles
      exact ⟨b, drop_subset hle hb, hread⟩
  | verifying check stepUp => exact h.mono hle
  | issuing check signing => exact ⟨hle.checks h.1, h.2.mono hle⟩
  | rotating presented userId => exact h.mono hle
  | succeeding presented userId => exact h.mono hle
  | findingOwner userId presented newToken => exact h.mono hle
  | answering signing refreshToken => exact h.mono hle
  | idle | findingUser | findingToken | revoking | findingCaller | ended => trivial

namespace SessionTables

/-! ## Changes that keep the tables sound -/

namespace Sound

/-- The present administration is one of those since any time. -/
theorem mem_drop (h : t.Sound verify accessTtl windowMs) {since : ℕ}
    (hsince : since < t.administrations.length) :
    t.administration ∈ t.administrations.drop since := by
  obtain ⟨before, hbefore⟩ := h.present
  rw [hbefore, List.length_append, List.length_singleton, Nat.lt_succ_iff] at hsince
  rw [hbefore, List.drop_append_of_le_length hsince]
  exact List.mem_append_right _ (List.mem_singleton_self _)

theorem last_lt (h : t.Sound verify accessTtl windowMs) :
    t.administrations.length - 1 < t.administrations.length := by
  obtain ⟨before, hbefore⟩ := h.present
  rw [hbefore, List.length_append, List.length_singleton]
  omega

/-- A user is read from the present table. -/
theorem wasRow (h : t.Sound verify accessTtl windowMs) {user : UserRow} (huser : user ∈ t.users)
    (password : String) : t.WasRow ⟨user, password, t.userTables.length - 1⟩ := by
  obtain ⟨before, hbefore⟩ := h.presentUsers
  refine ⟨t.users, ?_, huser⟩
  simp [hbefore]

/-- Nothing but the history has changed, which has grown. -/
theorem of_grown (h : t.Sound verify accessTtl windowMs) (hle : t ≤ t')
    (hchecks : ∀ check ∈ t'.checks, check ∈ t.checks ∨
      t'.WasRow check ∧ verify check.user.passwordHash check.password = true)
    (hpresent : ∃ before, t'.administrations = before ++ [t'.administration])
    (husers : ∃ before, t'.userTables = before ++ [t'.users])
    (htokens : ∀ token row, t'.refreshTokens.lookup token = some row →
      t'.GoesBack row.userId token)
    (hstored : ∀ token login, t'.loginOf.lookup token = some login → token ∈ t'.refreshTokens)
    (hhanded : ∀ s ∈ t'.handedOut, s ∈ t.handedOut ∨ t'.Backed accessTtl s)
    (hadmitted : ∀ a ∈ t'.admitted, a ∈ t.admitted ∨ t'.Admitted windowMs a) :
    t'.Sound verify accessTtl windowMs where
  checks check hcheck := by
    rcases hchecks check hcheck with hold | hnew
    · obtain ⟨hrow, hverified⟩ := h.checks check hold
      exact ⟨hrow.mono hle, hverified⟩
    · exact hnew
  present := hpresent
  presentUsers := husers
  tokens := htokens
  stored := hstored
  handedOut s hs := (hhanded s hs).elim (fun hold => (h.handedOut s hold).mono hle) fun hnew => hnew
  admitted a ha := by
    rcases hadmitted a ha with hold | hnew
    · obtain ⟨⟨s, hs, htoken⟩, hrest⟩ := h.admitted a hold
      exact ⟨⟨s, hle.handedOut hs, htoken⟩, hrest⟩
    · exact hnew

/-- A password is verified. -/
theorem check (h : t.Sound verify accessTtl windowMs) {check : PasswordCheck}
    (hrow : t.WasRow check) (hverified : verify check.user.passwordHash check.password = true) :
    Sound verify accessTtl windowMs { t with checks := t.checks ++ [check] } ∧
      t ≤ { t with checks := t.checks ++ [check] } := by
  have hle : t ≤ { t with checks := t.checks ++ [check] } :=
    { checks := List.subset_append_left _ _ }
  refine ⟨h.of_grown hle ?_ h.present h.presentUsers ?_ h.stored (fun _ => .inl) fun _ => .inl, hle⟩
  · intro check' hcheck'
    rcases List.mem_append.mp hcheck' with hold | hnew
    · exact .inl hold
    · obtain rfl := List.mem_singleton.mp hnew
      exact .inr ⟨hrow.mono hle, hverified⟩
  · exact fun token row hrow => (h.tokens token row hrow).mono hle

/-- An access token is handed out. -/
theorem handOut (h : t.Sound verify accessTtl windowMs) {s : Signing} (hs : t.Backed accessTtl s) :
    Sound verify accessTtl windowMs { t with handedOut := t.handedOut ++ [s] } ∧
      t ≤ { t with handedOut := t.handedOut ++ [s] } := by
  have hle : t ≤ { t with handedOut := t.handedOut ++ [s] } :=
    { handedOut := List.subset_append_left _ _ }
  refine ⟨h.of_grown hle (fun _ => .inl) h.present h.presentUsers ?_ h.stored ?_ fun _ => .inl, hle⟩
  · exact fun token row hrow => (h.tokens token row hrow).mono hle
  · intro s' hs'
    rcases List.mem_append.mp hs' with hold | hnew
    · exact .inl hold
    · obtain rfl := List.mem_singleton.mp hnew
      exact .inr (hs.mono hle)

/-- A refresh token is revoked, or not: its user stays. -/
theorem update (h : t.Sound verify accessTtl windowMs) (token : TokenHash)
    {f : RefreshToken → RefreshToken} (hf : ∀ row, (f row).userId = row.userId) :
    Sound verify accessTtl windowMs { t with
        refreshTokens := Table.update t.refreshTokens token f } ∧
      t ≤ { t with refreshTokens := Table.update t.refreshTokens token f } := by
  have hle : t ≤ { t with refreshTokens := Table.update t.refreshTokens token f } := {}
  refine ⟨h.of_grown hle (fun _ => .inl) h.present h.presentUsers ?_ ?_ (fun _ => .inl)
    fun _ => .inl, hle⟩
  · intro token' row hrow
    rw [Table.lookup_update] at hrow
    split_ifs at hrow with htoken
    · subst htoken
      obtain ⟨old, hold, rfl⟩ := Option.map_eq_some_iff.mp hrow
      rw [hf]
      exact (h.tokens token' old hold).mono hle
    · exact (h.tokens token' row hrow).mono hle
  · exact fun token' login hlogin =>
      (Table.mem_update _ _ _ _).mpr (h.stored token' login hlogin)

/-- A new refresh token, of a login of the user. -/
theorem createToken (h : t.Sound verify accessTtl windowMs) (ttlMs : ℤ) (now : JsDate)
    {newToken : TokenHash} {userId : Id} (login : Login) (hnew : newToken ∉ t.refreshTokens)
    (hcheck : login.check ∈ t.checks) (huser : login.check.user.id = userId) :
    Sound verify accessTtl windowMs (t.createToken ttlMs newToken userId now (some login)) ∧
      t ≤ t.createToken ttlMs newToken userId now (some login) := by
  have hle : t ≤ t.createToken ttlMs newToken userId now (some login) := by
    refine { loginOf := fun token login' hlogin' => ?_ }
    have hne : token ≠ newToken := by
      rintro rfl
      exact hnew (h.stored token login' hlogin')
    exact (Finmap.lookup_insert_of_ne _ hne).trans hlogin'
  refine ⟨h.of_grown hle (fun _ => .inl) h.present h.presentUsers ?_ ?_ (fun _ => .inl)
    fun _ => .inl, hle⟩
  · intro token row hrow
    obtain ⟨rfl, rfl⟩ | ⟨-, hold⟩ := Table.lookup_insert_cases hrow
    · exact ⟨login, Finmap.lookup_insert _, hcheck, huser⟩
    · exact (h.tokens token row hold).mono hle
  · intro token login' hlogin'
    obtain ⟨rfl, -⟩ | ⟨-, hold⟩ := Table.lookup_insert_cases hlogin'
    · exact Finmap.mem_insert.mpr (.inl rfl)
    · exact Finmap.mem_insert.mpr (.inr (h.stored token login' hold))

end Sound

end SessionTables

/-! ## Calls -/

theorem except_map_ok {α β ε : Type} {x : Except ε α} {f : α → β} {b : β} :
    x.map f = .ok b ↔ ∃ a, x = .ok a ∧ f a = b := by
  cases x with
  | error e => simp [Except.map]
  | ok a => simp [Except.map]

theorem AuthService.buildPrincipal_eq_some {userId : Id} {stepUpAt : Option ℕ}
    {roles : List RoleAssignment} {principal : UserPrincipal}
    (h : AuthService.buildPrincipal userId stepUpAt roles = some principal) :
    principal.id = userId ∧ principal.stepUpAt = stepUpAt := by
  cases roles with
  | nil => cases h
  | cons first rest =>
    cases h
    exact ⟨rfl, rfl⟩

/-- What is signed is backed. -/
theorem AuthService.signFor_knows {userId : Id} {grounds : Grounds} {since : ℕ}
    {roles : List RoleAssignment} (hgrounded : t.Grounded userId grounds)
    (hroles : t.WereRoles userId since roles)
    (hsign : AuthService.signFor accessTtl env userId grounds since roles = .ok task) :
    task.Knows accessTtl t := by
  simp only [AuthService.signFor] at hsign
  split at hsign
  · cases hsign
  · next principal hprincipal =>
    obtain ⟨rfl, hstepUp⟩ := AuthService.buildPrincipal_eq_some hprincipal
    have hbacked : t.Backed accessTtl
        ⟨.sign accessTtl principal env.now, env.now, grounds, since⟩ := by
      refine ⟨rfl, hgrounded, ⟨roles, hroles, ?_⟩, ?_⟩
      · simp only [AccessToken.sign, hstepUp]
        exact hprincipal
      · intro stepUpAt hstepUpAt
        cases grounds with
        | stepUp check =>
          obtain rfl := Option.some.inj (hstepUp.symm.trans hstepUpAt)
          exact ⟨rfl, check, rfl⟩
        | login | refresh => cases hstepUp.symm.trans hstepUpAt
    cases grounds with
    | login check =>
      cases hsign
      exact ⟨hgrounded.1, hbacked⟩
    | refresh presented newToken =>
      cases hsign
      exact hbacked
    | stepUp check =>
      cases hsign
      exact hbacked

/-- **One call** of a task. -/
theorem SessionTask.perform_sound (h : t.Sound verify accessTtl windowMs)
    (hknows : task.Knows accessTtl t)
    (hp : task.perform verify ttlMs accessTtl env t = .ok (t', task')) :
    t'.Sound verify accessTtl windowMs ∧ t ≤ t' ∧ task'.Knows accessTtl t' := by
  cases task with
  | findingUser email password =>
    simp only [perform] at hp
    split at hp
    · cases hp
    · next user huser =>
      cases hp
      exact ⟨h, le_rfl, h.wasRow (List.mem_of_find?_eq_some huser) password⟩
  | verifying check stepUp =>
    simp only [perform] at hp
    split_ifs at hp with hverified hstepUp
    all_goals
      cases hp
      obtain ⟨hsound, hle⟩ := h.check hknows hverified
      have hmem : check ∈ t.checks ++ [check] := List.mem_append_right _ (List.mem_singleton_self _)
      exact ⟨hsound, hle, ⟨hmem, rfl⟩, h.last_lt, nofun, nofun⟩
  | readingRoles userId grounds since departmentRoles organizationRoles =>
    obtain ⟨hgrounded, hsince, hdepartment, horganization⟩ := hknows
    have hpresent := h.mem_drop hsince
    rcases departmentRoles with _ | departmentRoles <;>
      rcases organizationRoles with _ | organizationRoles
    · simp only [perform] at hp
      split_ifs at hp
      · cases hp
        refine ⟨h, le_rfl, hgrounded, hsince, ?_, nofun⟩
        rintro _ ⟨⟩
        exact ⟨_, hpresent, rfl⟩
      · cases hp
        refine ⟨h, le_rfl, hgrounded, hsince, nofun, ?_⟩
        rintro _ ⟨⟩
        exact ⟨_, hpresent, rfl⟩
    · obtain ⟨task, hsign, heq⟩ := except_map_ok.mp hp
      cases heq
      obtain ⟨b, hb, rfl⟩ := horganization _ rfl
      exact ⟨h, le_rfl,
        AuthService.signFor_knows hgrounded ⟨_, hpresent, b, hb, rfl⟩ hsign⟩
    · obtain ⟨task, hsign, heq⟩ := except_map_ok.mp hp
      cases heq
      obtain ⟨a, ha, rfl⟩ := hdepartment _ rfl
      exact ⟨h, le_rfl,
        AuthService.signFor_knows hgrounded ⟨a, ha, _, hpresent, rfl⟩ hsign⟩
    · obtain ⟨task, hsign, heq⟩ := except_map_ok.mp hp
      cases heq
      obtain ⟨a, ha, rfl⟩ := hdepartment _ rfl
      obtain ⟨b, hb, rfl⟩ := horganization _ rfl
      exact ⟨h, le_rfl, AuthService.signFor_knows hgrounded ⟨a, ha, b, hb, rfl⟩ hsign⟩
  | issuing check signing =>
    simp only [perform] at hp
    split_ifs at hp with hnew
    cases hp
    obtain ⟨hsound, hle⟩ := h.createToken ttlMs env.now ⟨check, env.newToken⟩ hnew hknows.1 rfl
    exact ⟨hsound, hle, hknows.2.mono hle⟩
  | findingToken presented =>
    simp only [perform] at hp
    split at hp
    · cases hp
    · next row hrow =>
      cases hp
      obtain ⟨hrow, -⟩ := Option.filter_eq_some_iff.mp hrow
      exact ⟨h, le_rfl, h.tokens presented row hrow⟩
  | rotating presented userId =>
    simp only [perform] at hp
    split_ifs at hp
    cases hp
    obtain ⟨hsound, hle⟩ := h.update presented
      (f := fun row => { row with revokedAt := some env.now }) fun _ => rfl
    exact ⟨hsound, hle, hknows.mono hle⟩
  | succeeding presented userId =>
    simp only [perform] at hp
    split_ifs at hp with hnew
    cases hp
    obtain ⟨login, hlogin, hcheck, huser⟩ := hknows
    rw [hlogin]
    obtain ⟨hsound, hle⟩ := h.createToken ttlMs env.now login hnew hcheck huser
    exact ⟨hsound, hle, GoesBack.mono hle ⟨login, hlogin, hcheck, huser⟩⟩
  | findingOwner userId presented newToken =>
    simp only [perform] at hp
    split at hp
    · cases hp
    · next user huser =>
      cases hp
      obtain rfl : user.id = userId := by simpa using List.find?_some huser
      exact ⟨h, le_rfl, hknows, h.last_lt, nofun, nofun⟩
  | revoking presented =>
    simp only [perform] at hp
    cases hp
    obtain ⟨hsound, hle⟩ := h.update presented
      (f := fun row => if row.revokedAt = none then { row with revokedAt := some env.now } else row)
      fun row => by split_ifs <;> rfl
    exact ⟨hsound, hle, trivial⟩
  | findingCaller userId password =>
    simp only [perform] at hp
    split at hp
    · cases hp
    · next user huser =>
      cases hp
      exact ⟨h, le_rfl, h.wasRow (List.mem_of_find?_eq_some huser) password⟩
  | answering signing refreshToken =>
    cases hp
    obtain ⟨hsound, hle⟩ := h.handOut hknows
    exact ⟨hsound, hle, trivial⟩
  | idle | ended =>
    cases hp
    exact ⟨h, le_rfl, trivial⟩

/-! ## The guard -/

theorem PermissionGuard.allow_ok {windowMs now : ℕ} {requirement : PermissionRequirement}
    {user : UserPrincipal} (h : allow windowMs now requirement user = .ok ())
    (hstepUp : requirement.requiresStepUp = true) :
    isStepUpFresh user.stepUpAt windowMs now = true := by
  simp only [allow] at h
  split_ifs at h with hstale
  by_contra hfresh
  exact hstale ⟨hstepUp, eq_false_of_ne_true hfresh⟩

/-- Whatever a request is let through by, a step-up is asked for last. -/
theorem PermissionGuard.isStepUpFresh_of_ok {permissions : List RolePermission}
    {registry : ResourceScopeRegistry} {windowMs now : ℕ} {requirement : PermissionRequirement}
    {user : UserPrincipal} {resourceId : Option Id}
    (h : canActivate permissions registry windowMs now (some requirement) (some user) resourceId =
      .ok ()) (hstepUp : requirement.requiresStepUp = true) :
    isStepUpFresh user.stepUpAt windowMs now = true := by
  simp only [canActivate] at h
  split_ifs at h
  · exact allow_ok h hstepUp
  · split at h
    · split at h
      · cases h
      · split at h
        · cases h
        · split_ifs at h
          exact allow_ok h hstepUp
    · exact allow_ok h hstepUp

/-! ## Runs -/

theorem SessionTables.Sound.initial (users : List UserRow) (administration : Administration)
    (rolePermissions : List RolePermission) :
    (SessionTables.initial users administration rolePermissions).Sound verify accessTtl
      windowMs where
  checks _ h := by cases h
  present := ⟨[], rfl⟩
  presentUsers := ⟨[], rfl⟩
  tokens _ _ h := by simp [SessionTables.initial] at h
  stored _ _ h := by simp [SessionTables.initial] at h
  handedOut _ h := by cases h
  admitted _ h := by cases h

/-- What happens besides the tasks. -/
theorem sessionEvent_sound (h : t.Sound verify accessTtl windowMs) {event : SessionEvent}
    (hevent : sessionEvent windowMs t event = some t') :
    t'.Sound verify accessTtl windowMs ∧ t ≤ t' := by
  cases event with
  | administer users administration rolePermissions =>
    cases hevent
    have hle : t ≤ { t with
        users := users
        administration := administration
        rolePermissions := rolePermissions
        administrations := t.administrations ++ [administration]
        userTables := t.userTables ++ [users] } :=
      { administrations := List.prefix_append _ _, userTables := List.prefix_append _ _ }
    refine ⟨h.of_grown hle (fun _ => .inl) ⟨t.administrations, rfl⟩ ⟨t.userTables, rfl⟩ ?_
      h.stored (fun _ => .inl) fun _ => .inl, hle⟩
    exact fun token row hrow => (h.tokens token row hrow).mono hle
  | request place requirement resourceId registry now =>
    simp only [sessionEvent] at hevent
    split at hevent
    · cases hevent
    · next signing hplace =>
      split_ifs at hevent with hpasses
      cases hevent
      obtain ⟨hunexpired, hguard⟩ := hpasses
      have hmem : signing ∈ t.handedOut := List.mem_of_getElem? hplace
      have hle : t ≤ { t with
          admitted := t.admitted ++ [⟨signing.token, requirement, resourceId, now⟩] } := {}
      refine ⟨h.of_grown hle (fun _ => .inl) h.present h.presentUsers
        (fun token row hrow => (h.tokens token row hrow).mono hle) h.stored (fun _ => .inl) ?_, hle⟩
      intro a ha
      rcases List.mem_append.mp ha with hold | hnew
      · exact .inl hold
      · obtain rfl := List.mem_singleton.mp hnew
        refine .inr ⟨⟨signing, hmem, rfl⟩, hunexpired, fun hstepUp => ?_⟩
        rcases hok : PermissionGuard.canActivate t.rolePermissions registry windowMs
          now.ms.toNat (some requirement) (some signing.token.principal) resourceId with e | ⟨⟩
        · rw [hok] at hguard
          cases hguard
        · exact PermissionGuard.isStepUpFresh_of_ok hok hstepUp

/-- The sessions, one step at a time. -/
def sessions (verify : String → String → Bool) (ttlMs : ℤ) (accessTtl windowMs : ℕ) :
    (sessionMachine verify ttlMs accessTtl windowMs).Rely where
  Sound := SessionTables.Sound verify accessTtl windowMs
  Knows t task := task.Knows accessTtl t
  stable hle h := h.mono hle
  call := by
    intro t task call t' task' h hknows hcall
    have hstays : ∀ {task' : SessionTask}, task'.Knows accessTtl t →
        t.Sound verify accessTtl windowMs ∧ t ≤ t ∧ task'.Knows accessTtl t :=
      fun hknows' => ⟨h, le_rfl, hknows'⟩
    simp only [sessionMachine] at hcall
    cases call with
    | login | refresh | logout =>
      simp only [callSession] at hcall
      split at hcall
      · cases hcall
        exact hstays trivial
      · cases hcall
    | stepUp place password now =>
      simp only [callSession] at hcall
      split at hcall
      · split_ifs at hcall
        cases hcall
        exact hstays trivial
      · cases hcall
    | call env =>
      simp only [callSession] at hcall
      split_ifs at hcall
      split at hcall
      · next hp =>
        cases hcall
        exact SessionTask.perform_sound h hknows hp
      · cases hcall
        exact hstays trivial
    | lose env =>
      simp only [callSession] at hcall
      split_ifs at hcall
      split at hcall
      · next hp =>
        cases hcall
        obtain ⟨hsound, hle, -⟩ := SessionTask.perform_sound h hknows hp
        exact ⟨hsound, hle, trivial⟩
      · cases hcall
        exact hstays trivial
    | fail =>
      simp only [callSession] at hcall
      split_ifs at hcall
      cases hcall
      exact hstays trivial
  event h hevent := sessionEvent_sound h hevent

/-- **What is behind a request that gets through**, in every interleaving of logins, exchanges,
logouts, step-ups and requests, with failures, and whatever becomes of users, roles and
permissions meanwhile: an access token that was handed out not longer ago than such tokens live,
with roles of its user that were read then, and a password of its user, a row of the table it was
read from, which was verified for the token or for the login that its refresh token goes back to.
Where a step-up is required, it was verified for the token, which was signed within the window. -/
theorem admissions_backed {users : List UserRow} {administration : Administration}
    {rolePermissions : List RolePermission}
    {ok : TaskState SessionTables SessionTask → TaskLabel SessionCall SessionEvent → Prop}
    {ls : List (TaskLabel SessionCall SessionEvent)} {σ : TaskState SessionTables SessionTask}
    (hr : Reaches (sessionMachine verify ttlMs accessTtl windowMs).next ok
      (sessionSystem users administration rolePermissions) ls σ)
    {a : Admission} (ha : a ∈ σ.shared.admitted) :
    ∃ s ∈ σ.shared.handedOut, s.token = a.token ∧
      a.now.ms / 1000 < s.now.ms / 1000 + accessTtl ∧
      (∃ roles, σ.shared.WereRoles a.token.principal.id s.since roles ∧
        AuthService.buildPrincipal a.token.principal.id a.token.principal.stepUpAt roles =
          some a.token.principal) ∧
      (∃ check, σ.shared.checkBehind s.grounds = some check ∧
        check.user.id = a.token.principal.id ∧ σ.shared.WasRow check ∧
          verify check.user.passwordHash check.password = true) ∧
      (a.requirement.requiresStepUp = true →
        (∃ check, s.grounds = .stepUp check) ∧
          (a.now.ms.toNat : ℤ) - s.now.ms.toNat ≤ windowMs) := by
  have hinitial : (sessions verify ttlMs accessTtl windowMs).Holds
      (sessionSystem users administration rolePermissions) :=
    ⟨.initial users administration rolePermissions, fun _ => trivial⟩
  have hsound : σ.shared.Sound verify accessTtl windowMs :=
    ((sessions verify ttlMs accessTtl windowMs).reaches hinitial hr).1.1
  obtain ⟨⟨s, hs, htoken⟩, hunexpired, hfresh⟩ := hsound.admitted a ha
  have hbacked := hsound.handedOut s hs
  rw [← htoken] at hunexpired hfresh ⊢
  refine ⟨s, hs, rfl, ?_, hbacked.roles, ?_, fun hrequired => ?_⟩
  · rw [AccessToken.Unexpired, hbacked.signed] at hunexpired
    exact hunexpired
  · obtain ⟨check, hmem, hbehind, huser⟩ := hbacked.grounded.exists_check
    exact ⟨check, hbehind, huser, hsound.checks check hmem⟩
  · have hfresh := hfresh hrequired
    rcases hstepUp : s.token.principal.stepUpAt with _ | stepUpAt
    · rw [hstepUp] at hfresh
      cases hfresh
    · obtain ⟨rfl, hgrounds⟩ := hbacked.stepUp stepUpAt hstepUp
      rw [hstepUp] at hfresh
      exact ⟨hgrounds, of_decide_eq_true hfresh⟩

namespace Sample

/-- User 14, whose password is `secret`. -/
def directorRow : UserRow := ⟨14, "director@example.com", "argon2:secret"⟩

/-- A hash that can be read. -/
def verifyReadable (passwordHash password : String) : Bool :=
  decide (passwordHash = "argon2:" ++ password)

/-- Who has directed the finances may see what is sensitive. -/
def sensitivePermissions : List RolePermission :=
  [⟨.financeDirector, "payroll:view_sensitive", .organization⟩]

/-- Some calls of a session task at noon, in which a token may be drawn. -/
def sessionCalls (number calls : ℕ) (newToken : TokenHash) :
    List (TaskLabel SessionCall SessionEvent) :=
  List.replicate calls (.call number (.call ⟨noon, newToken, true⟩))

/-- User 14 logs in, exchanges the refresh token, steps up with the access token that comes with
it, and asks for a payslip. -/
def stepsUp : List (TaskLabel SessionCall SessionEvent) :=
  [.call 0 (.login "director@example.com" "secret")] ++ sessionCalls 0 6 1000 ++
    [.call 1 (.refresh 1000)] ++ sessionCalls 1 7 1001 ++
    [.call 2 (.stepUp 1 "secret" noon)] ++ sessionCalls 2 5 0 ++
    [.event (.request 2 ⟨"payroll:view_sensitive", none, true⟩ none (fun _ => none) noon)]

end Sample

open Sample in
/-- The token that is let through was signed by the step-up. -/
theorem admissions_backed_sample : ∃ (σ : TaskState SessionTables SessionTask) (a : Admission),
    a ∈ σ.shared.admitted ∧ a.requirement.requiresStepUp = true ∧
      ∃ s ∈ σ.shared.handedOut, s.token = a.token ∧ ∃ check, s.grounds = .stepUp check := by
  have hrun : ((runLabels (sessionMachine verifyReadable 604800000 900 600000).next
      (sessionSystem [directorRow] Sample.administration sensitivePermissions) stepsUp).bind
        fun σ => σ.shared.admitted.head?.map fun a => a.requirement.requiresStepUp) =
          some true := by
    decide +kernel
  obtain ⟨σ, hσ, hhead⟩ := Option.bind_eq_some_iff.mp hrun
  obtain ⟨a, hfirst, hrequired⟩ := Option.map_eq_some_iff.mp hhead
  have ha : a ∈ σ.shared.admitted := List.mem_of_mem_head? hfirst
  obtain ⟨s, hs, htoken, -, -, -, hstepUp⟩ := admissions_backed (reaches_of_runLabels hσ) ha
  exact ⟨σ, a, ha, hrequired, s, hs, htoken, (hstepUp hrequired).1⟩

end RatelPlatform
