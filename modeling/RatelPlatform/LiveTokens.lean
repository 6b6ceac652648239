import RatelPlatform.Admissions
import RatelPlatform.Relays

/-!
# One live refresh token a login

Exchanging a refresh token passes the session on: the token is revoked, and its successor is
issued. As long as every exchange revokes a token that is still unrevoked, it goes from one holder
to the next, and a login has one live refresh token at most (`one_live_token`). Logging out with
it ends the session: of all the tokens that go back to the login, before and after, none can be
exchanged any more (`logout_ends_session`).

Without the condition two exchanges may revoke one token and issue two successors.
-/

namespace RatelPlatform

/-- What keeps a session alive. -/
inductive SessionHolder
  /-- a refresh token that is not revoked -/
  | token (token : TokenHash)
  /-- an exchange that has revoked a token, and is about to issue its successor -/
  | exchange (i : ℕ)

namespace SessionTask

/-- The token an exchange is about to revoke. -/
def rotates : SessionTask → Option TokenHash
  | rotating presented _ => some presented
  | _ => none

/-- The token an exchange has revoked. -/
def exchanging : SessionTask → Option TokenHash
  | succeeding presented _ => some presented
  | _ => none

/-- The token a logout is about to revoke. -/
def logsOut : SessionTask → Option TokenHash
  | revoking presented => some presented
  | _ => none

theorem eq_revoking {task : SessionTask} {presented : TokenHash}
    (h : task.logsOut = some presented) : task = .revoking presented := by
  cases task <;> cases h
  rfl

end SessionTask

namespace SessionTables

/-- The refresh token goes back to the login that issued the first one. -/
def OfLogin (t : SessionTables) (first token : TokenHash) : Prop :=
  ∃ login, t.loginOf.lookup token = some login ∧ login.token = first

/-- The refresh token is there, and not revoked. -/
def Live (t : SessionTables) (token : TokenHash) : Prop :=
  ∃ row, t.refreshTokens.lookup token = some row ∧ row.revokedAt = none

instance (t : SessionTables) (first token : TokenHash) : Decidable (t.OfLogin first token) :=
  inferInstanceAs (Decidable (∃ login ∈ t.loginOf.lookup token, login.token = first))

instance (t : SessionTables) (token : TokenHash) : Decidable (t.Live token) :=
  inferInstanceAs (Decidable (∃ row ∈ t.refreshTokens.lookup token, row.revokedAt = none))

theorem Live.mem {t : SessionTables} {token : TokenHash} (h : t.Live token) :
    token ∈ t.refreshTokens := by
  obtain ⟨row, hrow, -⟩ := h
  exact Finmap.mem_of_lookup_eq_some hrow

theorem OfLogin.of_same {t t' : SessionTables} {first token : TokenHash}
    (hlogins : t'.loginOf = t.loginOf) (h : t'.OfLogin first token) : t.OfLogin first token := by
  obtain ⟨login, hlogin, hfirst⟩ := h
  exact ⟨login, hlogins ▸ hlogin, hfirst⟩

end SessionTables

/-- The session that began with the token is kept alive by the holder. -/
def KeepsAlive (σ : TaskState SessionTables SessionTask) (first : TokenHash) :
    SessionHolder → Prop
  | .token token => σ.shared.Live token ∧ σ.shared.OfLogin first token
  | .exchange i => ∃ presented, (σ.tasks i).exchanging = some presented ∧
      σ.shared.OfLogin first presented

/-- **The condition**: an exchange that is about to revoke a token finds it still unrevoked. -/
def RevokesUnrevoked (σ : TaskState SessionTables SessionTask) :
    TaskLabel SessionCall SessionEvent → Prop
  | .call i (.call _) | .call i (.lose _) =>
    ∀ presented ∈ (σ.tasks i).rotates, ∀ row ∈ σ.shared.refreshTokens.lookup presented,
      row.revokedAt = none
  | _ => True

instance (σ : TaskState SessionTables SessionTask) :
    (l : TaskLabel SessionCall SessionEvent) → Decidable (RevokesUnrevoked σ l)
  | .call _ (.call _) | .call _ (.lose _) => inferInstanceAs (Decidable (∀ _ ∈ _, ∀ _ ∈ _, _))
  | .call _ (.login ..) | .call _ (.refresh _) | .call _ (.logout _) | .call _ (.stepUp ..)
  | .call _ .fail | .event _ => .isTrue trivial

/-- Tokens that go back to a login are stored, and so is the first one of it; and so are those
that are being exchanged. -/
structure StoresTokens (σ : TaskState SessionTables SessionTask) : Prop where
  logins : ∀ first token, σ.shared.OfLogin first token →
    token ∈ σ.shared.refreshTokens ∧ first ∈ σ.shared.refreshTokens
  exchanging : ∀ i presented, (σ.tasks i).exchanging = some presented →
    presented ∈ σ.shared.refreshTokens

/-! ## What a call does to refresh tokens -/

/-- What a call does to the tokens and their logins, and which exchange is under way then. -/
inductive TokenEffect (t : SessionTables) (task : SessionTask) (t' : SessionTables)
    (task' : SessionTask) : Prop
  | unchanged (htokens : t'.refreshTokens = t.refreshTokens) (hlogins : t'.loginOf = t.loginOf)
    (hexchanging : task'.exchanging = none)
  /-- the first token of a login -/
  | first {token : TokenHash} {row : RefreshToken} {login : Login} (hnew : token ∉ t.refreshTokens)
    (htoken : login.token = token) (htokens : t'.refreshTokens = t.refreshTokens.insert token row)
    (hlogins : t'.loginOf = t.loginOf.insert token login) (hexchanging : task'.exchanging = none)
  | rotated {presented : TokenHash} {now : JsDate} (htask : task.rotates = some presented)
    (hmem : presented ∈ t.refreshTokens)
    (htokens : t'.refreshTokens = Table.update t.refreshTokens presented fun row =>
      { row with revokedAt := some now })
    (hlogins : t'.loginOf = t.loginOf)
    (hexchanging : ∀ token ∈ task'.exchanging, token = presented)
  /-- the successor of a token -/
  | succeeded {presented token : TokenHash} {row : RefreshToken}
    (htask : task.exchanging = some presented) (hnew : token ∉ t.refreshTokens)
    (htokens : t'.refreshTokens = t.refreshTokens.insert token row)
    (hlogins : t'.loginOf =
      match t.loginOf.lookup presented with
      | some login => t.loginOf.insert token login
      | none => t.loginOf)
    (hexchanging : task'.exchanging = none)
  | revoked {presented : TokenHash} {now : JsDate}
    (htokens : t'.refreshTokens = Table.update t.refreshTokens presented fun row =>
      if row.revokedAt = none then { row with revokedAt := some now } else row)
    (hlogins : t'.loginOf = t.loginOf) (hexchanging : task'.exchanging = none)

variable {verify : String → String → Bool} {ttlMs : ℤ} {accessTtl windowMs : ℕ}
  {t t' : SessionTables} {task task' : SessionTask} {env : SessionEnv}

/-- A task that throws has the same effect. -/
theorem TokenEffect.ended (h : TokenEffect t task t' task')
    (answer : Except AuthError SessionAnswer) : TokenEffect t task t' (.ended answer) := by
  cases h with
  | unchanged htokens hlogins _ => exact .unchanged htokens hlogins rfl
  | first hnew htoken htokens hlogins _ => exact .first hnew htoken htokens hlogins rfl
  | rotated htask hmem htokens hlogins _ => exact .rotated htask hmem htokens hlogins nofun
  | succeeded htask hnew htokens hlogins _ => exact .succeeded htask hnew htokens hlogins rfl
  | revoked htokens hlogins _ => exact .revoked htokens hlogins rfl

theorem AuthService.signFor_exchanging {userId : Id} {grounds : Grounds} {since : ℕ}
    {roles : List RoleAssignment}
    (h : AuthService.signFor accessTtl env userId grounds since roles = .ok task) :
    task.exchanging = none := by
  simp only [AuthService.signFor] at h
  split at h
  · cases h
  · cases grounds <;>
    · cases h
      rfl

/-- There are no other effects. -/
theorem SessionTask.perform_effect
    (hp : task.perform verify ttlMs accessTtl env t = .ok (t', task')) :
    TokenEffect t task t' task' := by
  cases task with
  | findingUser email password =>
    simp only [perform] at hp
    split at hp
    · cases hp
    · cases hp
      exact .unchanged rfl rfl rfl
  | verifying check stepUp =>
    simp only [perform] at hp
    split_ifs at hp
    all_goals
      cases hp
      exact .unchanged rfl rfl rfl
  | readingRoles userId grounds since departmentRoles organizationRoles =>
    rcases departmentRoles with _ | departmentRoles <;>
      rcases organizationRoles with _ | organizationRoles
    · simp only [perform] at hp
      split_ifs at hp
      all_goals
        cases hp
        exact .unchanged rfl rfl rfl
    all_goals
      obtain ⟨task, hsign, heq⟩ := except_map_ok.mp hp
      cases heq
      exact .unchanged rfl rfl (AuthService.signFor_exchanging hsign)
  | issuing check signing =>
    simp only [perform] at hp
    split_ifs at hp with hnew
    cases hp
    exact .first hnew rfl rfl rfl rfl
  | findingToken presented =>
    simp only [perform] at hp
    split at hp
    · cases hp
    · cases hp
      exact .unchanged rfl rfl rfl
  | rotating presented userId =>
    simp only [perform] at hp
    split_ifs at hp with hmem
    cases hp
    refine .rotated rfl hmem rfl rfl fun token htoken => ?_
    exact (Option.some.inj htoken).symm
  | succeeding presented userId =>
    simp only [perform] at hp
    split_ifs at hp with hnew
    cases hp
    exact .succeeded rfl hnew rfl rfl rfl
  | findingOwner userId presented newToken =>
    simp only [perform] at hp
    split at hp
    · cases hp
    · cases hp
      exact .unchanged rfl rfl rfl
  | revoking presented =>
    cases hp
    exact .revoked rfl rfl rfl
  | findingCaller userId password =>
    simp only [perform] at hp
    split at hp
    · cases hp
    · cases hp
      exact .unchanged rfl rfl rfl
  | answering | idle | ended =>
    cases hp
    exact .unchanged rfl rfl rfl

/-! ## Passing a session on -/

/-- Nothing has happened to the other tokens. -/
structure SessionTables.SameBut (token : TokenHash) (t t' : SessionTables) : Prop where
  tokens : ∀ other, other ≠ token →
    t'.refreshTokens.lookup other = t.refreshTokens.lookup other
  logins : ∀ other, other ≠ token → t'.loginOf.lookup other = t.loginOf.lookup other

namespace SessionTables.SameBut

variable {first token other : TokenHash}

theorem live (h : SameBut token t t') (hne : other ≠ token) (hlive : t'.Live other) :
    t.Live other := by
  obtain ⟨row, hrow, hunrevoked⟩ := hlive
  exact ⟨row, (h.tokens other hne).symm.trans hrow, hunrevoked⟩

theorem ofLogin (h : SameBut token t t') (hne : other ≠ token) (hof : t'.OfLogin first other) :
    t.OfLogin first other := by
  obtain ⟨login, hlogin, hfirst⟩ := hof
  exact ⟨login, (h.logins other hne).symm.trans hlogin, hfirst⟩

theorem of_insert {row : RefreshToken}
    (htokens : t'.refreshTokens = t.refreshTokens.insert token row)
    (hlogins : ∀ other, other ≠ token → t'.loginOf.lookup other = t.loginOf.lookup other) :
    SameBut token t t' where
  tokens other hne := by rw [htokens, Finmap.lookup_insert_of_ne _ hne]
  logins := hlogins

theorem of_update {f : RefreshToken → RefreshToken}
    (htokens : t'.refreshTokens = Table.update t.refreshTokens token f)
    (hlogins : t'.loginOf = t.loginOf) : SameBut token t t' where
  tokens other hne := by rw [htokens, Table.lookup_update, if_neg hne]
  logins other _ := by rw [hlogins]

end SessionTables.SameBut

section Passing

variable {σ : TaskState SessionTables SessionTask} {i : ℕ} {first token : TokenHash}
  {x : SessionHolder}

/-- Whoever keeps a session alive did so before, but for one token and one task. -/
theorem keepsAlive_cases (h : SessionTables.SameBut token σ.shared t')
    (hexchanging : ∀ j, (σ.tasks j).exchanging = some token →
      t'.OfLogin first token → σ.shared.OfLogin first token)
    (hx : KeepsAlive ⟨t', Function.update σ.tasks i task'⟩ first x) :
    (KeepsAlive σ first x ∧ x ≠ .token token ∧ x ≠ .exchange i) ∨
      (x = .token token ∧ t'.Live token ∧ t'.OfLogin first token) ∨
      (x = .exchange i ∧ ∃ presented, task'.exchanging = some presented ∧
        t'.OfLogin first presented) := by
  cases x with
  | token other =>
    obtain ⟨hlive, hof⟩ := hx
    by_cases hother : other = token
    · subst hother
      exact .inr (.inl ⟨rfl, hlive, hof⟩)
    · refine .inl ⟨⟨h.live hother hlive, h.ofLogin hother hof⟩, ?_, nofun⟩
      exact fun heq => hother (SessionHolder.token.inj heq)
  | exchange j =>
    obtain ⟨presented, htask, hof⟩ := hx
    by_cases hj : j = i
    · subst hj
      simp only [Function.update_self] at htask
      exact .inr (.inr ⟨rfl, presented, htask, hof⟩)
    · simp only [Function.update_of_ne hj] at htask
      refine .inl ⟨⟨presented, htask, ?_⟩, nofun, fun heq => hj (SessionHolder.exchange.inj heq)⟩
      by_cases hpresented : presented = token
      · subst hpresented
        exact hexchanging j htask hof
      · exact h.ofLogin hpresented hof

/-- The tokens that were there still are. -/
theorem TokenEffect.mem (h : TokenEffect t task t' task') (hmem : token ∈ t.refreshTokens) :
    token ∈ t'.refreshTokens := by
  cases h with
  | unchanged htokens => rwa [htokens]
  | first _ _ htokens | succeeded _ _ htokens =>
    rw [htokens]
    exact Finmap.mem_insert.mpr (.inr hmem)
  | rotated _ _ htokens | revoked htokens =>
    rw [htokens]
    exact (Table.mem_update _ _ _ _).mpr hmem

/-- The tokens stay stored. -/
theorem StoresTokens.next (h : StoresTokens σ)
    (heffect : TokenEffect σ.shared (σ.tasks i) t' task') :
    StoresTokens ⟨t', Function.update σ.tasks i task'⟩ := by
  refine ⟨fun first token hof => ?_, fun j presented htask => ?_⟩
  · have hold : ∀ {token}, σ.shared.OfLogin first token →
        token ∈ t'.refreshTokens ∧ first ∈ t'.refreshTokens := fun hof =>
      ⟨heffect.mem (h.logins first _ hof).1, heffect.mem (h.logins first _ hof).2⟩
    obtain ⟨login, hlogin, hfirst⟩ := hof
    have hsame : t'.loginOf = σ.shared.loginOf →
        token ∈ t'.refreshTokens ∧ first ∈ t'.refreshTokens := fun hlogins =>
      hold ⟨login, hlogins ▸ hlogin, hfirst⟩
    cases heffect with
    | unchanged _ hlogins => exact hsame hlogins
    | rotated _ _ _ hlogins => exact hsame hlogins
    | revoked _ hlogins => exact hsame hlogins
    | first hnew htoken htokens hlogins _ =>
      rw [hlogins] at hlogin
      obtain ⟨rfl, rfl⟩ | ⟨-, hlogin⟩ := Table.lookup_insert_cases hlogin
      · rw [← hfirst, htoken, htokens]
        exact ⟨Finmap.mem_insert.mpr (.inl rfl), Finmap.mem_insert.mpr (.inl rfl)⟩
      · exact hold ⟨login, hlogin, hfirst⟩
    | @succeeded presented new row htask hnew htokens hlogins _ =>
      split at hlogins
      · next old hpresented =>
        rw [hlogins] at hlogin
        obtain ⟨rfl, rfl⟩ | ⟨-, hlogin⟩ := Table.lookup_insert_cases hlogin
        · refine ⟨?_, (hold ⟨old, hpresented, hfirst⟩).2⟩
          rw [htokens]
          exact Finmap.mem_insert.mpr (.inl rfl)
        · exact hold ⟨login, hlogin, hfirst⟩
      · exact hsame hlogins
  · by_cases hj : j = i
    · subst hj
      simp only [Function.update_self] at htask
      cases heffect with
      | unchanged _ _ hexchanging => cases hexchanging.symm.trans htask
      | first _ _ _ _ hexchanging => cases hexchanging.symm.trans htask
      | succeeded _ _ _ _ hexchanging => cases hexchanging.symm.trans htask
      | revoked _ _ hexchanging => cases hexchanging.symm.trans htask
      | rotated _ hmem htokens _ hexchanging =>
        rw [hexchanging presented htask, htokens]
        exact (Table.mem_update _ _ _ _).mpr hmem
    · simp only [Function.update_of_ne hj] at htask
      exact heffect.mem (h.exchanging j presented htask)

/-- Nobody comes to keep a session alive where tokens and logins are the same. -/
theorem KeepsAlive.of_same {τ : TaskState SessionTables SessionTask}
    (hx : KeepsAlive τ first x) (htokens : τ.shared.refreshTokens = σ.shared.refreshTokens)
    (hlogins : τ.shared.loginOf = σ.shared.loginOf)
    (htasks : ∀ j, ∀ presented ∈ (τ.tasks j).exchanging,
      (σ.tasks j).exchanging = some presented) : KeepsAlive σ first x := by
  cases x with
  | token token =>
    obtain ⟨⟨row, hrow, hunrevoked⟩, hof⟩ := hx
    exact ⟨⟨row, htokens ▸ hrow, hunrevoked⟩, hof.of_same hlogins⟩
  | exchange j =>
    obtain ⟨presented, htask, hof⟩ := hx
    exact ⟨presented, htasks j presented htask, hof.of_same hlogins⟩

theorem exchanging_update {j : ℕ} {presented : TokenHash} (hnone : task'.exchanging = none)
    (hmem : presented ∈ (Function.update σ.tasks i task' j).exchanging) :
    (σ.tasks j).exchanging = some presented := by
  by_cases hj : j = i
  · subst hj
    rw [Function.update_self, hnone] at hmem
    cases hmem
  · rwa [Function.update_of_ne hj] at hmem

/-- A token that is revoked keeps nothing alive. -/
theorem keepsAlive_of_revoked {now : JsDate}
    (hx : KeepsAlive ⟨t', Function.update σ.tasks i task'⟩ first x)
    (htokens : t'.refreshTokens = Table.update σ.shared.refreshTokens token fun row =>
      if row.revokedAt = none then { row with revokedAt := some now } else row)
    (hlogins : t'.loginOf = σ.shared.loginOf) (hexchanging : task'.exchanging = none) :
    KeepsAlive σ first x ∧ x ≠ .token token := by
  rcases keepsAlive_cases (.of_update htokens hlogins) (fun _ _ => .of_same hlogins) hx with
    ⟨hold, hne, -⟩ | ⟨-, ⟨row, hrow, hunrevoked⟩, -⟩ | ⟨-, other, hother, -⟩
  · exact ⟨hold, hne⟩
  · rw [htokens, Table.lookup_update, if_pos rfl] at hrow
    obtain ⟨row, -, rfl⟩ := Option.map_eq_some_iff.mp hrow
    split_ifs at hunrevoked with hrevoked
    exact absurd hunrevoked hrevoked
  · cases hexchanging.symm.trans hother

/-- **A call passes sessions on**, if an exchange only revokes what is unrevoked. -/
theorem TokenEffect.passesOn (h : StoresTokens σ)
    (heffect : TokenEffect σ.shared (σ.tasks i) t' task')
    (hrevokes : ∀ presented ∈ (σ.tasks i).rotates,
      ∀ row ∈ σ.shared.refreshTokens.lookup presented, row.revokedAt = none) :
    PassesOn (KeepsAlive σ) (KeepsAlive ⟨t', Function.update σ.tasks i task'⟩)
      (· ∈ σ.shared.refreshTokens) := by
  cases heffect with
  | unchanged htokens hlogins hexchanging =>
    refine .of_imp (.exchange i) fun first x hx => ?_
    exact hx.of_same htokens hlogins fun _ _ => exchanging_update hexchanging
  | @first token row login hnew htoken htokens hlogins hexchanging =>
    refine .of_new (.token token) fun first x hx => ?_
    have hsame : SessionTables.SameBut token σ.shared t' := .of_insert htokens fun other hne => by
      rw [hlogins, Finmap.lookup_insert_of_ne _ hne]
    rcases keepsAlive_cases hsame
      (fun j htask _ => absurd (h.exchanging j token htask) hnew) hx with
      ⟨hold, -⟩ | ⟨rfl, -, login', hlogin, hfirst⟩ | ⟨-, presented, htask, -⟩
    · exact .inl hold
    · rw [hlogins, Finmap.lookup_insert] at hlogin
      obtain rfl := Option.some.inj hlogin
      refine .inr ⟨rfl, ?_⟩
      rwa [← hfirst, htoken]
    · cases hexchanging.symm.trans htask
  | @rotated presented now htask hmem htokens hlogins hexchanging =>
    refine .of_pass (.token presented) (.exchange i) fun first x hx => ?_
    rcases keepsAlive_cases (.of_update htokens hlogins) (fun _ _ => .of_same hlogins) hx with
      ⟨hold, hne, -⟩ | ⟨-, ⟨row, hrow, hunrevoked⟩, -⟩ | ⟨rfl, other, hother, hof⟩
    · exact .inl ⟨hold, hne⟩
    · -- it has just been revoked
      rw [htokens, Table.lookup_update, if_pos rfl] at hrow
      obtain ⟨_, -, rfl⟩ := Option.map_eq_some_iff.mp hrow
      cases hunrevoked
    · obtain rfl := hexchanging other hother
      obtain ⟨row, hrow⟩ := Finmap.mem_iff.mp hmem
      exact .inr ⟨rfl, ⟨row, hrow, hrevokes other htask row hrow⟩, hof.of_same hlogins⟩
  | @succeeded presented token row htask hnew htokens hlogins hexchanging =>
    refine .of_pass (.exchange i) (.token token) fun first x hx => ?_
    have hsame : SessionTables.SameBut token σ.shared t' := .of_insert htokens fun other hne => by
      rw [hlogins]
      split
      · exact Finmap.lookup_insert_of_ne _ hne
      · rfl
    rcases keepsAlive_cases hsame
      (fun j htask _ => absurd (h.exchanging j token htask) hnew) hx with
      ⟨hold, -, hne⟩ | ⟨rfl, -, login', hlogin, hfirst⟩ | ⟨-, other, hother, -⟩
    · exact .inl ⟨hold, hne⟩
    · refine .inr ⟨rfl, presented, htask, ?_⟩
      rw [hlogins] at hlogin
      split at hlogin
      · next login hpresented =>
        rw [Finmap.lookup_insert] at hlogin
        obtain rfl := Option.some.inj hlogin
        exact ⟨login, hpresented, hfirst⟩
      · exact absurd (h.logins first token ⟨login', hlogin, hfirst⟩).1 hnew
    · cases hexchanging.symm.trans hother
  | @revoked presented now htokens hlogins hexchanging =>
    refine .of_imp (.exchange i) fun first x hx => ?_
    exact (keepsAlive_of_revoked hx htokens hlogins hexchanging).1

end Passing

/-! ## Runs -/

section

variable {call : SessionCall}

/-- What happens to tokens where a call is made, and nothing where none is. -/
theorem callSession_cases
    (hcall : callSession verify ttlMs accessTtl t task call = some (t', task')) :
    ((∃ env, call = .call env ∨ call = .lose env) ∧ TokenEffect t task t' task') ∨
      (t' = t ∧ task'.exchanging = none) := by
  cases call with
  | login | refresh | logout =>
    simp only [callSession] at hcall
    split at hcall
    · cases hcall
      exact .inr ⟨rfl, rfl⟩
    · cases hcall
  | stepUp =>
    simp only [callSession] at hcall
    split at hcall
    · split_ifs at hcall
      cases hcall
      exact .inr ⟨rfl, rfl⟩
    · cases hcall
  | call env =>
    simp only [callSession] at hcall
    split_ifs at hcall
    split at hcall
    · next hp =>
      cases hcall
      exact .inl ⟨⟨env, .inl rfl⟩, SessionTask.perform_effect hp⟩
    · cases hcall
      exact .inr ⟨rfl, rfl⟩
  | lose env =>
    simp only [callSession] at hcall
    split_ifs at hcall
    split at hcall
    · next hp =>
      cases hcall
      exact .inl ⟨⟨env, .inr rfl⟩, (SessionTask.perform_effect hp).ended _⟩
    · cases hcall
      exact .inr ⟨rfl, rfl⟩
  | fail =>
    simp only [callSession] at hcall
    split_ifs at hcall
    cases hcall
    exact .inr ⟨rfl, rfl⟩

/-- Tokens do not depend on what happens besides the tasks. -/
theorem sessionEvent_tokens {event : SessionEvent}
    (hevent : sessionEvent windowMs t event = some t') :
    t'.refreshTokens = t.refreshTokens ∧ t'.loginOf = t.loginOf := by
  cases event with
  | administer =>
    cases hevent
    exact ⟨rfl, rfl⟩
  | request =>
    simp only [sessionEvent] at hevent
    split at hevent
    · cases hevent
    · split_ifs at hevent
      cases hevent
      exact ⟨rfl, rfl⟩

end

/-- Sessions are passed on from token to exchange to token. -/
def tokenRelay (verify : String → String → Bool) (ttlMs : ℤ) (accessTtl windowMs : ℕ) :
    Relay (sessionMachine verify ttlMs accessTtl windowMs).next RevokesUnrevoked TokenHash
      SessionHolder where
  Sound := StoresTokens
  Known σ first := first ∈ σ.shared.refreshTokens
  Holds := KeepsAlive
  known {σ first x} h hx := by
    cases x with
    | token token => exact (h.logins first token hx.2).2
    | exchange i =>
      obtain ⟨presented, -, hof⟩ := hx
      exact (h.logins first presented hof).2
  step {σ l τ} h hok hn := by
    cases l with
    | call i call =>
      obtain ⟨⟨t', task'⟩, hcall, rfl⟩ := Option.map_eq_some_iff.mp hn
      rcases callSession_cases hcall with ⟨⟨env, hmade⟩, heffect⟩ | ⟨rfl, hnone⟩
      · refine ⟨h.next heffect, fun _ => heffect.mem, heffect.passesOn h ?_⟩
        rcases hmade with rfl | rfl
        · exact hok
        · exact hok
      · have heffect : TokenEffect σ.shared (σ.tasks i) σ.shared task' :=
          .unchanged rfl rfl hnone
        refine ⟨h.next heffect, fun _ => id, .of_imp (.exchange i) fun first x hx => ?_⟩
        exact hx.of_same rfl rfl fun _ _ => exchanging_update hnone
    | event event =>
      obtain ⟨t', hevent, rfl⟩ := Option.map_eq_some_iff.mp hn
      obtain ⟨htokens, hlogins⟩ := sessionEvent_tokens hevent
      refine ⟨⟨fun first token hof => ?_, fun i presented htask => ?_⟩, fun first hfirst => ?_,
        .of_imp (.exchange 0) fun first x hx => hx.of_same htokens hlogins fun _ _ htask => htask⟩
      · simp only [htokens]
        exact h.logins first token (hof.of_same hlogins)
      · simp only [htokens]
        exact h.exchanging i presented htask
      · simp only [htokens]
        exact hfirst

section

variable {users : List UserRow} {administration : Administration}
  {rolePermissions : List RolePermission} {ls ls' : List (TaskLabel SessionCall SessionEvent)}
  {σ τ υ : TaskState SessionTables SessionTask}

theorem StoresTokens.initial :
    StoresTokens (sessionSystem users administration rolePermissions) where
  logins first token hof := by
    obtain ⟨login, hlogin, -⟩ := hof
    simp [sessionSystem, SessionTables.initial] at hlogin
  exchanging i presented htask := by cases htask

theorem not_keepsAlive_initial (first : TokenHash) (x : SessionHolder) :
    ¬ KeepsAlive (sessionSystem users administration rolePermissions) first x := by
  intro hx
  have hnone := (tokenRelay (fun _ _ => true) 0 0 0).known StoresTokens.initial hx
  simp [tokenRelay, sessionSystem, SessionTables.initial, Finmap.notMem_empty] at hnone

/-- **One live refresh token a login**, in every interleaving of logins, exchanges, logouts and
step-ups, with failures, whose exchanges only revoke what is unrevoked: every live token goes back
to a login, no other live token goes back to the same one, and there is none while a token of it
is being exchanged. -/
theorem one_live_token
    (hr : Reaches (sessionMachine verify ttlMs accessTtl windowMs).next RevokesUnrevoked
      (sessionSystem users administration rolePermissions) ls σ) :
    (∀ token, σ.shared.Live token → ∃ first, KeepsAlive σ first (.token token)) ∧
      ∀ first x y, KeepsAlive σ first x → KeepsAlive σ first y → x = y := by
  have hinitial : (sessions verify ttlMs accessTtl windowMs).Holds
      (sessionSystem users administration rolePermissions) :=
    ⟨.initial users administration rolePermissions, fun _ => trivial⟩
  have hsound : σ.shared.Sound verify accessTtl windowMs :=
    ((sessions verify ttlMs accessTtl windowMs).reaches hinitial hr).1.1
  refine ⟨fun token hlive => ?_, ?_⟩
  · obtain ⟨row, hrow⟩ := Finmap.mem_iff.mp hlive.mem
    obtain ⟨login, hlogin, -, -⟩ := hsound.tokens token row hrow
    exact ⟨login.token, hlive, login, hlogin, rfl⟩
  · refine (tokenRelay verify ttlMs accessTtl windowMs).unique .initial ?_ hr
    exact fun first x _ hx _ => absurd hx (not_keepsAlive_initial first x)

namespace Sample

/-- User 14 may log in. -/
def sessionStart : TaskState SessionTables SessionTask :=
  sessionSystem [directorRow] Sample.administration sensitivePermissions

/-- User 14 logs in and exchanges the refresh token. -/
def exchangesToken : List (TaskLabel SessionCall SessionEvent) :=
  [.call 0 (.login "director@example.com" "secret")] ++ sessionCalls 0 6 1000 ++
    [.call 1 (.refresh 1000)] ++ sessionCalls 1 7 1001

/-- The first token is presented once more, while the user logs out with the second one. -/
def logsOut : List (TaskLabel SessionCall SessionEvent) :=
  exchangesToken ++ [.call 2 (.refresh 1000), .call 3 (.logout 1001)]

/-- The session machine, where exchanges only revoke what is unrevoked. -/
def nextRevoking (σ : TaskState SessionTables SessionTask)
    (l : TaskLabel SessionCall SessionEvent) : Option (TaskState SessionTables SessionTask) :=
  if decide (RevokesUnrevoked σ l) = true then
    (sessionMachine verifyReadable 604800000 900 600000).next σ l
  else none

theorem reaches_of_revoking (h : runLabels nextRevoking σ ls = some τ) :
    Reaches (sessionMachine verifyReadable 604800000 900 600000).next RevokesUnrevoked σ ls τ :=
  reaches_of_checked_inv (I := fun _ => True) trivial (fun _ _ _ _ _ _ => trivial)
    (fun _ _ _ => of_decide_eq_true) h

end Sample

open Sample in
/-- After the exchange only the second token is live. -/
theorem one_live_token_sample : ∃ σ : TaskState SessionTables SessionTask,
    σ.shared.Live 1001 ∧ ∀ token, σ.shared.Live token → σ.shared.OfLogin 1000 token →
      token = 1001 := by
  have hrun : (runLabels nextRevoking sessionStart exchangesToken).map (fun σ =>
      decide (σ.shared.Live 1001 ∧ σ.shared.OfLogin 1000 1001)) = some true := by
    decide +kernel
  obtain ⟨σ, hσ, hfacts⟩ := Option.map_eq_some_iff.mp hrun
  obtain ⟨hlive, hof⟩ := of_decide_eq_true hfacts
  refine ⟨σ, hlive, fun token htoken hlogin => ?_⟩
  have heq := (one_live_token (reaches_of_revoking hσ)).2 1000 (.token token) (.token 1001)
    ⟨htoken, hlogin⟩ ⟨hlive, hof⟩
  exact SessionHolder.token.inj heq

/-- **Logging out ends the session**: once the live token of a login is revoked by a logout, no
token that goes back to the login is ever live again, whatever runs at the same time, and none is
being exchanged. -/
theorem logout_ends_session
    (hr : Reaches (sessionMachine verify ttlMs accessTtl windowMs).next RevokesUnrevoked
      (sessionSystem users administration rolePermissions) ls σ)
    {i : ℕ} {presented : TokenHash} (htask : (σ.tasks i).logsOut = some presented)
    (hlive : σ.shared.Live presented) {first : TokenHash} (hof : σ.shared.OfLogin first presented)
    {call : SessionCall} {env : SessionEnv} (hcall : call = .call env ∨ call = .lose env)
    (hn : (sessionMachine verify ttlMs accessTtl windowMs).next σ (.call i call) = some τ)
    (hr' : Reaches (sessionMachine verify ttlMs accessTtl windowMs).next RevokesUnrevoked τ ls' υ)
    (x : SessionHolder) : ¬ KeepsAlive υ first x := by
  let R := tokenRelay verify ttlMs accessTtl windowMs
  have hstored : StoresTokens σ := R.sound .initial hr
  have hok : RevokesUnrevoked σ (.call i call) := by
    have hnone : (σ.tasks i).rotates = none := by
      rw [SessionTask.eq_revoking htask]
      rfl
    rcases hcall with rfl | rfl <;> simp [RevokesUnrevoked, hnone]
  obtain ⟨hstored', hknown, -⟩ := R.step hstored hok hn
  have honly : ∀ y, KeepsAlive σ first y → y = .token presented := fun y hy =>
    (one_live_token hr).2 first y _ hy ⟨hlive, hof⟩
  refine R.dropped hstored' (hknown first (hstored.logins first presented hof).2)
    (fun y hy => ?_) hr' x
  have hdropped : KeepsAlive σ first y ∧ y ≠ .token presented := by
    rcases hcall with rfl | rfl <;>
    · simp only [TaskMachine.next, sessionMachine, callSession, SessionTask.eq_revoking htask,
        SessionTask.isOpen, SessionTask.perform, if_true, Option.map_some, Option.some.injEq] at hn
      subst hn
      exact keepsAlive_of_revoked (x := y) hy rfl rfl rfl
  exact hdropped.2 (honly y hdropped.1)

open Sample in
/-- The login that has been logged out is over, though its first token is presented again. -/
theorem logout_ends_session_sample : ∃ υ : TaskState SessionTables SessionTask,
    υ.shared.OfLogin 1000 1001 ∧ ∀ x, ¬ KeepsAlive υ 1000 x := by
  have hrun : ((runLabels nextRevoking sessionStart logsOut).bind fun σ =>
      ((sessionMachine verifyReadable 604800000 900 600000).next σ
        (.call 3 (.call ⟨noon, 0, true⟩))).bind fun τ =>
          (runLabels nextRevoking τ (sessionCalls 2 1 1002)).map fun υ =>
            decide ((σ.tasks 3).logsOut = some 1001 ∧ σ.shared.Live 1001 ∧
              σ.shared.OfLogin 1000 1001 ∧ υ.shared.OfLogin 1000 1001)) = some true := by
    decide +kernel
  obtain ⟨σ, hσ, hrun⟩ := Option.bind_eq_some_iff.mp hrun
  obtain ⟨τ, hτ, hrun⟩ := Option.bind_eq_some_iff.mp hrun
  obtain ⟨υ, hυ, hfacts⟩ := Option.map_eq_some_iff.mp hrun
  obtain ⟨htask, hlive, hof, hof'⟩ := of_decide_eq_true hfacts
  exact ⟨υ, hof', logout_ends_session (reaches_of_revoking hσ) htask hlive hof (.inl rfl) hτ
    (reaches_of_revoking hυ)⟩

end

end RatelPlatform
