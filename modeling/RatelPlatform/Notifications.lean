import RatelPlatform.Authorization
import RatelPlatform.Sending
import RatelPlatform.Store

/-!
# Whom an event is announced to

`NotificationSubscriber` resolves who is told about an event and puts one job for each
of them on a queue. When it throws, the whole handler is run again later: every
attempt reads the database afresh and starts with the first recipient.

Within one attempt nobody is told twice, thanks to the unique indexes on the payslips
of a run and on the users of employees, and to the `Set` of role holders. Several
attempts tell somebody twice as soon as two of them get past the same recipient
(`one_job_each_iff`), which for attempts that find the same recipients means as soon as
two of them send anything (`passedOnce_iff_of_same_due`).

The mail is rendered from the template data later, so an amount is kept as it is.
-/

namespace RatelPlatform

/-! ## The data -/

/-- `NotificationTemplateType` -/
inductive NotificationTemplateType where
  | expenseApproved
  | expenseRejected
  | payrollRunApproved
  | payslipReady
  | payrollRunRejected
  | periodClosed
  | periodReopened
  deriving DecidableEq

/-- A value the template is filled with. -/
inductive TemplateValue where
  | text (value : List Char)
  /-- the currency and the amount in major units, with two decimals -/
  | amount (value : Money)

/-- A notification job. -/
structure RecipientResolution where
  recipientUserId : Id
  templateType : NotificationTemplateType
  templateData : List (String × TemplateValue)

/-- What there is at most one job for. -/
def RecipientResolution.key (r : RecipientResolution) : Id × NotificationTemplateType :=
  (r.recipientUserId, r.templateType)

/-- The database as one attempt finds it, in the order its queries return the rows. -/
structure NotificationDb where
  store : Store
  rolePermissions : List RolePermission
  employees : Table Id EmployeeRow
  users : List UserRow
  /-- unique index on the run and the employee of a payslip -/
  payslips_nodup : ∀ runId row, store.payrollRuns.lookup runId = some row →
    (row.payslips.map (·.employeeId)).Nodup
  /-- unique index on the user of an employee -/
  userId_unique : ∀ (id id' : Id) (row row' : EmployeeRow) (u : Id),
    employees.lookup id = some row → employees.lookup id' = some row' →
      row.userId = some u → row'.userId = some u → id = id'

/-- A value of the payload, read as an id. -/
def DomainEvent.payloadId (event : DomainEvent) (field : String) : Option Id :=
  match event.payload.lookup field with
  | some (.id value) => some value
  | _ => none

/-- A value of the payload, read as a text. -/
def DomainEvent.payloadText (event : DomainEvent) (field : String) : Option (List Char) :=
  match event.payload.lookup field with
  | some (.text value) => some value.toList
  | _ => none

/-! ## The handlers -/

namespace NotificationSubscriber

/-- `enqueue` -/
def enqueue (resolution : RecipientResolution) : Sending RecipientResolution Unit :=
  .add resolution

variable (db : NotificationDb)

/-- `resolveDisplayName` -/
def resolveDisplayName (userId : Option Id) : List Char :=
  match userId with
  | none => "a manager".toList
  | some userId =>
    match db.users.find? fun user => user.id = userId with
    | none => "a manager".toList
    | some user =>
      match (Table.rows db.employees).find? fun (_, employee) => employee.userId = some userId with
      | some (_, employee) => employee.fullName.toList
      | none => user.email.toList

/-- `reason ?? 'No reason provided'` -/
def reasonOf (event : DomainEvent) : List Char :=
  (event.payloadText "reason").getD "No reason provided".toList

/-- `toISOString().slice(0, 7)` -/
def monthText (t : JsDate) : List Char := t.toISOString.take 7

/-- `toISOString().slice(0, 10)` -/
def dayText (t : JsDate) : List Char := t.toISOString.take 10

/-- `handleExpenseApproved` -/
def handleExpenseApproved (event : DomainEvent) : Sending RecipientResolution Unit :=
  match db.store.expenses.lookup event.aggregateId with
  | none => pure ()
  | some expense =>
    enqueue
      { recipientUserId := expense.source.actorId
        templateType := .expenseApproved
        templateData :=
          [("expenseNumber", .text expense.expenseNumber.toList), ("amount", .amount expense.amount),
            ("approverName", .text (resolveDisplayName db (event.payloadId "approverId")))] }

/-- `handleExpenseRejected` -/
def handleExpenseRejected (event : DomainEvent) : Sending RecipientResolution Unit :=
  match db.store.expenses.lookup event.aggregateId with
  | none => pure ()
  | some expense =>
    enqueue
      { recipientUserId := expense.source.actorId
        templateType := .expenseRejected
        templateData :=
          [("expenseNumber", .text expense.expenseNumber.toList), ("amount", .amount expense.amount),
            ("reason", .text (reasonOf event))] }

/-- `payslip.employee.userId`; a foreign key sees to the employee being there. -/
def linkedUser (employeeId : Id) : Option Id :=
  (db.employees.lookup employeeId).bind (·.userId)

/-- The job for one payslip: none when its employee has no account. -/
def announcePayslip (runMonth : JsDate) (payslip : PayslipProps) :
    Sending RecipientResolution Unit :=
  match linkedUser db payslip.employeeId with
  | none => pure ()
  | some userId =>
    enqueue
      { recipientUserId := userId
        templateType := .payslipReady
        templateData := [("runMonth", .text (monthText runMonth)), ("netPay", .amount payslip.netPay)] }

/-- `handlePayrollRunApproved` -/
def handlePayrollRunApproved (event : DomainEvent) : Sending RecipientResolution Unit :=
  match db.store.payrollRuns.lookup event.aggregateId with
  | none => pure ()
  | some run => do
    enqueue
      { recipientUserId := run.columns.createdById
        templateType := .payrollRunApproved
        templateData := [("runMonth", .text (monthText run.columns.runMonth))] }
    run.payslips.forM (announcePayslip db run.columns.runMonth)

/-- `handlePayrollRunRejected` -/
def handlePayrollRunRejected (event : DomainEvent) : Sending RecipientResolution Unit :=
  match db.store.payrollRuns.lookup event.aggregateId with
  | none => pure ()
  | some run =>
    enqueue
      { recipientUserId := run.columns.createdById
        templateType := .payrollRunRejected
        templateData :=
          [("runMonth", .text (monthText run.columns.runMonth)), ("reason", .text (reasonOf event))] }

/-- The roles that may open or close a period: `[...new Set(…)]` keeps the first of
each. -/
def periodRoles : List RoleName :=
  ((db.rolePermissions.filter fun r =>
    r.permission ∈ ["period:open", "period:close"]).map (·.role)).eraseDups

/-- The users of an organization who hold one of the roles, each once. -/
def roleHolders (organizationId : Id) (roles : List RoleName) : List Id :=
  ((db.store.administration.departmentRoleAssignments.filter fun a =>
      a.organizationId = organizationId ∧ a.role ∈ roles).map (·.userId) ++
    (db.store.administration.organizationRoleAssignments.filter fun a =>
      a.organizationId = organizationId ∧ a.role ∈ roles).map (·.userId)).eraseDups

/-- `event.payload['organizationId'] ?? period.organizationId` -/
def organizationOf (event : DomainEvent) (period : FinancialPeriodRow) : Id :=
  (event.payloadId "organizationId").getD period.organizationId

/-- `handlePeriodStatusChange` -/
def handlePeriodStatusChange (event : DomainEvent) (templateType : NotificationTemplateType) :
    Sending RecipientResolution Unit :=
  match db.store.financialPeriods.lookup event.aggregateId with
  | none => pure ()
  | some period =>
    if periodRoles db = [] then pure () else
      (roleHolders db (organizationOf event period) (periodRoles db)).forM fun recipientUserId =>
        enqueue
          { recipientUserId
            templateType
            templateData :=
              ("periodLabel", .text (dayText period.startDate ++ " to ".toList ++ dayText period.endDate)) ::
                if templateType = .periodReopened then [("reason", .text (reasonOf event))] else [] }

/-- The handler `onModuleInit` registers for the type of the event. -/
def handle (event : DomainEvent) : Sending RecipientResolution Unit :=
  match event.type with
  | "ExpenseApproved" => handleExpenseApproved db event
  | "ExpenseRejected" => handleExpenseRejected db event
  | "PayrollRunApproved" => handlePayrollRunApproved db event
  | "PayrollRunRejected" => handlePayrollRunRejected db event
  | "PeriodClosed" => handlePeriodStatusChange db event .periodClosed
  | "PeriodReopened" => handlePeriodStatusChange db event .periodReopened
  | _ => pure ()

/-! ## Whom an attempt finds -/

/-- Who is told about the event and in which order, by the rows the handler reads. -/
def due (db : NotificationDb) (event : DomainEvent) : List (Id × NotificationTemplateType) :=
  match event.type with
  | "ExpenseApproved" =>
    ((db.store.expenses.lookup event.aggregateId).map fun expense =>
      (expense.source.actorId, .expenseApproved)).toList
  | "ExpenseRejected" =>
    ((db.store.expenses.lookup event.aggregateId).map fun expense =>
      (expense.source.actorId, .expenseRejected)).toList
  | "PayrollRunApproved" =>
    match db.store.payrollRuns.lookup event.aggregateId with
    | none => []
    | some run => (run.columns.createdById, .payrollRunApproved) ::
        ((run.payslips.map (·.employeeId)).filterMap (linkedUser db)).map (·, .payslipReady)
  | "PayrollRunRejected" =>
    ((db.store.payrollRuns.lookup event.aggregateId).map fun run =>
      (run.columns.createdById, .payrollRunRejected)).toList
  | "PeriodClosed" =>
    match db.store.financialPeriods.lookup event.aggregateId with
    | none => []
    | some period =>
      (roleHolders db (organizationOf event period) (periodRoles db)).map (·, .periodClosed)
  | "PeriodReopened" =>
    match db.store.financialPeriods.lookup event.aggregateId with
    | none => []
    | some period =>
      (roleHolders db (organizationOf event period) (periodRoles db)).map (·, .periodReopened)
  | _ => []

variable {db} {event : DomainEvent}

/-- The handler sends jobs for these recipients, in this order. -/
def Announces (m : Sending RecipientResolution Unit)
    (recipients : List (Id × NotificationTemplateType)) : Prop :=
  ∃ jobs, Sends m jobs ∧ jobs.map RecipientResolution.key = recipients

theorem Announces.nothing : Announces (pure ()) [] := ⟨[], .pure, rfl⟩

theorem Announces.enqueue (r : RecipientResolution) : Announces (enqueue r) [r.key] :=
  ⟨[r], .add r, rfl⟩

theorem Announces.seq {m n : Sending RecipientResolution Unit}
    {recipients recipients' : List (Id × NotificationTemplateType)} (hm : Announces m recipients)
    (hn : Announces n recipients') : Announces (m >>= fun _ => n) (recipients ++ recipients') := by
  obtain ⟨jobs, hsends, rfl⟩ := hm
  obtain ⟨jobs', hsends', rfl⟩ := hn
  exact ⟨jobs ++ jobs', hsends.seq hsends', List.map_append⟩

theorem Announces.forM {α : Type*} {f : α → Sending RecipientResolution PUnit}
    {g : α → List (Id × NotificationTemplateType)} (hf : ∀ x, Announces (f x) (g x)) (xs : List α) :
    Announces (xs.forM f) (xs.flatMap g) := by
  choose jobs hsends hkeys using hf
  refine ⟨xs.flatMap jobs, .forM hsends xs, ?_⟩
  rw [List.map_flatMap]
  simp only [hkeys]

/-- The payslip of an employee with an account is announced to its user. -/
theorem announces_payslip (runMonth : JsDate) (payslip : PayslipProps) :
    Announces (announcePayslip db runMonth payslip)
      ((linkedUser db payslip.employeeId).toList.map (·, .payslipReady)) := by
  rcases hlinked : linkedUser db payslip.employeeId with _ | userId
  · simp only [announcePayslip, hlinked]
    exact .nothing
  · simp only [announcePayslip, hlinked]
    exact .enqueue _

theorem announces_runApproved :
    Announces (handlePayrollRunApproved db event)
      (match db.store.payrollRuns.lookup event.aggregateId with
      | none => []
      | some run => (run.columns.createdById, .payrollRunApproved) ::
          ((run.payslips.map (·.employeeId)).filterMap (linkedUser db)).map (·, .payslipReady)) := by
  rcases hrun : db.store.payrollRuns.lookup event.aggregateId with _ | run
  · simp only [handlePayrollRunApproved, hrun]
    exact .nothing
  · simp only [handlePayrollRunApproved, hrun]
    have hloop := Announces.forM (@announces_payslip db run.columns.runMonth) run.payslips
    have hlist : run.payslips.flatMap (fun payslip =>
        (linkedUser db payslip.employeeId).toList.map (·, NotificationTemplateType.payslipReady)) =
        ((run.payslips.map (·.employeeId)).filterMap (linkedUser db)).map (·, .payslipReady) := by
      rw [List.filterMap_map, List.filterMap_eq_flatMap_toList, List.map_flatMap]
      rfl
    rw [hlist] at hloop
    exact (Announces.enqueue _).seq hloop

theorem announces_statusChange (templateType : NotificationTemplateType) :
    Announces (handlePeriodStatusChange db event templateType)
      (match db.store.financialPeriods.lookup event.aggregateId with
      | none => []
      | some period =>
        (roleHolders db (organizationOf event period) (periodRoles db)).map (·, templateType)) := by
  rcases hperiod : db.store.financialPeriods.lookup event.aggregateId with _ | period
  · simp only [handlePeriodStatusChange, hperiod]
    exact .nothing
  · simp only [handlePeriodStatusChange, hperiod]
    by_cases hroles : periodRoles db = []
    · -- nobody holds one of no roles
      have hnobody : roleHolders db (organizationOf event period) [] = [] := by
        simp only [roleHolders, List.not_mem_nil, and_false, decide_false, List.filter_false,
          List.map_nil, List.append_nil, List.eraseDups_nil]
      rw [if_pos hroles, hroles, hnobody]
      exact .nothing
    · rw [if_neg hroles, List.map_eq_flatMap]
      exact .forM (fun _ => .enqueue _) _

/-- **What the handlers do.** -/
theorem handle_announces (db : NotificationDb) (event : DomainEvent) :
    Announces (handle db event) (due db event) := by
  simp only [handle, due]
  split
  · rcases hexpense : db.store.expenses.lookup event.aggregateId with _ | expense
    · simp only [handleExpenseApproved, hexpense]
      exact .nothing
    · simp only [handleExpenseApproved, hexpense]
      exact .enqueue _
  · rcases hexpense : db.store.expenses.lookup event.aggregateId with _ | expense
    · simp only [handleExpenseRejected, hexpense]
      exact .nothing
    · simp only [handleExpenseRejected, hexpense]
      exact .enqueue _
  · exact announces_runApproved
  · rcases hrun : db.store.payrollRuns.lookup event.aggregateId with _ | run
    · simp only [handlePayrollRunRejected, hrun]
      exact .nothing
    · simp only [handlePayrollRunRejected, hrun]
      exact .enqueue _
  · exact announces_statusChange _
  · exact announces_statusChange _
  · exact .nothing

/-! ## One attempt tells nobody twice -/

/-- Two employees are not linked to one user. -/
theorem linkedUser_inj {e f u : Id} (he : linkedUser db e = some u) (hf : linkedUser db f = some u) :
    e = f := by
  obtain ⟨employee, hfound, hlinked⟩ := Option.bind_eq_some_iff.mp he
  obtain ⟨employee', hfound', hlinked'⟩ := Option.bind_eq_some_iff.mp hf
  exact db.userId_unique e f employee employee' u hfound hfound' hlinked hlinked'

theorem nodup_map_template {recipients : List Id} (h : recipients.Nodup)
    (templateType : NotificationTemplateType) : (recipients.map (·, templateType)).Nodup :=
  h.map fun _ _ heq => congrArg Prod.fst heq

/-- Nobody is due the same message twice. -/
theorem nodup_due (db : NotificationDb) (event : DomainEvent) : (due db event).Nodup := by
  simp only [due]
  split
  · exact Option.toList_nodup _
  · exact Option.toList_nodup _
  · split
    · exact List.nodup_nil
    · next run hrun =>
      rw [List.nodup_cons]
      refine ⟨?_, ?_⟩
      · -- the run is announced with another template than its payslips
        intro hmem
        obtain ⟨_, -, heq⟩ := List.mem_map.mp hmem
        cases congrArg Prod.snd heq
      · refine nodup_map_template ?_ _
        exact (db.payslips_nodup _ run hrun).filterMap fun _ _ _ he hf => linkedUser_inj he hf
  · exact Option.toList_nodup _
  · split
    · exact List.nodup_nil
    · exact nodup_map_template (nodup_eraseDups _) _
  · split
    · exact List.nodup_nil
    · exact nodup_map_template (nodup_eraseDups _) _
  · exact List.nodup_nil


/-! ## Any number of attempts -/

/-- A dispatch or a redelivery of the event: the database it finds, and how many jobs
it adds before something fails. -/
structure Attempt where
  db : NotificationDb
  accepts : ℕ

/-- The queue after one more attempt. -/
def attempt (event : DomainEvent) (queue : List RecipientResolution) (a : Attempt) :
    List RecipientResolution :=
  ((handle a.db event).run.run ⟨queue, a.accepts⟩).2.jobs

/-- The jobs all attempts together have added for the event. -/
def enqueued (event : DomainEvent) (attempts : List Attempt) : List RecipientResolution :=
  attempts.foldl (attempt event) []

/-- Every recipient gets one job for each template at most. -/
def OneJobEach (event : DomainEvent) (attempts : List Attempt) : Prop :=
  ∀ recipientUserId templateType, (enqueued event attempts).countP
    (fun job => job.recipientUserId = recipientUserId ∧ job.templateType = templateType) ≤ 1

/-- **The condition**: no two attempts get past the same recipient. -/
def PassedOnce (event : DomainEvent) (attempts : List Attempt) : Prop :=
  attempts.Pairwise fun a b => ∀ x, ¬ (GetsPast (fun a => due a.db event) Attempt.accepts a x ∧
    GetsPast (fun a => due a.db event) Attempt.accepts b x)

/-- An attempt adds a prefix of what is due. -/
theorem attempt_keys (queue : List RecipientResolution) (a : Attempt) :
    (attempt event queue a).map RecipientResolution.key =
      queue.map RecipientResolution.key ++ (due a.db event).take a.accepts := by
  obtain ⟨jobs, hsends, hkeys⟩ := handle_announces a.db event
  rw [attempt, hsends.jobs_eq, List.map_append, List.map_take, hkeys]

theorem enqueued_keys (attempts : List Attempt) :
    (enqueued event attempts).map RecipientResolution.key =
      attempts.flatMap fun a => (due a.db event).take a.accepts := by
  have hqueue : ∀ queue : List RecipientResolution,
      (attempts.foldl (attempt event) queue).map RecipientResolution.key =
        queue.map RecipientResolution.key ++
          attempts.flatMap fun a => (due a.db event).take a.accepts := by
    induction attempts with
    | nil => exact fun queue => (List.append_nil _).symm
    | cons a attempts ih =>
      intro queue
      rw [List.foldl_cons, ih, attempt_keys, List.flatMap_cons, List.append_assoc]
  exact hqueue []

/-- One job each is one job for a key. -/
theorem oneJobEach_iff_nodup (attempts : List Attempt) :
    OneJobEach event attempts ↔ ((enqueued event attempts).map RecipientResolution.key).Nodup := by
  have hcount : ∀ u t, ((enqueued event attempts).map RecipientResolution.key).count (u, t) =
      (enqueued event attempts).countP fun job => job.recipientUserId = u ∧ job.templateType = t := by
    intro u t
    rw [List.count, List.countP_map]
    refine List.countP_congr fun job _ => ?_
    simp only [Function.comp_apply, RecipientResolution.key, beq_iff_eq, Prod.mk.injEq,
      decide_eq_true_eq]
  rw [List.nodup_iff_count_le_one, Prod.forall]
  simp only [hcount]
  rfl

/-- **When nobody is told twice.** -/
theorem one_job_each_iff (event : DomainEvent) (attempts : List Attempt) :
    OneJobEach event attempts ↔ PassedOnce event attempts := by
  rw [oneJobEach_iff_nodup, enqueued_keys]
  exact nodup_sent_iff fun a _ => nodup_due a.db event

/-- Attempts that find the same recipients: one of them may add something. -/
theorem passedOnce_iff_of_same_due {attempts : List Attempt} {x : Id × NotificationTemplateType}
    {xs : List (Id × NotificationTemplateType)} (hsame : ∀ a ∈ attempts, due a.db event = x :: xs) :
    PassedOnce event attempts ↔ attempts.Pairwise fun a b => a.accepts = 0 ∨ b.accepts = 0 :=
  pairwise_getsPast_iff hsame

end NotificationSubscriber

namespace Sample

open NotificationSubscriber

/-- Two finance directors, and a period. -/
def directors : NotificationDb where
  store :=
    { administration :=
        { departments := [], expenseCategories := [], vendors := [], projects := []
          departmentRoleAssignments := []
          organizationRoleAssignments := [⟨11, 1, .financeDirector⟩, ⟨12, 1, .financeDirector⟩]
          salaryStructures := [] }
      financialPeriods := (∅ : Table Id FinancialPeriodRow).insert 5
        ⟨1, ⟨1767225600000, by decide⟩, ⟨1769817600000, by decide⟩, .closed, some 11, none,
          ⟨1764547200000, by decide⟩⟩
      expenses := ∅
      expenseNumberSequences := ∅
      approvalProgress := ∅
      payrollRuns := ∅
      outbox := [] }
  rolePermissions := [⟨.financeDirector, "period:close", .organization⟩]
  employees := ∅
  users := []
  payslips_nodup := by
    intro runId row hrow
    cases hrow
  userId_unique := by
    intro id id' row row' u hrow
    cases hrow

/-- The first attempt fails at the second director. -/
def failsInBetween : List Attempt := [⟨directors, 1⟩, ⟨directors, 2⟩]

end Sample

open NotificationSubscriber

/-- **A mail sent again**: the redelivery starts with the first director. -/
theorem director_told_twice : ¬ ∀ (event : DomainEvent) (attempts : List Attempt),
    OneJobEach event attempts := by
  intro hall
  exact absurd (hall (periodClosed 5 1 11) Sample.failsInBetween 11 .periodClosed) (by decide +kernel)

end RatelPlatform
