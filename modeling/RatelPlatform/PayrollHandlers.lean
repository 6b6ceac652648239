import RatelPlatform.ExpenseHandlers

/-!
# The payroll commands

The seven handlers of the payroll context as transaction programs, and for each
what a success means. Cancelling and processing are the two that never ask for
the status of the run's period.
-/

namespace RatelPlatform

/-! ## Commands -/

/-- A payroll run is created for a month. -/
structure CreatePayrollRunCommand where
  organizationId : Id
  runMonth : JsDate
  createdById : Id

/-- A payslip of an employee is computed from the salary structure in effect and the further
items. -/
structure AddPayslipCommand where
  payrollRunId : Id
  organizationId : Id
  employeeId : Id
  additionalLineItems : List SalaryLineItem

/-- A draft goes to its approvers. -/
structure SubmitPayrollRunCommand where
  payrollRunId : Id
  organizationId : Id

/-- An approver signs the next step of the chain off. -/
structure ApprovePayrollRunCommand where
  payrollRunId : Id
  organizationId : Id
  approverId : Id

/-- An approver sends the run back, for a reason. -/
structure RejectPayrollRunCommand where
  payrollRunId : Id
  organizationId : Id
  approverId : Id
  reason : String

/-- A user withdraws a run that is not decided. -/
structure CancelPayrollRunCommand where
  payrollRunId : Id
  organizationId : Id
  actorId : Id

/-- An approved run is processed, and completed at once. -/
structure ProcessPayrollRunCommand where
  payrollRunId : Id
  organizationId : Id

/-! ## Handlers -/

/-- Payroll is in naira. -/
def defaultCurrency : String := "NGN"

theorem supportedCurrency_default : supportedCurrency defaultCurrency = some .NGN := rfl

/-- A run of the organization; one of another is not found. -/
def findPayrollRun (payrollRunId organizationId : Id) : StoreTx PayrollRun := do
  let run ← PayrollRunRepository.findById payrollRunId
  .orFail (run.filter fun r => r.props.organizationId = organizationId)
    (.domain (.entityNotFound "PayrollRun" payrollRunId))

/-- `CreatePayrollRunHandler` -/
def createPayrollRun (env : Env) (cmd : CreatePayrollRunCommand) : StoreTx Id := do
  let openPeriod ← requireOpenPeriod cmd.organizationId env.tie
  let existing ← PayrollRunRepository.existsForOrgAndMonth cmd.organizationId cmd.runMonth
  .require (existing = false)
    (.domain (.payrollRunAlreadyExists cmd.organizationId cmd.runMonth))
  let run := PayrollRun.create env.uuid cmd.organizationId openPeriod.props.id cmd.runMonth
    cmd.createdById env.now
  PayrollRunRepository.save run
  enqueue run.domainEvents
  pure run.props.id

/-- `AddPayslipHandler` -/
def addPayslip (env : Env) (cmd : AddPayslipCommand) : StoreTx Id := do
  let run ← findPayrollRun cmd.payrollRunId cmd.organizationId
  assertPeriodOpen cmd.organizationId run.props.periodId
  let structure? ← .select fun d => d.administration.activeStructure cmd.employeeId
  let salaryStructure ← .orFail structure? (.domain (.entityNotFound "SalaryStructure" cmd.employeeId))
  let taxComputation ← .ofExcept (noOpTaxComputation defaultCurrency)
  let payslip ← .ofExcept (Payslip.generate env.uuid env.now
    { employeeId := cmd.employeeId
      salaryStructureSnapshot := salaryStructure.toSnapshot
      lineItems := salaryStructure.baseSalaryLineItems ++ cmd.additionalLineItems
      taxComputation
      currency := defaultCurrency })
  let run ← .ofExcept (run.addPayslip payslip)
  PayrollRunRepository.save run
  enqueue run.domainEvents
  pure payslip.id

/-- `SubmitPayrollRunHandler` -/
def submitPayrollRun (_env : Env) (cmd : SubmitPayrollRunCommand) : StoreTx Unit := do
  let run ← findPayrollRun cmd.payrollRunId cmd.organizationId
  assertPeriodOpen cmd.organizationId run.props.periodId
  let run ← .ofExcept run.submitForApproval
  let item ← .ofExcept (run.toApprovable defaultCurrency)
  let chain := PayrollApprovalPolicy.resolveChain item
  let _ ← ApprovalProgressRepository.initializeProgress run.props.id "PayrollRun" chain
  PayrollRunRepository.save run
  enqueue run.domainEvents

/-- `ApprovePayrollRunHandler` -/
def approvePayrollRun (env : Env) (cmd : ApprovePayrollRunCommand) : StoreTx Unit := do
  let run ← findPayrollRun cmd.payrollRunId cmd.organizationId
  assertPeriodOpen cmd.organizationId run.props.periodId
  let progress ← findProgress run.props.id
  let item ← .ofExcept (run.toApprovable defaultCurrency)
  let (progress, isFinalApproval) ← WorkflowEngine.recordApproval getRolesForUser
    item progress cmd.approverId env.now
  let run ← .ofExcept (if isFinalApproval then run.approve cmd.approverId env.now else .ok run)
  ApprovalProgressRepository.save run.props.id progress
  PayrollRunRepository.save run
  enqueue run.domainEvents

/-- `RejectPayrollRunHandler` -/
def rejectPayrollRun (env : Env) (cmd : RejectPayrollRunCommand) : StoreTx Unit := do
  let run ← findPayrollRun cmd.payrollRunId cmd.organizationId
  assertPeriodOpen cmd.organizationId run.props.periodId
  let progress ← findProgress run.props.id
  let item ← .ofExcept (run.toApprovable defaultCurrency)
  let progress ← WorkflowEngine.recordRejection getRolesForUser
    item progress cmd.approverId cmd.reason env.now
  let run ← .ofExcept (run.reject cmd.approverId cmd.reason)
  ApprovalProgressRepository.save run.props.id progress
  PayrollRunRepository.save run
  enqueue run.domainEvents

/-- `CancelPayrollRunHandler` -/
def cancelPayrollRun (_env : Env) (cmd : CancelPayrollRunCommand) : StoreTx Unit := do
  let run ← findPayrollRun cmd.payrollRunId cmd.organizationId
  let run ← .ofExcept (run.cancel cmd.actorId)
  PayrollRunRepository.save run
  enqueue run.domainEvents

/-- `ProcessPayrollRunHandler` -/
def processPayrollRun (_env : Env) (cmd : ProcessPayrollRunCommand) : StoreTx Unit := do
  let run ← findPayrollRun cmd.payrollRunId cmd.organizationId
  let run ← .ofExcept run.startProcessing
  let run ← .ofExcept run.complete
  PayrollRunRepository.save run
  enqueue run.domainEvents

/-- The commands of the payroll context. -/
inductive PayrollCommand where
  | create (cmd : CreatePayrollRunCommand)
  | addPayslip (cmd : AddPayslipCommand)
  | submit (cmd : SubmitPayrollRunCommand)
  | approve (cmd : ApprovePayrollRunCommand)
  | reject (cmd : RejectPayrollRunCommand)
  | cancel (cmd : CancelPayrollRunCommand)
  | process (cmd : ProcessPayrollRunCommand)

/-- The transaction a command runs. -/
def PayrollCommand.program (env : Env) : PayrollCommand → StoreTx Unit
  | create cmd => (createPayrollRun env cmd).discard
  | addPayslip cmd => (RatelPlatform.addPayslip env cmd).discard
  | submit cmd => submitPayrollRun env cmd
  | approve cmd => approvePayrollRun env cmd
  | reject cmd => rejectPayrollRun env cmd
  | cancel cmd => cancelPayrollRun env cmd
  | process cmd => processPayrollRun env cmd

/-! ## What a success means -/

theorem findPayrollRun_ok {payrollRunId organizationId : Id} {d d' : Store} {r : PayrollRun} :
    (findPayrollRun payrollRunId organizationId).solo d = .ok (r, d') ↔
      (∃ row, d.payrollRuns.lookup payrollRunId = some row ∧
        row.columns.organizationId = organizationId ∧
        r = .reconstitute { row.columns with id := payrollRunId } row.payslips) ∧ d' = d := by
  simp only [findPayrollRun]
  rw [Tx.solo_bind_of_ok (PayrollRunRepository.findById_solo payrollRunId d), Tx.solo_orFail_ok,
    Option.filter_eq_some_iff, Option.map_eq_some_iff]
  refine ⟨?_, ?_⟩
  · rintro ⟨⟨⟨row, hrow, rfl⟩, horg⟩, rfl⟩
    exact ⟨⟨row, hrow, of_decide_eq_true horg, rfl⟩, rfl⟩
  · rintro ⟨⟨row, hrow, horg, rfl⟩, rfl⟩
    exact ⟨⟨⟨row, hrow, rfl⟩, decide_eq_true horg⟩, rfl⟩

/-- The row with another status. -/
def PayrollRunRow.withStatus (row : PayrollRunRow) (status : PayrollRunStatus) : PayrollRunRow :=
  { row with columns := { row.columns with status } }

/-- The row of a new run. -/
def createdRun (env : Env) (cmd : CreatePayrollRunCommand) (periodId : Id) : PayrollRunRow :=
  ⟨⟨cmd.organizationId, periodId, .draft, cmd.runMonth.day, cmd.createdById, none, none, env.now⟩,
    []⟩

/-- **When a run is created**: the organization has an open period, and no run of that date. -/
theorem createPayrollRun_ok_iff {env : Env} {cmd : CreatePayrollRunCommand} {d d' : Store} {a : Id}
    (hfresh : d.payrollRuns.lookup env.uuid = none) :
    (createPayrollRun env cmd).solo d = .ok (a, d') ↔ ∃ periodId,
      FinancialPeriodRepository.currentOpen d cmd.organizationId env.tie = some periodId ∧
        ¬ PayrollRunRepository.MonthTaken d cmd.organizationId cmd.runMonth.day ∧ a = env.uuid ∧
        d' = { d with
          payrollRuns := d.payrollRuns.insert env.uuid (createdRun env cmd periodId)
          outbox := d.outbox ++ [payrollRunCreated env.uuid cmd.organizationId cmd.runMonth] } := by
  simp only [createPayrollRun, Tx.solo_bind_ok, Tx.solo_require_ok, requireOpenPeriod_ok_iff,
    enqueue_ok, Tx.pure_eq, Tx.solo_ret, PayrollRunRepository.existsForOrgAndMonth, Tx.solo_select]
  refine ⟨?_, ?_⟩
  · rintro ⟨_, _, ⟨⟨periodId, row, hopen, hrow, rfl⟩, rfl⟩, _, _, hexists, _, _, ⟨-, rfl⟩, _, _,
      hsave, _, _, rfl, hret⟩
    cases hexists
    obtain ⟨hmonth, rfl⟩ := (PayrollRunRepository.save_new_ok hfresh rfl).mp hsave
    cases hret
    exact ⟨periodId, hopen, hmonth, rfl, rfl⟩
  · rintro ⟨periodId, hopen, hmonth, rfl, rfl⟩
    obtain ⟨row, hrow, -⟩ := FinancialPeriodRepository.periodIsOpen_of_currentOpen hopen
    exact ⟨_, _, ⟨⟨periodId, row, hopen, hrow, rfl⟩, rfl⟩, _, _, rfl, (), _,
      ⟨decide_eq_false hmonth, rfl⟩, (), _,
      (PayrollRunRepository.save_new_ok hfresh rfl).mpr ⟨hmonth, rfl⟩, (), _, rfl, rfl⟩

theorem createPayrollRun_ok {env : Env} {cmd : CreatePayrollRunCommand} {d d' : Store} {a : Id}
    (hfresh : d.payrollRuns.lookup env.uuid = none)
    (h : (createPayrollRun env cmd).solo d = .ok (a, d')) :
    ∃ periodId, d.PeriodIsOpen cmd.organizationId periodId ∧
      d' = { d with
        payrollRuns := d.payrollRuns.insert env.uuid (⟨⟨cmd.organizationId, periodId, .draft,
          cmd.runMonth.day, cmd.createdById, none, none, env.now⟩, []⟩)
        outbox := d.outbox ++ [payrollRunCreated env.uuid cmd.organizationId cmd.runMonth] } := by
  obtain ⟨periodId, hopen, -, -, rfl⟩ := (createPayrollRun_ok_iff hfresh).mp h
  exact ⟨periodId, FinancialPeriodRepository.periodIsOpen_of_currentOpen hopen, rfl⟩

/-- The payslip that is computed from a salary structure. -/
def payslipFrom (env : Env) (cmd : AddPayslipCommand) (salaryStructure : SalaryStructureProps) :
    Except Failure PayslipProps :=
  Payslip.generate env.uuid env.now
    { employeeId := cmd.employeeId
      salaryStructureSnapshot := salaryStructure.toSnapshot
      lineItems := salaryStructure.baseSalaryLineItems ++ cmd.additionalLineItems
      taxComputation := ⟨"noop", .zero .NGN⟩
      currency := defaultCurrency }

theorem noOpTaxComputation_default :
    noOpTaxComputation defaultCurrency = .ok ⟨"noop", .zero .NGN⟩ := rfl

/-- **When a payslip is added**: the run is a draft of the organization, its period is open,
and the employee has a salary structure and no payslip in the run. -/
theorem addPayslip_ok_iff {env : Env} {cmd : AddPayslipCommand} {d d' : Store} {a : Id} :
    (addPayslip env cmd).solo d = .ok (a, d') ↔
      ∃ row salaryStructure payslip, d.payrollRuns.lookup cmd.payrollRunId = some row ∧
        row.columns.organizationId = cmd.organizationId ∧
        d.PeriodIsOpen cmd.organizationId row.columns.periodId ∧
        d.administration.activeStructure cmd.employeeId = some salaryStructure ∧
        payslipFrom env cmd salaryStructure = .ok payslip ∧ row.columns.status = .draft ∧
        payslip.employeeId ∉ row.payslips.map PayslipProps.employeeId ∧
        PayrollRunRepository.Insertable payslip ∧ a = payslip.id ∧
        d' = { d with
          payrollRuns := d.payrollRuns.insert cmd.payrollRunId (
            { row with payslips := row.payslips ++ [payslip] })
          outbox := d.outbox ++ [payslipGenerated cmd.payrollRunId row.columns.organizationId
            payslip.employeeId payslip.netPay.minorUnits] } := by
  simp only [addPayslip, Tx.solo_bind_ok, findPayrollRun_ok, assertPeriodOpen_ok, Tx.solo_select,
    Tx.solo_orFail_ok, Tx.solo_ofExcept_ok, enqueue_ok, Tx.pure_eq, Tx.solo_ret,
    noOpTaxComputation_default]
  refine ⟨?_, ?_⟩
  · rintro ⟨_, _, ⟨⟨row, hrow, horg, rfl⟩, rfl⟩, _, _, ⟨hopen, rfl⟩, _, _, hsel, s, _,
      ⟨hactive, rfl⟩, tax, _, ⟨htax, rfl⟩, p, _, ⟨hgen, rfl⟩, run, _, ⟨hadd, rfl⟩, _, _, hsave, _, _,
      rfl, hret⟩
    cases hsel
    cases htax
    obtain ⟨hdraft, hnew, rfl⟩ := PayrollRun.addPayslip_ok.mp hadd
    change ¬ ∃ q ∈ row.payslips, q.employeeId = p.employeeId at hnew
    have hfresh : p.employeeId ∉ row.payslips.map PayslipProps.employeeId := by simpa using hnew
    obtain ⟨hinsertable, rfl⟩ := (PayrollRunRepository.save_added_ok hrow rfl hfresh).mp hsave
    cases hret
    exact ⟨row, s, p, hrow, horg, hopen, hactive, hgen, hdraft, hfresh, hinsertable, rfl, rfl⟩
  · rintro ⟨row, s, p, hrow, horg, hopen, hactive, hgen, hdraft, hfresh, hinsertable, rfl, rfl⟩
    have hnew : ¬ ∃ q ∈ row.payslips, q.employeeId = p.employeeId := by simpa using hfresh
    exact ⟨_, _, ⟨⟨row, hrow, horg, rfl⟩, rfl⟩, (), _, ⟨hopen, rfl⟩, _, _, rfl, s, _,
      ⟨hactive, rfl⟩, _, _, ⟨rfl, rfl⟩, p, _, ⟨hgen, rfl⟩, _, _,
      ⟨PayrollRun.addPayslip_ok.mpr ⟨hdraft, hnew, rfl⟩, rfl⟩, (), _,
      (PayrollRunRepository.save_added_ok hrow rfl hfresh).mpr ⟨hinsertable, rfl⟩, (), _, rfl, rfl⟩

theorem addPayslip_ok {env : Env} {cmd : AddPayslipCommand} {d d' : Store} {a : Id}
    (h : (addPayslip env cmd).solo d = .ok (a, d')) :
    ∃ row payslip, d.payrollRuns.lookup cmd.payrollRunId = some row ∧
      row.columns.organizationId = cmd.organizationId ∧
      d.PeriodIsOpen cmd.organizationId row.columns.periodId ∧ row.columns.status = .draft ∧
      payslip.grossPay.currency = .NGN ∧
      payslip.employeeId ∉ row.payslips.map PayslipProps.employeeId ∧
      d' = { d with
        payrollRuns := d.payrollRuns.insert cmd.payrollRunId (
          { row with payslips := row.payslips ++ [payslip] })
        outbox := d.outbox ++ [payslipGenerated cmd.payrollRunId row.columns.organizationId
          payslip.employeeId payslip.netPay.minorUnits] } := by
  obtain ⟨row, _, p, hrow, horg, hopen, -, hgen, hdraft, hfresh, -, -, rfl⟩ :=
    addPayslip_ok_iff.mp h
  obtain ⟨-, hcur, -⟩ := Payslip.generate_ok hgen
  exact ⟨row, p, hrow, horg, hopen, hdraft, (Option.some.inj hcur).symm, hfresh, rfl⟩

/-- The chain of every payroll run. -/
def payrollChain : List ApprovalStep := [⟨1, .financeDirector, .organization⟩]

theorem payrollChain_eq (item : Approvable) :
    (PayrollApprovalPolicy.resolveChain item).steps = payrollChain := rfl

/-- **When a submission succeeds**: the run is a draft with payslips, all in the
payroll currency, its period is open, and it has no approval progress yet. -/
theorem submitPayrollRun_ok {env : Env} {cmd : SubmitPayrollRunCommand} {d d' : Store} {a : Unit} :
    (submitPayrollRun env cmd).solo d = .ok (a, d') ↔
      ∃ row, d.payrollRuns.lookup cmd.payrollRunId = some row ∧
        row.columns.organizationId = cmd.organizationId ∧
        d.PeriodIsOpen cmd.organizationId row.columns.periodId ∧ row.columns.status = .draft ∧
        row.payslips ≠ [] ∧ (∀ p ∈ row.payslips, p.grossPay.currency = .NGN) ∧
        d.approvalProgress.lookup cmd.payrollRunId = none ∧
        d' = { d with
          payrollRuns := d.payrollRuns.insert cmd.payrollRunId (row.withStatus .pendingApproval)
          approvalProgress := d.approvalProgress.insert cmd.payrollRunId
            ⟨"PayrollRun", payrollChain, []⟩
          outbox := d.outbox ++ [payrollRunSubmittedForApproval cmd.payrollRunId
            row.columns.organizationId] } := by
  simp only [submitPayrollRun, Tx.solo_bind_ok, findPayrollRun_ok, assertPeriodOpen_ok,
    Tx.solo_ofExcept_ok, PayrollRun.submitForApproval_ok,
    PayrollRun.toApprovable_ok supportedCurrency_default,
    ApprovalProgressRepository.initializeProgress_ok, enqueue_ok]
  refine ⟨?_, ?_⟩
  · rintro ⟨_, _, ⟨⟨row, hrow, horg, rfl⟩, rfl⟩, _, _, ⟨hopen, rfl⟩, _, _,
      ⟨⟨hdraft, hne, rfl⟩, rfl⟩, item, _, ⟨⟨hcur, -⟩, rfl⟩, _, _, ⟨hnone, -, rfl⟩, _, _, hsave, rfl⟩
    obtain rfl := (PayrollRunRepository.save_loaded_ok row hrow rfl).mp hsave
    exact ⟨row, hrow, horg, hopen, hdraft, hne, hcur, hnone, rfl⟩
  · rintro ⟨row, hrow, horg, hopen, hdraft, hne, hcur, hnone, rfl⟩
    exact ⟨_, _, ⟨⟨row, hrow, horg, rfl⟩, rfl⟩, (), _, ⟨hopen, rfl⟩, _, _, ⟨⟨hdraft, hne, rfl⟩, rfl⟩,
      _, _, ⟨⟨hcur, rfl⟩, rfl⟩, _, _, ⟨hnone, rfl, rfl⟩, (), _,
      (PayrollRunRepository.save_loaded_ok row hrow rfl).mpr rfl, rfl⟩

/-- The decision an approval records. -/
def payrollApprovalOf (env : Env) (cmd : ApprovePayrollRunCommand) (prow : ApprovalProgressRow) :
    ApprovalRecord :=
  ⟨prow.records.length + 1, cmd.approverId, env.now, .approved, none⟩

/-- The decision a rejection records. -/
def payrollRejectionOf (env : Env) (cmd : RejectPayrollRunCommand) (prow : ApprovalProgressRow) :
    ApprovalRecord :=
  ⟨prow.records.length + 1, cmd.approverId, env.now, .rejected, some cmd.reason⟩

/-- The row of an approved run. -/
def PayrollRunRow.approvedBy (row : PayrollRunRow) (approverId : Id) (now : JsDate) :
    PayrollRunRow :=
  { row with columns := { row.columns with
    status := .approved, approvedById := some approverId, approvedAt := some now } }

/-- **When an approval succeeds**: an admissible decision is appended to the
progress; the last one of the chain approves the (pending) run. -/
theorem approvePayrollRun_ok {env : Env} {cmd : ApprovePayrollRunCommand} {d d' : Store} {a : Unit}
    (hal : d.RecordsAligned) :
    (approvePayrollRun env cmd).solo d = .ok (a, d') ↔
      ∃ row prow step, d.payrollRuns.lookup cmd.payrollRunId = some row ∧
        row.columns.organizationId = cmd.organizationId ∧
        d.PeriodIsOpen cmd.organizationId row.columns.periodId ∧
        d.approvalProgress.lookup cmd.payrollRunId = some prow ∧
        (∀ p ∈ row.payslips, p.grossPay.currency = .NGN) ∧
        row.columns.createdById ≠ cmd.approverId ∧
        (¬ ∃ r ∈ prow.records, r.decision = .approved ∧ r.approverId = cmd.approverId) ∧
        (ApprovalChain.of prow.chain).stepAt (prow.records.length + 1) = some step ∧
        HoldsRequiredRole step none (d.administration.rolesOf cmd.approverId) ∧
        let final := (ApprovalChain.of prow.chain).isLastStep (prow.records.length + 1)
        (final = true → row.columns.status = .pendingApproval) ∧
        d' = { d with
          approvalProgress := d.decided cmd.payrollRunId prow (payrollApprovalOf env cmd prow)
          payrollRuns := d.payrollRuns.insert cmd.payrollRunId
            (if final then row.approvedBy cmd.approverId env.now else row)
          outbox := d.outbox ++ if final then
            [payrollRunApproved cmd.payrollRunId row.columns.organizationId cmd.approverId]
              else [] } := by
  simp only [approvePayrollRun, Tx.solo_bind_ok, findPayrollRun_ok, assertPeriodOpen_ok,
    Tx.solo_ofExcept_ok, enqueue_ok,
    PayrollRun.toApprovable_ok supportedCurrency_default]
  refine ⟨?_, ?_⟩
  · rintro ⟨_, _, ⟨⟨row, hrow, horg, rfl⟩, rfl⟩, _, _, ⟨hopen, rfl⟩, _, _, hfind, _, _,
      ⟨⟨hcur, rfl⟩, rfl⟩, ⟨p, final⟩, _, hrec, run, _, ⟨hfinal, rfl⟩, _, _, hsave, _, _, hsaveR, rfl⟩
    obtain ⟨⟨prow, hprow, rfl⟩, rfl⟩ := (findProgress_ok hal).mp hfind
    obtain ⟨hself, hdup, ⟨step, hstep, hrole⟩, rfl, hlast, rfl⟩ :=
      (WorkflowEngine.recordApproval_ok getRolesForUser_solo).mp hrec
    refine ⟨row, prow, step, hrow, horg, hopen, hprow, hcur, hself, hdup, hstep, hrole, ?_⟩
    change final = (ApprovalChain.of prow.chain).isLastStep (prow.records.length + 1) at hlast
    rw [← hlast]
    cases final with
    | true =>
      simp only [if_true] at hfinal
      obtain ⟨hpending, rfl⟩ := PayrollRun.approve_ok.mp hfinal
      obtain rfl := (ApprovalProgressRepository.save_appended_ok hprow (hal _ _ hprow) rfl).mp hsave
      obtain rfl := (PayrollRunRepository.save_loaded_ok row hrow rfl).mp hsaveR
      exact ⟨fun _ => hpending, rfl⟩
    | false =>
      simp only [Bool.false_eq_true, if_false, Except.ok.injEq] at hfinal
      subst hfinal
      obtain rfl := (ApprovalProgressRepository.save_appended_ok hprow (hal _ _ hprow) rfl).mp hsave
      obtain rfl := (PayrollRunRepository.save_loaded_ok row hrow rfl).mp hsaveR
      exact ⟨nofun, rfl⟩
  · rintro ⟨row, prow, step, hrow, horg, hopen, hprow, hcur, hself, hdup, hstep, hrole, hpending, rfl⟩
    refine ⟨_, _, ⟨⟨row, hrow, horg, rfl⟩, rfl⟩, (), _, ⟨hopen, rfl⟩, _, _,
      (findProgress_ok hal).mpr ⟨⟨prow, hprow, rfl⟩, rfl⟩, _, _, ⟨⟨hcur, rfl⟩, rfl⟩, (_, _), _,
      (WorkflowEngine.recordApproval_ok getRolesForUser_solo).mpr
        ⟨hself, hdup, ⟨step, hstep, hrole⟩, rfl, rfl, rfl⟩, ?_⟩
    have hsaved : ∀ chain, (ApprovalProgressRepository.save cmd.payrollRunId ⟨cmd.payrollRunId, chain,
        prow.records ++ [payrollApprovalOf env cmd prow]⟩).solo d = .ok ((), _) := fun chain =>
      (ApprovalProgressRepository.save_appended_ok hprow (hal _ _ hprow) rfl).mpr rfl
    by_cases hlast : (ApprovalChain.of prow.chain).isLastStep (prow.records.length + 1) = true
    · refine ⟨⟨{ (row.approvedBy cmd.approverId env.now).columns with id := cmd.payrollRunId },
        row.payslips, [payrollRunApproved cmd.payrollRunId row.columns.organizationId
          cmd.approverId]⟩, _, ⟨(if_pos hlast).trans (PayrollRun.approve_ok.mpr
            ⟨hpending hlast, rfl⟩), rfl⟩, (), _, hsaved _, (), _,
        (PayrollRunRepository.save_loaded_ok row hrow rfl).mpr rfl, ?_⟩
      simp only [hlast, if_true]
      rfl
    · refine ⟨.reconstitute { row.columns with id := cmd.payrollRunId } row.payslips, _,
        ⟨if_neg hlast, rfl⟩, (), _, hsaved _, (), _,
        (PayrollRunRepository.save_loaded_ok row hrow rfl).mpr rfl, ?_⟩
      simp only [hlast, Bool.false_eq_true, if_false]
      rfl

/-- A rejection that succeeds: an admissible decision sends the pending run back
to draft. -/
theorem rejectPayrollRun_ok {env : Env} {cmd : RejectPayrollRunCommand} {d d' : Store} {a : Unit}
    (hal : d.RecordsAligned) (h : (rejectPayrollRun env cmd).solo d = .ok (a, d')) :
    ∃ row prow, d.payrollRuns.lookup cmd.payrollRunId = some row ∧
      row.columns.organizationId = cmd.organizationId ∧
      d.PeriodIsOpen cmd.organizationId row.columns.periodId ∧
      d.approvalProgress.lookup cmd.payrollRunId = some prow ∧
      row.columns.createdById ≠ cmd.approverId ∧ row.columns.status = .pendingApproval ∧
      (∀ step, (ApprovalChain.of prow.chain).stepAt (prow.records.length + 1) = some step →
        HoldsRequiredRole step none (d.administration.rolesOf cmd.approverId)) ∧
      d' = { d with
        approvalProgress := d.decided cmd.payrollRunId prow (payrollRejectionOf env cmd prow)
        payrollRuns := d.payrollRuns.insert cmd.payrollRunId (row.withStatus .draft)
        outbox := d.outbox ++ [payrollRunRejected cmd.payrollRunId row.columns.organizationId
          cmd.approverId cmd.reason] } := by
  simp only [rejectPayrollRun, Tx.solo_bind_ok, findPayrollRun_ok, assertPeriodOpen_ok,
    Tx.solo_ofExcept_ok, enqueue_ok,
    PayrollRun.toApprovable_ok supportedCurrency_default] at h
  obtain ⟨_, _, ⟨⟨row, hrow, horg, rfl⟩, rfl⟩, _, _, ⟨hopen, rfl⟩, _, _, hfind, _, _,
    ⟨⟨-, rfl⟩, rfl⟩, p, _, hrec, run, _, ⟨hrej, rfl⟩, _, _, hsave, _, _, hsaveR, rfl⟩ := h
  obtain ⟨⟨prow, hprow, rfl⟩, rfl⟩ := (findProgress_ok hal).mp hfind
  obtain ⟨hself, hrole, rfl, rfl⟩ :=
    (WorkflowEngine.recordRejection_ok getRolesForUser_solo).mp hrec
  obtain ⟨hpending, rfl⟩ := PayrollRun.transition_ok.mp hrej
  obtain rfl := (ApprovalProgressRepository.save_appended_ok hprow (hal _ _ hprow) rfl).mp hsave
  obtain rfl := (PayrollRunRepository.save_loaded_ok row hrow rfl).mp hsaveR
  exact ⟨row, prow, hrow, horg, hopen, hprow, hself, List.mem_singleton.mp hpending, hrole, rfl⟩

/-- **When a cancellation succeeds**: whatever the status of the period. -/
theorem cancelPayrollRun_ok {env : Env} {cmd : CancelPayrollRunCommand} {d d' : Store} {a : Unit} :
    (cancelPayrollRun env cmd).solo d = .ok (a, d') ↔
      ∃ row, d.payrollRuns.lookup cmd.payrollRunId = some row ∧
        row.columns.organizationId = cmd.organizationId ∧
        row.columns.status ∈ [PayrollRunStatus.draft, .pendingApproval] ∧
        d' = { d with
          payrollRuns := d.payrollRuns.insert cmd.payrollRunId (row.withStatus .cancelled)
          outbox := d.outbox ++ [payrollRunCancelled cmd.payrollRunId row.columns.organizationId
            cmd.actorId] } := by
  simp only [cancelPayrollRun, Tx.solo_bind_ok, findPayrollRun_ok, Tx.solo_ofExcept_ok, enqueue_ok,
    PayrollRun.cancel, PayrollRun.transition_ok]
  refine ⟨?_, ?_⟩
  · rintro ⟨_, _, ⟨⟨row, hrow, horg, rfl⟩, rfl⟩, run, _, ⟨⟨hstatus, rfl⟩, rfl⟩, _, _, hsave, rfl⟩
    obtain rfl := (PayrollRunRepository.save_loaded_ok row hrow rfl).mp hsave
    exact ⟨row, hrow, horg, hstatus, rfl⟩
  · rintro ⟨row, hrow, horg, hstatus, rfl⟩
    exact ⟨_, _, ⟨⟨row, hrow, horg, rfl⟩, rfl⟩, _, _, ⟨⟨hstatus, rfl⟩, rfl⟩, (), _,
      (PayrollRunRepository.save_loaded_ok row hrow rfl).mpr rfl, rfl⟩

/-- **When processing succeeds**: an approved run is completed, whatever the
status of the period. -/
theorem processPayrollRun_ok {env : Env} {cmd : ProcessPayrollRunCommand} {d d' : Store} {a : Unit} :
    (processPayrollRun env cmd).solo d = .ok (a, d') ↔
      ∃ row, d.payrollRuns.lookup cmd.payrollRunId = some row ∧
        row.columns.organizationId = cmd.organizationId ∧ row.columns.status = .approved ∧
        d' = { d with
          payrollRuns := d.payrollRuns.insert cmd.payrollRunId (row.withStatus .completed)
          outbox := d.outbox ++
            [payrollRunProcessingStarted cmd.payrollRunId row.columns.organizationId,
              payrollRunProcessed cmd.payrollRunId row.columns.organizationId] } := by
  simp only [processPayrollRun, Tx.solo_bind_ok, findPayrollRun_ok, Tx.solo_ofExcept_ok, enqueue_ok,
    PayrollRun.startProcessing, PayrollRun.complete, PayrollRun.transition_ok, List.mem_singleton]
  refine ⟨?_, ?_⟩
  · rintro ⟨_, _, ⟨⟨row, hrow, horg, rfl⟩, rfl⟩, started, _, ⟨⟨hstatus, rfl⟩, rfl⟩, run, _,
      ⟨⟨-, rfl⟩, rfl⟩, _, _, hsave, rfl⟩
    obtain rfl := (PayrollRunRepository.save_loaded_ok row hrow rfl).mp hsave
    exact ⟨row, hrow, horg, hstatus, rfl⟩
  · rintro ⟨row, hrow, horg, hstatus, rfl⟩
    exact ⟨_, _, ⟨⟨row, hrow, horg, rfl⟩, rfl⟩, _, _, ⟨⟨hstatus, rfl⟩, rfl⟩, _, _,
      ⟨⟨rfl, rfl⟩, rfl⟩, (), _,
      (PayrollRunRepository.save_loaded_ok row hrow rfl).mpr rfl, rfl⟩

end RatelPlatform
