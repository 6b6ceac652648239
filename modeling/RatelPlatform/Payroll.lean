import RatelPlatform.Workflow

/-!
# Payroll

Payslips computed from line items, the salary structure they are taken from,
and the payroll run aggregate that collects them: drafted, submitted, approved
and processed, or sent back to draft by a rejection.
-/

namespace RatelPlatform

/-! ## Payslips -/

/-- What a line item does to the pay. -/
inductive LineItemKind where
  | allowance
  | deduction
  | loanRepayment
  deriving DecidableEq

/-- One line of a payslip. -/
structure SalaryLineItem where
  kind : LineItemKind
  label : String
  amount : Money
  deriving DecidableEq

/-- The tax on a payslip. -/
structure TaxComputation where
  strategy : String
  computedTax : Money
  deriving DecidableEq

/-- `noOpTaxComputation` -/
def noOpTaxComputation (currency : String) : Except Failure TaxComputation := do
  let computedTax ← Money.of 0 currency
  pure ⟨"noop", computedTax⟩

/-- The columns of a version of an employee's salary structure. -/
structure SalaryStructureProps where
  id : Id
  organizationId : Id
  employeeId : Id
  version : ℕ
  effectiveFrom : JsDate
  effectiveTo : Option JsDate
  baseSalaryLineItems : List SalaryLineItem
  createdAt : JsDate

/-- What a payslip freezes of the structure it was computed from. -/
structure SalaryStructureSnapshot where
  salaryStructureId : Id
  version : ℕ
  effectiveFrom : List Char
  baseSalaryLineItems : List SalaryLineItem
  deriving DecidableEq

/-- `toSnapshot` -/
def SalaryStructureProps.toSnapshot (s : SalaryStructureProps) : SalaryStructureSnapshot where
  salaryStructureId := s.id
  version := s.version
  effectiveFrom := s.effectiveFrom.toISOString
  baseSalaryLineItems := s.baseSalaryLineItems

/-- The columns of a payslip. -/
structure PayslipProps where
  id : Id
  employeeId : Id
  salaryStructureSnapshot : SalaryStructureSnapshot
  lineItems : List SalaryLineItem
  taxComputation : TaxComputation
  grossPay : Money
  netPay : Money
  createdAt : JsDate
  deriving DecidableEq

namespace Payslip

/-- What `Payslip.generate` is given. -/
structure GenerateInput where
  employeeId : Id
  salaryStructureSnapshot : SalaryStructureSnapshot
  lineItems : List SalaryLineItem
  taxComputation : TaxComputation
  currency : String

/-- Computes gross and net pay from the line items: the net must not exceed the
gross. -/
def generate (id : Id) (now : JsDate) (input : GenerateInput) : Except Failure PayslipProps := do
  let allowances := input.lineItems.filter fun l => l.kind = .allowance
  let deductions := input.lineItems.filter fun l => l.kind = .deduction ∨ l.kind = .loanRepayment
  let zero ← Money.of 0 input.currency
  let grossPay ← zero.sumFrom (allowances.map SalaryLineItem.amount)
  let totalDeductions ← zero.sumFrom (deductions.map SalaryLineItem.amount)
  let afterDeductions ← grossPay.add totalDeductions.negate
  let netPay ← afterDeductions.add input.taxComputation.computedTax.negate
  ensure (¬ grossPay.minorUnits < netPay.minorUnits)
    (.domain (.netPayExceedsGrossPay input.employeeId))
  pure
    { id
      employeeId := input.employeeId
      salaryStructureSnapshot := input.salaryStructureSnapshot
      lineItems := input.lineItems
      taxComputation := input.taxComputation
      grossPay, netPay
      createdAt := now }

/-- What a generated payslip guarantees: it is the employee's, in the currency
asked for, and its net does not exceed its gross. -/
theorem generate_ok {id : Id} {now : JsDate} {input : GenerateInput} {p : PayslipProps}
    (h : generate id now input = .ok p) :
    p.employeeId = input.employeeId ∧ supportedCurrency input.currency = some p.grossPay.currency ∧
      p.netPay.minorUnits ≤ p.grossPay.minorUnits := by
  simp only [generate, except_bind_ok, ensure_ok, except_pure_ok, Money.sumFrom_ok] at h
  obtain ⟨zero, hzero, grossPay, ⟨-, rfl⟩, totalDeductions, -, afterDeductions, -, netPay, -, -, hle,
    rfl⟩ := h
  refine ⟨rfl, ?_, not_lt.mp hle⟩
  simp only [Money.of] at hzero
  split at hzero
  · next c hc =>
    cases hzero
    exact hc
  · cases hzero

/-- A generated payslip holds the snapshot it was given. -/
theorem generate_snapshot {id : Id} {now : JsDate} {input : GenerateInput} {p : PayslipProps}
    (h : generate id now input = .ok p) :
    p.salaryStructureSnapshot = input.salaryStructureSnapshot := by
  simp only [generate, except_bind_ok, ensure_ok, except_pure_ok] at h
  obtain ⟨_, -, _, -, _, -, _, -, _, -, -, -, rfl⟩ := h
  rfl

end Payslip

/-! ## Payroll runs -/

/-- The status of a payroll run. -/
inductive PayrollRunStatus where
  | draft
  | pendingApproval
  | approved
  | processing
  | completed
  | cancelled
  deriving DecidableEq

/-- The name of a status. -/
def PayrollRunStatus.name : PayrollRunStatus → String
  | draft => "draft"
  | pendingApproval => "pending_approval"
  | approved => "approved"
  | processing => "processing"
  | completed => "completed"
  | cancelled => "cancelled"

/-- The columns of a payroll run, apart from its key. -/
structure PayrollRunColumns where
  organizationId : Id
  periodId : Id
  status : PayrollRunStatus
  runMonth : JsDate
  createdById : Id
  approvedById : Option Id
  approvedAt : Option JsDate
  createdAt : JsDate
  deriving DecidableEq

/-- The properties of a payroll run. -/
structure PayrollRunProps extends PayrollRunColumns where
  id : Id
  deriving DecidableEq

/-- A payroll run with its payslips and the events recorded on it. -/
structure PayrollRun where
  props : PayrollRunProps
  payslips : List PayslipProps
  domainEvents : List DomainEvent

/-! ### Events -/

/-- An event of a payroll run. -/
def payrollRunEvent (type : String) (runId organizationId : Id)
    (payload : List (String × PayloadValue)) : DomainEvent :=
  ⟨type, "PayrollRun", runId, ("organizationId", .id organizationId) :: payload⟩

/-- `payrollRunCreated` -/
def payrollRunCreated (runId organizationId : Id) (runMonth : JsDate) : DomainEvent :=
  payrollRunEvent "PayrollRunCreated" runId organizationId [("runMonth", .date runMonth)]

/-- `payslipGenerated` -/
def payslipGenerated (runId organizationId employeeId : Id) (netPayMinorUnits : ℤ) : DomainEvent :=
  payrollRunEvent "PayslipGenerated" runId organizationId
    [("employeeId", .id employeeId), ("netPayMinorUnits", .text (toString netPayMinorUnits))]

/-- `payrollRunSubmittedForApproval` -/
def payrollRunSubmittedForApproval (runId organizationId : Id) : DomainEvent :=
  payrollRunEvent "PayrollRunSubmittedForApproval" runId organizationId []

/-- `payrollRunApproved` -/
def payrollRunApproved (runId organizationId approverId : Id) : DomainEvent :=
  payrollRunEvent "PayrollRunApproved" runId organizationId [("approverId", .id approverId)]

/-- `payrollRunRejected` -/
def payrollRunRejected (runId organizationId approverId : Id) (reason : String) : DomainEvent :=
  payrollRunEvent "PayrollRunRejected" runId organizationId
    [("approverId", .id approverId), ("reason", .text reason)]

/-- `payrollRunProcessingStarted` -/
def payrollRunProcessingStarted (runId organizationId : Id) : DomainEvent :=
  payrollRunEvent "PayrollRunProcessingStarted" runId organizationId []

/-- `payrollRunProcessed` -/
def payrollRunProcessed (runId organizationId : Id) : DomainEvent :=
  payrollRunEvent "PayrollRunProcessed" runId organizationId []

/-- `payrollRunCancelled` -/
def payrollRunCancelled (runId organizationId actorId : Id) : DomainEvent :=
  payrollRunEvent "PayrollRunCancelled" runId organizationId [("actorId", .id actorId)]

/-! ### Behaviour -/

namespace PayrollRun

/-- A new run is a draft without payslips. -/
def create (id organizationId periodId : Id) (runMonth : JsDate) (createdById : Id)
    (now : JsDate) : PayrollRun where
  props :=
    { id, organizationId, periodId, status := .draft, runMonth, createdById, approvedById := none
      approvedAt := none, createdAt := now }
  payslips := []
  domainEvents := [payrollRunCreated id organizationId runMonth]

/-- A run as loaded from its rows. -/
def reconstitute (props : PayrollRunProps) (payslips : List PayslipProps) : PayrollRun :=
  ⟨props, payslips, []⟩

/-- Payslips are added to drafts only, and one an employee. -/
def addPayslip (r : PayrollRun) (payslip : PayslipProps) : Except Failure PayrollRun := do
  ensure (r.props.status ∈ [PayrollRunStatus.draft])
    (.domain (.payrollRunNotMutable r.props.id r.props.status.name))
  ensure (¬ ∃ p ∈ r.payslips, p.employeeId = payslip.employeeId)
    (.domain (.duplicatePayslip r.props.id payslip.employeeId))
  pure
    { r with
      payslips := r.payslips ++ [payslip]
      domainEvents := r.domainEvents ++
        [payslipGenerated r.props.id r.props.organizationId payslip.employeeId
          payslip.netPay.minorUnits] }

/-- The transition is allowed from the current status. -/
def assertTransition (r : PayrollRun) (target : PayrollRunStatus)
    (allowedFrom : List PayrollRunStatus) : Except Failure Unit :=
  ensure (r.props.status ∈ allowedFrom)
    (.domain (.invalidStateTransition "PayrollRun" r.props.status.name target.name))

/-- The common shape of the transitions that only set the status. -/
def transition (r : PayrollRun) (target : PayrollRunStatus) (allowedFrom : List PayrollRunStatus)
    (event : DomainEvent) : Except Failure PayrollRun := do
  r.assertTransition target allowedFrom
  pure
    { r with props := { r.props with status := target }, domainEvents := r.domainEvents ++ [event] }

/-- A run without payslips is not submitted. -/
def submitForApproval (r : PayrollRun) : Except Failure PayrollRun := do
  r.assertTransition .pendingApproval [.draft]
  ensure (r.payslips ≠ []) (.domain (.emptyPayrollRun r.props.id))
  pure
    { r with
      props := { r.props with status := .pendingApproval }
      domainEvents := r.domainEvents ++
        [payrollRunSubmittedForApproval r.props.id r.props.organizationId] }

/-- `approve` -/
def approve (r : PayrollRun) (approverId : Id) (now : JsDate) : Except Failure PayrollRun := do
  r.assertTransition .approved [.pendingApproval]
  pure
    { r with
      props := { r.props with
        status := .approved, approvedById := some approverId, approvedAt := some now }
      domainEvents := r.domainEvents ++
        [payrollRunApproved r.props.id r.props.organizationId approverId] }

/-- A rejected run goes back to draft, for correction. -/
def reject (r : PayrollRun) (approverId : Id) (reason : String) : Except Failure PayrollRun :=
  r.transition .draft [.pendingApproval]
    (payrollRunRejected r.props.id r.props.organizationId approverId reason)

/-- `startProcessing` -/
def startProcessing (r : PayrollRun) : Except Failure PayrollRun :=
  r.transition .processing [.approved]
    (payrollRunProcessingStarted r.props.id r.props.organizationId)

/-- `complete` -/
def complete (r : PayrollRun) : Except Failure PayrollRun :=
  r.transition .completed [.processing] (payrollRunProcessed r.props.id r.props.organizationId)

/-- `cancel` -/
def cancel (r : PayrollRun) (actorId : Id) : Except Failure PayrollRun :=
  r.transition .cancelled [.draft, .pendingApproval]
    (payrollRunCancelled r.props.id r.props.organizationId actorId)

/-- The gross pay of all payslips, in one currency. -/
def totalGrossPay (r : PayrollRun) (currency : String) : Except Failure Money := do
  let zero ← Money.of 0 currency
  zero.sumFrom (r.payslips.map PayslipProps.grossPay)

/-- `payrollRunToApprovable`: approval of a run is not department-scoped. -/
def toApprovable (r : PayrollRun) (currency : String) : Except Failure Approvable := do
  let total ← r.totalGrossPay currency
  pure
    { id := r.props.id
      organizationId := r.props.organizationId
      departmentId := none
      requesterId := r.props.createdById
      amountMinorUnits := total.minorUnits }

theorem addPayslip_ok {r r' : PayrollRun} {payslip : PayslipProps} :
    r.addPayslip payslip = .ok r' ↔
      r.props.status = .draft ∧ (¬ ∃ p ∈ r.payslips, p.employeeId = payslip.employeeId) ∧
        r' = ⟨r.props, r.payslips ++ [payslip], r.domainEvents ++
          [payslipGenerated r.props.id r.props.organizationId payslip.employeeId
            payslip.netPay.minorUnits]⟩ := by
  simp only [addPayslip, except_bind_ok, ensure_ok, except_pure_ok, exists_and_left, exists_const,
    List.mem_singleton]

theorem transition_ok {r r' : PayrollRun} {target : PayrollRunStatus}
    {allowedFrom : List PayrollRunStatus} {event : DomainEvent} :
    r.transition target allowedFrom event = .ok r' ↔
      r.props.status ∈ allowedFrom ∧
        r' = ⟨{ r.props with status := target }, r.payslips, r.domainEvents ++ [event]⟩ := by
  simp only [transition, assertTransition, except_bind_ok, ensure_ok, except_pure_ok,
    exists_and_left, exists_const]

theorem submitForApproval_ok {r r' : PayrollRun} :
    r.submitForApproval = .ok r' ↔
      r.props.status = .draft ∧ r.payslips ≠ [] ∧
        r' = ⟨{ r.props with status := .pendingApproval }, r.payslips, r.domainEvents ++
          [payrollRunSubmittedForApproval r.props.id r.props.organizationId]⟩ := by
  simp only [submitForApproval, assertTransition, except_bind_ok, ensure_ok, except_pure_ok,
    exists_and_left, exists_const, List.mem_singleton]

theorem approve_ok {r r' : PayrollRun} {approverId : Id} {now : JsDate} :
    r.approve approverId now = .ok r' ↔
      r.props.status = .pendingApproval ∧
        r' = ⟨{ r.props with
            status := .approved, approvedById := some approverId, approvedAt := some now },
          r.payslips, r.domainEvents ++
            [payrollRunApproved r.props.id r.props.organizationId approverId]⟩ := by
  simp only [approve, assertTransition, except_bind_ok, ensure_ok, except_pure_ok,
    exists_and_left, exists_const, List.mem_singleton]

/-- The run can be handed to the engine when all its payslips are in the
currency; the amount plays no further role. -/
theorem toApprovable_ok {r : PayrollRun} {currency : String} {c : CurrencyCode} {item : Approvable}
    (hc : supportedCurrency currency = some c) :
    r.toApprovable currency = .ok item ↔
      (∀ p ∈ r.payslips, p.grossPay.currency = c) ∧
        item = ⟨r.props.id, r.props.organizationId, none, r.props.createdById,
          (r.payslips.map fun p => p.grossPay.minorUnits).sum⟩ := by
  have hof : Money.of 0 currency = .ok ⟨0, c⟩ := by
    simp only [Money.of]
    rw [hc]
  simp only [toApprovable, totalGrossPay, except_bind_ok, hof, Except.ok.injEq, exists_eq_left',
    Money.sumFrom_ok, except_pure_ok, List.forall_mem_map, List.map_map, zero_add]
  refine ⟨?_, ?_⟩
  · rintro ⟨_, ⟨hall, rfl⟩, rfl⟩
    exact ⟨hall, rfl⟩
  · rintro ⟨hall, rfl⟩
    exact ⟨_, ⟨hall, rfl⟩, rfl⟩

end PayrollRun

/-- Every run needs one finance director of the organization. -/
def PayrollApprovalPolicy.resolveChain (_item : Approvable) : ApprovalChain :=
  .of [⟨1, .financeDirector, .organization⟩]

end RatelPlatform
