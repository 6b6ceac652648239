import RatelPlatform.Table
import RatelPlatform.FinancialPeriod
import RatelPlatform.Expense
import RatelPlatform.Payroll

/-!
# The store

The tables the expense, payroll and period commands read and write, and the
rows a statement on them locks.

Reference data, roles and salary structures are maintained elsewhere in the
platform; here they are a part of the store that may be replaced at any time.
-/

namespace RatelPlatform

/-! ## Tables -/

/-- A department, category, vendor or project. -/
structure ReferenceRow where
  id : Id
  organizationId : Id
  isActive : Bool

/-- A role a user holds in a department. -/
structure DepartmentRoleAssignment where
  userId : Id
  organizationId : Id
  role : RoleName
  departmentId : Id

/-- A role a user holds in the whole organization. -/
structure OrganizationRoleAssignment where
  userId : Id
  organizationId : Id
  role : RoleName

/-- A row of `users`. -/
structure UserRow where
  id : Id
  email : String
  passwordHash : String

/-- A row of `employees`. -/
structure EmployeeRow where
  organizationId : Id
  fullName : String
  userId : Option Id
  isActive : Bool
  createdAt : JsDate

/-- What administrators maintain. -/
structure Administration where
  departments : List ReferenceRow
  expenseCategories : List ReferenceRow
  vendors : List ReferenceRow
  projects : List ReferenceRow
  departmentRoleAssignments : List DepartmentRoleAssignment
  organizationRoleAssignments : List OrganizationRoleAssignment
  salaryStructures : List SalaryStructureProps

/-- A row of `approval_progress` with its `approval_records`. -/
structure ApprovalProgressRow where
  itemType : String
  chain : List ApprovalStep
  records : List ApprovalRecord
  deriving DecidableEq

/-- A row of `payroll_runs` with its `payslips`. -/
structure PayrollRunRow where
  columns : PayrollRunColumns
  payslips : List PayslipProps
  deriving DecidableEq

/-- The database. -/
structure Store where
  administration : Administration
  financialPeriods : Table Id FinancialPeriodRow
  expenses : Table Id ExpenseRow
  expenseNumberSequences : Table Id ℕ
  approvalProgress : Table Id ApprovalProgressRow
  payrollRuns : Table Id PayrollRunRow
  outbox : List DomainEvent

/-- A row, or the key of a unique index, that a statement locks. -/
inductive RowLock where
  | financialPeriod (id : Id)
  | periodDates (organizationId : Id) (startDate endDate : JsDate)
  | expense (id : Id)
  | expenseNumber (organizationId : Id) (number : String)
  | expenseNumberSequence (organizationId : Id)
  | approvalProgress (itemId : Id)
  | approvalRecord (itemId : Id) (stepOrder : ℕ)
  | payrollRun (id : Id)
  | payrollRunMonth (organizationId : Id) (runMonth : JsDate)
  | payslip (payrollRunId employeeId : Id)
  deriving DecidableEq

/-- Transactions on the store. -/
abbrev StoreTx := Tx Store RowLock Failure

/-- The period is an open one of the organization. -/
def Store.PeriodIsOpen (d : Store) (organizationId periodId : Id) : Prop :=
  ∃ row ∈ d.financialPeriods.lookup periodId,
    row.organizationId = organizationId ∧ row.status ∈ PeriodStatus.openStatuses

instance (d : Store) (organizationId periodId : Id) :
    Decidable (d.PeriodIsOpen organizationId periodId) :=
  inferInstanceAs (Decidable (∃ row ∈ d.financialPeriods.lookup periodId, _))

end RatelPlatform
