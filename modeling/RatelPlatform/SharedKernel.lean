import RatelPlatform.Calendar
import Mathlib.Data.List.DropRight

/-!
# The shared kernel

What every context of the platform uses: identifiers, the roles, the errors
with their code, HTTP status and text, `Money`, and the events an aggregate
records for the outbox.
-/

namespace RatelPlatform

/-- A row identifier. The source draws UUIDs; only their equality matters. -/
abbrev Id := ℕ

/-- The roles a user can hold. -/
inductive RoleName where
  | employee
  | accountant
  | departmentHead
  | financeDirector
  | payrollAdmin
  | auditor
  deriving DecidableEq

/-- The name a role has in the database. -/
def RoleName.name : RoleName → String
  | employee => "employee"
  | accountant => "accountant"
  | departmentHead => "department_head"
  | financeDirector => "finance_director"
  | payrollAdmin => "payroll_admin"
  | auditor => "auditor"

/-! ## Sets -/

/-- A `Set` made of a list holds everything once. -/
theorem nodup_eraseDups {α : Type*} [BEq α] [LawfulBEq α] (l : List α) : l.eraseDups.Nodup := by
  -- what is left behind the first element is shorter, but not the tail
  induction hn : l.length using Nat.strong_induction_on generalizing l with
  | _ n ih =>
    rcases l with _ | ⟨x, xs⟩
    · exact List.nodup_nil
    · rw [List.eraseDups_cons, List.nodup_cons, List.mem_eraseDups]
      refine ⟨?_, ih _ ?_ _ rfl⟩
      · intro hx
        have hne := (List.mem_filter.mp hx).2
        simp only [beq_self_eq_true, Bool.not_true] at hne
        cases hne
      · rw [← hn]
        exact Nat.lt_succ_of_le (List.length_filter_le _ _)

/-! ## Errors -/

/-- The domain errors, one constructor a class, with the values their texts
are built from. -/
inductive DomainError where
  | periodClosed (periodId : Id)
  | entityNotFound (entityType : String) (id : Id)
  | invalidStateTransition (entityType source target : String)
  | noOpenPeriod (organizationId : Id)
  | approverRoleMismatch (approverId : Id) (requiredRole : RoleName)
  | inactiveOrMissingReferenceData (entityType : String) (id : Id)
  | noSuchApprovalStep (itemId : Id) (stepOrder : ℕ)
  | selfApprovalNotAllowed (itemId approverId : Id)
  | selfRejectionNotAllowed (itemId approverId : Id)
  | duplicateApproverInChain (itemId approverId : Id)
  | invalidCurrency (currency : String)
  | currencyMismatch (a b : String)
  | adjustmentReasonRequired
  | invalidAdjustmentAmount
  | noOpAdjustment (originalExpenseId : Id)
  | expenseNotMutable (id : Id) (status : String)
  | duplicatePayslip (runId employeeId : Id)
  | emptyPayrollRun (runId : Id)
  | payrollRunNotMutable (id : Id) (status : String)
  | payrollRunAlreadyExists (organizationId : Id) (runMonth : JsDate)
  | netPayExceedsGrossPay (employeeId : Id)
  | invalidPeriodDates
  | periodReopenReasonRequired
  | salaryStructureAlreadyExists (employeeId : Id)
  | userAlreadyLinked (userId : Id)
  | duplicateName (name : String)

namespace DomainError

/-- The stable code of an error. -/
def code : DomainError → String
  | periodClosed _ => "period-closed"
  | entityNotFound _ _ => "not-found"
  | invalidStateTransition _ _ _ => "invalid-state-transition"
  | noOpenPeriod _ => "no-open-period"
  | approverRoleMismatch _ _ => "approver-role-mismatch"
  | inactiveOrMissingReferenceData _ _ => "inactive-or-missing-reference-data"
  | noSuchApprovalStep _ _ => "no-such-approval-step"
  | selfApprovalNotAllowed _ _ => "self-approval-not-allowed"
  | selfRejectionNotAllowed _ _ => "self-rejection-not-allowed"
  | duplicateApproverInChain _ _ => "duplicate-approver-in-chain"
  | invalidCurrency _ => "unsupported-currency"
  | currencyMismatch _ _ => "currency-mismatch"
  | adjustmentReasonRequired => "adjustment-reason-required"
  | invalidAdjustmentAmount => "invalid-adjustment-amount"
  | noOpAdjustment _ => "no-op-adjustment"
  | expenseNotMutable _ _ => "expense-not-mutable"
  | duplicatePayslip _ _ => "duplicate-payslip"
  | emptyPayrollRun _ => "empty-payroll-run"
  | payrollRunNotMutable _ _ => "payroll-run-not-mutable"
  | payrollRunAlreadyExists _ _ => "payroll-run-already-exists"
  | netPayExceedsGrossPay _ => "net-pay-exceeds-gross-pay"
  | invalidPeriodDates => "invalid-period-dates"
  | periodReopenReasonRequired => "period-reopen-reason-required"
  | salaryStructureAlreadyExists _ => "salary-structure-already-exists"
  | userAlreadyLinked _ => "user-already-linked"
  | duplicateName _ => "duplicate-name"

/-- The HTTP status an error is answered with. -/
def httpStatus : DomainError → ℕ
  | entityNotFound _ _ => 404
  | approverRoleMismatch _ _ => 403
  | selfApprovalNotAllowed _ _ => 403
  | selfRejectionNotAllowed _ _ => 403
  | duplicateApproverInChain _ _ => 403
  | inactiveOrMissingReferenceData _ _ => 400
  | invalidCurrency _ => 400
  | adjustmentReasonRequired => 400
  | invalidAdjustmentAmount => 400
  | noOpAdjustment _ => 400
  | netPayExceedsGrossPay _ => 400
  | invalidPeriodDates => 400
  | periodReopenReasonRequired => 400
  | currencyMismatch _ _ => 500
  | _ => 409

/-- The text of an error. -/
def message : DomainError → String
  | periodClosed periodId =>
    s!"Financial period {periodId} is closed. Submit an adjustment instead."
  | entityNotFound entityType id => s!"{entityType} with id {id} was not found"
  | invalidStateTransition entityType source target =>
    s!"Cannot transition {entityType} from '{source}' to '{target}'"
  | noOpenPeriod organizationId =>
    s!"Organization {organizationId} has no currently open financial period"
  | approverRoleMismatch approverId requiredRole =>
    s!"Approver {approverId} does not hold the required role '{requiredRole.name}' for this " ++
      "approval step"
  | inactiveOrMissingReferenceData entityType id =>
    s!"{entityType} \"{id}\" does not exist or is no longer active"
  | noSuchApprovalStep itemId stepOrder =>
    s!"No approval step {stepOrder} defined for item {itemId} — chain is shorter than expected"
  | selfApprovalNotAllowed itemId approverId =>
    s!"Approver {approverId} cannot approve item {itemId} they themselves requested"
  | selfRejectionNotAllowed itemId approverId =>
    s!"Approver {approverId} cannot reject item {itemId} they themselves requested"
  | duplicateApproverInChain itemId approverId =>
    s!"Approver {approverId} has already approved a different step in this same approval chain " ++
      s!"for item {itemId}"
  | invalidCurrency currency => s!"Unsupported currency: {currency}"
  | currencyMismatch a b => s!"Currency mismatch: cannot operate on {a} and {b} directly"
  | adjustmentReasonRequired =>
    "An adjustment reason is required when creating an expense adjustment"
  | invalidAdjustmentAmount => "An adjustment's corrected amount cannot be negative"
  | noOpAdjustment originalExpenseId =>
    s!"The corrected amount equals expense {originalExpenseId}'s current amount — nothing to adjust"
  | expenseNotMutable id status =>
    s!"Expense {id} cannot be edited directly while in status '{status}'. " ++
      "Use createAdjustment() instead."
  | duplicatePayslip runId employeeId =>
    s!"Payroll run {runId} already has a payslip for employee {employeeId}"
  | emptyPayrollRun runId =>
    s!"Payroll run {runId} cannot be submitted for approval with zero payslips"
  | payrollRunNotMutable id status =>
    s!"Payroll run {id} cannot be modified while in status '{status}'"
  | payrollRunAlreadyExists organizationId runMonth =>
    s!"A payroll run already exists for {organizationId} in " ++
      String.ofList (runMonth.toISOString.take 7)
  | netPayExceedsGrossPay employeeId =>
    s!"Computed net pay exceeds gross pay for employee {employeeId} — check deduction totals"
  | invalidPeriodDates => "Financial period end_date must be after start_date"
  | periodReopenReasonRequired => "A reason is required to reopen a closed financial period"
  | salaryStructureAlreadyExists employeeId =>
    s!"Employee {employeeId} already has an active salary structure"
  | userAlreadyLinked userId => s!"User {userId} is already linked to a different employee record"
  | duplicateName name => s!"A record named \"{name}\" already exists for this organization"

end DomainError

/-- Why a command fails: a domain error, a `RangeError` an aggregate throws, or
the database refusing a statement. -/
inductive Failure where
  | domain (error : DomainError)
  | range (message : String)
  | database (constraint : String)

/-- Go on only when `p` holds. -/
def ensure (p : Prop) [Decidable p] (e : Failure) : Except Failure Unit :=
  if p then .ok () else .error e

theorem ensure_ok {p : Prop} [Decidable p] {e : Failure} {a : Unit} :
    ensure p e = .ok a ↔ p := by
  simp only [ensure]
  split_ifs with h <;> simp [h]

/-- Inversion for a sequence of fallible steps. -/
theorem except_bind_ok {α β ε : Type} {x : Except ε α} {f : α → Except ε β} {b : β} :
    (x >>= f) = .ok b ↔ ∃ a, x = .ok a ∧ f a = .ok b := by
  rcases x with e | a
  · simp [bind, Except.bind]
  · simp [bind, Except.bind]

theorem except_bind_error {α β ε : Type} {x : Except ε α} {f : α → Except ε β} {e : ε} :
    (x >>= f) = .error e ↔ x = .error e ∨ ∃ a, x = .ok a ∧ f a = .error e := by
  rcases x with e | a
  · simp [bind, Except.bind]
  · simp [bind, Except.bind]

theorem except_pure_ok {α ε : Type} {a b : α} : (pure a : Except ε α) = .ok b ↔ b = a := by
  simp [pure, Except.pure, eq_comm]

/-! ## Money -/

/-- The supported currencies. -/
inductive CurrencyCode where
  | NGN
  | USD
  | EUR
  | GBP
  deriving DecidableEq

/-- The three letters of a currency. -/
def CurrencyCode.name : CurrencyCode → String
  | NGN => "NGN"
  | USD => "USD"
  | EUR => "EUR"
  | GBP => "GBP"

/-- `isSupportedCurrency`, with the currency it narrows the text to. -/
def supportedCurrency (value : String) : Option CurrencyCode :=
  [CurrencyCode.NGN, .USD, .EUR, .GBP].find? fun c => c.name = value

/-- An amount in minor units of a currency. -/
structure Money where
  minorUnits : ℤ
  currency : CurrencyCode
  deriving DecidableEq

namespace Money

/-- `Money.of`: the currency has to be supported. -/
def of (amountMinorUnits : ℤ) (currency : String) : Except Failure Money :=
  match supportedCurrency currency with
  | some c => .ok ⟨amountMinorUnits, c⟩
  | none => .error (.domain (.invalidCurrency currency))

/-- No money at all. -/
def zero (currency : CurrencyCode) : Money := ⟨0, currency⟩

/-- `isZero` -/
def isZero (m : Money) : Prop := m.minorUnits = 0

/-- `isNegative` -/
def isNegative (m : Money) : Prop := m.minorUnits < 0

instance (m : Money) : Decidable m.isZero := inferInstanceAs (Decidable (_ = _))

instance (m : Money) : Decidable m.isNegative := inferInstanceAs (Decidable (_ < _))

/-- Adding needs one currency. -/
def add (a b : Money) : Except Failure Money :=
  if a.currency = b.currency then .ok ⟨a.minorUnits + b.minorUnits, a.currency⟩
  else .error (.domain (.currencyMismatch a.currency.name b.currency.name))

/-- The opposite amount. -/
def negate (m : Money) : Money := ⟨-m.minorUnits, m.currency⟩

theorem add_ok {a b m : Money} :
    a.add b = .ok m ↔
      a.currency = b.currency ∧ m = ⟨a.minorUnits + b.minorUnits, a.currency⟩ := by
  simp only [add]
  split_ifs with h
  · simp [h, eq_comm]
  · simp [h]

/-- Adding up amounts from a start, as the folds of the payroll do. -/
def sumFrom (start : Money) (amounts : List Money) : Except Failure Money :=
  amounts.foldlM add start

/-- A sum comes out exactly when all amounts have the currency of the start. -/
theorem sumFrom_ok {start m : Money} {amounts : List Money} :
    start.sumFrom amounts = .ok m ↔
      (∀ a ∈ amounts, a.currency = start.currency) ∧
        m = ⟨start.minorUnits + (amounts.map minorUnits).sum, start.currency⟩ := by
  induction amounts generalizing start with
  | nil =>
    rw [sumFrom, List.foldlM_nil]
    simp [pure, Except.pure, eq_comm]
  | cons a amounts ih =>
    rw [sumFrom, List.foldlM_cons]
    by_cases h : start.currency = a.currency
    · have hadd : start.add a = .ok ⟨start.minorUnits + a.minorUnits, start.currency⟩ := by
        rw [add_ok]
        exact ⟨h, rfl⟩
      rw [hadd]
      have := @ih ⟨start.minorUnits + a.minorUnits, start.currency⟩
      rw [sumFrom] at this
      refine this.trans ?_
      simp [h, add_assoc]
    · have hadd : start.add a = .error (.domain (.currencyMismatch _ _)) := if_neg h
      rw [hadd]
      simp [bind, Except.bind, Ne.symm h]

end Money

/-! ## Text -/

/-- The characters `String.prototype.trim` removes. -/
def isJsSpace (c : Char) : Bool :=
  (9 ≤ c.toNat && c.toNat ≤ 13) || c.toNat == 0x20 || c.toNat == 0xA0 || c.toNat == 0x1680 ||
    (0x2000 ≤ c.toNat && c.toNat ≤ 0x200A) || c.toNat == 0x2028 || c.toNat == 0x2029 ||
    c.toNat == 0x202F || c.toNat == 0x205F || c.toNat == 0x3000 || c.toNat == 0xFEFF

/-- `String.prototype.trim` -/
def trim (s : String) : List Char := (s.toList.dropWhile isJsSpace).rdropWhile isJsSpace

/-! ## Domain events -/

/-- A value in the payload of an event. -/
inductive PayloadValue where
  | id (value : Id)
  | number (value : ℕ)
  | text (value : String)
  | date (value : JsDate)
  | object (fields : List (String × PayloadValue))

/-- An event as an aggregate records it and the outbox stores it. -/
structure DomainEvent where
  type : String
  aggregateType : String
  aggregateId : Id
  payload : List (String × PayloadValue)

/-- Who acts on an aggregate: a user, or the system under a name of its own. -/
inductive Actor where
  | user (id : Id)
  | system (name : String)

/-- An actor in an event payload. -/
def Actor.value : Actor → PayloadValue
  | user id => .id id
  | system name => .text name

end RatelPlatform
