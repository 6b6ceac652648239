import RatelPlatform.Employees
import RatelPlatform.EncryptedPayslips

/-!
# The methods of the aggregates

Whatever is called on an aggregate in memory, and how often, it changes the fields that the
`update` of its repository lists, and no others. A method that throws has written nothing yet,
so a sequence of calls goes on behind it.
-/

namespace RatelPlatform

/-! ## Sequences of calls -/

section

variable {α μ : Type}

/-- A sequence of calls; one that throws leaves the aggregate as it was. -/
def callAll (call : α → μ → Except Failure α) (a : α) (calls : List μ) : α :=
  calls.foldl (fun a m => (call a m).toOption.getD a) a

/-- What every call keeps holds after any sequence of calls. -/
theorem callAll_induction {call : α → μ → Except Failure α} {p : α → Prop}
    (hcall : ∀ {a m a'}, call a m = .ok a' → p a → p a') {a : α} (ha : p a) (calls : List μ) :
    p (callAll call a calls) := by
  induction calls generalizing a with
  | nil => exact ha
  | cons m calls ih =>
    rw [callAll, List.foldl_cons]
    refine ih ?_
    rcases h : call a m with _ | a'
    · exact ha
    · exact hcall h ha

end

/-! ## Expenses -/

/-- `Partial<Pick<ExpenseProps, …>>`: the fields that are given. -/
structure ExpenseChanges where
  amount : Option Money
  categoryId : Option Id
  vendorId : Option (Option Id)
  projectId : Option (Option Id)
  description : Option (Option String)

/-- `update`: drafts only -/
def Expense.update (e : Expense) (changes : ExpenseChanges) (now : JsDate) :
    Except Failure Expense := do
  ensure (e.props.status ∈ [ExpenseStatus.draft])
    (.domain (.expenseNotMutable e.props.id e.props.status.name))
  pure
    { e with
      props := { e.props with
        amount := changes.amount.getD e.props.amount
        categoryId := changes.categoryId.getD e.props.categoryId
        vendorId := changes.vendorId.getD e.props.vendorId
        projectId := changes.projectId.getD e.props.projectId
        description := changes.description.getD e.props.description
        updatedAt := now } }

/-- The methods of an expense. -/
inductive ExpenseMethod where
  | update (changes : ExpenseChanges)
  | submitForApproval
  | approve (approverId : Actor)
  | reject (approverId : Id) (reason : String)
  | cancel (actorId : Id)

/-- A call at some time. -/
def ExpenseMethod.call (e : Expense) : ExpenseMethod × JsDate → Except Failure Expense
  | (.update changes, now) => e.update changes now
  | (.submitForApproval, now) => e.submitForApproval now
  | (.approve approverId, now) => e.approve approverId now
  | (.reject approverId reason, now) => e.reject approverId reason now
  | (.cancel actorId, now) => e.cancel actorId now

theorem Expense.update_ok {e e' : Expense} {changes : ExpenseChanges} {now : JsDate} :
    e.update changes now = .ok e' ↔ e.props.status = .draft ∧
      e' = { e with
        props := { e.props with
          amount := changes.amount.getD e.props.amount
          categoryId := changes.categoryId.getD e.props.categoryId
          vendorId := changes.vendorId.getD e.props.vendorId
          projectId := changes.projectId.getD e.props.projectId
          description := changes.description.getD e.props.description
          updatedAt := now } } := by
  simp only [update, except_bind_ok, ensure_ok, except_pure_ok, exists_and_left, exists_const,
    List.mem_singleton]

/-- The expense in memory differs from its row in the columns of the update only. -/
structure Expense.UpdatesRow (id : Id) (row : ExpenseRow) (e : Expense) : Prop where
  id : e.props.id = id
  row : ExpenseRepository.updateRow e.props row = e.props.toExpenseRow

theorem Expense.UpdatesRow.loaded (id : Id) (row : ExpenseRow) :
    (ExpenseRepository.toDomain id row).UpdatesRow id row := ⟨rfl, rfl⟩

/-- No method of an expense writes another column. -/
theorem Expense.UpdatesRow.call {id : Id} {row : ExpenseRow} {e e' : Expense}
    {m : ExpenseMethod × JsDate} (hcall : ExpenseMethod.call e m = .ok e')
    (h : e.UpdatesRow id row) : e'.UpdatesRow id row := by
  obtain ⟨hid, hrow⟩ := h
  -- the columns of the row that no update writes
  have hkept : ∀ {props : ExpenseProps}, ExpenseRepository.updateRow props e.props.toExpenseRow =
      props.toExpenseRow → ExpenseRepository.updateRow props row = props.toExpenseRow := by
    intro props hprops
    rw [← hrow] at hprops
    exact hprops
  obtain ⟨m, now⟩ := m
  cases m with
  | update changes =>
    obtain ⟨-, rfl⟩ := Expense.update_ok.mp hcall
    exact ⟨hid, hkept rfl⟩
  | submitForApproval =>
    obtain ⟨-, rfl⟩ := Expense.transition_ok.mp hcall
    exact ⟨hid, hkept rfl⟩
  | approve approverId =>
    obtain ⟨-, rfl⟩ := Expense.transition_ok.mp hcall
    exact ⟨hid, hkept rfl⟩
  | reject approverId reason =>
    obtain ⟨-, rfl⟩ := Expense.transition_ok.mp hcall
    exact ⟨hid, hkept rfl⟩
  | cancel actorId =>
    obtain ⟨-, rfl⟩ := Expense.transition_ok.mp hcall
    exact ⟨hid, hkept rfl⟩

/-! ## Financial periods -/

/-- The methods of a financial period. -/
inductive FinancialPeriodMethod where
  | startClosing
  | close (closedById : Id) (now : JsDate)
  | reopen (reopenedById : Id) (reason : String)

def FinancialPeriodMethod.call (p : FinancialPeriod) :
    FinancialPeriodMethod → Except Failure FinancialPeriod
  | .startClosing => p.startClosing
  | .close closedById now => p.close closedById now
  | .reopen reopenedById reason => p.reopen reopenedById reason

/-- The period in memory differs from its row in the columns of the update only. -/
structure FinancialPeriod.UpdatesRow (id : Id) (row : FinancialPeriodRow) (p : FinancialPeriod) :
    Prop where
  id : p.props.id = id
  row : { row with
    status := p.props.status, closedById := p.props.closedById
    closedAt := p.props.closedAt } = p.props.toFinancialPeriodRow

theorem FinancialPeriod.UpdatesRow.loaded (id : Id) (row : FinancialPeriodRow) :
    (FinancialPeriodRepository.toDomain id row).UpdatesRow id row := ⟨rfl, rfl⟩

/-- No method of a period writes another column. -/
theorem FinancialPeriod.UpdatesRow.call {id : Id} {row : FinancialPeriodRow}
    {p p' : FinancialPeriod} {m : FinancialPeriodMethod}
    (hcall : FinancialPeriodMethod.call p m = .ok p') (h : p.UpdatesRow id row) :
    p'.UpdatesRow id row := by
  obtain ⟨hid, hrow⟩ := h
  have hkept : ∀ {status closedById closedAt}, { row with status, closedById, closedAt } =
      ({ p.props with status, closedById, closedAt } : FinancialPeriodProps).toFinancialPeriodRow := by
    intro status closedById closedAt
    exact congrArg (fun r : FinancialPeriodRow => { r with status, closedById, closedAt }) hrow
  cases m with
  | startClosing =>
    simp only [FinancialPeriodMethod.call, FinancialPeriod.startClosing,
      FinancialPeriod.assertTransition, except_bind_ok, ensure_ok, except_pure_ok] at hcall
    obtain ⟨-, -, rfl⟩ := hcall
    exact ⟨hid, hkept⟩
  | close closedById now =>
    obtain ⟨-, rfl⟩ := FinancialPeriod.close_ok.mp hcall
    exact ⟨hid, hkept⟩
  | reopen reopenedById reason =>
    obtain ⟨-, -, rfl⟩ := FinancialPeriod.reopen_ok.mp hcall
    exact ⟨hid, hkept⟩

/-! ## Payroll runs -/

section

variable {encryption : EncryptionService SerializedPayslipDetail}

/-- The constructor of a payslip is private: it is generated, or read from a row. -/
inductive MadePayslip (encryption : EncryptionService SerializedPayslipDetail) :
    PayslipProps → Prop
  | generated {id : Id} {now : JsDate} {input : Payslip.GenerateInput} {p : PayslipProps} :
      Payslip.generate id now input = .ok p → MadePayslip encryption p
  | reconstituted {row : PayslipRow encryption.Buffer} {p : PayslipProps} :
      PrismaPayrollRunRepository.payslipToDomain encryption row = some p → MadePayslip encryption p

theorem currency_of_toOption {n : ℤ} {currency : String} {m : Money}
    (h : (Money.of n currency).toOption = some m) : m.currency.name = currency := by
  rcases hof : Money.of n currency with _ | m'
  · rw [hof] at h
    cases h
  · rw [hof] at h
    cases h
    exact (Money.of_ok_iff.mp hof).1

/-- The pays of a payslip are of one currency. -/
theorem MadePayslip.one_currency {p : PayslipProps} (h : MadePayslip encryption p) :
    p.netPay.currency = p.grossPay.currency := by
  cases h with
  | generated h =>
    simp only [Payslip.generate, except_bind_ok, except_pure_ok, Money.add_ok] at h
    obtain ⟨_, -, grossPay, -, _, -, afterDeductions, ⟨-, rfl⟩, netPay, ⟨-, rfl⟩, _, -, rfl⟩ := h
    rfl
  | reconstituted h =>
    simp only [PrismaPayrollRunRepository.payslipToDomain, Option.bind_eq_bind,
      Option.bind_eq_some_iff, Option.pure_def, Option.some.injEq] at h
    obtain ⟨_, -, _, -, _, -, grossPay, hgross, netPay, hnet, rfl⟩ := h
    exact CurrencyCode.name_injective
      ((currency_of_toOption hnet).trans (currency_of_toOption hgross).symm)

/-- The methods of a payroll run. -/
inductive PayrollRunMethod (encryption : EncryptionService SerializedPayslipDetail) where
  | addPayslip (payslip : PayslipProps) (made : MadePayslip encryption payslip)
  | submitForApproval
  | approve (approverId : Id) (now : JsDate)
  | reject (approverId : Id) (reason : String)
  | startProcessing
  | complete
  | cancel (actorId : Id)

def PayrollRunMethod.call (r : PayrollRun) :
    PayrollRunMethod encryption → Except Failure PayrollRun
  | .addPayslip payslip _ => r.addPayslip payslip
  | .submitForApproval => r.submitForApproval
  | .approve approverId now => r.approve approverId now
  | .reject approverId reason => r.reject approverId reason
  | .startProcessing => r.startProcessing
  | .complete => r.complete
  | .cancel actorId => r.cancel actorId

/-- The columns an update writes. -/
def PayrollRunProps.updateColumns (props : PayrollRunProps) (old : PayrollRunColumns) :
    PayrollRunColumns :=
  { old with
    status := props.status, approvedById := props.approvedById, approvedAt := props.approvedAt }

/-- The run in memory has more payslips than it was loaded with, of other employees, and
otherwise differs from its row in the columns of the update only. -/
structure PayrollRun.Extends (encryption : EncryptionService SerializedPayslipDetail) (id : Id)
    (columns : PayrollRunColumns) (payslips : List PayslipProps) (r : PayrollRun) : Prop where
  id : r.props.id = id
  columns : r.props.updateColumns columns = r.props.toPayrollRunColumns
  payslips : ∃ added, r.payslips = payslips ++ added ∧
    (∀ p ∈ added, MadePayslip encryption p) ∧
    ∀ p ∈ added, p.employeeId ∉ payslips.map PayslipProps.employeeId

theorem PayrollRun.Extends.loaded (id : Id) (columns : PayrollRunColumns)
    (payslips : List PayslipProps) :
    (PayrollRun.reconstitute { columns with id } payslips).Extends encryption id columns payslips :=
  ⟨rfl, rfl, [], (List.append_nil _).symm, fun _ hp => absurd hp List.not_mem_nil,
    fun _ hp => absurd hp List.not_mem_nil⟩

theorem PayrollRun.Extends.created (id organizationId periodId : Id) (runMonth : JsDate)
    (createdById : Id) (now : JsDate) :
    (PayrollRun.create id organizationId periodId runMonth createdById now).Extends encryption id
      ⟨organizationId, periodId, .draft, runMonth, createdById, none, none, now⟩ [] :=
  ⟨rfl, rfl, [], rfl, fun _ hp => absurd hp List.not_mem_nil,
    fun _ hp => absurd hp List.not_mem_nil⟩

/-- No method of a run writes another column, or touches a payslip that is there. -/
theorem PayrollRun.Extends.call {id : Id} {columns : PayrollRunColumns}
    {payslips : List PayslipProps} {r r' : PayrollRun} {m : PayrollRunMethod encryption}
    (hcall : PayrollRunMethod.call r m = .ok r') (h : r.Extends encryption id columns payslips) :
    r'.Extends encryption id columns payslips := by
  obtain ⟨hid, hcolumns, hpayslips⟩ := h
  have hkept : ∀ {status approvedById approvedAt},
      { columns with status, approvedById, approvedAt } =
        ({ r.props with status, approvedById, approvedAt } : PayrollRunProps).toPayrollRunColumns := by
    intro status approvedById approvedAt
    exact congrArg (fun c : PayrollRunColumns =>
      { c with status, approvedById, approvedAt }) hcolumns
  cases m with
  | addPayslip payslip made =>
    obtain ⟨-, hother, rfl⟩ := PayrollRun.addPayslip_ok.mp hcall
    obtain ⟨added, hadded, hmade, hfresh⟩ := hpayslips
    rw [hadded] at hother
    have hnot : payslip.employeeId ∉ payslips.map PayslipProps.employeeId := by
      intro hmem
      obtain ⟨p, hp, hemployee⟩ := List.mem_map.mp hmem
      exact hother ⟨p, List.mem_append_left _ hp, hemployee⟩
    refine ⟨hid, hcolumns, added ++ [payslip], ?_, ?_, ?_⟩
    · simp only [hadded, List.append_assoc]
    · exact List.forall_mem_append.mpr ⟨hmade, List.forall_mem_singleton.mpr made⟩
    · exact List.forall_mem_append.mpr ⟨hfresh, List.forall_mem_singleton.mpr hnot⟩
  | submitForApproval =>
    obtain ⟨-, -, rfl⟩ := PayrollRun.submitForApproval_ok.mp hcall
    exact ⟨hid, hkept, hpayslips⟩
  | approve approverId now =>
    obtain ⟨-, rfl⟩ := PayrollRun.approve_ok.mp hcall
    exact ⟨hid, hkept, hpayslips⟩
  | reject approverId reason =>
    obtain ⟨-, rfl⟩ := PayrollRun.transition_ok.mp hcall
    exact ⟨hid, hkept, hpayslips⟩
  | startProcessing =>
    obtain ⟨-, rfl⟩ := PayrollRun.transition_ok.mp hcall
    exact ⟨hid, hkept, hpayslips⟩
  | complete =>
    obtain ⟨-, rfl⟩ := PayrollRun.transition_ok.mp hcall
    exact ⟨hid, hkept, hpayslips⟩
  | cancel actorId =>
    obtain ⟨-, rfl⟩ := PayrollRun.transition_ok.mp hcall
    exact ⟨hid, hkept, hpayslips⟩

end

end RatelPlatform
