import RatelPlatform.ExpenseReadModel
import RatelPlatform.Statements
import RatelPlatform.StatusEvents
import RatelPlatform.WrittenRows

/-!
# The outbox only grows

Whatever a command sees, its statements add events to the outbox and take none from it
(`Command.appends`). A command that is run alone and changes what is shown of an expense
(its status, its amount, the time of its last change) adds an event of the expense
(`Command.tells`); an approval that is not the last one adds none and changes nothing.
-/

namespace RatelPlatform

/-- Events are added to the outbox, and none is taken from it. -/
def Appends (p : Store → Store) : Prop := ∀ d, ∃ events, (p d).outbox = d.outbox ++ events

namespace Appends

variable {p : Store → Store}

theorem of_same (h : ∀ d, (p d).outbox = d.outbox) : Appends p := by
  intro d
  exact ⟨[], by simp [h]⟩

theorem refl : Appends id := of_same fun _ => rfl

/-- First one, then the other. -/
theorem comp (p q : Store → Store) (hp : Appends p) (hq : Appends q) :
    Appends fun d => q (p d) := by
  intro d
  obtain ⟨events, he⟩ := hp d
  obtain ⟨events', he'⟩ := hq (p d)
  exact ⟨events ++ events', by simp [he', he]⟩

end Appends

/-! ## The statements -/

variable {W : (Store → Store) → Prop}

theorem appends_savePeriod (period : FinancialPeriod) :
    (FinancialPeriodRepository.save period).Writes Appends := by
  apply Tx.Writes.exec
  intro d q hf
  split_ifs at hf
  · cases hf
    exact .of_same fun _ => rfl
  · simp only [except_bind_ok, except_pure_ok] at hf
    obtain ⟨-, -, -, -, rfl⟩ := hf
    exact .of_same fun _ => rfl

theorem appends_saveExpense (expense : Expense) :
    (ExpenseRepository.save expense).Writes Appends := by
  apply Tx.Writes.exec
  intro d q hf
  simp only [except_bind_ok] at hf
  obtain ⟨-, -, -, -, hf⟩ := hf
  split_ifs at hf
  · cases hf
    exact .of_same fun _ => rfl
  · simp only [except_bind_ok, except_pure_ok] at hf
    obtain ⟨-, -, -, -, rfl⟩ := hf
    exact .of_same fun _ => rfl

theorem appends_nextExpenseNumber (organizationId : Id) :
    (ExpenseRepository.nextExpenseNumber organizationId).Writes Appends := by
  intro d b q hf
  simp only [except_bind_ok, except_pure_ok, Prod.mk.injEq] at hf
  obtain ⟨-, -, -, hq⟩ := hf
  have happends : Appends q := by
    subst hq
    exact .of_same fun _ => rfl
  exact ⟨happends, trivial⟩

theorem appends_initializeProgress (itemId : Id) (itemType : String) (chain : ApprovalChain) :
    (ApprovalProgressRepository.initializeProgress itemId itemType chain).Writes Appends := by
  refine .bind (.exec fun d q hf => ?_) fun _ => .ret
  simp only [except_bind_ok, except_pure_ok] at hf
  obtain ⟨-, -, rfl⟩ := hf
  exact .of_same fun _ => rfl

theorem appends_saveProgress (itemId : Id) (progress : ApprovalProgress) :
    (ApprovalProgressRepository.save itemId progress).Writes Appends := by
  refine .bind .select fun _ => .bind .require fun _ => .bind .select fun steps => ?_
  dsimp only
  split_ifs
  · exact .ret
  · refine .exec fun d q hf => ?_
    simp only [except_bind_ok, except_pure_ok] at hf
    obtain ⟨-, -, rfl⟩ := hf
    exact .of_same fun _ => rfl

theorem appends_upsertRun (props : PayrollRunProps) :
    (PayrollRunRepository.upsertRun props).Writes Appends := by
  apply Tx.Writes.exec
  intro d q hf
  split_ifs at hf
  · cases hf
    exact .of_same fun _ => rfl
  · simp only [except_bind_ok, except_pure_ok] at hf
    obtain ⟨-, -, rfl⟩ := hf
    exact .of_same fun _ => rfl

theorem appends_insertPayslips (runId : Id) (payslips : List PayslipProps) :
    (PayrollRunRepository.insertPayslips runId payslips).Writes Appends := by
  induction payslips with
  | nil => exact .ret
  | cons payslip payslips ih =>
    refine .bind (.exec fun d q hf => ?_) fun _ => ih
    simp only [except_bind_ok, except_pure_ok] at hf
    obtain ⟨-, -, -, -, -, -, rfl⟩ := hf
    exact .of_same fun _ => rfl

theorem appends_saveRun (run : PayrollRun) : (PayrollRunRepository.save run).Writes Appends :=
  .bind (appends_upsertRun _) fun _ => .bind .select fun _ => appends_insertPayslips _ _

theorem appends_enqueue (events : List DomainEvent) : (enqueue events).Writes Appends := by
  simp only [enqueue]
  split_ifs
  · exact .ret
  · refine .exec fun d q hf => ?_
    cases hf
    exact fun d => ⟨events, rfl⟩

theorem writes_assertPeriodOpen (organizationId periodId : Id) :
    (assertPeriodOpen organizationId periodId).Writes W := by
  refine .bind (.bind (.bind .select fun _ => .ret) fun period => ?_) fun _ => .require
  split
  · exact .ret
  · split_ifs
    · exact .ret
    · exact .ret

theorem writes_findProgress (itemId : Id) : (findProgress itemId).Writes W := by
  refine .bind (.bind .select fun chain => ?_) fun _ => .orFail
  cases chain with
  | none => exact .ret
  | some chain => exact .bind .select fun _ => .ret

theorem writes_findExpense (expenseId organizationId : Id) :
    (findExpense expenseId organizationId).Writes W :=
  .bind (.bind .select fun _ => .ret) fun _ => .orFail

theorem writes_findPayrollRun (payrollRunId organizationId : Id) :
    (findPayrollRun payrollRunId organizationId).Writes W := by
  refine .bind (.bind .select fun columns => ?_) fun _ => .orFail
  cases columns with
  | none => exact .ret
  | some columns => exact .bind .select fun _ => .ret

theorem writes_requireOpenPeriod (organizationId tie : Id) :
    (requireOpenPeriod organizationId tie).Writes W :=
  (looks_requireOpenPeriod (Q := fun _ => True) fun _ => trivial).writes

theorem writes_assertActive (rows : Administration → List ReferenceRow) (entityType : String)
    (id organizationId : Id) : (assertActive rows entityType id organizationId).Writes W :=
  (looks_assertActive (Q := fun _ => True) trivial).writes

theorem writes_assertActiveIfGiven (rows : Administration → List ReferenceRow) (entityType : String)
    (id : Option Id) (organizationId : Id) :
    (assertActiveIfGiven rows entityType id organizationId).Writes W :=
  (looks_assertActiveIfGiven (Q := fun _ => True) trivial).writes

theorem writes_assertHoldsCurrentStepRole (item : Approvable) (progress : ApprovalProgress)
    (approverId : Id) :
    (WorkflowEngine.assertHoldsCurrentStepRole getRolesForUser item progress approverId).Writes
      W := by
  simp only [WorkflowEngine.assertHoldsCurrentStepRole]
  cases progress.currentStepRequirement with
  | none => exact .ret
  | some step => exact .bind (.bind .select fun _ => .bind .select fun _ => .ret) fun _ => .require

theorem writes_recordApproval (item : Approvable) (progress : ApprovalProgress) (approverId : Id)
    (now : JsDate) :
    (WorkflowEngine.recordApproval getRolesForUser item progress approverId now).Writes W :=
  .bind .require fun _ => .bind .require fun _ =>
    .bind (writes_assertHoldsCurrentStepRole _ _ _) fun _ => .ofExcept

theorem writes_recordRejection (item : Approvable) (progress : ApprovalProgress) (approverId : Id)
    (reason : String) (now : JsDate) :
    (WorkflowEngine.recordRejection getRolesForUser item progress approverId reason now).Writes W :=
  .bind .require fun _ => .bind (writes_assertHoldsCurrentStepRole _ _ _) fun _ => .ret

/-! ## The commands -/

theorem PeriodCommand.appends (env : Env) (cmd : PeriodCommand) :
    (cmd.program env).Writes Appends := by
  have hsaves : ∀ period : FinancialPeriod, (do
      FinancialPeriodRepository.save period
      enqueue period.domainEvents : StoreTx Unit).Writes Appends :=
    fun period => .bind (appends_savePeriod _) fun _ => appends_enqueue _
  have hfinds : ∀ periodId organizationId, (findPeriod periodId organizationId).Writes Appends :=
    fun _ _ => .bind (.bind .select fun _ => .ret) fun _ => .orFail
  cases cmd with
  | «open» cmd =>
    exact .discard (.bind .ofExcept fun _ => .bind (appends_savePeriod _) fun _ =>
      .bind (appends_enqueue _) fun _ => .ret)
  | close cmd => exact .bind (hfinds _ _) fun _ => .bind .ofExcept fun _ => hsaves _
  | reopen cmd => exact .bind (hfinds _ _) fun _ => .bind .ofExcept fun _ => hsaves _

theorem ExpenseCommand.appends (env : Env) (cmd : ExpenseCommand) :
    (cmd.program env).Writes Appends := by
  have hsaves : ∀ expense : Expense, (do
      ExpenseRepository.save expense
      enqueue expense.domainEvents : StoreTx Unit).Writes Appends :=
    fun expense => .bind (appends_saveExpense _) fun _ => appends_enqueue _
  cases cmd with
  | create cmd =>
    exact .discard (.bind (writes_requireOpenPeriod _ _) fun _ =>
      .bind (writes_assertActive _ _ _ _) fun _ => .bind (writes_assertActive _ _ _ _) fun _ =>
      .bind (writes_assertActiveIfGiven _ _ _ _) fun _ =>
      .bind (writes_assertActiveIfGiven _ _ _ _) fun _ =>
      .bind (appends_nextExpenseNumber _) fun _ => .bind .ofExcept fun _ => .bind .ofExcept fun _ =>
      .bind (appends_saveExpense _) fun _ => .bind (appends_enqueue _) fun _ => .ret)
  | submit cmd =>
    refine .bind (writes_findExpense _ _) fun _ => .bind (writes_assertPeriodOpen _ _) fun _ =>
      .bind .ofExcept fun _ => .bind ?_ fun _ => hsaves _
    simp only [startApproval]
    split_ifs
    · exact .ofExcept
    · exact .bind (appends_initializeProgress _ _ _) fun _ => .ret
  | approve cmd =>
    exact .bind (writes_findExpense _ _) fun _ => .bind (writes_assertPeriodOpen _ _) fun _ =>
      .bind (writes_findProgress _) fun _ => .bind (writes_recordApproval _ _ _ _) fun _ =>
      .bind .ofExcept fun _ => .bind (appends_saveProgress _ _) fun _ => hsaves _
  | reject cmd =>
    exact .bind (writes_findExpense _ _) fun _ => .bind (writes_assertPeriodOpen _ _) fun _ =>
      .bind (writes_findProgress _) fun _ => .bind (writes_recordRejection _ _ _ _ _) fun _ =>
      .bind .ofExcept fun _ => .bind (appends_saveProgress _ _) fun _ => hsaves _
  | cancel cmd =>
    exact .bind (writes_findExpense _ _) fun _ => .bind (writes_assertPeriodOpen _ _) fun _ =>
      .bind .ofExcept fun _ => hsaves _
  | createAdjustment cmd =>
    refine .discard (.bind (writes_requireOpenPeriod _ _) fun _ =>
      .bind (writes_findExpense _ _) fun _ => .bind (appends_nextExpenseNumber _) fun _ =>
      .bind .ofExcept fun _ => .bind (appends_saveExpense _) fun _ => .bind ?_ fun _ =>
      .bind (appends_enqueue _) fun _ => .ret)
    simp only [startAdjustmentApproval]
    split_ifs
    · exact .bind (appends_initializeProgress _ _ _) fun _ => .ret
    · exact .ret

theorem PayrollCommand.appends (env : Env) (cmd : PayrollCommand) :
    (cmd.program env).Writes Appends := by
  have hsaves : ∀ run : PayrollRun, (do
      PayrollRunRepository.save run
      enqueue run.domainEvents : StoreTx Unit).Writes Appends :=
    fun run => .bind (appends_saveRun _) fun _ => appends_enqueue _
  cases cmd with
  | create cmd =>
    exact .discard (.bind (writes_requireOpenPeriod _ _) fun _ => .bind .select fun _ =>
      .bind .require fun _ => .bind (appends_saveRun _) fun _ =>
      .bind (appends_enqueue _) fun _ => .ret)
  | addPayslip cmd =>
    exact .discard (.bind (writes_findPayrollRun _ _) fun _ =>
      .bind (writes_assertPeriodOpen _ _) fun _ => .bind .select fun _ => .bind .orFail fun _ =>
      .bind .ofExcept fun _ => .bind .ofExcept fun _ => .bind .ofExcept fun _ =>
      .bind (appends_saveRun _) fun _ => .bind (appends_enqueue _) fun _ => .ret)
  | submit cmd =>
    exact .bind (writes_findPayrollRun _ _) fun _ => .bind (writes_assertPeriodOpen _ _) fun _ =>
      .bind .ofExcept fun _ => .bind .ofExcept fun _ =>
      .bind (appends_initializeProgress _ _ _) fun _ => hsaves _
  | approve cmd =>
    exact .bind (writes_findPayrollRun _ _) fun _ => .bind (writes_assertPeriodOpen _ _) fun _ =>
      .bind (writes_findProgress _) fun _ => .bind .ofExcept fun _ =>
      .bind (writes_recordApproval _ _ _ _) fun _ => .bind .ofExcept fun _ =>
      .bind (appends_saveProgress _ _) fun _ => hsaves _
  | reject cmd =>
    exact .bind (writes_findPayrollRun _ _) fun _ => .bind (writes_assertPeriodOpen _ _) fun _ =>
      .bind (writes_findProgress _) fun _ => .bind .ofExcept fun _ =>
      .bind (writes_recordRejection _ _ _ _ _) fun _ => .bind .ofExcept fun _ =>
      .bind (appends_saveProgress _ _) fun _ => hsaves _
  | cancel cmd =>
    exact .bind (writes_findPayrollRun _ _) fun _ => .bind .ofExcept fun _ => hsaves _
  | process cmd =>
    exact .bind (writes_findPayrollRun _ _) fun _ => .bind .ofExcept fun _ =>
      .bind .ofExcept fun _ => hsaves _

/-- **Every command** adds its events to the outbox, and takes none from it. -/
theorem Command.appends (env : Env) (command : Command) :
    (command.program env).Writes Appends := by
  cases command with
  | administer administration =>
    refine .exec fun d q hf => ?_
    cases hf
    exact .of_same fun _ => rfl
  | period cmd => exact cmd.appends env
  | expense cmd => exact cmd.appends env
  | payroll cmd => exact cmd.appends env

/-! ## Commands run alone -/

/-- The projector handles the event, and projects the expense. -/
def ProjectedOf (id : Id) (e : DomainEvent) : Prop :=
  e.type ∈ ExpenseReadModelProjector.projectedEventTypes ∧ e.aggregateId = id

instance (id : Id) (e : DomainEvent) : Decidable (ProjectedOf id e) :=
  inferInstanceAs (Decidable (_ ∧ _))

/-- Where something else is to be shown of an expense, there is a new event of it. -/
def Tells (d d' : Store) : Prop :=
  ∀ id, d'.shown id ≠ d.shown id → ∃ e ∈ d.newEvents d', ProjectedOf id e

variable {d d' : Store}

/-- It is enough to look at the expenses there are. -/
theorem tells_iff : Tells d d' ↔ ∀ id ∈ d.expenses.keys ∪ d'.expenses.keys,
    d'.shown id ≠ d.shown id → ∃ e ∈ d.newEvents d', ProjectedOf id e := by
  refine ⟨fun h id _ => h id, fun h id hne => h id ?_ hne⟩
  by_contra hout
  rw [Finset.mem_union, not_or, Finmap.mem_keys, Finmap.mem_keys] at hout
  apply hne
  simp [Store.shown, Finmap.lookup_eq_none.mpr hout.1, Finmap.lookup_eq_none.mpr hout.2]

instance (d d' : Store) : Decidable (Tells d d') := decidable_of_iff _ tells_iff.symm

theorem Tells.of_expenses (h : d'.expenses = d.expenses) : Tells d d' := by
  intro id hne
  simp [Store.shown, h] at hne

/-- One expense is written, with an event of it or as it was. -/
theorem Tells.insert {id : Id} {row : ExpenseRow} {events : List DomainEvent}
    (hexpenses : d'.expenses = d.expenses.insert id row) (hout : d'.outbox = d.outbox ++ events)
    (htells : d.expenses.lookup id = some row ∨ ∃ e ∈ events, ProjectedOf id e) : Tells d d' := by
  intro id' hne
  simp only [Store.shown, hexpenses, Table.lookup_insert_ite] at hne
  rw [Store.newEvents_of_append hout]
  split_ifs at hne with hid
  · subst hid
    rcases htells with hrow | hevent
    · simp [hrow] at hne
    · exact hevent
  · exact absurd rfl hne

theorem ExpenseCommand.tells {env : Env} {cmd : ExpenseCommand} {a : Unit} (hal : d.RecordsAligned)
    (hfresh : d.Fresh env.uuid) (hok : (cmd.program env).solo d = .ok (a, d')) : Tells d d' := by
  have hnew := Finmap.lookup_eq_none.mpr hfresh.2.1
  have told : ∀ {id : Id} {e : DomainEvent} {events : List DomainEvent} (type : String),
      type ∈ ExpenseReadModelProjector.projectedEventTypes → e.type = type → e.aggregateId = id →
      ∃ e' ∈ e :: events, ProjectedOf id e' := by
    rintro id e events _ htype rfl hid
    exact ⟨e, List.mem_cons_self, htype, hid⟩
  cases cmd with
  | create cmd =>
    obtain ⟨_, hok⟩ := Tx.solo_discard_ok.mp hok
    obtain ⟨row, _, -, -, -, -, -, -, rfl⟩ := createExpense_ok hnew hok
    exact .insert rfl rfl (.inr (told "ExpenseDrafted" (by decide) rfl rfl))
  | submit cmd =>
    obtain ⟨row, -, -, -, -, -, rfl⟩ := submitExpense_ok hok
    exact .insert rfl rfl (.inr (told "ExpenseSubmittedForApproval" (by decide) rfl rfl))
  | approve cmd =>
    obtain ⟨row, prow, _, hrow, -, -, -, -, -, -, -, -, rfl⟩ := approveExpense_ok hal hok
    refine @Tells.insert _ _ _ _ (if _ then _ else _) rfl rfl ?_
    split_ifs
    · exact .inr (told "ExpenseApproved" (by decide) rfl rfl)
    · -- an approval that is not the last one stores the expense as it was
      exact .inl hrow
  | reject cmd =>
    obtain ⟨row, _, -, -, -, -, -, -, -, rfl⟩ := rejectExpense_ok hal hok
    exact .insert rfl rfl (.inr (told "ExpenseRejected" (by decide) rfl rfl))
  | cancel cmd =>
    obtain ⟨row, -, -, -, -, rfl⟩ := cancelExpense_ok hok
    exact .insert rfl rfl (.inr (told "ExpenseCancelled" (by decide) rfl rfl))
  | createAdjustment cmd =>
    obtain ⟨_, hok⟩ := Tx.solo_discard_ok.mp hok
    obtain ⟨_, _, _, _, -, -, -, -, -, -, -, rfl⟩ := createAdjustment_ok hnew hok
    exact .insert rfl rfl (.inr (told "ExpenseAdjustmentCreated" (by decide) rfl rfl))

/-- **A command run alone** that changes what is shown of an expense adds an event of it. -/
theorem Command.tells {env : Env} {command : Command} {a : Unit} (hwf : d.WellFormed)
    (hfresh : d.Fresh env.uuid) (hok : (command.program env).solo d = .ok (a, d')) :
    Tells d d' := by
  cases command with
  | administer administration =>
    obtain ⟨_, hp, rfl⟩ := Tx.solo_exec_ok.mp hok
    cases hp
    exact .of_expenses rfl
  | period cmd =>
    obtain ⟨_, _, rfl⟩ := PeriodCommand.frame hok
    exact .of_expenses rfl
  | expense cmd => exact ExpenseCommand.tells hwf.aligned hfresh hok
  | payroll cmd =>
    have hnew := Finmap.lookup_eq_none.mpr hfresh.2.2.2
    obtain ⟨-, -, hexpenses, -⟩ := PayrollCommand.frame hwf.aligned (fun _ => hnew) hok
    exact .of_expenses hexpenses

end RatelPlatform
