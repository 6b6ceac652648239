import RatelPlatform.ApprovedRuns
import RatelPlatform.ExpenseRows

/-!
# Decisions on items that are not pending

An item that is a draft, or rejected, cancelled, approved or completed is not up
for a decision. The aggregates know that, but an approval reaches the aggregate
only at the last step of its chain: a step before the last is recorded without
asking for the status.

Payroll chains have one step, rejections always reach the aggregate, and approved
expenses have no step left. What remains are expenses whose progress was cut
short: `decision_refused_iff` says when exactly a decision slips through.
-/

namespace RatelPlatform

/-- An approve or reject command of either context. -/
inductive DecisionCommand where
  | approveExpense (cmd : ApproveExpenseCommand)
  | rejectExpense (cmd : RejectExpenseCommand)
  | approveRun (cmd : ApprovePayrollRunCommand)
  | rejectRun (cmd : RejectPayrollRunCommand)

namespace DecisionCommand

/-- As a command of the machine. -/
def command : DecisionCommand → Command
  | approveExpense cmd => .expense (.approve cmd)
  | rejectExpense cmd => .expense (.reject cmd)
  | approveRun cmd => .payroll (.approve cmd)
  | rejectRun cmd => .payroll (.reject cmd)

/-- The item it names is there and not pending. -/
def OnDeadItem (d : Store) : DecisionCommand → Prop
  | approveExpense cmd =>
    ∃ row, d.expenses.lookup cmd.expenseId = some row ∧ row.status ≠ .pendingApproval
  | rejectExpense cmd =>
    ∃ row, d.expenses.lookup cmd.expenseId = some row ∧ row.status ≠ .pendingApproval
  | approveRun cmd =>
    ∃ row, d.payrollRuns.lookup cmd.payrollRunId = some row ∧
      row.columns.status ≠ .pendingApproval
  | rejectRun cmd =>
    ∃ row, d.payrollRuns.lookup cmd.payrollRunId = some row ∧
      row.columns.status ≠ .pendingApproval

end DecisionCommand

/-- The request fails, and leaves the store as it was. -/
structure Refused (d : Store) (request : Request) : Prop where
  fails : ∃ e, (request.command.program request.env).solo d = .error e
  unchanged : ∀ d', next d request = some d' → d' = d

/-- The engine admits the approval, at a step that is not the last. -/
structure AdmittedMidway (d : Store) (cmd : ApproveExpenseCommand) (row : ExpenseRow)
    (prow : ApprovalProgressRow) (step : ApprovalStep) : Prop where
  expense : d.expenses.lookup cmd.expenseId = some row
  organization : row.organizationId = cmd.organizationId
  period : d.PeriodIsOpen cmd.organizationId row.periodId
  progress : d.approvalProgress.lookup cmd.expenseId = some prow
  other : row.source.actorId ≠ cmd.approverId
  once : ¬ ∃ r ∈ prow.records, r.decision = .approved ∧ r.approverId = cmd.approverId
  current : (ApprovalChain.of prow.chain).stepAt (prow.records.length + 1) = some step
  midway : (ApprovalChain.of prow.chain).isLastStep (prow.records.length + 1) = false
  role : HoldsRequiredRole step (some row.departmentId) (d.administration.rolesOf cmd.approverId)

/-- The decision is an approval that is admitted midway. -/
def DecisionCommand.SlipsThrough (d : Store) : DecisionCommand → Prop
  | approveExpense cmd => ∃ row prow step, AdmittedMidway d cmd row prow step
  | _ => False

variable {administration : Administration} {rs : List Request} {d : Store}

/-- A request that fails changes nothing. -/
theorem refused_of_error {request : Request} {e : Failure}
    (h : (request.command.program request.env).solo d = .error e) : Refused d request := by
  refine ⟨⟨e, h⟩, fun d' hn => ?_⟩
  obtain ⟨-, ⟨-, rfl⟩ | hok⟩ := next_cases hn
  · rfl
  · cases h.symm.trans hok

/-- A request is refused when it cannot succeed. -/
theorem refused_of_not_ok {request : Request}
    (h : ∀ d', (request.command.program request.env).solo d ≠ .ok ((), d')) :
    Refused d request := by
  rcases hsolo : (request.command.program request.env).solo d with e | ⟨_, d'⟩
  · exact refused_of_error hsolo
  · exact absurd hsolo (h d')

/-- An approval of an expense that is not pending is admitted midway, if at all. -/
theorem admittedMidway_of_dead {env : Env} {cmd : ApproveExpenseCommand} {d' : Store}
    {row : ExpenseRow} (hal : d.RecordsAligned)
    (hrow : d.expenses.lookup cmd.expenseId = some row) (hdead : row.status ≠ .pendingApproval)
    (h : (approveExpense env cmd).solo d = .ok ((), d')) :
    ∃ prow step, AdmittedMidway d cmd row prow step := by
  obtain ⟨row₁, prow, step, hrow₁, horg, hopen, hprow, hself, hdup, hstep, hrole, hpending, -⟩ :=
    approveExpense_ok hal h
  obtain rfl := Option.some.inj (hrow.symm.trans hrow₁)
  refine ⟨prow, step, hrow, horg, hopen, hprow, hself, hdup, hstep, ?_, hrole⟩
  rw [← Bool.not_eq_true]
  exact fun hlast => hdead (hpending hlast)

/-- An approval of a payroll run succeeds only on a pending run. -/
theorem pending_of_approveRun {env : Env} {cmd : ApprovePayrollRunCommand} {d' : Store}
    {row : PayrollRunRow} (hr : Runs administration rs d)
    (hrow : d.payrollRuns.lookup cmd.payrollRunId = some row)
    (h : (approvePayrollRun env cmd).solo d = .ok ((), d')) :
    row.columns.status = .pendingApproval := by
  obtain ⟨row₁, prow, step, hrow₁, -, -, hprow, -, -, -, hstep, -, hpending, -⟩ :=
    (approvePayrollRun_ok (Runs.wellFormed hr).aligned).mp h
  obtain rfl := Option.some.inj (hrow.symm.trans hrow₁)
  have hchain := (Runs.runInvariant hr _ row hrow).chain prow hprow
  rw [hchain] at hstep
  -- the chain has one step, so the current step is the last
  obtain ⟨hlength, -⟩ := payrollChain_stepAt hstep
  refine hpending ?_
  rw [hchain, hlength]
  decide

/-- **When a decision on an item that is not pending is refused**: exactly unless
it is an approval of an expense that the engine admits at a step before the last. -/
theorem decision_refused_iff (hr : Runs administration rs d) (env : Env) {c : DecisionCommand}
    (hdead : c.OnDeadItem d) : Refused d ⟨env, c.command⟩ ↔ ¬ c.SlipsThrough d := by
  have hal := (Runs.wellFormed hr).aligned
  cases c with
  | approveExpense cmd =>
    obtain ⟨row, hrow, hdead⟩ := hdead
    refine ⟨?_, ?_⟩
    · rintro ⟨⟨e, herror⟩, -⟩ ⟨row₁, prow, step, hmidway⟩
      obtain rfl := Option.some.inj (hrow.symm.trans hmidway.expense)
      have hstorable := Runs.amountsStorable hr _ row hrow
      obtain ⟨d', hok⟩ : ∃ d', (approveExpense env cmd).solo d = .ok ((), d') :=
        approveExpense_solo hal hrow hstorable hmidway.organization hmidway.period
          hmidway.progress hmidway.other hmidway.once hmidway.current hmidway.role
          (fun hlast => absurd (hmidway.midway.symm.trans hlast) nofun)
      cases herror.symm.trans hok
    · intro hnot
      refine refused_of_not_ok fun d' hok => hnot ?_
      obtain ⟨prow, step, hmidway⟩ := admittedMidway_of_dead hal hrow hdead hok
      exact ⟨row, prow, step, hmidway⟩
  | rejectExpense cmd =>
    obtain ⟨row, hrow, hdead⟩ := hdead
    refine iff_of_true (refused_of_not_ok fun d' hok => ?_) id
    obtain ⟨row₁, -, hrow₁, -, -, -, -, hpending, -, -⟩ := rejectExpense_ok hal hok
    obtain rfl := Option.some.inj (hrow.symm.trans hrow₁)
    exact hdead hpending
  | approveRun cmd =>
    obtain ⟨row, hrow, hdead⟩ := hdead
    refine iff_of_true (refused_of_not_ok fun d' hok => ?_) id
    exact hdead (pending_of_approveRun hr hrow hok)
  | rejectRun cmd =>
    obtain ⟨row, hrow, hdead⟩ := hdead
    refine iff_of_true (refused_of_not_ok fun d' hok => ?_) id
    obtain ⟨row₁, -, hrow₁, -, -, -, -, hpending, -, -⟩ := rejectPayrollRun_ok hal hok
    obtain rfl := Option.some.inj (hrow.symm.trans hrow₁)
    exact hdead hpending

/-! ## A panel that outlives its expense -/

/-- User 10 cancels the expense. -/
def Sample.cancel (expenseId : Id) : Request := request 907 (.expense (.cancel ⟨expenseId, 1, 10⟩))

/-- An expense that needs three department heads is submitted and cancelled. -/
def Sample.cancelledPanel : List Request :=
  [openJanuary, create 101 20000000, submit 101, cancel 101]

/-- A rejection of the cancelled expense is refused. -/
theorem decision_refused_iff_sample :
    Refused (Sample.store Sample.cancelledPanel) ⟨⟨Sample.noon, 902, 0⟩,
      (DecisionCommand.rejectExpense ⟨101, 1, 11, "no receipt"⟩).command⟩ := by
  have hstatus : ((Sample.store Sample.cancelledPanel).expenses.lookup 101).map (·.status) =
      some .cancelled := by
    decide +kernel
  obtain ⟨row, hrow, hcancelled⟩ := Option.map_eq_some_iff.mp hstatus
  have hdead : (DecisionCommand.rejectExpense ⟨101, 1, 11, "no receipt"⟩).OnDeadItem
      (Sample.store Sample.cancelledPanel) := by
    refine ⟨row, hrow, ?_⟩
    rw [hcancelled]
    exact nofun
  exact (decision_refused_iff (Sample.runs (by decide +kernel)) _ hdead).mpr id

/-- **A cancelled expense is approved**: the first department head of the panel
approves it, and the decision is recorded. -/
theorem cancelled_expense_decided : ∃ d d' row,
    Runs Sample.administration Sample.cancelledPanel d ∧
      d.expenses.lookup 101 = some row ∧ row.status = .cancelled ∧ d.recordsOf 101 = [] ∧
      next d (Sample.approve 101 11) = some d' ∧
      d'.recordsOf 101 = [⟨1, 11, Sample.noon, .approved, none⟩] ∧
      ¬ Refused d (Sample.approve 101 11) := by
  have hr' := Sample.runs (show (runLabels next _
    (Sample.cancelledPanel ++ [Sample.approve 101 11])).isSome by decide +kernel)
  obtain ⟨d, hd, -, hn⟩ := hr'.of_snoc
  have hstore : Sample.store Sample.cancelledPanel = d := by
    rw [Sample.store, hd.runLabels_eq]
    rfl
  have hstatus : ((Sample.store Sample.cancelledPanel).expenses.lookup 101).map (·.status) =
      some .cancelled := by
    decide +kernel
  have hbefore : (Sample.store Sample.cancelledPanel).recordsOf 101 = [] := by
    decide +kernel
  have hafter : (Sample.store (Sample.cancelledPanel ++ [Sample.approve 101 11])).recordsOf 101 =
      [⟨1, 11, Sample.noon, .approved, none⟩] := by
    decide +kernel
  rw [hstore] at hstatus hbefore
  obtain ⟨row, hrow, hcancelled⟩ := Option.map_eq_some_iff.mp hstatus
  refine ⟨d, _, row, hd, hrow, hcancelled, hbefore, hn, hafter, fun hrefused => ?_⟩
  have hsame := hrefused.unchanged _ hn
  rw [hsame, hbefore] at hafter
  cases hafter

end RatelPlatform
