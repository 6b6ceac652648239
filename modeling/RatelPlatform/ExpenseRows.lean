import RatelPlatform.ApprovedExpenses

/-!
# The rows of expenses

An expense row is written once, when its command creates it, and from then on
changes its status and the time of its update only. Together with the limits the
database puts on the amount this decides when an approval goes through, which
`approveExpense_solo` says in full.
-/

namespace RatelPlatform

variable {administration : Administration} {rs : List Request} {d d' : Store} {id : Id}
  {row : ExpenseRow} {env : Env}

/-- Every stored amount is storable. -/
def Store.AmountsStorable (d : Store) : Prop :=
  ∀ id row, d.expenses.lookup id = some row → row.Storable

/-- What a successful command does to the table of expenses. -/
inductive ExpenseCommand.Writes (env : Env) (cmd : ExpenseCommand) (d d' : Store) : Prop
  /-- it changes the status of its row -/
  | update {row : ExpenseRow} (status : ExpenseStatus) (updatedAt : JsDate) :
    d.expenses.lookup (cmd.subject env) = some row →
    d'.expenses = d.expenses.insert (cmd.subject env) { row with status, updatedAt } →
    Writes env cmd d d'
  /-- it creates a row -/
  | insert {row : ExpenseRow} :
    cmd.subject env = env.uuid → row.Storable →
    d'.expenses = d.expenses.insert env.uuid row → Writes env cmd d d'

/-- **A command updates the status of one row, or creates one.** -/
theorem ExpenseCommand.writes {cmd : ExpenseCommand} {a : Unit} (hal : d.RecordsAligned)
    (hfresh : d.Fresh env.uuid) (h : (cmd.program env).solo d = .ok (a, d')) :
    cmd.Writes env d d' := by
  have hnew := Finmap.lookup_eq_none.mpr hfresh.2.1
  cases cmd with
  | create cmd =>
    obtain ⟨_, h⟩ := Tx.solo_discard_ok.mp h
    obtain ⟨row, _, -, -, -, -, -, hstorable, hd'⟩ := createExpense_ok hnew h
    exact .insert rfl hstorable (congrArg Store.expenses hd')
  | submit cmd =>
    obtain ⟨row, hrow, -, -, -, -, hd'⟩ := submitExpense_ok h
    exact .update _ _ hrow (congrArg Store.expenses hd')
  | approve cmd =>
    obtain ⟨row, prow, _, hrow, -, -, -, -, -, -, -, -, hd'⟩ := approveExpense_ok hal h
    have hexpenses := congrArg Store.expenses hd'
    simp only at hexpenses
    split_ifs at hexpenses
    · exact .update _ _ hrow hexpenses
    · exact .update row.status row.updatedAt hrow hexpenses
  | reject cmd =>
    obtain ⟨row, _, hrow, -, -, -, -, -, -, hd'⟩ := rejectExpense_ok hal h
    exact .update _ _ hrow (congrArg Store.expenses hd')
  | cancel cmd =>
    obtain ⟨row, hrow, -, -, -, hd'⟩ := cancelExpense_ok h
    exact .update _ _ hrow (congrArg Store.expenses hd')
  | createAdjustment cmd =>
    obtain ⟨_, h⟩ := Tx.solo_discard_ok.mp h
    obtain ⟨_, _, _, _, -, -, -, -, -, -, hstorable, hd'⟩ := createAdjustment_ok hnew h
    exact .insert rfl hstorable (congrArg Store.expenses hd')

/-- The row after an update: another status, another time. -/
def ExpenseRow.SameBut (row row' : ExpenseRow) : Prop :=
  ∃ status updatedAt, row' = { row with status, updatedAt }

theorem ExpenseRow.SameBut.refl (row : ExpenseRow) : row.SameBut row :=
  ⟨row.status, row.updatedAt, rfl⟩

theorem ExpenseRow.SameBut.trans {row₁ row₂ row₃ : ExpenseRow} (h : row₁.SameBut row₂)
    (h' : row₂.SameBut row₃) : row₁.SameBut row₃ := by
  obtain ⟨_, _, rfl⟩ := h
  obtain ⟨status, updatedAt, rfl⟩ := h'
  exact ⟨status, updatedAt, rfl⟩

/-- The rows of expenses after a request: the rows before it, updated, and at most
one that is new. -/
theorem expenses_next {request : Request} (hwf : d.WellFormed) (hn : next d request = some d') :
    (∀ id row, d.expenses.lookup id = some row →
      ∃ row', d'.expenses.lookup id = some row' ∧ row.SameBut row') ∧
    ∀ id row', d'.expenses.lookup id = some row' →
      (∃ row, d.expenses.lookup id = some row ∧ row.SameBut row') ∨
      (d.expenses.lookup id = none ∧ id = request.env.uuid ∧ row'.Storable) := by
  have same : d'.expenses = d.expenses →
      (∀ id row, d.expenses.lookup id = some row →
        ∃ row', d'.expenses.lookup id = some row' ∧ row.SameBut row') ∧
      ∀ id row', d'.expenses.lookup id = some row' →
        (∃ row, d.expenses.lookup id = some row ∧ row.SameBut row') ∨
        (d.expenses.lookup id = none ∧ id = request.env.uuid ∧ row'.Storable) := by
    intro hsame
    rw [hsame]
    exact ⟨fun id row hrow => ⟨row, hrow, .refl row⟩, fun id row' hrow' =>
      .inl ⟨row', hrow', .refl row'⟩⟩
  obtain ⟨hfresh, ⟨-, rfl⟩ | h⟩ := next_cases hn
  · exact same rfl
  obtain ⟨env, command⟩ := request
  cases command with
  | administer a =>
    obtain ⟨_, hp, rfl⟩ := Tx.solo_exec_ok.mp h
    cases hp
    exact same rfl
  | period cmd =>
    obtain ⟨_, _, rfl⟩ := PeriodCommand.frame h
    exact same rfl
  | payroll cmd =>
    obtain ⟨-, -, hrows, -⟩ :=
      PayrollCommand.frame hwf.aligned (fun _ => Finmap.lookup_eq_none.mpr hfresh.2.2.2) h
    exact same hrows
  | expense cmd =>
    rcases ExpenseCommand.writes hwf.aligned hfresh h with
      ⟨status, updatedAt, hrow, hrows⟩ | ⟨-, hstorable, hrows⟩
    · rw [hrows]
      refine ⟨fun id row₁ hrow₁ => ?_, fun id row' hrow' => ?_⟩
      · rw [Table.lookup_insert_ite]
        split_ifs with hid
        · rw [hid, hrow] at hrow₁
          rw [← Option.some.inj hrow₁]
          exact ⟨_, rfl, status, updatedAt, rfl⟩
        · exact ⟨row₁, hrow₁, .refl row₁⟩
      · obtain ⟨rfl, rfl⟩ | ⟨-, hrow'⟩ := Table.lookup_insert_cases hrow'
        · exact .inl ⟨_, hrow, status, updatedAt, rfl⟩
        · exact .inl ⟨row', hrow', .refl row'⟩
    · have hnew := Finmap.lookup_eq_none.mpr hfresh.2.1
      rw [hrows]
      refine ⟨fun id row₁ hrow₁ => ?_, fun id row' hrow' => ?_⟩
      · rw [Table.lookup_insert_ite, if_neg]
        · exact ⟨row₁, hrow₁, .refl row₁⟩
        · rintro rfl
          cases hnew.symm.trans hrow₁
      · obtain ⟨rfl, rfl⟩ | ⟨-, hrow'⟩ := Table.lookup_insert_cases hrow'
        · exact .inr ⟨hnew, rfl, hstorable⟩
        · exact .inl ⟨row', hrow', .refl row'⟩

/-- A row that is new is that of a creation, or of an adjustment. -/
theorem request_of_new {request : Request} (hwf : d.WellFormed) (hn : next d request = some d')
    (hnone : d.expenses.lookup id = none) (hrow : d'.expenses.lookup id = some row) :
    id = request.env.uuid ∧
      ((∃ cmd a, request.command = .expense (.create cmd) ∧
          (createExpense request.env cmd).solo d = .ok (a, d')) ∨
        ∃ cmd a, request.command = .expense (.createAdjustment cmd) ∧
          (createAdjustment request.env cmd).solo d = .ok (a, d')) := by
  obtain ⟨hfresh, ⟨-, rfl⟩ | h⟩ := next_cases hn
  · cases hnone.symm.trans hrow
  obtain ⟨env, command⟩ := request
  cases command with
  | administer a =>
    obtain ⟨_, hp, rfl⟩ := Tx.solo_exec_ok.mp h
    cases hp
    cases hnone.symm.trans hrow
  | period cmd =>
    obtain ⟨_, _, rfl⟩ := PeriodCommand.frame h
    cases hnone.symm.trans hrow
  | payroll cmd =>
    obtain ⟨-, -, hrows, -⟩ :=
      PayrollCommand.frame hwf.aligned (fun _ => Finmap.lookup_eq_none.mpr hfresh.2.2.2) h
    rw [hrows] at hrow
    cases hnone.symm.trans hrow
  | expense cmd =>
    obtain ⟨-, -, -, ⟨row₁, hrows⟩, -⟩ := ExpenseCommand.frame hwf.aligned hfresh h
    have hid : id = cmd.subject env := by
      by_contra hne
      rw [hrows, Finmap.lookup_insert_of_ne _ hne] at hrow
      cases hnone.symm.trans hrow
    subst hid
    cases cmd with
    | create cmd =>
      obtain ⟨a, h⟩ := Tx.solo_discard_ok.mp h
      exact ⟨rfl, .inl ⟨cmd, a, rfl, h⟩⟩
    | createAdjustment cmd =>
      obtain ⟨a, h⟩ := Tx.solo_discard_ok.mp h
      exact ⟨rfl, .inr ⟨cmd, a, rfl, h⟩⟩
    | submit cmd =>
      obtain ⟨_, hrow₂, -⟩ := submitExpense_ok h
      cases hnone.symm.trans hrow₂
    | approve cmd =>
      obtain ⟨_, _, _, hrow₂, -⟩ := approveExpense_ok hwf.aligned h
      cases hnone.symm.trans hrow₂
    | reject cmd =>
      obtain ⟨_, _, hrow₂, -⟩ := rejectExpense_ok hwf.aligned h
      cases hnone.symm.trans hrow₂
    | cancel cmd =>
      obtain ⟨_, hrow₂, -⟩ := cancelExpense_ok h
      cases hnone.symm.trans hrow₂

/-- In every reachable store the amounts are storable. -/
theorem Runs.amountsStorable (hr : Runs administration rs d) : d.AmountsStorable := by
  have hinv : d.WellFormed ∧ d.AmountsStorable := by
    refine hr.invariant (P := fun d => d.WellFormed ∧ d.AmountsStorable)
      ⟨Store.wellFormed_initial administration, ?_⟩ ?_
    · intro id row hrow
      cases hrow
    · rintro d request d' ⟨hwf, hstorable⟩ - hn
      refine ⟨hwf.next hn, fun id row' hrow' => ?_⟩
      rcases (expenses_next hwf hn).2 id row' hrow' with ⟨row, hrow, _, _, rfl⟩ | ⟨-, -, hnew⟩
      · exact hstorable id row hrow
      · exact hnew
  exact hinv.2

/-! ## When an approval goes through -/

/-- An approval that the engine admits and the expense allows goes through. -/
theorem approveExpense_solo {cmd : ApproveExpenseCommand} {prow : ApprovalProgressRow}
    {step : ApprovalStep} (hal : d.RecordsAligned)
    (hrow : d.expenses.lookup cmd.expenseId = some row) (hstorable : row.Storable)
    (horg : row.organizationId = cmd.organizationId)
    (hopen : d.PeriodIsOpen cmd.organizationId row.periodId)
    (hprow : d.approvalProgress.lookup cmd.expenseId = some prow)
    (hself : row.source.actorId ≠ cmd.approverId)
    (hdup : ¬ ∃ r ∈ prow.records, r.decision = .approved ∧ r.approverId = cmd.approverId)
    (hstep : (ApprovalChain.of prow.chain).stepAt (prow.records.length + 1) = some step)
    (hrole : HoldsRequiredRole step (some row.departmentId)
      (d.administration.rolesOf cmd.approverId))
    (hpending : (ApprovalChain.of prow.chain).isLastStep (prow.records.length + 1) = true →
      row.status = .pendingApproval) :
    ∃ d', (approveExpense env cmd).solo d = .ok ((), d') := by
  have hsaved : ∀ chain, (ApprovalProgressRepository.save cmd.expenseId ⟨cmd.expenseId, chain,
      prow.records ++ [approvalOf env cmd prow]⟩).solo d = .ok ((), _) := fun chain =>
    (ApprovalProgressRepository.save_appended_ok hprow (hal _ _ hprow) rfl).mpr rfl
  simp only [approveExpense, Tx.solo_bind_ok, findExpense_ok, assertPeriodOpen_ok,
    Tx.solo_ofExcept_ok, enqueue_ok]
  by_cases hlast : (ApprovalChain.of prow.chain).isLastStep (prow.records.length + 1) = true
  · refine ⟨_, _, _, ⟨⟨row, hrow, horg, rfl⟩, rfl⟩, (), _, ⟨hopen, rfl⟩, _, _,
      (findProgress_ok hal).mpr ⟨⟨prow, hprow, rfl⟩, rfl⟩, (_, _), _,
      (WorkflowEngine.recordApproval_ok getRolesForUser_solo).mpr
        ⟨hself, hdup, ⟨step, hstep, hrole⟩, rfl, rfl, rfl⟩, _, _,
      ⟨(if_pos hlast).trans (Expense.transition_ok.mpr
        ⟨List.mem_singleton.mpr (hpending hlast), rfl⟩), rfl⟩, (), _, hsaved _, (), _,
      (ExpenseRepository.save_existing_ok hrow).mpr ⟨hstorable.1, hstorable.2, rfl⟩, rfl⟩
  · exact ⟨_, _, _, ⟨⟨row, hrow, horg, rfl⟩, rfl⟩, (), _, ⟨hopen, rfl⟩, _, _,
      (findProgress_ok hal).mpr ⟨⟨prow, hprow, rfl⟩, rfl⟩, (_, _), _,
      (WorkflowEngine.recordApproval_ok getRolesForUser_solo).mpr
        ⟨hself, hdup, ⟨step, hstep, hrole⟩, rfl, rfl, rfl⟩, _, _,
      ⟨if_neg hlast, rfl⟩, (), _, hsaved _, (), _,
      (ExpenseRepository.save_existing_ok hrow).mpr ⟨hstorable.1, hstorable.2, rfl⟩, rfl⟩

end RatelPlatform
