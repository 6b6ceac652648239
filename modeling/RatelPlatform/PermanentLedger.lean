import RatelPlatform.Ledger

/-!
# The ledger is permanent

The transactions of the commands, read for what they keep: each of their statements, and then
each of the commands. So whichever commands are under way at one time, entries are never lost
and never change (`ledger_permanent`).
-/

namespace RatelPlatform

variable {uuid : Id} {finding : Finding} {made begun : Set Id} {s : Standing Store RowLock}
  {α : Type}

/-! ## The statements -/

theorem abides_looks {m : StoreTx α} {Q : α → Standing Store RowLock → Prop}
    (h : Stands uuid finding made begun s) (hm : m.Looks fun _ => True)
    (hQ : ∀ a s', Stands uuid finding made begun s' → Q a s') : m.Abides (ReliesOn uuid) Q s :=
  hm.abides (.refl _ _ _) .trans fun a _ _ hd => hQ a _ (h.since hd)

theorem abides_enqueue {events : List DomainEvent} {Q : Unit → Standing Store RowLock → Prop}
    (h : Stands uuid finding made begun s)
    (hQ : ∀ s', Stands uuid finding made begun s' → Q () s') :
    (enqueue events).Abides (ReliesOn uuid) Q s := by
  simp only [enqueue]
  split_ifs
  · exact hQ s h
  · refine Tx.abides_exec ?_
    rintro d hd q ⟨⟩
    exact hQ _ (h.maintain hd (maintains_outbox events))

theorem abides_nextExpenseNumber {organizationId : Id}
    {Q : String → Standing Store RowLock → Prop} (h : Stands uuid finding made begun s)
    (hQ : ∀ number s', Stands uuid finding made begun s' → Q number s') :
    (ExpenseRepository.nextExpenseNumber organizationId).Abides (ReliesOn uuid) Q s := by
  intro d hd b q hf
  simp only [except_bind_ok, except_pure_ok, Prod.mk.injEq] at hf
  obtain ⟨-, -, rfl, rfl⟩ := hf
  exact hQ _ _ (h.maintain hd (maintains_sequence _ _))

theorem abides_insertPeriod {period : FinancialPeriod} {Q : Unit → Standing Store RowLock → Prop}
    (hid : period.props.id = uuid) (h : Stands uuid finding ∅ begun s)
    (hQ : ∀ s', Stands uuid finding {uuid} begun s' → Q () s') :
    (FinancialPeriodRepository.save period).Abides (ReliesOn uuid) Q s := by
  subst hid
  refine Tx.abides_exec fun d hd q hf => ?_
  rw [if_neg (h.unusedAt hd).1] at hf
  simp only [except_bind_ok, except_pure_ok] at hf
  obtain ⟨-, -, -, -, rfl⟩ := hf
  exact hQ _ (h.create hd (creates_period _))

theorem abides_updatePeriod {period : FinancialPeriod} {Q : Unit → Standing Store RowLock → Prop}
    (h : Stands uuid (.financialPeriod period.props.id) made begun s)
    (hQ : ∀ s', Stands uuid (.financialPeriod period.props.id) made begun s' → Q () s') :
    (FinancialPeriodRepository.save period).Abides (ReliesOn uuid) Q s := by
  refine Tx.abides_exec fun d hd q hf => ?_
  have hmem : period.props.id ∈ (s.patch d).financialPeriods :=
    (h.keeps d hd).financialPeriods.mem (Finding.stable _ hd.keeps h.found)
  rw [if_pos hmem, except_pure_ok] at hf
  subst hf
  refine hQ _ (h.maintain hd (maintains_period ?_))
  exact fun row => rfl

theorem abides_insertExpense {e : Expense} {Q : Unit → Standing Store RowLock → Prop}
    (hid : e.props.id = uuid) (h : Stands uuid finding ∅ begun s)
    (hQ : ∀ s', Stands uuid finding {uuid} begun s' → Q () s') :
    (ExpenseRepository.save e).Abides (ReliesOn uuid) Q s := by
  subst hid
  refine Tx.abides_exec fun d hd q hf => ?_
  rw [if_neg (h.unusedAt hd).2.1] at hf
  simp only [except_bind_ok, except_pure_ok] at hf
  obtain ⟨-, -, -, -, -, -, -, -, rfl⟩ := hf
  exact hQ _ (h.create hd (creates_expense _))

/-- What a save writes of an expense that was loaded. -/
theorem updateRow_sameEntry {row row' : ExpenseRow} {props : ExpenseProps}
    (hprops : row.SameEntry props.toExpenseRow) (hrow : row.SameEntry row') :
    row'.SameEntry (ExpenseRepository.updateRow props row') := by
  have hsame : row'.SameEntry props.toExpenseRow := hrow.symm.trans hprops
  have hcolumn := fun (β : Type) (column : ExpenseRow → β) hcolumn =>
    (hsame.column column hcolumn).symm
  simp only [ExpenseRow.SameEntry, ExpenseRepository.updateRow, ExpenseRow.mk.injEq, true_and,
    and_true]
  exact ⟨hcolumn _ ExpenseRow.amount fun _ _ _ => rfl,
    hcolumn _ ExpenseRow.categoryId fun _ _ _ => rfl,
    hcolumn _ ExpenseRow.vendorId fun _ _ _ => rfl,
    hcolumn _ ExpenseRow.projectId fun _ _ _ => rfl,
    hcolumn _ ExpenseRow.description fun _ _ _ => rfl⟩

/-- **A save of a loaded expense**: whoever has saved it meanwhile has kept its entry. -/
theorem abides_updateExpense {e : Expense} {row : ExpenseRow}
    {Q : Unit → Standing Store RowLock → Prop}
    (h : Stands uuid (.expense e.props.id row) made begun s)
    (hsame : row.SameEntry e.props.toExpenseRow)
    (hQ : ∀ s', Stands uuid (.expense e.props.id row) made begun s' → Q () s') :
    (ExpenseRepository.save e).Abides (ReliesOn uuid) Q s := by
  have hpatched : ∀ d, ReliesOn uuid s.held s.since d →
      ∃ row', (s.patch d).expenses.lookup e.props.id = some row' ∧ row.SameEntry row' :=
    fun d hd => Finding.stable _ (hd.keeps.trans (h.keeps d hd)) h.found
  refine Tx.abides_exec fun d hd q hf => ?_
  have hmem : e.props.id ∈ (s.patch d).expenses := by
    obtain ⟨row', hrow', -⟩ := hpatched d hd
    exact Finmap.mem_of_lookup_eq_some hrow'
  rw [if_pos hmem] at hf
  simp only [except_bind_ok, except_pure_ok] at hf
  obtain ⟨-, -, -, -, rfl⟩ := hf
  refine hQ _ (h.write (q := fun d : Store => { d with
      expenses := Table.update d.expenses e.props.id (ExpenseRepository.updateRow e.props) }) hd
    subset_rfl h.own subset_rfl (fun id hid => .inl (h.locked id hid)) (fun d' hd' _ => ?_)
    (fun d' id _ hu => ⟨hu.1, fun hm => hu.2.1 ((Table.mem_update _ _ _ _).mp hm), hu.2.2⟩)
    fun _ _ _ hp => hp)
  obtain ⟨row', hrow', hrowSame⟩ := hpatched d' (hd.trans (hd'.mono Set.subset_union_left))
  refine { Store.Keeps.refl (s.patch d') with
    expenses := Table.keeps_update .refl fun row₁ hrow₁ => ?_ }
  obtain rfl := Option.some.inj (hrow'.symm.trans hrow₁)
  exact updateRow_sameEntry hsame hrowSame

theorem abides_initializeProgress {itemId : Id} {itemType : String} {chain : ApprovalChain}
    {Q : ApprovalProgress → Standing Store RowLock → Prop} (h : Stands uuid finding made ∅ s)
    (hQ : ∀ progress s', Stands uuid finding made {itemId} s' → Q progress s') :
    (ApprovalProgressRepository.initializeProgress itemId itemType chain).Abides (ReliesOn uuid)
      Q s := by
  refine Tx.abides_bind (Tx.abides_exec fun d hd q hf => ?_)
  simp only [except_bind_ok, ensure_ok, except_pure_ok] at hf
  obtain ⟨-, hnone, rfl⟩ := hf
  exact hQ _ _ (h.begin hd List.mem_cons_self hnone _)

theorem abides_saveProgress {itemId : Id} {progress : ApprovalProgress}
    {Q : Unit → Standing Store RowLock → Prop} (h : Stands uuid finding made begun s)
    (hQ : ∀ s', Stands uuid finding made begun s' → Q () s') :
    (ApprovalProgressRepository.save itemId progress).Abides (ReliesOn uuid) Q s := by
  refine Tx.abides_bind (abides_looks h (fun _ => trivial) fun found s₁ h₁ => ?_)
  refine Tx.abides_bind (Tx.abides_require fun _ => Tx.abides_bind ?_)
  refine abides_looks h₁ (fun _ => trivial) fun existingSteps s₂ h₂ => ?_
  simp only
  split_ifs
  · exact hQ s₂ h₂
  · refine Tx.abides_exec fun d hd q hf => ?_
    simp only [except_bind_ok, except_pure_ok] at hf
    obtain ⟨-, -, rfl⟩ := hf
    refine hQ _ (h₂.maintain hd (maintains_progress ?_))
    exact fun row => ⟨rfl, rfl, List.prefix_append _ _⟩

theorem abides_insertPayslips {runId : Id} {payslips : List PayslipProps}
    {Q : Unit → Standing Store RowLock → Prop} (h : Stands uuid finding made begun s)
    (hQ : ∀ s', Stands uuid finding made begun s' → Q () s') :
    (PayrollRunRepository.insertPayslips runId payslips).Abides (ReliesOn uuid) Q s := by
  induction payslips generalizing s with
  | nil => exact hQ s h
  | cons payslip payslips ih =>
    refine Tx.abides_bind (Tx.abides_exec fun d hd q hf => ?_)
    simp only [except_bind_ok, except_pure_ok] at hf
    obtain ⟨-, -, -, -, -, -, rfl⟩ := hf
    refine ih (h.maintain hd (maintains_run ?_))
    exact fun row => ⟨rfl, List.prefix_append _ _⟩

theorem abides_insertRun {run : PayrollRun} {Q : Unit → Standing Store RowLock → Prop}
    (hid : run.props.id = uuid) (h : Stands uuid finding ∅ begun s)
    (hQ : ∀ s', Stands uuid finding {uuid} begun s' → Q () s') :
    (PayrollRunRepository.save run).Abides (ReliesOn uuid) Q s := by
  subst hid
  refine Tx.abides_bind (Tx.abides_exec fun d hd q hf => Tx.abides_bind ?_)
  rw [if_neg (h.unusedAt hd).2.2] at hf
  simp only [except_bind_ok, except_pure_ok] at hf
  obtain ⟨-, -, rfl⟩ := hf
  exact abides_looks (h.create hd (creates_run _)) (fun _ => trivial) fun _ _ h =>
    abides_insertPayslips h hQ

theorem abides_updateRun {run : PayrollRun} {runId : Id} {Q : Unit → Standing Store RowLock → Prop}
    (hid : run.props.id = runId) (h : Stands uuid (.payrollRun runId) made begun s)
    (hQ : ∀ s', Stands uuid (.payrollRun runId) made begun s' → Q () s') :
    (PayrollRunRepository.save run).Abides (ReliesOn uuid) Q s := by
  subst hid
  refine Tx.abides_bind (Tx.abides_exec fun d hd q hf => Tx.abides_bind ?_)
  have hmem : run.props.id ∈ (s.patch d).payrollRuns :=
    (h.keeps d hd).payrollRuns.mem (Finding.stable _ hd.keeps h.found)
  rw [if_pos hmem, except_pure_ok] at hf
  subst hf
  refine abides_looks (h.maintain hd (maintains_run ?_)) (fun _ => trivial) fun _ _ h =>
    abides_insertPayslips h hQ
  exact fun row => ⟨rfl, List.prefix_refl _⟩

/-! ## The commands -/

/-- In the end, the transaction does what it guarantees. -/
def Fulfils (uuid : Id) (s : Standing Store RowLock) : Prop :=
  ∀ d, ReliesOn uuid s.held s.since d → Guarantees uuid s.held d (s.patch d)

theorem Stands.fulfils (h : Stands uuid finding made begun s) : Fulfils uuid s :=
  fun _ hd => h.guarantees hd

/-- The transaction keeps the ledger. -/
def KeepsLedger (uuid : Id) (d : Store) (m : StoreTx Unit) : Prop :=
  m.Abides (ReliesOn uuid) (fun _ s => Fulfils uuid s) (.start d)

theorem abides_findExpense {expenseId organizationId : Id}
    {Q : Expense → Standing Store RowLock → Prop} (h : Stands uuid finding made begun s)
    (hpatch : s.patch = id) (hQ : ∀ row s', Stands uuid (.expense expenseId row) made begun s' →
      Q (ExpenseRepository.toDomain expenseId row) s') :
    (findExpense expenseId organizationId).Abides (ReliesOn uuid) Q s := by
  obtain ⟨held, patch, since⟩ := s
  obtain rfl : patch = id := hpatch
  refine fun d hd => Tx.abides_orFail fun e he => ?_
  obtain ⟨he, -⟩ := Option.filter_eq_some_iff.mp he
  obtain ⟨row, hrow, rfl⟩ := Option.map_eq_some_iff.mp he
  exact hQ row _ ((h.since hd).find ⟨row, hrow, .refl row⟩)

theorem abides_findPayrollRun {payrollRunId organizationId : Id}
    {Q : PayrollRun → Standing Store RowLock → Prop} (h : Stands uuid finding made begun s)
    (hpatch : s.patch = id) (hQ : ∀ (run : PayrollRun) s', run.props.id = payrollRunId →
      Stands uuid (.payrollRun payrollRunId) made begun s' → Q run s') :
    (findPayrollRun payrollRunId organizationId).Abides (ReliesOn uuid) Q s := by
  obtain ⟨held, patch, since⟩ := s
  obtain rfl : patch = id := hpatch
  refine Tx.abides_bind (Tx.abides_bind fun d hd => ?_)
  rw [Tx.abides_ret]
  dsimp only [id]
  rcases hcolumns : (d.payrollRuns.lookup payrollRunId).map PayrollRunRow.columns with _ | columns
  · exact Tx.abides_orFail fun run hrun => by simp at hrun
  · obtain ⟨row, hrow, rfl⟩ := Option.map_eq_some_iff.mp hcolumns
    have hfound : payrollRunId ∈ d.payrollRuns := Finmap.mem_of_lookup_eq_some hrow
    refine fun d' hd' => Tx.abides_orFail fun run hrun => ?_
    obtain ⟨hrun, -⟩ := Option.filter_eq_some_iff.mp hrun
    obtain rfl := Option.some.inj hrun
    exact hQ _ _ rfl (((h.since hd).find hfound).since hd')

theorem abides_findPeriod {periodId organizationId : Id}
    {Q : FinancialPeriod → Standing Store RowLock → Prop} (h : Stands uuid finding made begun s)
    (hpatch : s.patch = id) (hQ : ∀ (period : FinancialPeriod) s', period.props.id = periodId →
      Stands uuid (.financialPeriod periodId) made begun s' → Q period s') :
    (findPeriod periodId organizationId).Abides (ReliesOn uuid) Q s := by
  obtain ⟨held, patch, since⟩ := s
  obtain rfl : patch = id := hpatch
  refine fun d hd => Tx.abides_orFail fun period hperiod => ?_
  obtain ⟨row, hrow, rfl⟩ := Option.map_eq_some_iff.mp hperiod
  have hfound : periodId ∈ d.financialPeriods :=
    Finmap.mem_of_lookup_eq_some (Option.filter_eq_some_iff.mp hrow).1
  exact hQ _ _ rfl ((h.since hd).find hfound)

/-- The end of most commands: the expense is saved, and its events are enqueued. -/
theorem abides_saveAndEnqueue {e : Expense} {row : ExpenseRow}
    (h : Stands uuid (.expense e.props.id row) made begun s)
    (hsame : row.SameEntry e.props.toExpenseRow) :
    (do
      ExpenseRepository.save e
      enqueue e.domainEvents : StoreTx Unit).Abides (ReliesOn uuid) (fun _ s => Fulfils uuid s) s :=
  Tx.abides_bind (abides_updateExpense h hsame fun _ h => abides_enqueue h fun _ h => h.fulfils)

theorem abides_saveRunAndEnqueue {run : PayrollRun} {runId : Id} (hid : run.props.id = runId)
    (h : Stands uuid (.payrollRun runId) made begun s) :
    (do
      PayrollRunRepository.save run
      enqueue run.domainEvents : StoreTx Unit).Abides (ReliesOn uuid)
        (fun _ s => Fulfils uuid s) s :=
  Tx.abides_bind (abides_updateRun hid h fun _ h => abides_enqueue h fun _ h => h.fulfils)

theorem abides_savePeriodAndEnqueue {period : FinancialPeriod} {periodId : Id}
    (hid : period.props.id = periodId) (h : Stands uuid (.financialPeriod periodId) made begun s) :
    (do
      FinancialPeriodRepository.save period
      enqueue period.domainEvents : StoreTx Unit).Abides (ReliesOn uuid)
        (fun _ s => Fulfils uuid s) s := by
  subst hid
  exact Tx.abides_bind (abides_updatePeriod h fun _ h => abides_enqueue h fun _ h => h.fulfils)

theorem PeriodCommand.keepsLedger (env : Env) (cmd : PeriodCommand) {d : Store}
    (hunused : d.Unused env.uuid) : KeepsLedger env.uuid d (cmd.program env) := by
  have hstart := Stands.start hunused
  cases cmd with
  | «open» cmd =>
    refine Tx.abides_bind (Tx.abides_bind (Tx.abides_ofExcept fun period hperiod => ?_))
    obtain ⟨-, rfl⟩ := FinancialPeriod.create_ok.mp hperiod
    exact Tx.abides_bind (abides_insertPeriod rfl hstart fun _ h =>
      Tx.abides_bind (abides_enqueue h fun _ h => h.fulfils))
  | close cmd =>
    refine Tx.abides_bind (abides_findPeriod hstart rfl fun period _ hid h =>
      Tx.abides_bind (Tx.abides_ofExcept fun period' hclose => ?_))
    obtain ⟨-, rfl⟩ := FinancialPeriod.close_ok.mp hclose
    exact abides_savePeriodAndEnqueue hid h
  | reopen cmd =>
    refine Tx.abides_bind (abides_findPeriod hstart rfl fun period _ hid h =>
      Tx.abides_bind (Tx.abides_ofExcept fun period' hreopen => ?_))
    obtain ⟨-, -, rfl⟩ := FinancialPeriod.reopen_ok.mp hreopen
    exact abides_savePeriodAndEnqueue hid h

theorem ExpenseCommand.keepsLedger (env : Env) (cmd : ExpenseCommand) {d : Store}
    (hunused : d.Unused env.uuid) : KeepsLedger env.uuid d (cmd.program env) := by
  have hstart := Stands.start hunused
  cases cmd with
  | create cmd =>
    refine Tx.abides_bind (Tx.abides_bind (abides_looks hstart
      (looks_requireOpenPeriod fun _ => trivial) fun openPeriod _ h => Tx.abides_bind
      (abides_looks h (looks_assertActive trivial) fun _ _ h => Tx.abides_bind
      (abides_looks h (looks_assertActive trivial) fun _ _ h => Tx.abides_bind
      (abides_looks h (looks_assertActiveIfGiven trivial) fun _ _ h => Tx.abides_bind
      (abides_looks h (looks_assertActiveIfGiven trivial) fun _ _ h => Tx.abides_bind
      (abides_nextExpenseNumber h fun number _ h => Tx.abides_bind
      (Tx.abides_ofExcept fun amount _ => Tx.abides_bind
      (Tx.abides_ofExcept fun expense hcreate => ?_)))))))))
    obtain ⟨-, rfl⟩ := Expense.create_ok.mp hcreate
    exact Tx.abides_bind (abides_insertExpense rfl h fun _ h => Tx.abides_bind
      (abides_enqueue h fun _ h => h.fulfils))
  | submit cmd =>
    refine Tx.abides_bind (abides_findExpense hstart rfl fun row _ h => Tx.abides_bind
      (abides_looks h looks_assertPeriodOpen fun _ _ h => Tx.abides_bind
      (Tx.abides_ofExcept fun submitted hsubmit => ?_)))
    obtain ⟨-, rfl⟩ := Expense.transition_ok.mp hsubmit
    refine Tx.abides_bind ?_
    simp only [startApproval]
    split_ifs
    · refine Tx.abides_ofExcept fun expense hexpense => ?_
      obtain ⟨-, rfl⟩ := Expense.transition_ok.mp hexpense
      exact abides_saveAndEnqueue h rfl
    · exact Tx.abides_bind (abides_initializeProgress h fun _ _ h => abides_saveAndEnqueue h rfl)
  | approve cmd =>
    refine Tx.abides_bind (abides_findExpense hstart rfl fun row _ h => Tx.abides_bind
      (abides_looks h looks_assertPeriodOpen fun _ _ h => Tx.abides_bind
      (abides_looks h looks_findProgress fun progress _ h => Tx.abides_bind
      (abides_looks h looks_recordApproval fun decided _ h => Tx.abides_bind
      (Tx.abides_ofExcept fun expense hexpense => ?_)))))
    refine Tx.abides_bind (abides_saveProgress h fun _ h => ?_)
    split_ifs at hexpense
    · obtain ⟨-, rfl⟩ := Expense.transition_ok.mp hexpense
      exact abides_saveAndEnqueue h rfl
    · -- an approval that is not the last one
      cases hexpense
      exact abides_saveAndEnqueue h rfl
  | reject cmd =>
    refine Tx.abides_bind (abides_findExpense hstart rfl fun row _ h => Tx.abides_bind
      (abides_looks h looks_assertPeriodOpen fun _ _ h => Tx.abides_bind
      (abides_looks h looks_findProgress fun progress _ h => Tx.abides_bind
      (abides_looks h looks_recordRejection fun decided _ h => Tx.abides_bind
      (Tx.abides_ofExcept fun expense hexpense => ?_)))))
    obtain ⟨-, rfl⟩ := Expense.transition_ok.mp hexpense
    exact Tx.abides_bind (abides_saveProgress h fun _ h => abides_saveAndEnqueue h rfl)
  | cancel cmd =>
    refine Tx.abides_bind (abides_findExpense hstart rfl fun row _ h => Tx.abides_bind
      (abides_looks h looks_assertPeriodOpen fun _ _ h => Tx.abides_bind
      (Tx.abides_ofExcept fun expense hexpense => ?_)))
    obtain ⟨-, rfl⟩ := Expense.transition_ok.mp hexpense
    exact abides_saveAndEnqueue h rfl
  | createAdjustment cmd =>
    refine Tx.abides_bind (Tx.abides_bind (abides_looks hstart
      (looks_requireOpenPeriod fun _ => trivial) fun openPeriod _ h => Tx.abides_bind
      (abides_looks h (looks_findExpense fun _ _ => trivial) fun original _ h => Tx.abides_bind
      (abides_nextExpenseNumber h fun number _ h => Tx.abides_bind
      (Tx.abides_ofExcept fun adjustment hadjustment => ?_)))))
    obtain ⟨-, -, -, rfl⟩ := Expense.createAdjustment_ok.mp hadjustment
    refine Tx.abides_bind (abides_insertExpense rfl h fun _ h => Tx.abides_bind ?_)
    simp only [startAdjustmentApproval]
    split_ifs
    · exact Tx.abides_bind (abides_initializeProgress h fun _ _ h =>
        Tx.abides_bind (abides_enqueue h fun _ h => h.fulfils))
    · exact Tx.abides_bind (abides_enqueue h fun _ h => h.fulfils)

theorem PayrollCommand.keepsLedger (env : Env) (cmd : PayrollCommand) {d : Store}
    (hunused : d.Unused env.uuid) : KeepsLedger env.uuid d (cmd.program env) := by
  have hstart := Stands.start hunused
  cases cmd with
  | create cmd =>
    exact Tx.abides_bind (Tx.abides_bind (abides_looks hstart
      (looks_requireOpenPeriod fun _ => trivial) fun openPeriod _ h => Tx.abides_bind
      (abides_looks h (fun _ => trivial) fun existing _ h => Tx.abides_bind
      (Tx.abides_require fun _ => Tx.abides_bind
      (abides_insertRun rfl h fun _ h => Tx.abides_bind
      (abides_enqueue h fun _ h => h.fulfils))))))
  | addPayslip cmd =>
    refine Tx.abides_bind (Tx.abides_bind (abides_findPayrollRun hstart rfl fun run _ hid h =>
      Tx.abides_bind (abides_looks h looks_assertPeriodOpen fun _ _ h => Tx.abides_bind
      (abides_looks h (fun _ => trivial) fun structure? _ h => Tx.abides_bind
      (Tx.abides_orFail fun salaryStructure _ => Tx.abides_bind
      (Tx.abides_ofExcept fun tax _ => Tx.abides_bind
      (Tx.abides_ofExcept fun payslip _ => Tx.abides_bind
      (Tx.abides_ofExcept fun run' hrun => ?_))))))))
    obtain ⟨-, -, rfl⟩ := PayrollRun.addPayslip_ok.mp hrun
    exact Tx.abides_bind (abides_updateRun hid h fun _ h => Tx.abides_bind
      (abides_enqueue h fun _ h => h.fulfils))
  | submit cmd =>
    refine Tx.abides_bind (abides_findPayrollRun hstart rfl fun run _ hid h => Tx.abides_bind
      (abides_looks h looks_assertPeriodOpen fun _ _ h => Tx.abides_bind
      (Tx.abides_ofExcept fun run' hrun => Tx.abides_bind
      (Tx.abides_ofExcept fun approvable _ => ?_))))
    obtain ⟨-, -, rfl⟩ := PayrollRun.submitForApproval_ok.mp hrun
    exact Tx.abides_bind (abides_initializeProgress h fun _ _ h => abides_saveRunAndEnqueue hid h)
  | approve cmd =>
    refine Tx.abides_bind (abides_findPayrollRun hstart rfl fun run _ hid h => Tx.abides_bind
      (abides_looks h looks_assertPeriodOpen fun _ _ h => Tx.abides_bind
      (abides_looks h looks_findProgress fun progress _ h => Tx.abides_bind
      (Tx.abides_ofExcept fun approvable _ => Tx.abides_bind
      (abides_looks h looks_recordApproval fun decided _ h => Tx.abides_bind
      (Tx.abides_ofExcept fun run' hrun => ?_))))))
    refine Tx.abides_bind (abides_saveProgress h fun _ h => abides_saveRunAndEnqueue ?_ h)
    split_ifs at hrun
    · obtain ⟨-, rfl⟩ := PayrollRun.approve_ok.mp hrun
      exact hid
    · cases hrun
      exact hid
  | reject cmd =>
    refine Tx.abides_bind (abides_findPayrollRun hstart rfl fun run _ hid h => Tx.abides_bind
      (abides_looks h looks_assertPeriodOpen fun _ _ h => Tx.abides_bind
      (abides_looks h looks_findProgress fun progress _ h => Tx.abides_bind
      (Tx.abides_ofExcept fun approvable _ => Tx.abides_bind
      (abides_looks h looks_recordRejection fun decided _ h => Tx.abides_bind
      (Tx.abides_ofExcept fun run' hrun => ?_))))))
    obtain ⟨-, rfl⟩ := PayrollRun.transition_ok.mp hrun
    exact Tx.abides_bind (abides_saveProgress h fun _ h => abides_saveRunAndEnqueue hid h)
  | cancel cmd =>
    refine Tx.abides_bind (abides_findPayrollRun hstart rfl fun run _ hid h => Tx.abides_bind
      (Tx.abides_ofExcept fun run' hrun => ?_))
    obtain ⟨-, rfl⟩ := PayrollRun.transition_ok.mp hrun
    exact abides_saveRunAndEnqueue hid h
  | process cmd =>
    refine Tx.abides_bind (abides_findPayrollRun hstart rfl fun run _ hid h => Tx.abides_bind
      (Tx.abides_ofExcept fun started hstarted => Tx.abides_bind
      (Tx.abides_ofExcept fun run' hrun => ?_)))
    obtain ⟨-, rfl⟩ := PayrollRun.transition_ok.mp hstarted
    obtain ⟨-, rfl⟩ := PayrollRun.transition_ok.mp hrun
    exact abides_saveRunAndEnqueue hid h

theorem maintains_administration (administration : Administration) :
    Maintains fun d : Store => { d with administration } where
  keeps d := { Store.Keeps.refl d with }
  unused _ _ h := h
  progress _ _ h := h

theorem Command.keepsLedger (env : Env) (cmd : Command) {d : Store}
    (hunused : d.Unused env.uuid) : KeepsLedger env.uuid d (cmd.program env) := by
  cases cmd with
  | administer administration =>
    refine Tx.abides_exec ?_
    rintro d' hd q ⟨⟩
    exact ((Stands.start hunused).maintain hd (maintains_administration administration)).fulfils
  | period cmd => exact cmd.keepsLedger env hunused
  | expense cmd => exact cmd.keepsLedger env hunused
  | payroll cmd => exact cmd.keepsLedger env hunused

/-! ## The ledger -/

/-- The sessions of requests that draw unused, different ids. -/
theorem kept_requests {d₀ : Store} {requests : ℕ → Request}
    (hunused : ∀ i, d₀.Unused (requests i).env.uuid)
    (hdistinct : ∀ i j, (requests i).env.uuid = (requests j).env.uuid → i = j) :
    (ledgerPact (fun i => (requests i).env.uuid) hdistinct).Kept
      (System.init d₀ fun i => (requests i).command.program (requests i).env) :=
  .init fun i => (requests i).command.keepsLedger (requests i).env (hunused i)

/-- One turn. -/
theorem keeps_of_next {uuids : ℕ → Id} {hdistinct : ∀ i j, uuids i = uuids j → i = j}
    {σ σ' : System Store RowLock Failure Unit} {turn : Turn}
    (h : (ledgerPact uuids hdistinct).Kept σ) (hn : σ.next turn = some σ') :
    (ledgerPact uuids hdistinct).Kept σ' ∧ σ.db.Keeps σ'.db := by
  obtain ⟨h', hdb⟩ := h.next hn
  refine ⟨h', ?_⟩
  rcases hdb with hdb | ⟨i, held, hguarantee⟩
  · rw [hdb]
    exact .refl σ.db
  · exact hguarantee.keeps

/-- **The ledger is permanent**: whichever commands are made at one time, and however their
statements interleave, fail or are cut off, what is committed once is kept by every later
state: of an expense all but its status and the time of its update, of a payroll run all but
its status and approval, with every payslip it has, of a period all but its status and closing,
of an approval its chain and its decisions, and the events of the outbox in their order. -/
theorem ledger_permanent {d₀ : Store} {requests : ℕ → Request}
    (hunused : ∀ i, d₀.Unused (requests i).env.uuid)
    (hdistinct : ∀ i j, (requests i).env.uuid = (requests j).env.uuid → i = j)
    {ok ok' : System Store RowLock Failure Unit → Turn → Prop} {turns turns' : List Turn}
    {σ σ' : System Store RowLock Failure Unit}
    (hr : Reaches System.next ok
      (System.init d₀ fun i => (requests i).command.program (requests i).env) turns σ)
    (hr' : Reaches System.next ok' σ turns' σ') : σ.db.Keeps σ'.db := by
  have hkept : (ledgerPact (fun i => (requests i).env.uuid) hdistinct).Kept σ :=
    hr.invariant (kept_requests hunused hdistinct) fun _ _ _ h _ hn => (keeps_of_next h hn).1
  have hboth := hr'.invariant (P := fun τ =>
    (ledgerPact (fun i => (requests i).env.uuid) hdistinct).Kept τ ∧ σ.db.Keeps τ.db)
    ⟨hkept, .refl σ.db⟩ fun _ _ _ h _ hn =>
      ⟨(keeps_of_next h.1 hn).1, h.2.trans (keeps_of_next h.1 hn).2⟩
  exact hboth.2

namespace Sample

/-- January, and an expense that four have to approve. -/
def reviewedStore : Store := store [openJanuary, create 101 600000000, submit 101]

/-- The expense is approved by 11, and cancelled by user 10. -/
def approvalAndCancellation (i : ℕ) : Request :=
  request (1000 + i) (if i = 0 then .expense (.approve ⟨101, 1, 11⟩)
    else .expense (.cancel ⟨101, 1, 10⟩))

theorem reviewedStore_unused (i : ℕ) :
    reviewedStore.Unused (approvalAndCancellation i).env.uuid := by
  have hkeys : reviewedStore.financialPeriods.keys = {100} ∧ reviewedStore.expenses.keys = {101} ∧
      reviewedStore.payrollRuns.keys = ∅ := by
    decide +kernel
  have hne : ∀ n : ℕ, n < 1000 → (approvalAndCancellation i).env.uuid ≠ n := by
    rintro n hn rfl
    exact absurd hn (Nat.not_lt.mpr (Nat.le_add_right 1000 i))
  simp only [Store.Unused, ← Finmap.mem_keys, hkeys, Finset.mem_singleton, Finset.notMem_empty]
  exact ⟨hne 100 (by decide), hne 101 (by decide), not_false⟩

end Sample

/-- An approval that was under way saves the expense once it has been cancelled: the status is
overwritten, the entry is kept. -/
theorem ledger_permanent_sample : ∃ σ σ' : System Store RowLock Failure Unit,
    (σ.db.expenses.lookup 101).map ExpenseRow.status = some .cancelled ∧
      (σ'.db.expenses.lookup 101).map ExpenseRow.status = some .pendingApproval ∧
        σ.db.Keeps σ'.db := by
  have hrun : ((runLabels System.next (System.init Sample.reviewedStore fun i =>
      (Sample.approvalAndCancellation i).command.program (Sample.approvalAndCancellation i).env)
        (List.replicate 3 (.step 0) ++ List.replicate 5 (.step 1))).map fun σ =>
          ((σ.db.expenses.lookup 101).map ExpenseRow.status,
            (runLabels System.next σ (List.replicate 8 (.step 0))).map fun σ' =>
              (σ'.db.expenses.lookup 101).map ExpenseRow.status)) =
        some (some .cancelled, some (some .pendingApproval)) := by
    decide +kernel
  obtain ⟨σ, hσ, hstatus⟩ := Option.map_eq_some_iff.mp hrun
  obtain ⟨hcancelled, hstatus⟩ := Prod.mk.inj hstatus
  obtain ⟨σ', hσ', hpending⟩ := Option.map_eq_some_iff.mp hstatus
  exact ⟨σ, σ', hcancelled, hpending, ledger_permanent Sample.reviewedStore_unused
    (fun i j h => Nat.add_left_cancel h) (reaches_of_runLabels hσ) (reaches_of_runLabels hσ')⟩

end RatelPlatform
