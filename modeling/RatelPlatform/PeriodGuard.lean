import RatelPlatform.Commands

/-!
# Changes in closed periods

A closed period is meant to be frozen: no expense, payroll run or payslip of it
changes, and none is created in it. The handlers check this one by one. All of
them do, but the two that cancel and process a payroll run; a run of commands
keeps to the rule exactly when neither of these reaches a run of a period that is
not open (`period_guarded_iff`).
-/

namespace RatelPlatform

/-- The period is open, whosever it is. -/
def Store.PeriodOpen (d : Store) (periodId : Id) : Prop :=
  ∃ row ∈ d.financialPeriods.lookup periodId, row.status ∈ PeriodStatus.openStatuses

instance (d : Store) (periodId : Id) : Decidable (d.PeriodOpen periodId) :=
  inferInstanceAs (Decidable (∃ row ∈ d.financialPeriods.lookup periodId, _))

theorem Store.PeriodIsOpen.periodOpen {d : Store} {organizationId periodId : Id}
    (h : d.PeriodIsOpen organizationId periodId) : d.PeriodOpen periodId := by
  obtain ⟨row, hrow, -, hstatus⟩ := h
  exact ⟨row, hrow, hstatus⟩

/-! ## Guarded changes of a table -/

section GuardedTable

variable {ρ : Type} {isOpen : ρ → Prop} {t : Table Id ρ} {k : Id} {row row' : ρ}

/-- Every row that changes was open before, and every row that is new is open. -/
def GuardedTable (isOpen : ρ → Prop) (t t' : Table Id ρ) : Prop :=
  ∀ id, t'.lookup id ≠ t.lookup id →
    ∃ row, (t.lookup id = some row ∨ t.lookup id = none ∧ t'.lookup id = some row) ∧ isOpen row

theorem GuardedTable.refl (t : Table Id ρ) : GuardedTable isOpen t t :=
  fun _ h => absurd rfl h

theorem GuardedTable.change (hrow : t.lookup k = some row) (hopen : isOpen row) :
    GuardedTable isOpen t (t.insert k row') := by
  intro id hid
  rw [Table.lookup_insert_ite] at hid
  split_ifs at hid with hk
  · subst hk
    exact ⟨row, .inl hrow, hopen⟩
  · exact absurd rfl hid

theorem GuardedTable.create (hnew : t.lookup k = none) (hopen : isOpen row') :
    GuardedTable isOpen t (t.insert k row') := by
  intro id hid
  rw [Table.lookup_insert_ite] at hid
  split_ifs at hid with hk
  · subst hk
    exact ⟨row', .inr ⟨hnew, Finmap.lookup_insert _⟩, hopen⟩
  · exact absurd rfl hid

/-- A change of a row that is not open is not guarded. -/
theorem not_guardedTable {t' : Table Id ρ} (hrow : t.lookup k = some row)
    (hrow' : t'.lookup k = some row') (hne : row' ≠ row) (hclosed : ¬ isOpen row) :
    ¬ GuardedTable isOpen t t' := by
  intro h
  have hchanged : t'.lookup k ≠ t.lookup k := by
    rw [hrow, hrow']
    exact fun he => hne (Option.some.inj he)
  obtain ⟨row₁, hcases, hopen⟩ := h k hchanged
  rcases hcases with hold | ⟨hnone, -⟩
  · obtain rfl := Option.some.inj (hrow.symm.trans hold)
    exact hclosed hopen
  · rw [hrow] at hnone
    cases hnone

/-- A row that changes has to be open. -/
theorem guardedTable_change_iff (hrow : t.lookup k = some row) (hne : row' ≠ row) :
    GuardedTable isOpen t (t.insert k row') ↔ isOpen row := by
  refine ⟨?_, ?_⟩
  · intro h
    by_contra hclosed
    exact not_guardedTable hrow (Finmap.lookup_insert _) hne hclosed h
  · exact .change hrow

end GuardedTable

/-! ## Guarded steps -/

/-- Between the two stores, expenses and payroll runs (with their payslips)
changed or appeared in open periods only. -/
structure PeriodGuarded (d d' : Store) : Prop where
  expenses : GuardedTable (fun row : ExpenseRow => d.PeriodOpen row.periodId) d.expenses d'.expenses
  payrollRuns : GuardedTable (fun row : PayrollRunRow => d.PeriodOpen row.columns.periodId)
    d.payrollRuns d'.payrollRuns

variable {d d' : Store} {env : Env} {a : Unit}

/-- Every expense command is guarded. -/
theorem PeriodGuarded.expense {cmd : ExpenseCommand} (hal : d.RecordsAligned)
    (hfresh : d.Fresh env.uuid) (h : (cmd.program env).solo d = .ok (a, d')) :
    PeriodGuarded d d' := by
  have hnew := Finmap.lookup_eq_none.mpr hfresh.2.1
  cases cmd with
  | create cmd =>
    obtain ⟨_, h⟩ := Tx.solo_discard_ok.mp h
    obtain ⟨row, _, hopen, -, -, -, -, -, rfl⟩ := createExpense_ok hnew h
    exact ⟨.create hnew hopen.periodOpen, .refl _⟩
  | submit cmd =>
    obtain ⟨row, hrow, -, hopen, -, -, rfl⟩ := submitExpense_ok h
    exact ⟨.change hrow hopen.periodOpen, .refl _⟩
  | approve cmd =>
    obtain ⟨row, _, _, hrow, -, hopen, -, -, -, -, -, -, rfl⟩ := approveExpense_ok hal h
    exact ⟨.change hrow hopen.periodOpen, .refl _⟩
  | reject cmd =>
    obtain ⟨row, _, hrow, -, hopen, -, -, -, -, rfl⟩ := rejectExpense_ok hal h
    exact ⟨.change hrow hopen.periodOpen, .refl _⟩
  | cancel cmd =>
    obtain ⟨row, hrow, -, hopen, -, rfl⟩ := cancelExpense_ok h
    exact ⟨.change hrow hopen.periodOpen, .refl _⟩
  | createAdjustment cmd =>
    obtain ⟨_, h⟩ := Tx.solo_discard_ok.mp h
    obtain ⟨_, _, _, _, -, -, hopen, -, -, -, -, rfl⟩ := createAdjustment_ok hnew h
    exact ⟨.create hnew hopen.periodOpen, .refl _⟩

/-- The row a cancellation or the processing of a run changes, when the command
takes effect: these two handlers do not ask for the period. -/
def PayrollCommand.unchecked (d : Store) : PayrollCommand → Option PayrollRunRow
  | cancel cmd => (d.payrollRuns.lookup cmd.payrollRunId).filter fun row =>
      row.columns.organizationId = cmd.organizationId ∧
        row.columns.status ∈ [PayrollRunStatus.draft, .pendingApproval]
  | process cmd => (d.payrollRuns.lookup cmd.payrollRunId).filter fun row =>
      row.columns.organizationId = cmd.organizationId ∧ row.columns.status = .approved
  | _ => none

/-- A command that asks for the period has nothing unchecked to answer for. -/
theorem periodGuarded_iff_of_checked {cmd : PayrollCommand} (h : PeriodGuarded d d')
    (hchecked : cmd.unchecked d = none) :
    PeriodGuarded d d' ↔ ∀ row ∈ cmd.unchecked d, d.PeriodOpen row.columns.periodId := by
  rw [hchecked]
  exact iff_of_true h fun _ hrow => (Option.not_mem_none _ hrow).elim

/-- A run that changes its status unchecked. -/
theorem periodGuarded_withStatus_iff {cmd : PayrollCommand} {id : Id} {row : PayrollRunRow}
    {status : PayrollRunStatus} {outbox : List DomainEvent}
    (hrow : d.payrollRuns.lookup id = some row) (hunchecked : cmd.unchecked d = some row)
    (hne : row.columns.status ≠ status) :
    PeriodGuarded d { d with
        payrollRuns := d.payrollRuns.insert id (row.withStatus status)
        outbox } ↔
      ∀ row ∈ cmd.unchecked d, d.PeriodOpen row.columns.periodId := by
  have hchanged : row.withStatus status ≠ row := fun he =>
    hne (congrArg (fun row => row.columns.status) he).symm
  have hiff : GuardedTable (fun row : PayrollRunRow => d.PeriodOpen row.columns.periodId)
      d.payrollRuns (d.payrollRuns.insert id (row.withStatus status)) ↔
        d.PeriodOpen row.columns.periodId :=
    guardedTable_change_iff hrow hchanged
  rw [hunchecked]
  refine ⟨?_, ?_⟩
  · intro hguarded row' hrow'
    obtain rfl := Option.some.inj hrow'
    exact hiff.mp hguarded.payrollRuns
  · intro hopen
    exact ⟨.refl _, hiff.mpr (hopen row rfl)⟩

/-- **A payroll command is guarded** unless it is one of the two, on a run whose
period is not open. -/
theorem periodGuarded_payroll_iff {cmd : PayrollCommand} (hal : d.RecordsAligned)
    (hfresh : d.Fresh env.uuid) (h : (cmd.program env).solo d = .ok (a, d')) :
    PeriodGuarded d d' ↔ ∀ row ∈ cmd.unchecked d, d.PeriodOpen row.columns.periodId := by
  cases cmd with
  | create cmd =>
    obtain ⟨_, h⟩ := Tx.solo_discard_ok.mp h
    have hnew := Finmap.lookup_eq_none.mpr hfresh.2.2.2
    obtain ⟨_, hopen, rfl⟩ := createPayrollRun_ok hnew h
    exact periodGuarded_iff_of_checked ⟨.refl _, .create hnew hopen.periodOpen⟩ rfl
  | addPayslip cmd =>
    obtain ⟨_, h⟩ := Tx.solo_discard_ok.mp h
    obtain ⟨_, _, hrow, -, hopen, -, -, -, rfl⟩ := addPayslip_ok h
    exact periodGuarded_iff_of_checked ⟨.refl _, .change hrow hopen.periodOpen⟩ rfl
  | submit cmd =>
    obtain ⟨_, hrow, -, hopen, -, -, -, -, rfl⟩ := (@submitPayrollRun_ok env _ _ _ _).mp h
    exact periodGuarded_iff_of_checked ⟨.refl _, .change hrow hopen.periodOpen⟩ rfl
  | approve cmd =>
    obtain ⟨_, _, _, hrow, -, hopen, -, -, -, -, -, -, -, rfl⟩ := (approvePayrollRun_ok hal).mp h
    exact periodGuarded_iff_of_checked ⟨.refl _, .change hrow hopen.periodOpen⟩ rfl
  | reject cmd =>
    obtain ⟨_, _, hrow, -, hopen, -, -, -, -, rfl⟩ := rejectPayrollRun_ok hal h
    exact periodGuarded_iff_of_checked ⟨.refl _, .change hrow hopen.periodOpen⟩ rfl
  | cancel cmd =>
    obtain ⟨row, hrow, horg, hstatus, rfl⟩ := (@cancelPayrollRun_ok env _ _ _ _).mp h
    refine periodGuarded_withStatus_iff hrow ?_ fun hs => ?_
    · rw [PayrollCommand.unchecked, hrow, Option.filter_some, if_pos]
      exact decide_eq_true ⟨horg, hstatus⟩
    · rw [hs] at hstatus
      exact absurd hstatus (by decide)
  | process cmd =>
    obtain ⟨row, hrow, horg, hstatus, rfl⟩ := (@processPayrollRun_ok env _ _ _ _).mp h
    refine periodGuarded_withStatus_iff hrow ?_ fun hs => ?_
    · rw [PayrollCommand.unchecked, hrow, Option.filter_some, if_pos]
      exact decide_eq_true ⟨horg, hstatus⟩
    · rw [hs] at hstatus
      cases hstatus

/-- A request whose transaction commits a change to a run of a period that is not
open: an effective cancellation or processing. -/
def Request.BypassesPeriod (d : Store) (r : Request) : Prop :=
  match r.command with
  | .payroll cmd => ∃ row ∈ cmd.unchecked d, ¬ d.PeriodOpen row.columns.periodId
  | _ => False

/-- A failing command leaves nothing unchecked behind. -/
theorem unchecked_of_error {cmd : PayrollCommand} {e : Failure}
    (h : (cmd.program env).solo d = .error e) : cmd.unchecked d = none := by
  rw [Option.eq_none_iff_forall_ne_some]
  intro row hrow
  cases cmd with
  | cancel cmd =>
    rw [PayrollCommand.unchecked, Option.filter_eq_some_iff] at hrow
    obtain ⟨hrow, hpred⟩ := hrow
    obtain ⟨horg, hstatus⟩ := of_decide_eq_true hpred
    have hok := (@cancelPayrollRun_ok env cmd _ _ ()).mpr ⟨row, hrow, horg, hstatus, rfl⟩
    cases h.symm.trans hok
  | process cmd =>
    rw [PayrollCommand.unchecked, Option.filter_eq_some_iff] at hrow
    obtain ⟨hrow, hpred⟩ := hrow
    obtain ⟨horg, hstatus⟩ := of_decide_eq_true hpred
    have hok := (@processPayrollRun_ok env cmd _ _ ()).mpr ⟨row, hrow, horg, hstatus, rfl⟩
    cases h.symm.trans hok
  | _ => cases hrow

/-- **One request** is guarded unless it bypasses the period. -/
theorem periodGuarded_next_iff {r : Request} (hwf : d.WellFormed) (hn : next d r = some d') :
    PeriodGuarded d d' ↔ ¬ r.BypassesPeriod d := by
  obtain ⟨hfresh, ⟨⟨e, herror⟩, rfl⟩ | h⟩ := next_cases hn
  · refine iff_of_true ⟨.refl _, .refl _⟩ ?_
    obtain ⟨env, command⟩ := r
    cases command with
    | payroll cmd =>
      rintro ⟨row, hrow, -⟩
      rw [unchecked_of_error herror] at hrow
      cases hrow
    | _ => exact id
  obtain ⟨env, command⟩ := r
  cases command with
  | administer administration =>
    obtain ⟨_, hp, rfl⟩ := Tx.solo_exec_ok.mp h
    cases hp
    exact iff_of_true ⟨.refl _, .refl _⟩ id
  | period cmd =>
    obtain ⟨_, _, rfl⟩ := PeriodCommand.frame h
    exact iff_of_true ⟨.refl _, .refl _⟩ id
  | expense cmd => exact iff_of_true (.expense hwf.aligned hfresh h) id
  | payroll cmd =>
    rw [periodGuarded_payroll_iff hwf.aligned hfresh h]
    simp only [Request.BypassesPeriod, not_exists, not_and, not_not]

/-! ## The result -/

/-- **When a run keeps closed periods frozen**: every step of it is guarded
exactly when no step is an effective cancellation or processing of a payroll run
whose period is not open. -/
theorem period_guarded_iff {administration : Administration} {rs : List Request}
    (hr : Runs administration rs d) :
    (∀ before r after t u, rs = before ++ r :: after → Runs administration before t →
      next t r = some u → PeriodGuarded t u) ↔
    ∀ before r after t, rs = before ++ r :: after → Runs administration before t →
      ¬ r.BypassesPeriod t := by
  refine ⟨?_, ?_⟩
  · intro hguarded before r after t hrs ht
    -- the run goes on from `t`, so the request is enabled there
    obtain ⟨u, hn⟩ : ∃ u, next t r = some u := by
      have hall := hr.runLabels_eq
      rw [hrs, runLabels_append, ht.runLabels_eq, Option.bind_some] at hall
      obtain ⟨u, hn, -⟩ := Option.bind_eq_some_iff.mp hall
      exact ⟨u, hn⟩
    exact (periodGuarded_next_iff (Runs.wellFormed ht) hn).mp (hguarded before r after t u hrs ht hn)
  · intro hbypass before r after t u hrs ht hn
    exact (periodGuarded_next_iff (Runs.wellFormed ht) hn).mpr (hbypass before r after t hrs ht)

/-- A payroll run is created in January, and January is closed. -/
def Sample.closedJanuary : List Request := [openJanuary, createRun 201, closeJanuary]

/-- In January one payroll run is processed, another one cancelled and an expense entered. After
January is closed, the expense can neither be submitted nor another one entered, no run can be
created, and neither of the two cancelled any more. -/
def Sample.frozenJanuary : List Request :=
  [openJanuary, createRun 201, payslipFor 301 201 20, submitRun 201, approveRun 201 14,
    processRun 201, request 202 (.payroll (.create ⟨1, nextMonth, 15⟩)), cancelRun 202,
    create 101 1000, closeJanuary, submit 101, create 102 500, createRun 203, cancelRun 201,
    cancelRun 202]

/-- Whatever changes unchecked is of an open period. -/
def Sample.keepsPeriod (d : Store) (r : Request) : Bool :=
  match r.command with
  | .payroll cmd => (cmd.unchecked d).all fun row => d.PeriodOpen row.columns.periodId
  | _ => true

theorem Sample.not_bypassesPeriod (d : Store) (r : Request) (h : keepsPeriod d r) :
    ¬ r.BypassesPeriod d := by
  obtain ⟨env, command⟩ := r
  cases command with
  | payroll cmd =>
    rintro ⟨row, hrow, hclosed⟩
    simp only [keepsPeriod, Option.mem_def.mp hrow, Option.all_some, decide_eq_true_eq] at h
    exact hclosed h
  | _ => exact id

/-- January is frozen: the requests after its end are refused. -/
theorem period_guarded_iff_sample : ∃ d, Runs Sample.administration Sample.frozenJanuary d ∧
    ([201, 202].map fun id => (d.payrollRuns.lookup id).map fun row => row.columns.status) =
      [some .completed, some .cancelled] ∧
    ([101, 102].map fun id => (d.expenses.lookup id).map ExpenseRow.status) =
      [some .draft, none] ∧
    ∀ before r after t u, Sample.frozenJanuary = before ++ r :: after →
      Runs Sample.administration before t → next t r = some u → PeriodGuarded t u := by
  have hr := Sample.runs (show (runLabels next (.initial Sample.administration)
    Sample.frozenJanuary).isSome by decide +kernel)
  obtain ⟨_, hok⟩ : ∃ d, Reaches next (fun d r => ¬ r.BypassesPeriod d)
      (.initial Sample.administration) Sample.frozenJanuary d :=
    exists_reaches_of_checked Sample.not_bypassesPeriod (by decide +kernel)
  refine ⟨_, hr, by decide +kernel, by decide +kernel, (period_guarded_iff hr).mpr ?_⟩
  intro before r after t hrs ht
  exact (hrs ▸ hok).ok_of_append_cons ht

/-- **A run of a closed period is cancelled.** -/
theorem cancelled_in_closed_period : ∃ d d' row row',
    Runs Sample.administration Sample.closedJanuary d ∧
      Runs Sample.administration (Sample.closedJanuary ++ [Sample.cancelRun 201]) d' ∧
      next d (Sample.cancelRun 201) = some d' ∧ d.payrollRuns.lookup 201 = some row ∧
      ¬ d.PeriodOpen row.columns.periodId ∧ row.columns.status = .draft ∧
      d'.payrollRuns.lookup 201 = some row' ∧ row'.columns.status = .cancelled ∧
      ¬ PeriodGuarded d d' := by
  have hr := Sample.runs (show (runLabels next _ Sample.closedJanuary).isSome by decide +kernel)
  have hr' := Sample.runs (show (runLabels next _
    (Sample.closedJanuary ++ [Sample.cancelRun 201])).isSome by decide +kernel)
  obtain ⟨t, ht, -, hn⟩ := hr'.of_snoc
  obtain rfl := Option.some.inj (ht.runLabels_eq.symm.trans hr.runLabels_eq)
  have hbefore : ((Sample.store Sample.closedJanuary).payrollRuns.lookup 201).map (fun row =>
      (row.columns.status, row.columns.periodId)) = some (.draft, 100) := by
    decide +kernel
  have hafter : ((Sample.store (Sample.closedJanuary ++ [Sample.cancelRun 201])).payrollRuns.lookup
      201).map (fun row => row.columns.status) = some .cancelled := by
    decide +kernel
  obtain ⟨row, hrow, hfacts⟩ := Option.map_eq_some_iff.mp hbefore
  obtain ⟨row', hrow', hcancelled⟩ := Option.map_eq_some_iff.mp hafter
  simp only [Prod.mk.injEq] at hfacts
  obtain ⟨hdraft, hperiod⟩ := hfacts
  have hclosed : ¬ (Sample.store Sample.closedJanuary).PeriodOpen row.columns.periodId := by
    rw [hperiod]
    decide +kernel
  have hne : row' ≠ row := by
    intro he
    rw [he, hdraft] at hcancelled
    cases hcancelled
  exact ⟨_, _, row, row', hr, hr', hn, hrow, hclosed, hdraft, hrow', hcancelled,
    fun h => not_guardedTable hrow hrow' hne hclosed h.payrollRuns⟩

end RatelPlatform
