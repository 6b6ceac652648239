import RatelPlatform.PayrollHandlers
import RatelPlatform.Reach

/-!
# Commands, one at a time

The whole command side as a labelled machine on the store: a request is a
command with what it draws from its surroundings, and either commits its
transaction or leaves the store as it was. `Store.initial` with any number of
requests gives the reachable states.

What each context leaves alone is said once here (`frame`), and so is the
shape every reachable store has (`WellFormed`).
-/

namespace RatelPlatform

/-! ## The period commands -/

/-- A period of the dates given is opened. -/
structure OpenPeriodCommand where
  organizationId : Id
  startDate : JsDate
  endDate : JsDate

/-- An open period is closed by a user. -/
structure ClosePeriodCommand where
  organizationId : Id
  periodId : Id
  closedById : Id

/-- A closed period is opened again, for a reason. -/
structure ReopenPeriodCommand where
  organizationId : Id
  periodId : Id
  reopenedById : Id
  reason : String

/-- `OpenPeriodHandler` -/
def openPeriod (env : Env) (cmd : OpenPeriodCommand) : StoreTx Id := do
  let period ← .ofExcept
    (FinancialPeriod.create env.uuid cmd.organizationId cmd.startDate cmd.endDate env.now)
  FinancialPeriodRepository.save period
  enqueue period.domainEvents
  pure period.props.id

/-- A period of the organization; one of another is not found. -/
def findPeriod (periodId organizationId : Id) : StoreTx FinancialPeriod := do
  let period ← FinancialPeriodRepository.findByIdForOrganization periodId organizationId
  .orFail period (.domain (.entityNotFound "FinancialPeriod" periodId))

/-- `ClosePeriodHandler` -/
def closePeriod (env : Env) (cmd : ClosePeriodCommand) : StoreTx Unit := do
  let period ← findPeriod cmd.periodId cmd.organizationId
  let period ← .ofExcept (period.close cmd.closedById env.now)
  FinancialPeriodRepository.save period
  enqueue period.domainEvents

/-- `ReopenPeriodHandler` -/
def reopenPeriod (_env : Env) (cmd : ReopenPeriodCommand) : StoreTx Unit := do
  let period ← findPeriod cmd.periodId cmd.organizationId
  let period ← .ofExcept (period.reopen cmd.reopenedById cmd.reason)
  FinancialPeriodRepository.save period
  enqueue period.domainEvents

/-- The commands of the period context. -/
inductive PeriodCommand where
  | open (cmd : OpenPeriodCommand)
  | close (cmd : ClosePeriodCommand)
  | reopen (cmd : ReopenPeriodCommand)

/-- The transaction a command runs. -/
def PeriodCommand.program (env : Env) : PeriodCommand → StoreTx Unit
  | .open cmd => (openPeriod env cmd).discard
  | close cmd => closePeriod env cmd
  | reopen cmd => reopenPeriod env cmd

/-- The period commands touch the table of periods and the outbox only. -/
theorem PeriodCommand.frame {env : Env} {cmd : PeriodCommand} {d d' : Store} {a : Unit}
    (h : (cmd.program env).solo d = .ok (a, d')) :
    ∃ periods events, d' = { d with
      financialPeriods := periods, outbox := d.outbox ++ events } := by
  have hsaved : ∀ {p : FinancialPeriod} {d d₁ d' : Store} {a b : Unit},
      (FinancialPeriodRepository.save p).solo d = .ok (a, d₁) →
      (enqueue p.domainEvents).solo d₁ = .ok (b, d') →
      ∃ periods events, d' = { d with
        financialPeriods := periods, outbox := d.outbox ++ events } := by
    intro p d d₁ d' a b hs ho
    rw [enqueue_ok] at ho
    subst ho
    rcases FinancialPeriodRepository.save_ok hs with ⟨_, -, rfl⟩ | ⟨-, _, rfl⟩
    · exact ⟨_, _, rfl⟩
    · exact ⟨_, _, rfl⟩
  cases cmd with
  | «open» cmd =>
    simp only [program, Tx.solo_discard_ok, openPeriod, Tx.solo_bind_ok, Tx.solo_ofExcept_ok,
      Tx.pure_eq, Tx.solo_ret] at h
    obtain ⟨_, p, _, ⟨-, rfl⟩, _, _, hs, _, _, ho, hret⟩ := h
    cases hret
    exact hsaved hs ho
  | close cmd =>
    simp only [program, closePeriod, findPeriod, Tx.solo_bind_ok, Tx.solo_orFail_ok,
      Tx.solo_ofExcept_ok, FinancialPeriodRepository.findByIdForOrganization_solo] at h
    obtain ⟨_, _, ⟨_, _, hfind, -, rfl⟩, p, _, ⟨-, rfl⟩, _, _, hs, ho⟩ := h
    cases hfind
    exact hsaved hs ho
  | reopen cmd =>
    simp only [program, reopenPeriod, findPeriod, Tx.solo_bind_ok, Tx.solo_orFail_ok,
      Tx.solo_ofExcept_ok, FinancialPeriodRepository.findByIdForOrganization_solo] at h
    obtain ⟨_, _, ⟨_, _, hfind, -, rfl⟩, p, _, ⟨-, rfl⟩, _, _, hs, ho⟩ := h
    cases hfind
    exact hsaved hs ho

/-! ## What the expense and payroll commands touch -/

/-- No row has the id. -/
def Store.Fresh (d : Store) (id : Id) : Prop :=
  id ∉ d.financialPeriods ∧ id ∉ d.expenses ∧ id ∉ d.approvalProgress ∧ id ∉ d.payrollRuns

instance (d : Store) (id : Id) : Decidable (d.Fresh id) := inferInstanceAs (Decidable (_ ∧ _))

/-- The expense a command is about: an existing one, or the one it creates. -/
def ExpenseCommand.subject (env : Env) : ExpenseCommand → Id
  | create _ => env.uuid
  | submit cmd => cmd.expenseId
  | approve cmd => cmd.expenseId
  | reject cmd => cmd.expenseId
  | cancel cmd => cmd.expenseId
  | createAdjustment _ => env.uuid

/-- The payroll run a command is about. -/
def PayrollCommand.subject (env : Env) : PayrollCommand → Id
  | create _ => env.uuid
  | addPayslip cmd => cmd.payrollRunId
  | submit cmd => cmd.payrollRunId
  | approve cmd => cmd.payrollRunId
  | reject cmd => cmd.payrollRunId
  | cancel cmd => cmd.payrollRunId
  | process cmd => cmd.payrollRunId

/-- The command creates a run. -/
def PayrollCommand.isCreate : PayrollCommand → Bool
  | create _ => true
  | _ => false

/-- At most the progress of one item changed, and its records are aligned. -/
def Store.ProgressOf (d d' : Store) (id : Id) : Prop :=
  d'.approvalProgress = d.approvalProgress ∨
    ∃ prow, ApprovalProgressRepository.Aligned prow.records ∧
      d'.approvalProgress = d.approvalProgress.insert id prow

theorem Store.ProgressOf.started {d d' : Store} {id : Id} {itemType : String}
    {chain : List ApprovalStep}
    (h : d'.approvalProgress = d.approvalProgress.insert id ⟨itemType, chain, []⟩) :
    d.ProgressOf d' id :=
  .inr ⟨⟨itemType, chain, []⟩, rfl, h⟩

theorem Store.ProgressOf.decided {d d' : Store} {id : Id} {prow : ApprovalProgressRow}
    {r : ApprovalRecord} (hal : d.RecordsAligned) (hrow : d.approvalProgress.lookup id = some prow)
    (hr : r.stepOrder = prow.records.length + 1)
    (h : d'.approvalProgress = d.decided id prow r) : d.ProgressOf d' id :=
  .inr ⟨_, (hal _ _ hrow).append hr, h⟩

theorem Store.ProgressOf.lookup_ne {d d' : Store} {id id' : Id} (h : d.ProgressOf d' id)
    (hne : id' ≠ id) : d'.approvalProgress.lookup id' = d.approvalProgress.lookup id' := by
  rcases h with h | ⟨prow, -, h⟩
  · rw [h]
  · rw [h, Finmap.lookup_insert_of_ne _ hne]

theorem Store.ProgressOf.aligned {d d' : Store} {id : Id} (h : d.ProgressOf d' id)
    (hal : d.RecordsAligned) : d'.RecordsAligned := by
  rcases h with h | ⟨prow, hprow, h⟩
  · intro id' prow' hl
    rw [h] at hl
    exact hal id' prow' hl
  · intro id' prow' hl
    rw [h] at hl
    obtain ⟨-, rfl⟩ | ⟨-, hl⟩ := Table.lookup_insert_cases hl
    · exact hprow
    · exact hal id' prow' hl

/-- **The frame of the expense commands**: one expense row, its own progress,
the numbers and the outbox. -/
theorem ExpenseCommand.frame {env : Env} {cmd : ExpenseCommand} {d d' : Store} {a : Unit}
    (hal : d.RecordsAligned) (hfresh : d.Fresh env.uuid)
    (h : (cmd.program env).solo d = .ok (a, d')) :
    d'.administration = d.administration ∧ d'.financialPeriods = d.financialPeriods ∧
      d'.payrollRuns = d.payrollRuns ∧
      (∃ row, d'.expenses = d.expenses.insert (cmd.subject env) row) ∧
      (cmd.subject env ∈ d.expenses ∨ cmd.subject env = env.uuid) ∧
      d.ProgressOf d' (cmd.subject env) := by
  have hnew := Finmap.lookup_eq_none.mpr hfresh.2.1
  have hmem : ∀ {id : Id} {row : ExpenseRow}, d.expenses.lookup id = some row →
      id ∈ d.expenses := fun hrow => Finmap.mem_of_lookup_eq_some hrow
  cases cmd with
  | create cmd =>
    obtain ⟨_, h⟩ := Tx.solo_discard_ok.mp h
    obtain ⟨row, _, -, -, -, -, -, -, rfl⟩ := createExpense_ok hnew h
    exact ⟨rfl, rfl, rfl, ⟨row, rfl⟩, .inr rfl, .inl rfl⟩
  | submit cmd =>
    obtain ⟨row, hrow, -, -, -, -, rfl⟩ := submitExpense_ok h
    exact ⟨rfl, rfl, rfl, ⟨_, rfl⟩, .inl (hmem hrow), .started rfl⟩
  | approve cmd =>
    obtain ⟨row, prow, _, hrow, -, -, hprow, -, -, -, -, -, rfl⟩ := approveExpense_ok hal h
    exact ⟨rfl, rfl, rfl, ⟨_, rfl⟩, .inl (hmem hrow), .decided hal hprow rfl rfl⟩
  | reject cmd =>
    obtain ⟨row, prow, hrow, -, -, hprow, -, -, -, rfl⟩ := rejectExpense_ok hal h
    exact ⟨rfl, rfl, rfl, ⟨_, rfl⟩, .inl (hmem hrow), .decided hal hprow rfl rfl⟩
  | cancel cmd =>
    obtain ⟨row, hrow, -, -, -, rfl⟩ := cancelExpense_ok h
    exact ⟨rfl, rfl, rfl, ⟨_, rfl⟩, .inl (hmem hrow), .inl rfl⟩
  | createAdjustment cmd =>
    obtain ⟨_, h⟩ := Tx.solo_discard_ok.mp h
    obtain ⟨_, _, _, _, -, -, -, -, -, -, -, rfl⟩ := createAdjustment_ok hnew h
    refine ⟨rfl, rfl, rfl, ⟨_, rfl⟩, .inr rfl, ?_⟩
    simp only [Store.ProgressOf, subject]
    split_ifs
    · exact .inr ⟨⟨_, _, []⟩, rfl, rfl⟩
    · exact .inl rfl

/-- **The frame of the payroll commands**: one run with its payslips, its own
progress, and the outbox. -/
theorem PayrollCommand.frame {env : Env} {cmd : PayrollCommand} {d d' : Store} {a : Unit}
    (hal : d.RecordsAligned)
    (hnew : cmd.isCreate = true → d.payrollRuns.lookup env.uuid = none)
    (h : (cmd.program env).solo d = .ok (a, d')) :
    d'.administration = d.administration ∧ d'.financialPeriods = d.financialPeriods ∧
      d'.expenses = d.expenses ∧
      (∃ row, d'.payrollRuns = d.payrollRuns.insert (cmd.subject env) row) ∧
      (cmd.subject env ∈ d.payrollRuns ∨ cmd.subject env = env.uuid) ∧
      d.ProgressOf d' (cmd.subject env) := by
  have hmem : ∀ {id : Id} {row : PayrollRunRow}, d.payrollRuns.lookup id = some row →
      id ∈ d.payrollRuns := fun hrow => Finmap.mem_of_lookup_eq_some hrow
  cases cmd with
  | create cmd =>
    obtain ⟨_, h⟩ := Tx.solo_discard_ok.mp h
    obtain ⟨_, -, rfl⟩ := createPayrollRun_ok (hnew rfl) h
    exact ⟨rfl, rfl, rfl, ⟨_, rfl⟩, .inr rfl, .inl rfl⟩
  | addPayslip cmd =>
    obtain ⟨_, h⟩ := Tx.solo_discard_ok.mp h
    obtain ⟨_, _, hrow, -, -, -, -, -, rfl⟩ := addPayslip_ok h
    exact ⟨rfl, rfl, rfl, ⟨_, rfl⟩, .inl (hmem hrow), .inl rfl⟩
  | submit cmd =>
    obtain ⟨_, hrow, -, -, -, -, -, -, rfl⟩ := (@submitPayrollRun_ok env _ _ _ _).mp h
    exact ⟨rfl, rfl, rfl, ⟨_, rfl⟩, .inl (hmem hrow), .started rfl⟩
  | approve cmd =>
    obtain ⟨_, _, _, hrow, -, -, hprow, -, -, -, -, -, -, rfl⟩ := (approvePayrollRun_ok hal).mp h
    exact ⟨rfl, rfl, rfl, ⟨_, rfl⟩, .inl (hmem hrow), .decided hal hprow rfl rfl⟩
  | reject cmd =>
    obtain ⟨_, _, hrow, -, -, hprow, -, -, -, rfl⟩ := rejectPayrollRun_ok hal h
    exact ⟨rfl, rfl, rfl, ⟨_, rfl⟩, .inl (hmem hrow), .decided hal hprow rfl rfl⟩
  | cancel cmd =>
    obtain ⟨_, hrow, -, -, rfl⟩ := (@cancelPayrollRun_ok env _ _ _ _).mp h
    exact ⟨rfl, rfl, rfl, ⟨_, rfl⟩, .inl (hmem hrow), .inl rfl⟩
  | process cmd =>
    obtain ⟨_, hrow, -, -, rfl⟩ := (@processPayrollRun_ok env _ _ _ _).mp h
    exact ⟨rfl, rfl, rfl, ⟨_, rfl⟩, .inl (hmem hrow), .inl rfl⟩

/-! ## The machine -/

/-- Everything that can happen to the store: a command of one of the three
contexts, or a change of what administrators maintain. -/
inductive Command where
  | administer (administration : Administration)
  | period (cmd : PeriodCommand)
  | expense (cmd : ExpenseCommand)
  | payroll (cmd : PayrollCommand)

/-- The transaction a command runs. -/
def Command.program (env : Env) : Command → StoreTx Unit
  | administer administration =>
    .exec (fun _ => []) fun _ => .ok fun d => { d with administration }
  | period cmd => cmd.program env
  | expense cmd => cmd.program env
  | payroll cmd => cmd.program env

/-- A command with what it draws from its surroundings. -/
structure Request where
  env : Env
  command : Command

/-- A store without rows. -/
def Store.initial (administration : Administration) : Store where
  administration := administration
  financialPeriods := ∅
  expenses := ∅
  expenseNumberSequences := ∅
  approvalProgress := ∅
  payrollRuns := ∅
  outbox := []

/-- A request: its transaction commits, or fails and leaves the store alone. The
id it draws is one that is not in use. -/
def next (d : Store) (r : Request) : Option Store :=
  if d.Fresh r.env.uuid then
    match (r.command.program r.env).solo d with
    | .ok (_, d') => some d'
    | .error _ => some d
  else none

/-- The events a transaction has added to the outbox. -/
def Store.newEvents (d d' : Store) : List DomainEvent := d'.outbox.drop d.outbox.length

theorem Store.newEvents_of_append {d d' : Store} {events : List DomainEvent}
    (h : d'.outbox = d.outbox ++ events) : d.newEvents d' = events := by
  rw [newEvents, h, List.drop_left]

theorem next_cases {d d' : Store} {r : Request} (h : next d r = some d') :
    d.Fresh r.env.uuid ∧
      (((∃ e, (r.command.program r.env).solo d = .error e) ∧ d' = d) ∨
        (r.command.program r.env).solo d = .ok ((), d')) := by
  simp only [next] at h
  split_ifs at h with hfresh
  refine ⟨hfresh, ?_⟩
  rcases hsolo : (r.command.program r.env).solo d with e | ⟨u, d₁⟩
  · rw [hsolo] at h
    exact .inl ⟨⟨e, rfl⟩, (Option.some.inj h).symm⟩
  · rw [hsolo] at h
    obtain rfl := Option.some.inj h
    exact .inr rfl

/-- The stores a list of requests leads to, from a store without rows. -/
abbrev Runs (administration : Administration) : List Request → Store → Prop :=
  Reaches next (fun _ _ => True) (.initial administration)

/-- Something happened in a run of commands. -/
abbrev HappenedIn (administration : Administration) (rs : List Request)
    (P : Store → Request → Store → Prop) : Prop :=
  Happened next (.initial administration) rs P

/-! ## The shape of every reachable store -/

/-- Records are aligned with their steps, and no payroll run shares its id with
an expense. -/
structure Store.WellFormed (d : Store) : Prop where
  aligned : d.RecordsAligned
  disjoint : ∀ id ∈ d.expenses, id ∉ d.payrollRuns

/-- An expense is never what a payroll command is about. -/
theorem PayrollCommand.subject_ne {env : Env} {cmd : PayrollCommand} {d d' : Store} {id : Id}
    {a : Unit} (hwf : d.WellFormed) (hfresh : d.Fresh env.uuid)
    (h : (cmd.program env).solo d = .ok (a, d')) (hmem : id ∈ d.expenses) :
    id ≠ cmd.subject env := by
  obtain ⟨-, -, -, -, hsubject, -⟩ :=
    PayrollCommand.frame hwf.aligned (fun _ => Finmap.lookup_eq_none.mpr hfresh.2.2.2) h
  rintro rfl
  rcases hsubject with hrun | hnew
  · exact hwf.disjoint _ hmem hrun
  · rw [hnew] at hmem
    exact hfresh.2.1 hmem

/-- A payroll run is never what an expense command is about. -/
theorem ExpenseCommand.subject_ne {env : Env} {cmd : ExpenseCommand} {d d' : Store} {id : Id}
    {a : Unit} (hwf : d.WellFormed) (hfresh : d.Fresh env.uuid)
    (h : (cmd.program env).solo d = .ok (a, d')) (hmem : id ∈ d.payrollRuns) :
    id ≠ cmd.subject env := by
  obtain ⟨-, -, -, -, hsubject, -⟩ := ExpenseCommand.frame hwf.aligned hfresh h
  rintro rfl
  rcases hsubject with hexpense | hnew
  · exact hwf.disjoint _ hexpense hmem
  · rw [hnew] at hmem
    exact hfresh.2.2.2 hmem

theorem Store.wellFormed_initial (administration : Administration) :
    (Store.initial administration).WellFormed where
  aligned := fun _ _ h => nomatch h
  disjoint := fun _ h => absurd h Finmap.notMem_empty

theorem Store.WellFormed.next {d d' : Store} {r : Request} (hwf : d.WellFormed)
    (h : next d r = some d') : d'.WellFormed := by
  obtain ⟨hfresh, ⟨-, rfl⟩ | h⟩ := next_cases h
  · exact hwf
  obtain ⟨env, cmd⟩ := r
  cases cmd with
  | administer administration =>
    obtain ⟨_, hp, rfl⟩ := Tx.solo_exec_ok.mp h
    cases hp
    exact ⟨hwf.aligned, hwf.disjoint⟩
  | period cmd =>
    obtain ⟨_, _, rfl⟩ := PeriodCommand.frame h
    exact ⟨hwf.aligned, hwf.disjoint⟩
  | expense cmd =>
    obtain ⟨-, -, hruns, ⟨row, hrows⟩, hsubject, hprogress⟩ :=
      ExpenseCommand.frame hwf.aligned hfresh h
    refine ⟨hprogress.aligned hwf.aligned, fun id hid => ?_⟩
    rw [hrows, Finmap.mem_insert] at hid
    rw [hruns]
    rcases hid with rfl | hid
    · rcases hsubject with hmem | hnew
      · exact hwf.disjoint _ hmem
      · rw [hnew]
        exact hfresh.2.2.2
    · exact hwf.disjoint _ hid
  | payroll cmd =>
    obtain ⟨-, -, hrows, ⟨row, hruns⟩, hsubject, hprogress⟩ :=
      PayrollCommand.frame hwf.aligned (fun _ => Finmap.lookup_eq_none.mpr hfresh.2.2.2) h
    refine ⟨hprogress.aligned hwf.aligned, fun id hid => ?_⟩
    rw [hrows] at hid
    rw [hruns, Finmap.mem_insert]
    rintro (rfl | hrun)
    · rcases hsubject with hmem | hnew
      · exact hwf.disjoint _ hid hmem
      · rw [hnew] at hid
        exact hfresh.2.1 hid
    · exact hwf.disjoint _ hid hrun

/-- Every reachable store is well formed. -/
theorem Runs.wellFormed {administration : Administration} {rs : List Request} {d : Store}
    (hr : Runs administration rs d) : d.WellFormed :=
  hr.invariant (Store.wellFormed_initial administration) fun _ _ _ hwf _ hn => hwf.next hn

/-! ## A small organization -/

namespace Sample

/-- The organization 1, with its department 2 and its expense category 3. The
users 11 to 13 head a department, 14 directs the finances, 20 and 21 are paid. -/
def administration : Administration where
  departments := [⟨2, 1, true⟩]
  expenseCategories := [⟨3, 1, true⟩]
  vendors := []
  projects := []
  departmentRoleAssignments :=
    [⟨11, 1, .departmentHead, 2⟩, ⟨12, 1, .departmentHead, 2⟩, ⟨13, 1, .departmentHead, 2⟩]
  organizationRoleAssignments := [⟨14, 1, .financeDirector⟩]
  salaryStructures :=
    [⟨30, 1, 20, 1, ⟨0, by decide⟩, none, [⟨.allowance, "Basic", ⟨500000, .NGN⟩⟩], ⟨0, by decide⟩⟩,
      ⟨31, 1, 21, 1, ⟨0, by decide⟩, none, [⟨.allowance, "Basic", ⟨400000, .NGN⟩⟩], ⟨0, by decide⟩⟩]

/-- Noon of the first day, when all its requests are made. -/
def noon : JsDate := ⟨43200000, by decide⟩

/-- A request that draws the id `uuid`. -/
def request (uuid : Id) (command : Command) : Request := ⟨⟨noon, uuid, 0⟩, command⟩

/-- January is opened under the id 100. -/
def openJanuary : Request :=
  request 100 (.period (.open ⟨1, ⟨0, by decide⟩, ⟨2678400000, by decide⟩⟩))

/-- The first of the next month. -/
def nextMonth : JsDate := ⟨2678400000, by decide⟩

/-- January is closed by 14. -/
def closeJanuary : Request := request 900 (.period (.close ⟨1, 100, 14⟩))

/-- The role of user 11 is withdrawn. -/
def withdrawHead : Request :=
  request 910 (.administer { administration with
    departmentRoleAssignments := [⟨12, 1, .departmentHead, 2⟩, ⟨13, 1, .departmentHead, 2⟩] })

/-- User 10 enters an expense of the department. -/
def create (uuid : Id) (amountMinorUnits : ℤ) : Request :=
  request uuid (.expense (.create
    ⟨1, ⟨.employee, 10, none⟩, amountMinorUnits, "NGN", 3, 2, noon, none, none, none⟩))

/-- The expense is submitted. -/
def submit (expenseId : Id) : Request := request 901 (.expense (.submit ⟨expenseId, 1⟩))

/-- The approver approves the expense. -/
def approve (expenseId approverId : Id) : Request :=
  request 902 (.expense (.approve ⟨expenseId, 1, approverId⟩))

/-- The expense is corrected to a new total. -/
def adjust (uuid originalExpenseId : Id) (newAmountMinorUnits : ℤ) : Request :=
  request uuid (.expense (.createAdjustment ⟨originalExpenseId, 1, "typo", newAmountMinorUnits⟩))

/-- User 15 creates the payroll run of January. -/
def createRun (uuid : Id) : Request := request uuid (.payroll (.create ⟨1, noon, 15⟩))

/-- The employee's payslip is added to the run. -/
def payslipFor (uuid payrollRunId employeeId : Id) : Request :=
  request uuid (.payroll (.addPayslip ⟨payrollRunId, 1, employeeId, []⟩))

/-- The run is submitted. -/
def submitRun (payrollRunId : Id) : Request := request 903 (.payroll (.submit ⟨payrollRunId, 1⟩))

/-- The approver approves the run. -/
def approveRun (payrollRunId approverId : Id) : Request :=
  request 906 (.payroll (.approve ⟨payrollRunId, 1, approverId⟩))

/-- The run is rejected. -/
def rejectRun (payrollRunId approverId : Id) : Request :=
  request 904 (.payroll (.reject ⟨payrollRunId, 1, approverId, "wrong month"⟩))

/-- The run is processed. -/
def processRun (payrollRunId : Id) : Request :=
  request 907 (.payroll (.process ⟨payrollRunId, 1⟩))

/-- The run is cancelled by its creator. -/
def cancelRun (payrollRunId : Id) : Request :=
  request 905 (.payroll (.cancel ⟨payrollRunId, 1, 15⟩))

/-- The store after some requests. -/
def store (requests : List Request) : Store :=
  (runLabels next (.initial administration) requests).getD (.initial administration)

theorem runs {requests : List Request}
    (h : (runLabels next (.initial administration) requests).isSome) :
    Runs administration requests (store requests) := by
  obtain ⟨d, hd⟩ := Option.isSome_iff_exists.mp h
  rw [store, hd]
  exact reaches_of_runLabels hd

/-- An expense of user 10, as entered at noon. -/
def expenseRow (status : ExpenseStatus) (amountMinorUnits : ℤ) : ExpenseRow where
  organizationId := 1
  expenseNumber := "EXP-000001"
  status := status
  source := ⟨.employee, 10, none⟩
  amount := ⟨amountMinorUnits, .NGN⟩
  categoryId := 3
  vendorId := none
  departmentId := 2
  projectId := none
  periodId := 100
  parentExpenseId := none
  adjustmentReason := none
  expenseDate := ⟨0, by decide⟩
  description := none
  createdAt := noon
  updatedAt := noon

end Sample

end RatelPlatform
