import RatelPlatform.Repositories

/-!
# The expense commands

The six handlers of the expense context as transaction programs, in the order
of their statements, and for each what a success means: the checks that passed
and the store it commits.
-/

namespace RatelPlatform

/-- What a command draws from its surroundings: the time, a fresh id, and which
of several equally recent open periods the database happens to return. -/
structure Env where
  now : JsDate
  uuid : Id
  tie : Id

/-! ## Commands -/

/-- An expense is entered: the amount in minor units, the currency as the caller wrote it. -/
structure CreateExpenseCommand where
  organizationId : Id
  source : ExpenseSource
  amountMinorUnits : ℤ
  currency : String
  categoryId : Id
  departmentId : Id
  expenseDate : JsDate
  vendorId : Option Id
  projectId : Option Id
  description : Option String

/-- A draft goes to its approvers. -/
structure SubmitExpenseCommand where
  expenseId : Id
  organizationId : Id

/-- An approver signs the next step of the chain off. -/
structure ApproveExpenseCommand where
  expenseId : Id
  organizationId : Id
  approverId : Id
  deriving DecidableEq

/-- An approver of the next step rejects the expense, for a reason. -/
structure RejectExpenseCommand where
  expenseId : Id
  organizationId : Id
  approverId : Id
  reason : String
  deriving DecidableEq

/-- A user withdraws an expense that is not decided. -/
structure CancelExpenseCommand where
  expenseId : Id
  organizationId : Id
  actorId : Id

/-- An approved expense is corrected to a new total, by a row for the difference. -/
structure CreateAdjustmentCommand where
  originalExpenseId : Id
  organizationId : Id
  reason : String
  newAmountMinorUnits : ℤ

/-! ## Handlers -/

/-- The period of a new row: the organization's current open period. -/
def requireOpenPeriod (organizationId tie : Id) : StoreTx FinancialPeriod := do
  let openPeriod ← FinancialPeriodRepository.findCurrentOpen organizationId tie
  .orFail openPeriod (.domain (.noOpenPeriod organizationId))

/-- The period of an existing row has to be open. -/
def assertPeriodOpen (organizationId periodId : Id) : StoreTx Unit := do
  let isOpen ← isOpen organizationId periodId
  .require (isOpen = true) (.domain (.periodClosed periodId))

/-- An expense of the organization; one of another is not found. -/
def findExpense (expenseId organizationId : Id) : StoreTx Expense := do
  let expense ← ExpenseRepository.findById expenseId
  .orFail (expense.filter fun e => e.props.organizationId = organizationId)
    (.domain (.entityNotFound "Expense" expenseId))

/-- The approval progress of an item. -/
def findProgress (itemId : Id) : StoreTx ApprovalProgress := do
  let progress ← ApprovalProgressRepository.findByItemId itemId
  .orFail progress (.domain (.entityNotFound "ApprovalProgress" itemId))

/-- `CreateExpenseHandler` -/
def createExpense (env : Env) (cmd : CreateExpenseCommand) : StoreTx (Id × String) := do
  let openPeriod ← requireOpenPeriod cmd.organizationId env.tie
  assertActive Administration.departments "Department" cmd.departmentId cmd.organizationId
  assertActive Administration.expenseCategories "ExpenseCategory" cmd.categoryId cmd.organizationId
  assertActiveIfGiven Administration.vendors "Vendor" cmd.vendorId cmd.organizationId
  assertActiveIfGiven Administration.projects "Project" cmd.projectId cmd.organizationId
  let expenseNumber ← ExpenseRepository.nextExpenseNumber cmd.organizationId
  let amount ← .ofExcept (Money.of cmd.amountMinorUnits cmd.currency)
  let expense ← .ofExcept (Expense.create env.uuid env.now
    { organizationId := cmd.organizationId
      expenseNumber
      source := cmd.source
      amount
      categoryId := cmd.categoryId
      vendorId := cmd.vendorId
      departmentId := cmd.departmentId
      projectId := cmd.projectId
      periodId := openPeriod.props.id
      expenseDate := cmd.expenseDate
      description := cmd.description })
  ExpenseRepository.save expense
  enqueue expense.domainEvents
  pure (expense.props.id, expense.props.expenseNumber)

/-- A submitted expense starts its approval, or is approved on the spot when the
policy requires none. -/
def startApproval (env : Env) (submitted : Expense) (chain : ApprovalChain) : StoreTx Expense :=
  if chain.isEmpty then
    .ofExcept (submitted.approve (.system "system-auto-approval") env.now)
  else do
    let _ ← ApprovalProgressRepository.initializeProgress submitted.props.id "Expense" chain
    pure submitted

/-- `SubmitExpenseHandler` -/
def submitExpense (env : Env) (cmd : SubmitExpenseCommand) : StoreTx Unit := do
  let expense ← findExpense cmd.expenseId cmd.organizationId
  assertPeriodOpen cmd.organizationId expense.props.periodId
  let chain := ExpenseApprovalPolicy.resolveChain expense.toApprovable
  let submitted ← .ofExcept (expense.submitForApproval env.now)
  let expense ← startApproval env submitted chain
  ExpenseRepository.save expense
  enqueue expense.domainEvents

/-- `ApproveExpenseHandler` -/
def approveExpense (env : Env) (cmd : ApproveExpenseCommand) : StoreTx Unit := do
  let expense ← findExpense cmd.expenseId cmd.organizationId
  assertPeriodOpen cmd.organizationId expense.props.periodId
  let progress ← findProgress expense.props.id
  let (progress, isFinalApproval) ← WorkflowEngine.recordApproval getRolesForUser
    expense.toApprovable progress cmd.approverId env.now
  let expense ← .ofExcept
    (if isFinalApproval then expense.approve (.user cmd.approverId) env.now else .ok expense)
  ApprovalProgressRepository.save expense.props.id progress
  ExpenseRepository.save expense
  enqueue expense.domainEvents

/-- `RejectExpenseHandler` -/
def rejectExpense (env : Env) (cmd : RejectExpenseCommand) : StoreTx Unit := do
  let expense ← findExpense cmd.expenseId cmd.organizationId
  assertPeriodOpen cmd.organizationId expense.props.periodId
  let progress ← findProgress expense.props.id
  let progress ← WorkflowEngine.recordRejection getRolesForUser
    expense.toApprovable progress cmd.approverId cmd.reason env.now
  let expense ← .ofExcept (expense.reject cmd.approverId cmd.reason env.now)
  ApprovalProgressRepository.save expense.props.id progress
  ExpenseRepository.save expense
  enqueue expense.domainEvents

/-- `CancelExpenseHandler` -/
def cancelExpense (env : Env) (cmd : CancelExpenseCommand) : StoreTx Unit := do
  let expense ← findExpense cmd.expenseId cmd.organizationId
  assertPeriodOpen cmd.organizationId expense.props.periodId
  let expense ← .ofExcept (expense.cancel cmd.actorId env.now)
  ExpenseRepository.save expense
  enqueue expense.domainEvents

/-- An adjustment that requires approval gets the chain of its own amount. -/
def startAdjustmentApproval (adjustment : Expense) (requiresApproval : Bool) : StoreTx Unit :=
  if requiresApproval then do
    let chain := ExpenseApprovalPolicy.resolveChain adjustment.toApprovable
    let _ ← ApprovalProgressRepository.initializeProgress adjustment.props.id "Expense" chain
    pure ()
  else pure ()

/-- `CreateAdjustmentHandler` -/
def createAdjustment (env : Env) (cmd : CreateAdjustmentCommand) : StoreTx Id := do
  let openPeriod ← requireOpenPeriod cmd.organizationId env.tie
  let original ← findExpense cmd.originalExpenseId cmd.organizationId
  let requiresApproval := ExpenseAdjustmentApprovalPolicy.requiresApproval cmd.newAmountMinorUnits
    original.props.amount.minorUnits cmd.reason
  let expenseNumber ← ExpenseRepository.nextExpenseNumber cmd.organizationId
  let adjustment ← .ofExcept (Expense.createAdjustment env.uuid env.now
    { original
      reason := cmd.reason
      currentOpenPeriodId := openPeriod.props.id
      expenseNumber
      newAmountMinorUnits := cmd.newAmountMinorUnits
      requiresApproval })
  ExpenseRepository.save adjustment
  startAdjustmentApproval adjustment requiresApproval
  enqueue adjustment.domainEvents
  pure adjustment.props.id

/-- The commands of the expense context. -/
inductive ExpenseCommand where
  | create (cmd : CreateExpenseCommand)
  | submit (cmd : SubmitExpenseCommand)
  | approve (cmd : ApproveExpenseCommand)
  | reject (cmd : RejectExpenseCommand)
  | cancel (cmd : CancelExpenseCommand)
  | createAdjustment (cmd : CreateAdjustmentCommand)

/-- The transaction a command runs. -/
def ExpenseCommand.program (env : Env) : ExpenseCommand → StoreTx Unit
  | create cmd => (createExpense env cmd).discard
  | submit cmd => submitExpense env cmd
  | approve cmd => approveExpense env cmd
  | reject cmd => rejectExpense env cmd
  | cancel cmd => cancelExpense env cmd
  | createAdjustment cmd => (RatelPlatform.createAdjustment env cmd).discard

/-! ## What the shared checks mean -/

theorem requireOpenPeriod_ok_iff {organizationId tie : Id} {d d' : Store} {p : FinancialPeriod} :
    (requireOpenPeriod organizationId tie).solo d = .ok (p, d') ↔
      (∃ id row, FinancialPeriodRepository.currentOpen d organizationId tie = some id ∧
        d.financialPeriods.lookup id = some row ∧
        p = FinancialPeriodRepository.toDomain id row) ∧ d' = d := by
  simp only [requireOpenPeriod]
  rw [Tx.solo_bind_of_ok (FinancialPeriodRepository.findCurrentOpen_solo organizationId tie d),
    Tx.solo_orFail_ok]
  simp only [Option.map_eq_some_iff, Option.bind_eq_some_iff]
  refine ⟨?_, ?_⟩
  · rintro ⟨⟨_, ⟨id, hid, row, hrow, rfl⟩, rfl⟩, rfl⟩
    exact ⟨⟨id, row, hid, hrow, rfl⟩, rfl⟩
  · rintro ⟨⟨id, row, hid, hrow, rfl⟩, rfl⟩
    exact ⟨⟨_, ⟨id, hid, row, hrow, rfl⟩, rfl⟩, rfl⟩

theorem requireOpenPeriod_ok {organizationId tie : Id} {d d' : Store} {p : FinancialPeriod}
    (h : (requireOpenPeriod organizationId tie).solo d = .ok (p, d')) :
    d' = d ∧ d.PeriodIsOpen organizationId p.props.id := by
  simp only [requireOpenPeriod, Tx.solo_bind_ok, Tx.solo_orFail_ok] at h
  obtain ⟨_, d₁, hfind, rfl, rfl⟩ := h
  exact FinancialPeriodRepository.findCurrentOpen_ok hfind

theorem assertPeriodOpen_ok {organizationId periodId : Id} {d d' : Store} {a : Unit} :
    (assertPeriodOpen organizationId periodId).solo d = .ok (a, d') ↔
      d.PeriodIsOpen organizationId periodId ∧ d' = d := by
  simp only [assertPeriodOpen]
  rw [Tx.solo_bind_of_ok (isOpen_solo organizationId periodId d), Tx.solo_require_ok,
    decide_eq_true_iff]

theorem findExpense_ok {expenseId organizationId : Id} {d d' : Store} {e : Expense} :
    (findExpense expenseId organizationId).solo d = .ok (e, d') ↔
      (∃ row, d.expenses.lookup expenseId = some row ∧ row.organizationId = organizationId ∧
        e = ExpenseRepository.toDomain expenseId row) ∧ d' = d := by
  simp only [findExpense]
  rw [Tx.solo_bind_of_ok (ExpenseRepository.findById_solo expenseId d), Tx.solo_orFail_ok,
    Option.filter_eq_some_iff, Option.map_eq_some_iff]
  refine ⟨?_, ?_⟩
  · rintro ⟨⟨⟨row, hrow, rfl⟩, horg⟩, rfl⟩
    exact ⟨⟨row, hrow, of_decide_eq_true horg, rfl⟩, rfl⟩
  · rintro ⟨⟨row, hrow, horg, rfl⟩, rfl⟩
    exact ⟨⟨⟨row, hrow, rfl⟩, decide_eq_true horg⟩, rfl⟩

/-- The records of every progress row are those of its first steps, in order. -/
def Store.RecordsAligned (d : Store) : Prop :=
  ∀ id prow, d.approvalProgress.lookup id = some prow →
    ApprovalProgressRepository.Aligned prow.records

theorem findProgress_ok {itemId : Id} {d d' : Store} {p : ApprovalProgress}
    (hal : d.RecordsAligned) :
    (findProgress itemId).solo d = .ok (p, d') ↔
      (∃ prow, d.approvalProgress.lookup itemId = some prow ∧
        p = ⟨itemId, .of prow.chain, prow.records⟩) ∧ d' = d := by
  simp only [findProgress]
  rw [Tx.solo_bind_of_ok (ApprovalProgressRepository.findByItemId_solo itemId d),
    Tx.solo_orFail_ok, Option.map_eq_some_iff]
  refine ⟨?_, ?_⟩
  · rintro ⟨⟨prow, hprow, rfl⟩, rfl⟩
    exact ⟨⟨prow, hprow, by rw [(hal _ _ hprow).recordsOf_eq hprow]⟩, rfl⟩
  · rintro ⟨⟨prow, hprow, rfl⟩, rfl⟩
    exact ⟨⟨prow, hprow, by rw [(hal _ _ hprow).recordsOf_eq hprow]⟩, rfl⟩

/-- The reference checks read only. -/
theorem assertActive_ok {rows : Administration → List ReferenceRow} {entityType : String}
    {id organizationId : Id} {d d' : Store} {a : Unit} :
    (assertActive rows entityType id organizationId).solo d = .ok (a, d') ↔
      HasActive (rows d.administration) id organizationId ∧ d' = d := by
  simp only [assertActive]
  rw [Tx.solo_select_bind, Tx.solo_require_ok, decide_eq_true_iff]

theorem assertActiveIfGiven_ok {rows : Administration → List ReferenceRow} {entityType : String}
    {id : Option Id} {organizationId : Id} {d d' : Store} {a : Unit} :
    (assertActiveIfGiven rows entityType id organizationId).solo d = .ok (a, d') ↔
      (∀ i ∈ id, HasActive (rows d.administration) i organizationId) ∧ d' = d := by
  rcases id with _ | i
  · simp [assertActiveIfGiven, eq_comm]
  · simp [assertActiveIfGiven, assertActive_ok]

/-! ## What a success means -/

/-- The decision an approval records on a progress row. -/
def approvalOf (env : Env) (cmd : ApproveExpenseCommand) (prow : ApprovalProgressRow) :
    ApprovalRecord :=
  ⟨prow.records.length + 1, cmd.approverId, env.now, .approved, none⟩

/-- The decision a rejection records on a progress row. -/
def rejectionOf (env : Env) (cmd : RejectExpenseCommand) (prow : ApprovalProgressRow) :
    ApprovalRecord :=
  ⟨prow.records.length + 1, cmd.approverId, env.now, .rejected, some cmd.reason⟩

/-- One decision more on the progress of an item. -/
def Store.decided (d : Store) (itemId : Id) (prow : ApprovalProgressRow) (r : ApprovalRecord) :
    Table Id ApprovalProgressRow :=
  d.approvalProgress.insert itemId { prow with records := prow.records ++ [r] }

/-- The chain of an expense row. -/
def ExpenseRow.chain (row : ExpenseRow) (id : Id) : ApprovalChain :=
  ExpenseApprovalPolicy.resolveChain (ExpenseRepository.toDomain id row).toApprovable

theorem createExpense_ok {env : Env} {cmd : CreateExpenseCommand} {d d' : Store} {a : Id × String}
    (hfresh : d.expenses.lookup env.uuid = none)
    (h : (createExpense env cmd).solo d = .ok (a, d')) :
    ∃ row sequences, d.PeriodIsOpen cmd.organizationId row.periodId ∧
      row.organizationId = cmd.organizationId ∧ row.status = .draft ∧ 0 < row.amount.minorUnits ∧
      row.parentExpenseId = none ∧ row.Storable ∧
      d' = { d with
        expenses := d.expenses.insert env.uuid row
        expenseNumberSequences := sequences
        outbox := d.outbox ++ [expenseDrafted env.uuid cmd.organizationId cmd.source] } := by
  simp only [createExpense, Tx.solo_bind_ok, assertActive_ok, assertActiveIfGiven_ok,
    Tx.solo_ofExcept_ok, enqueue_ok, Tx.pure_eq, Tx.solo_ret] at h
  obtain ⟨period, _, hperiod, _, _, ⟨-, rfl⟩, _, _, ⟨-, rfl⟩, _, _, ⟨-, rfl⟩, _, _, ⟨-, rfl⟩,
    number, _, hnumber, amount, _, ⟨-, rfl⟩, e, _, ⟨hcreate, rfl⟩, _, _, hsave, _, _, rfl, hret⟩ := h
  obtain ⟨rfl, hopen⟩ := requireOpenPeriod_ok hperiod
  obtain ⟨sequences, rfl⟩ := ExpenseRepository.nextExpenseNumber_ok hnumber
  obtain ⟨hpos, rfl⟩ := Expense.create_ok.mp hcreate
  obtain ⟨hstorable, rfl⟩ := ExpenseRepository.save_new_ok hfresh hsave
  cases hret
  exact ⟨_, sequences, hopen, rfl, rfl, hpos, rfl, hstorable, rfl⟩

/-- The row of a new expense says what the command says. -/
theorem createExpense_row {env : Env} {cmd : CreateExpenseCommand} {d d' : Store}
    {a : Id × String} (hfresh : d.expenses.lookup env.uuid = none)
    (h : (createExpense env cmd).solo d = .ok (a, d')) :
    ∃ row, d'.expenses = d.expenses.insert env.uuid row ∧ row.source = cmd.source ∧
      row.parentExpenseId = none ∧ row.categoryId = cmd.categoryId ∧
      row.departmentId = cmd.departmentId ∧ row.vendorId = cmd.vendorId ∧
      row.projectId = cmd.projectId := by
  simp only [createExpense, Tx.solo_bind_ok, assertActive_ok, assertActiveIfGiven_ok,
    Tx.solo_ofExcept_ok, enqueue_ok, Tx.pure_eq, Tx.solo_ret] at h
  obtain ⟨period, _, hperiod, _, _, ⟨-, rfl⟩, _, _, ⟨-, rfl⟩, _, _, ⟨-, rfl⟩, _, _, ⟨-, rfl⟩,
    number, _, hnumber, amount, _, ⟨-, rfl⟩, e, _, ⟨hcreate, rfl⟩, _, _, hsave, _, _, rfl, hret⟩ := h
  obtain ⟨rfl, -⟩ := requireOpenPeriod_ok hperiod
  obtain ⟨sequences, rfl⟩ := ExpenseRepository.nextExpenseNumber_ok hnumber
  obtain ⟨-, rfl⟩ := Expense.create_ok.mp hcreate
  obtain ⟨-, rfl⟩ := ExpenseRepository.save_new_ok hfresh hsave
  cases hret
  exact ⟨_, rfl, rfl, rfl, rfl, rfl, rfl, rfl⟩

/-- A submission that succeeds: the draft is pending, with a progress of its own
that has no decision yet. -/
theorem submitExpense_ok {env : Env} {cmd : SubmitExpenseCommand} {d d' : Store} {a : Unit}
    (h : (submitExpense env cmd).solo d = .ok (a, d')) :
    ∃ row, d.expenses.lookup cmd.expenseId = some row ∧ row.organizationId = cmd.organizationId ∧
      d.PeriodIsOpen cmd.organizationId row.periodId ∧ row.status = .draft ∧
      d.approvalProgress.lookup cmd.expenseId = none ∧
      d' = { d with
        expenses := d.expenses.insert cmd.expenseId (
          { row with status := .pendingApproval, updatedAt := env.now })
        approvalProgress := d.approvalProgress.insert cmd.expenseId (
          ⟨"Expense", (row.chain cmd.expenseId).steps, []⟩)
        outbox := d.outbox ++ [expenseSubmittedForApproval cmd.expenseId row.organizationId] } := by
  simp only [submitExpense, Tx.solo_bind_ok, findExpense_ok, assertPeriodOpen_ok,
    Tx.solo_ofExcept_ok] at h
  obtain ⟨_, _, ⟨⟨row, hrow, horg, rfl⟩, rfl⟩, _, _, ⟨hopen, rfl⟩, submitted, _, ⟨hsub, rfl⟩, h⟩ := h
  obtain ⟨hdraft, rfl⟩ := Expense.transition_ok.mp hsub
  obtain ⟨e, d₁, hchain, _, _, hsave, hout⟩ := h
  -- the policy never resolves an empty chain, so nothing is approved automatically
  have hne : (row.chain cmd.expenseId).isEmpty = false := by
    rw [ApprovalChain.isEmpty, List.isEmpty_eq_false_iff]
    exact (ExpenseApprovalPolicy.resolveChain_numbered _).2
  rw [show ExpenseApprovalPolicy.resolveChain (ExpenseRepository.toDomain cmd.expenseId
    row).toApprovable = row.chain cmd.expenseId from rfl, startApproval, hne] at hchain
  simp only [Bool.false_eq_true, if_false, Tx.solo_bind_ok, Tx.pure_eq, Tx.solo_ret,
    ApprovalProgressRepository.initializeProgress_ok] at hchain
  obtain ⟨_, _, ⟨hnone, -, rfl⟩, hret⟩ := hchain
  cases hret
  obtain ⟨-, -, rfl⟩ := (ExpenseRepository.save_existing_ok hrow).mp hsave
  rw [enqueue_ok] at hout
  subst hout
  exact ⟨row, hrow, horg, hopen, List.mem_singleton.mp hdraft, hnone, rfl⟩

/-- An approval that succeeds: an admissible decision is appended to the
progress; the last one of the chain approves the (pending) expense. -/
theorem approveExpense_ok {env : Env} {cmd : ApproveExpenseCommand} {d d' : Store} {a : Unit}
    (hal : d.RecordsAligned) (h : (approveExpense env cmd).solo d = .ok (a, d')) :
    ∃ row prow step, d.expenses.lookup cmd.expenseId = some row ∧
      row.organizationId = cmd.organizationId ∧ d.PeriodIsOpen cmd.organizationId row.periodId ∧
      d.approvalProgress.lookup cmd.expenseId = some prow ∧
      row.source.actorId ≠ cmd.approverId ∧
      (¬ ∃ r ∈ prow.records, r.decision = .approved ∧ r.approverId = cmd.approverId) ∧
      (ApprovalChain.of prow.chain).stepAt (prow.records.length + 1) = some step ∧
      HoldsRequiredRole step (some row.departmentId) (d.administration.rolesOf cmd.approverId) ∧
      let final := (ApprovalChain.of prow.chain).isLastStep (prow.records.length + 1)
      (final = true → row.status = .pendingApproval) ∧
      d' = { d with
        approvalProgress := d.decided cmd.expenseId prow (approvalOf env cmd prow)
        expenses := d.expenses.insert cmd.expenseId (
          if final then { row with status := .approved, updatedAt := env.now } else row)
        outbox := d.outbox ++ if final then
          [expenseApproved cmd.expenseId row.organizationId (.user cmd.approverId)] else [] } := by
  simp only [approveExpense, Tx.solo_bind_ok, findExpense_ok, assertPeriodOpen_ok,
    Tx.solo_ofExcept_ok] at h
  obtain ⟨_, _, ⟨⟨row, hrow, horg, rfl⟩, rfl⟩, _, _, ⟨hopen, rfl⟩, _, _, hfind, ⟨p, final⟩, _, hrec,
    e, _, ⟨hfinal, rfl⟩, _, _, hsave, _, _, hsaveE, hout⟩ := h
  obtain ⟨⟨prow, hprow, rfl⟩, rfl⟩ := (findProgress_ok hal).mp hfind
  obtain ⟨hself, hdup, ⟨step, hstep, hrole⟩, rfl, hlast, rfl⟩ :=
    (WorkflowEngine.recordApproval_ok getRolesForUser_solo).mp hrec
  refine ⟨row, prow, step, hrow, horg, hopen, hprow, hself, hdup, hstep, hrole, ?_⟩
  change final = (ApprovalChain.of prow.chain).isLastStep (prow.records.length + 1) at hlast
  rw [← hlast]
  cases final with
  | true =>
    simp only [if_true] at hfinal
    obtain ⟨hpending, rfl⟩ := Expense.transition_ok.mp hfinal
    obtain rfl := (ApprovalProgressRepository.save_appended_ok hprow (hal _ _ hprow) rfl).mp hsave
    obtain ⟨-, -, rfl⟩ := (ExpenseRepository.save_existing_ok hrow).mp hsaveE
    rw [enqueue_ok] at hout
    subst hout
    exact ⟨fun _ => List.mem_singleton.mp hpending, rfl⟩
  | false =>
    simp only [Bool.false_eq_true, if_false, Except.ok.injEq] at hfinal
    subst hfinal
    obtain rfl := (ApprovalProgressRepository.save_appended_ok hprow (hal _ _ hprow) rfl).mp hsave
    obtain ⟨-, -, rfl⟩ := (ExpenseRepository.save_existing_ok hrow).mp hsaveE
    rw [enqueue_ok] at hout
    subst hout
    exact ⟨nofun, rfl⟩

/-- A rejection that succeeds: an admissible decision ends the workflow of the
pending expense. -/
theorem rejectExpense_ok {env : Env} {cmd : RejectExpenseCommand} {d d' : Store} {a : Unit}
    (hal : d.RecordsAligned) (h : (rejectExpense env cmd).solo d = .ok (a, d')) :
    ∃ row prow, d.expenses.lookup cmd.expenseId = some row ∧
      row.organizationId = cmd.organizationId ∧ d.PeriodIsOpen cmd.organizationId row.periodId ∧
      d.approvalProgress.lookup cmd.expenseId = some prow ∧
      row.source.actorId ≠ cmd.approverId ∧ row.status = .pendingApproval ∧
      (∀ step, (ApprovalChain.of prow.chain).stepAt (prow.records.length + 1) = some step →
        HoldsRequiredRole step (some row.departmentId)
          (d.administration.rolesOf cmd.approverId)) ∧
      d' = { d with
        approvalProgress := d.decided cmd.expenseId prow (rejectionOf env cmd prow)
        expenses := d.expenses.insert cmd.expenseId (
          { row with status := .rejected, updatedAt := env.now })
        outbox := d.outbox ++
          [expenseRejected cmd.expenseId row.organizationId cmd.approverId cmd.reason] } := by
  simp only [rejectExpense, Tx.solo_bind_ok, findExpense_ok, assertPeriodOpen_ok,
    Tx.solo_ofExcept_ok] at h
  obtain ⟨_, _, ⟨⟨row, hrow, horg, rfl⟩, rfl⟩, _, _, ⟨hopen, rfl⟩, _, _, hfind, p, _, hrec,
    e, _, ⟨hrej, rfl⟩, _, _, hsave, _, _, hsaveE, hout⟩ := h
  obtain ⟨⟨prow, hprow, rfl⟩, rfl⟩ := (findProgress_ok hal).mp hfind
  obtain ⟨hself, hrole, rfl, rfl⟩ :=
    (WorkflowEngine.recordRejection_ok getRolesForUser_solo).mp hrec
  obtain ⟨hpending, rfl⟩ := Expense.transition_ok.mp hrej
  obtain rfl := (ApprovalProgressRepository.save_appended_ok hprow (hal _ _ hprow) rfl).mp hsave
  obtain ⟨-, -, rfl⟩ := (ExpenseRepository.save_existing_ok hrow).mp hsaveE
  rw [enqueue_ok] at hout
  subst hout
  exact ⟨row, prow, hrow, horg, hopen, hprow, hself, List.mem_singleton.mp hpending, hrole, rfl⟩

/-- A cancellation that succeeds. -/
theorem cancelExpense_ok {env : Env} {cmd : CancelExpenseCommand} {d d' : Store} {a : Unit}
    (h : (cancelExpense env cmd).solo d = .ok (a, d')) :
    ∃ row, d.expenses.lookup cmd.expenseId = some row ∧ row.organizationId = cmd.organizationId ∧
      d.PeriodIsOpen cmd.organizationId row.periodId ∧
      row.status ∈ [ExpenseStatus.draft, .pendingApproval] ∧
      d' = { d with
        expenses := d.expenses.insert cmd.expenseId (
          { row with status := .cancelled, updatedAt := env.now })
        outbox := d.outbox ++
          [expenseCancelled cmd.expenseId row.organizationId cmd.actorId] } := by
  simp only [cancelExpense, Tx.solo_bind_ok, findExpense_ok, assertPeriodOpen_ok,
    Tx.solo_ofExcept_ok] at h
  obtain ⟨_, _, ⟨⟨row, hrow, horg, rfl⟩, rfl⟩, _, _, ⟨hopen, rfl⟩, e, _, ⟨hcancel, rfl⟩,
    _, _, hsave, hout⟩ := h
  obtain ⟨hstatus, rfl⟩ := Expense.transition_ok.mp hcancel
  obtain ⟨-, -, rfl⟩ := (ExpenseRepository.save_existing_ok hrow).mp hsave
  rw [enqueue_ok] at hout
  subst hout
  exact ⟨row, hrow, horg, hopen, hstatus, rfl⟩

/-- What an adjustment command hands to the aggregate. -/
def adjustmentInput (cmd : CreateAdjustmentCommand) (original : ExpenseRow) (periodId : Id)
    (expenseNumber : String) : Expense.AdjustmentInput where
  original := ExpenseRepository.toDomain cmd.originalExpenseId original
  reason := cmd.reason
  currentOpenPeriodId := periodId
  expenseNumber := expenseNumber
  newAmountMinorUnits := cmd.newAmountMinorUnits
  requiresApproval := decide (original.amount.minorUnits < cmd.newAmountMinorUnits)

/-- The row an adjustment is stored as. -/
def adjustmentRow (env : Env) (input : Expense.AdjustmentInput) : ExpenseRow :=
  ExpenseRepository.toRow (Expense.adjustmentProps env.uuid env.now input input.delta)

theorem startAdjustmentApproval_ok {adjustment : Expense} {requires : Bool} {d d' : Store}
    {a : Unit} :
    (startAdjustmentApproval adjustment requires).solo d = .ok (a, d') ↔
      (requires = true → d.approvalProgress.lookup adjustment.props.id = none) ∧
        d' = { d with approvalProgress := if requires then
            d.approvalProgress.insert adjustment.props.id ⟨"Expense",
              (ExpenseApprovalPolicy.resolveChain adjustment.toApprovable).steps, []⟩
          else d.approvalProgress } := by
  simp only [startAdjustmentApproval]
  cases requires with
  | true =>
    simp only [if_true, Tx.solo_bind_ok, ApprovalProgressRepository.initializeProgress_ok,
      Tx.pure_eq, Tx.solo_ret, Except.ok.injEq, Prod.mk.injEq, true_implies]
    refine ⟨?_, ?_⟩
    · rintro ⟨_, _, ⟨hnone, -, rfl⟩, -, rfl⟩
      exact ⟨hnone, rfl⟩
    · rintro ⟨hnone, rfl⟩
      exact ⟨_, _, ⟨hnone, rfl, rfl⟩, trivial, rfl⟩
  | false =>
    simp only [Bool.false_eq_true, if_false, Tx.pure_eq, Tx.solo_ret, Except.ok.injEq,
      Prod.mk.injEq, false_implies, true_and]
    exact eq_comm

/-- An adjustment that succeeds: a new row for the difference, pending with a
progress of its own when it raises the amount, approved otherwise. -/
theorem createAdjustment_ok {env : Env} {cmd : CreateAdjustmentCommand} {d d' : Store} {a : Id}
    (hfresh : d.expenses.lookup env.uuid = none)
    (h : (createAdjustment env cmd).solo d = .ok (a, d')) :
    ∃ original periodId number sequences,
      d.expenses.lookup cmd.originalExpenseId = some original ∧
      original.organizationId = cmd.organizationId ∧ d.PeriodIsOpen cmd.organizationId periodId ∧
      0 ≤ cmd.newAmountMinorUnits ∧ cmd.newAmountMinorUnits ≠ original.amount.minorUnits ∧
      let input := adjustmentInput cmd original periodId number
      let row := adjustmentRow env input
      (input.requiresApproval = true → d.approvalProgress.lookup env.uuid = none) ∧ row.Storable ∧
      d' = { d with
        expenses := d.expenses.insert env.uuid row
        expenseNumberSequences := sequences
        approvalProgress := if input.requiresApproval then
            d.approvalProgress.insert env.uuid ⟨"Expense", (row.chain env.uuid).steps, []⟩
          else d.approvalProgress
        outbox := d.outbox ++ Expense.adjustmentEvents env.uuid input } := by
  simp only [createAdjustment, Tx.solo_bind_ok, findExpense_ok, Tx.solo_ofExcept_ok, enqueue_ok,
    Tx.pure_eq, Tx.solo_ret, startAdjustmentApproval_ok] at h
  obtain ⟨period, _, hperiod, _, _, ⟨⟨original, horiginal, horg, rfl⟩, rfl⟩, number, _, hnumber,
    adj, _, ⟨hadj, rfl⟩, _, _, hsave, _, _, ⟨hstart, rfl⟩, _, _, rfl, hret⟩ := h
  obtain ⟨rfl, hopen⟩ := requireOpenPeriod_ok hperiod
  obtain ⟨sequences, rfl⟩ := ExpenseRepository.nextExpenseNumber_ok hnumber
  obtain ⟨-, hneg, hdelta, rfl⟩ := Expense.createAdjustment_ok.mp hadj
  obtain ⟨hstorable, rfl⟩ := ExpenseRepository.save_new_ok hfresh hsave
  cases hret
  have hne : cmd.newAmountMinorUnits ≠ original.amount.minorUnits := fun he => hdelta (by
    rw [Expense.AdjustmentInput.delta]
    simp only [ExpenseRepository.toDomain, Expense.reconstitute, he, sub_self])
  exact ⟨original, period.props.id, number, sequences, horiginal, horg, hopen, hneg, hne, hstart,
    hstorable, rfl⟩

end RatelPlatform
