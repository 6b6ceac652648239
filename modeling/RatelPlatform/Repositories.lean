import RatelPlatform.Store
import Mathlib.Data.Finset.Sort

/-!
# The repositories

Every database statement a handler causes, with the rows it locks and the
constraints it can violate. A `save` is an upsert that, on a row that exists,
writes only the columns the source lists in its `update`.

Each operation comes with what running it alone means, so that no handler proof
looks inside it again.
-/

namespace RatelPlatform

/-- What fits a `BIGINT` column. -/
def FitsBigInt (n : ℤ) : Prop := -9223372036854775808 ≤ n ∧ n ≤ 9223372036854775807

instance (n : ℤ) : Decidable (FitsBigInt n) := inferInstanceAs (Decidable (_ ∧ _))

/-- The amount is one the table of expenses accepts. -/
def ExpenseRow.Storable (row : ExpenseRow) : Prop :=
  FitsBigInt row.amount.minorUnits ∧ row.amount.minorUnits ≠ 0

/-! ## Roles and reference data -/

/-- The roles a user holds, by the two tables. -/
def Administration.rolesOf (a : Administration) (userId : Id) : List RoleAssignment :=
  ((a.departmentRoleAssignments.filter fun r => r.userId = userId).map fun r =>
      ⟨r.role, some r.departmentId, r.organizationId⟩) ++
    (a.organizationRoleAssignments.filter fun r => r.userId = userId).map fun r =>
      ⟨r.role, none, r.organizationId⟩

/-- `PrismaUserRoleService.getRolesForUser` -/
def getRolesForUser (userId : Id) : StoreTx (List RoleAssignment) := do
  let departmentRows ← .select fun d =>
    d.administration.departmentRoleAssignments.filter fun r => r.userId = userId
  let organizationRows ← .select fun d =>
    d.administration.organizationRoleAssignments.filter fun r => r.userId = userId
  pure ((departmentRows.map fun r => ⟨r.role, some r.departmentId, r.organizationId⟩) ++
    organizationRows.map fun r => ⟨r.role, none, r.organizationId⟩)

theorem getRolesForUser_solo (userId : Id) (d : Store) :
    (getRolesForUser userId).solo d = .ok (d.administration.rolesOf userId, d) := rfl

/-- Some active row of the organization has the id. -/
def HasActive (rows : List ReferenceRow) (id organizationId : Id) : Prop :=
  ∃ r ∈ rows, r.id = id ∧ r.organizationId = organizationId ∧ r.isActive = true

instance (rows : List ReferenceRow) (id organizationId : Id) :
    Decidable (HasActive rows id organizationId) :=
  inferInstanceAs (Decidable (∃ r ∈ rows, _))

/-- Reference data a command names has to be there and active. -/
def assertActive (rows : Administration → List ReferenceRow) (entityType : String)
    (id organizationId : Id) : StoreTx Unit := do
  let found ← .select fun d => decide (HasActive (rows d.administration) id organizationId)
  .require (found = true) (.domain (.inactiveOrMissingReferenceData entityType id))

/-- An optional reference is checked only when it is given. -/
def assertActiveIfGiven (rows : Administration → List ReferenceRow) (entityType : String)
    (id : Option Id) (organizationId : Id) : StoreTx Unit :=
  match id with
  | none => pure ()
  | some id => assertActive rows entityType id organizationId

/-- `findActiveForEmployee`: the highest version that is not closed. -/
def Administration.activeStructure (a : Administration) (employeeId : Id) :
    Option SalaryStructureProps :=
  ((a.salaryStructures.filter fun s => s.employeeId = employeeId ∧ s.effectiveTo = none).insertionSort
    fun s t => t.version ≤ s.version).head?

/-! ## Financial periods -/

namespace FinancialPeriodRepository

/-- A row as an aggregate. -/
def toDomain (id : Id) (row : FinancialPeriodRow) : FinancialPeriod :=
  .reconstitute { row with id }

/-- `findById` -/
def findById (id : Id) : StoreTx (Option FinancialPeriod) := do
  let row ← .select fun d => d.financialPeriods.lookup id
  pure (row.map (toDomain id))

theorem findById_solo (id : Id) (d : Store) :
    (findById id).solo d = .ok ((d.financialPeriods.lookup id).map (toDomain id), d) := rfl

/-- `findByIdForOrganization`: both conditions in one query. -/
def findByIdForOrganization (id organizationId : Id) : StoreTx (Option FinancialPeriod) := do
  let row ← .select fun d =>
    (d.financialPeriods.lookup id).filter fun row => row.organizationId = organizationId
  pure (row.map (toDomain id))

theorem findByIdForOrganization_solo (id organizationId : Id) (d : Store) :
    (findByIdForOrganization id organizationId).solo d =
      .ok (((d.financialPeriods.lookup id).filter fun row =>
        row.organizationId = organizationId).map (toDomain id), d) := rfl

/-- The start of a period, if it is an open one of the organization. -/
def openStart (d : Store) (organizationId id : Id) : Option ℤ :=
  ((d.financialPeriods.lookup id).filter fun row =>
    row.organizationId = organizationId ∧ row.status ∈ PeriodStatus.openStatuses).map
      fun row => row.startDate.ms

/-- The open periods of an organization with the latest start date. -/
def latestOpen (d : Store) (organizationId : Id) : Finset Id :=
  d.financialPeriods.keys.filter fun id =>
    (openStart d organizationId id).any fun start =>
      decide (∀ id' ∈ d.financialPeriods.keys,
        (openStart d organizationId id').all fun start' => start' ≤ start)

theorem mem_latestOpen_iff {d : Store} {organizationId id : Id} :
    id ∈ latestOpen d organizationId ↔ ∃ start, openStart d organizationId id = some start ∧
      ∀ id' start', openStart d organizationId id' = some start' → start' ≤ start := by
  -- where there is a start there is a row
  have hmem : ∀ {id' : Id} {start : ℤ}, openStart d organizationId id' = some start →
      id' ∈ d.financialPeriods.keys := by
    intro id' start hstart
    obtain ⟨row, hrow, -⟩ := Option.map_eq_some_iff.mp hstart
    exact (Table.mem_keys_iff _ _).mpr ⟨row, (Option.filter_eq_some_iff.mp hrow).1⟩
  simp only [latestOpen, Finset.mem_filter, Option.any_eq_true, Option.all_eq_true,
    decide_eq_true_eq]
  refine ⟨?_, ?_⟩
  · rintro ⟨-, start, hstart, hlatest⟩
    exact ⟨start, hstart, fun id' start' hstart' => hlatest id' (hmem hstart') start' hstart'⟩
  · rintro ⟨start, hstart, hlatest⟩
    exact ⟨hmem hstart, start, hstart, fun id' _ start' => hlatest id' start'⟩

/-- The first row of the open periods by descending start date. Which of several
with one start date comes first is up to the database: it takes `tie` if that is
one of them. -/
def currentOpen (d : Store) (organizationId tie : Id) : Option Id :=
  if tie ∈ latestOpen d organizationId then some tie
  else ((latestOpen d organizationId).sort (· ≤ ·)).head?

/-- `findCurrentOpen` -/
def findCurrentOpen (organizationId tie : Id) : StoreTx (Option FinancialPeriod) := do
  let row ← .select fun d => (currentOpen d organizationId tie).bind fun id =>
    (d.financialPeriods.lookup id).map fun row => (id, row)
  pure (row.map fun r => toDomain r.1 r.2)

theorem findCurrentOpen_solo (organizationId tie : Id) (d : Store) :
    (findCurrentOpen organizationId tie).solo d =
      .ok (((currentOpen d organizationId tie).bind fun id =>
        (d.financialPeriods.lookup id).map fun row => (id, row)).map
          fun r => toDomain r.1 r.2, d) := rfl

theorem periodIsOpen_of_mem_latestOpen {d : Store} {organizationId id : Id}
    (h : id ∈ latestOpen d organizationId) : d.PeriodIsOpen organizationId id := by
  unfold latestOpen openStart at h
  rw [Finset.mem_filter] at h
  obtain ⟨-, h⟩ := h
  rcases hrow : d.financialPeriods.lookup id with _ | row
  · simp [hrow] at h
  · by_cases hp : row.organizationId = organizationId ∧ row.status ∈ PeriodStatus.openStatuses
    · exact ⟨row, hrow, hp⟩
    · rw [hrow, Option.filter_some, if_neg (by simpa using hp)] at h
      cases h

theorem periodIsOpen_of_currentOpen {d : Store} {organizationId tie id : Id}
    (h : currentOpen d organizationId tie = some id) : d.PeriodIsOpen organizationId id := by
  simp only [currentOpen] at h
  split_ifs at h with htie
  · cases h
    exact periodIsOpen_of_mem_latestOpen htie
  · exact periodIsOpen_of_mem_latestOpen ((Finset.mem_sort _).mp (List.mem_of_head? h))

/-- What `findCurrentOpen` finds is an open period of the organization. -/
theorem findCurrentOpen_ok {organizationId tie : Id} {d d' : Store} {p : FinancialPeriod}
    (h : (findCurrentOpen organizationId tie).solo d = .ok (some p, d')) :
    d' = d ∧ d.PeriodIsOpen organizationId p.props.id := by
  rw [findCurrentOpen_solo] at h
  simp only [Except.ok.injEq, Prod.mk.injEq, Option.map_eq_some_iff, Option.bind_eq_some_iff] at h
  obtain ⟨⟨-, ⟨id, hid, row, hrow, rfl⟩, rfl⟩, rfl⟩ := h
  exact ⟨rfl, periodIsOpen_of_currentOpen hid⟩

/-- Some period of the organization has these dates. -/
def DatesTaken (d : Store) (row : FinancialPeriodRow) : Prop :=
  ∃ id ∈ d.financialPeriods.keys, ((d.financialPeriods.lookup id).any fun r =>
    r.organizationId = row.organizationId ∧ r.startDate = row.startDate ∧ r.endDate = row.endDate)

instance (d : Store) (row : FinancialPeriodRow) : Decidable (DatesTaken d row) :=
  inferInstanceAs (Decidable (∃ id ∈ d.financialPeriods.keys, _))

/-- `save` -/
def save (period : FinancialPeriod) : StoreTx Unit :=
  let props := period.props
  let row : FinancialPeriodRow := { props.toFinancialPeriodRow with
    startDate := props.startDate.day, endDate := props.endDate.day }
  .exec
    (fun d => .financialPeriod props.id ::
      if props.id ∈ d.financialPeriods then []
      else [.periodDates row.organizationId row.startDate row.endDate])
    fun d =>
      if props.id ∈ d.financialPeriods then
        pure fun d => { d with
          financialPeriods := Table.update d.financialPeriods props.id fun old => { old with
            status := props.status, closedById := props.closedById, closedAt := props.closedAt } }
      else do
        ensure (row.startDate.ms < row.endDate.ms) (.database "chk_period_dates")
        ensure (¬ DatesTaken d row) (.database "uq_org_period")
        pure fun d => { d with financialPeriods := d.financialPeriods.insert props.id row }

/-- Saving touches the table of periods only, and of a period that exists only
the status and the closing columns. -/
theorem save_ok {p : FinancialPeriod} {d d' : Store} {a : Unit}
    (h : (save p).solo d = .ok (a, d')) :
    (∃ row, d.financialPeriods.lookup p.props.id = some row ∧
      d' = { d with financialPeriods := d.financialPeriods.insert p.props.id { row with
        status := p.props.status, closedById := p.props.closedById
        closedAt := p.props.closedAt } }) ∨
    (d.financialPeriods.lookup p.props.id = none ∧
      ∃ row, d' = { d with financialPeriods := d.financialPeriods.insert p.props.id row }) := by
  simp only [save, Tx.solo_exec_ok] at h
  obtain ⟨patch, hf, rfl⟩ := h
  split_ifs at hf with hmem
  · obtain ⟨row, hrow⟩ := Option.isSome_iff_exists.mp (Finmap.lookup_isSome.mpr hmem)
    rw [except_pure_ok] at hf
    subst hf
    refine .inl ⟨row, hrow, ?_⟩
    simp only [Table.update_of_lookup hrow]
  · simp only [except_bind_ok, except_pure_ok] at hf
    obtain ⟨-, -, -, -, rfl⟩ := hf
    exact .inr ⟨Finmap.lookup_eq_none.mpr hmem, _, rfl⟩

end FinancialPeriodRepository

/-- `PeriodStatusAdapter.isOpen`. It reads on a connection of its own; no handler
has written a period by then, so it sees the same rows. -/
def isOpen (organizationId periodId : Id) : StoreTx Bool := do
  let period ← FinancialPeriodRepository.findById periodId
  match period with
  | none => pure false
  | some period =>
    if period.props.organizationId ≠ organizationId then pure false else pure period.isOpen

theorem isOpen_solo (organizationId periodId : Id) (d : Store) :
    (isOpen organizationId periodId).solo d =
      .ok (decide (d.PeriodIsOpen organizationId periodId), d) := by
  simp only [isOpen, Store.PeriodIsOpen]
  rw [Tx.solo_bind_of_ok (FinancialPeriodRepository.findById_solo periodId d)]
  obtain hrow | ⟨row, hrow⟩ := Option.eq_none_or_eq_some (d.financialPeriods.lookup periodId)
  · simp [hrow]
  · by_cases horg : row.organizationId = organizationId
    · simp [hrow, horg, FinancialPeriodRepository.toDomain, FinancialPeriod.reconstitute,
        FinancialPeriod.isOpen]
    · simp [hrow, horg, FinancialPeriodRepository.toDomain, FinancialPeriod.reconstitute]

/-! ## Expenses -/

namespace ExpenseRepository

/-- A row as an aggregate. -/
def toDomain (id : Id) (row : ExpenseRow) : Expense := .reconstitute { row with id }

/-- `findById` -/
def findById (id : Id) : StoreTx (Option Expense) := do
  let row ← .select fun d => d.expenses.lookup id
  pure (row.map (toDomain id))

theorem findById_solo (id : Id) (d : Store) :
    (findById id).solo d = .ok ((d.expenses.lookup id).map (toDomain id), d) := rfl

/-- Some expense of the organization has the number. -/
def NumberTaken (d : Store) (row : ExpenseRow) : Prop :=
  ∃ id ∈ d.expenses.keys, ((d.expenses.lookup id).any fun r =>
    r.organizationId = row.organizationId ∧ r.expenseNumber = row.expenseNumber)

instance (d : Store) (row : ExpenseRow) : Decidable (NumberTaken d row) :=
  inferInstanceAs (Decidable (∃ id ∈ d.expenses.keys, _))

/-- The row a new expense is stored as: a `DATE` column keeps the day. -/
def toRow (props : ExpenseProps) : ExpenseRow :=
  { props.toExpenseRow with expenseDate := props.expenseDate.day }

/-- The columns an update writes. -/
def updateRow (props : ExpenseProps) (old : ExpenseRow) : ExpenseRow :=
  { old with
    status := props.status
    amount := props.amount
    categoryId := props.categoryId
    vendorId := props.vendorId
    projectId := props.projectId
    description := props.description
    updatedAt := props.updatedAt }

/-- `save`. A loaded expense has the stored date, so the composite key of the
upsert finds a row exactly when the id does. -/
def save (expense : Expense) : StoreTx Unit :=
  let props := expense.props
  .exec
    (fun d => .expense props.id :: if props.id ∈ d.expenses then []
      else [.expenseNumber props.organizationId props.expenseNumber])
    fun d => do
      ensure (FitsBigInt props.amount.minorUnits) (.database "amount_minor_units out of range")
      ensure (props.amount.minorUnits ≠ 0) (.database "chk_amount_nonzero")
      if props.id ∈ d.expenses then
        pure fun d => { d with expenses := Table.update d.expenses props.id (updateRow props) }
      else do
        ensure (props.parentExpenseId = none ∨ props.adjustmentReason ≠ none)
          (.database "chk_adjustment_requires_reason")
        ensure (¬ NumberTaken d (toRow props))
          (.database "expenses_organization_id_expense_number_key")
        pure fun d => { d with expenses := d.expenses.insert props.id (toRow props) }

/-- Saving an expense that has a row writes the update columns of that row. -/
theorem save_existing_ok {e : Expense} {d d' : Store} {row : ExpenseRow} {a : Unit}
    (hrow : d.expenses.lookup e.props.id = some row) :
    (save e).solo d = .ok (a, d') ↔
      FitsBigInt e.props.amount.minorUnits ∧ e.props.amount.minorUnits ≠ 0 ∧
        d' = { d with expenses := d.expenses.insert e.props.id (updateRow e.props row) } := by
  have hmem : e.props.id ∈ d.expenses :=
    Finmap.lookup_isSome.mp (Option.isSome_iff_exists.mpr ⟨row, hrow⟩)
  simp only [save, Tx.solo_exec_ok, except_bind_ok, ensure_ok, if_pos hmem, except_pure_ok]
  refine ⟨?_, ?_⟩
  · rintro ⟨-, ⟨-, hfits, -, hzero, rfl⟩, rfl⟩
    exact ⟨hfits, hzero, by simp only [Table.update_of_lookup hrow]⟩
  · rintro ⟨hfits, hzero, rfl⟩
    exact ⟨_, ⟨(), hfits, (), hzero, rfl⟩, by simp only [Table.update_of_lookup hrow]⟩

/-- Saving a new expense inserts its row. -/
theorem save_new_ok {e : Expense} {d d' : Store} {a : Unit}
    (hrow : d.expenses.lookup e.props.id = none) (h : (save e).solo d = .ok (a, d')) :
    (toRow e.props).Storable ∧
      d' = { d with expenses := d.expenses.insert e.props.id (toRow e.props) } := by
  have hmem : e.props.id ∉ d.expenses := Finmap.lookup_eq_none.mp hrow
  simp only [save, Tx.solo_exec_ok, except_bind_ok, ensure_ok, if_neg hmem, except_pure_ok] at h
  obtain ⟨-, ⟨-, hfits, -, hzero, -, -, -, -, rfl⟩, rfl⟩ := h
  exact ⟨⟨hfits, hzero⟩, rfl⟩

/-- `EXP-` and the number, padded to six digits. -/
def formatExpenseNumber (value : ℕ) : String :=
  let digits := Nat.toDigits 10 value
  "EXP-" ++ String.ofList (List.replicate (6 - digits.length) '0' ++ digits)

/-- `nextExpenseNumber`: an atomic increment-and-read of the organization's
sequence. -/
def nextExpenseNumber (organizationId : Id) : StoreTx String := do
  let nextValue ← Tx.write (fun _ => [.expenseNumberSequence organizationId])
    (fun d => do
      let nextValue := match d.expenseNumberSequences.lookup organizationId with
        | none => 2
        | some n => n + 1
      ensure (nextValue ≤ 2147483647) (.database "next_value out of range")
      pure (nextValue, fun d : Store => { d with
        expenseNumberSequences := d.expenseNumberSequences.insert organizationId nextValue }))
    Tx.ret
  pure (formatExpenseNumber (nextValue - 1))

/-- Drawing a number touches the sequences only. -/
theorem nextExpenseNumber_ok {organizationId : Id} {d d' : Store} {number : String}
    (h : (nextExpenseNumber organizationId).solo d = .ok (number, d')) :
    ∃ sequences, d' = { d with expenseNumberSequences := sequences } := by
  simp only [nextExpenseNumber, Tx.solo_bind_ok, Tx.pure_eq, Tx.solo_ret] at h
  obtain ⟨nextValue, d₁, hw, hret⟩ := h
  cases hret
  rw [Tx.solo] at hw
  split at hw
  · cases hw
  · next b patch hf =>
    simp only [except_bind_ok, except_pure_ok, Prod.mk.injEq] at hf
    obtain ⟨-, -, -, rfl⟩ := hf
    cases hw
    exact ⟨_, rfl⟩

end ExpenseRepository

/-! ## Approval progress -/

namespace ApprovalProgressRepository

/-- `initialize`: a progress row is keyed uniquely by its item. -/
def initializeProgress (itemId : Id) (itemType : String) (chain : ApprovalChain) :
    StoreTx ApprovalProgress := do
  .exec (fun _ => [.approvalProgress itemId]) fun d => do
    ensure (itemId ∉ d.approvalProgress) (.database "approval_progress_item_id_key")
    pure fun d => { d with
      approvalProgress := d.approvalProgress.insert itemId ⟨itemType, chain.steps, []⟩ }
  pure (.start itemId chain)

theorem initializeProgress_ok {itemId : Id} {itemType : String} {chain : ApprovalChain}
    {d d' : Store} {p : ApprovalProgress} :
    (initializeProgress itemId itemType chain).solo d = .ok (p, d') ↔
      d.approvalProgress.lookup itemId = none ∧ p = .start itemId chain ∧
        d' = { d with
          approvalProgress := d.approvalProgress.insert itemId ⟨itemType, chain.steps, []⟩ } := by
  simp only [initializeProgress, Tx.solo_bind_ok, Tx.solo_exec_ok, except_bind_ok, ensure_ok,
    except_pure_ok, Tx.pure_eq, Tx.solo_ret, Except.ok.injEq, Prod.mk.injEq,
    ← Finmap.lookup_eq_none]
  refine ⟨?_, ?_⟩
  · rintro ⟨-, _, ⟨-, ⟨-, hnone, rfl⟩, rfl⟩, rfl, rfl⟩
    exact ⟨hnone, rfl, rfl⟩
  · rintro ⟨hnone, rfl, rfl⟩
    exact ⟨(), _, ⟨_, ⟨(), hnone, rfl⟩, rfl⟩, rfl, rfl⟩

/-- The records of an item, by step. -/
def recordsOf (d : Store) (itemId : Id) : List ApprovalRecord :=
  match d.approvalProgress.lookup itemId with
  | none => []
  | some row => row.records.insertionSort fun a b => a.stepOrder ≤ b.stepOrder

/-- `findByItemId`: the row, and with a second query its records. -/
def findByItemId (itemId : Id) : StoreTx (Option ApprovalProgress) := do
  let chain ← .select fun d => (d.approvalProgress.lookup itemId).map ApprovalProgressRow.chain
  match chain with
  | none => pure none
  | some chain => do
    let records ← .select fun d => recordsOf d itemId
    pure (some ⟨itemId, .of chain, records⟩)

theorem findByItemId_solo (itemId : Id) (d : Store) :
    (findByItemId itemId).solo d =
      .ok ((d.approvalProgress.lookup itemId).map fun row =>
        ⟨itemId, .of row.chain, recordsOf d itemId⟩, d) := by
  simp only [findByItemId]
  rw [Tx.solo_select_bind]
  rcases d.approvalProgress.lookup itemId with _ | row <;> rfl

/-- `save`: appends the records of steps that have none yet. -/
def save (itemId : Id) (progress : ApprovalProgress) : StoreTx Unit := do
  let found ← .select fun d => decide (itemId ∈ d.approvalProgress)
  .require (found = true) (.database "No ApprovalProgress found")
  let existingSteps ← .select fun d => (recordsOf d itemId).map ApprovalRecord.stepOrder
  let newRecords := progress.records.filter fun r => r.stepOrder ∉ existingSteps
  if newRecords = [] then pure ()
  else
    .exec (fun _ => newRecords.map fun r => .approvalRecord itemId r.stepOrder) fun d => do
      ensure ((((recordsOf d itemId) ++ newRecords).map ApprovalRecord.stepOrder).Nodup)
        (.database "approval_records_progress_id_step_order_key")
      pure fun d => { d with
        approvalProgress := Table.update d.approvalProgress itemId fun row =>
          { row with records := row.records ++ newRecords } }

/-- The records are those of the steps 1 to k, in order. -/
def Aligned (records : List ApprovalRecord) : Prop :=
  records.map ApprovalRecord.stepOrder = List.range' 1 records.length

theorem Aligned.recordsOf_eq {d : Store} {itemId : Id} {row : ApprovalProgressRow}
    (h : Aligned row.records) (hrow : d.approvalProgress.lookup itemId = some row) :
    recordsOf d itemId = row.records := by
  simp only [recordsOf]
  rw [hrow]
  refine List.Pairwise.insertionSort_eq ?_
  have hsorted : (row.records.map ApprovalRecord.stepOrder).Pairwise (· ≤ ·) := by
    rw [h]
    exact (List.pairwise_lt_range' 1).imp Nat.le_of_lt
  exact List.pairwise_map.mp hsorted

theorem Aligned.append {records : List ApprovalRecord} (h : Aligned records) {r : ApprovalRecord}
    (hr : r.stepOrder = records.length + 1) : Aligned (records ++ [r]) := by
  simp only [Aligned] at *
  rw [List.map_append, h, List.length_append, List.length_singleton, List.map_singleton, hr,
    ← List.range'_append_1, Nat.add_comm 1]
  rfl

/-- Saving a progress that has one decision more than its (aligned) row appends
that decision. -/
theorem save_appended_ok {itemId : Id} {d d' : Store} {row : ApprovalProgressRow}
    {chain : ApprovalChain} {r : ApprovalRecord} {a : Unit}
    (hrow : d.approvalProgress.lookup itemId = some row) (hal : Aligned row.records)
    (hr : r.stepOrder = row.records.length + 1) :
    (save itemId ⟨itemId, chain, row.records ++ [r]⟩).solo d = .ok (a, d') ↔
      d' = { d with approvalProgress :=
        d.approvalProgress.insert itemId { row with records := row.records ++ [r] } } := by
  have hmem : itemId ∈ d.approvalProgress :=
    Finmap.lookup_isSome.mp (Option.isSome_iff_exists.mpr ⟨row, hrow⟩)
  have hfresh : r.stepOrder ∉ row.records.map ApprovalRecord.stepOrder := by
    rw [hal, List.mem_range'_1]
    omega
  have hnew : ((row.records ++ [r]).filter fun q =>
      q.stepOrder ∉ row.records.map ApprovalRecord.stepOrder) = [r] := by
    rw [List.filter_append, List.filter_eq_nil_iff.mpr, List.nil_append, List.filter_singleton]
    · simp [hfresh]
    · intro q hq
      simp [List.mem_map_of_mem hq]
  have hnodup : ((row.records ++ [r]).map ApprovalRecord.stepOrder).Nodup := by
    rw [hal.append hr]
    exact List.nodup_range'
  simp only [save]
  rw [Tx.solo_select_bind, Tx.solo_require_bind (decide_eq_true hmem), Tx.solo_select_bind,
    hal.recordsOf_eq hrow]
  simp only [hnew, List.cons_ne_nil, if_false, Tx.solo_exec_ok, except_bind_ok, ensure_ok,
    except_pure_ok, hal.recordsOf_eq hrow, hnodup]
  refine ⟨?_, ?_⟩
  · rintro ⟨-, ⟨-, -, rfl⟩, rfl⟩
    simp only [Table.update_of_lookup hrow]
  · rintro rfl
    exact ⟨_, ⟨(), trivial, rfl⟩, by simp only [Table.update_of_lookup hrow]⟩

end ApprovalProgressRepository

/-! ## Payroll runs -/

namespace PayrollRunRepository

/-- The payslips of a run. -/
def payslipsOf (d : Store) (runId : Id) : List PayslipProps :=
  ((d.payrollRuns.lookup runId).map PayrollRunRow.payslips).getD []

/-- `findById`: the row, and with a second query its payslips. -/
def findById (id : Id) : StoreTx (Option PayrollRun) := do
  let columns ← .select fun d => (d.payrollRuns.lookup id).map PayrollRunRow.columns
  match columns with
  | none => pure none
  | some columns => do
    let payslips ← .select fun d => payslipsOf d id
    pure (some (.reconstitute { columns with id } payslips))

theorem findById_solo (id : Id) (d : Store) :
    (findById id).solo d = .ok ((d.payrollRuns.lookup id).map fun row =>
      .reconstitute { row.columns with id } row.payslips, d) := by
  simp only [findById]
  rw [Tx.solo_select_bind]
  rcases h : d.payrollRuns.lookup id with _ | row
  · rfl
  · rw [Option.map_some]
    simp only [Tx.solo_select_bind, payslipsOf, h]
    rfl

/-- Some run of the organization is of that month. -/
def MonthTaken (d : Store) (organizationId : Id) (runMonth : JsDate) : Prop :=
  ∃ id ∈ d.payrollRuns.keys, ((d.payrollRuns.lookup id).any fun r =>
    r.columns.organizationId = organizationId ∧ r.columns.runMonth = runMonth)

instance (d : Store) (organizationId : Id) (runMonth : JsDate) :
    Decidable (MonthTaken d organizationId runMonth) :=
  inferInstanceAs (Decidable (∃ id ∈ d.payrollRuns.keys, _))

/-- `findByOrgAndMonth`, of which its caller uses only whether there is a run. -/
def existsForOrgAndMonth (organizationId : Id) (runMonth : JsDate) : StoreTx Bool :=
  .select fun d => decide (MonthTaken d organizationId runMonth.day)

/-- The columns an update writes. -/
def updateColumns (props : PayrollRunProps) (old : PayrollRunRow) : PayrollRunRow :=
  { old with
    columns := { old.columns with
      status := props.status, approvedById := props.approvedById, approvedAt := props.approvedAt } }

/-- The upsert of a run. -/
def upsertRun (props : PayrollRunProps) : StoreTx Unit :=
  .exec
    (fun d => .payrollRun props.id :: if props.id ∈ d.payrollRuns then []
      else [.payrollRunMonth props.organizationId props.runMonth.day])
    fun d =>
      if props.id ∈ d.payrollRuns then
        pure fun d => { d with
          payrollRuns := Table.update d.payrollRuns props.id (updateColumns props) }
      else do
        ensure (¬ MonthTaken d props.organizationId props.runMonth.day)
          (.database "payroll_runs_organization_id_run_month_key")
        pure fun d => { d with
          payrollRuns := d.payrollRuns.insert props.id
            ⟨{ props.toPayrollRunColumns with runMonth := props.runMonth.day }, []⟩ }

/-- The insertion of a payslip. -/
def insertPayslip (runId : Id) (payslip : PayslipProps) : StoreTx Unit :=
  .exec (fun _ => [.payslip runId payslip.employeeId]) fun d => do
    ensure (FitsBigInt payslip.grossPay.minorUnits ∧ FitsBigInt payslip.netPay.minorUnits)
      (.database "pay out of range")
    ensure (payslip.netPay.minorUnits ≤ payslip.grossPay.minorUnits) (.database "chk_net_lte_gross")
    ensure (payslip.employeeId ∉ (payslipsOf d runId).map PayslipProps.employeeId)
      (.database "payslips_payroll_run_id_employee_id_key")
    pure fun d => { d with
      payrollRuns := Table.update d.payrollRuns runId fun row =>
        { row with payslips := row.payslips ++ [payslip] } }

/-- The loop over the payslips to insert. -/
def insertPayslips (runId : Id) : List PayslipProps → StoreTx Unit
  | [] => pure ()
  | payslip :: payslips => do
    insertPayslip runId payslip
    insertPayslips runId payslips

/-- `save`: the run, then the payslips of employees that have none in it yet. -/
def save (run : PayrollRun) : StoreTx Unit := do
  upsertRun run.props
  let existingIds ← .select fun d => (payslipsOf d run.props.id).map PayslipProps.employeeId
  insertPayslips run.props.id (run.payslips.filter fun p => p.employeeId ∉ existingIds)

theorem payslipsOf_eq {d : Store} {id : Id} {row : PayrollRunRow}
    (hrow : d.payrollRuns.lookup id = some row) : payslipsOf d id = row.payslips := by
  simp only [payslipsOf]
  rw [hrow]
  rfl

theorem upsertRun_existing {props : PayrollRunProps} {d : Store} {row : PayrollRunRow}
    (hrow : d.payrollRuns.lookup props.id = some row) :
    (upsertRun props).solo d = .ok ((), { d with
      payrollRuns := d.payrollRuns.insert props.id (updateColumns props row) }) := by
  have hmem : props.id ∈ d.payrollRuns :=
    Finmap.lookup_isSome.mp (Option.isSome_iff_exists.mpr ⟨row, hrow⟩)
  simp only [upsertRun]
  rw [Tx.solo_exec_ok]
  refine ⟨_, by rw [if_pos hmem]; rfl, ?_⟩
  simp only [Table.update_of_lookup hrow]

/-- Saving a loaded run whose payslips are all stored writes the update columns
of its row. -/
theorem save_loaded_ok {run : PayrollRun} {d d' : Store} {a : Unit} (row : PayrollRunRow)
    (hrow : d.payrollRuns.lookup run.props.id = some row) (hp : run.payslips = row.payslips) :
    (save run).solo d = .ok (a, d') ↔ d' = { d with
      payrollRuns := d.payrollRuns.insert run.props.id (updateColumns run.props row) } := by
  have hlookup : (d.payrollRuns.insert run.props.id (updateColumns run.props row)).lookup
      run.props.id = some (updateColumns run.props row) := Finmap.lookup_insert _
  have hnew : (run.payslips.filter fun p =>
      p.employeeId ∉ (updateColumns run.props row).payslips.map PayslipProps.employeeId) = [] := by
    rw [List.filter_eq_nil_iff, hp]
    intro p hmem
    simp [updateColumns, List.mem_map_of_mem hmem]
  simp only [save]
  rw [Tx.solo_bind_of_ok (upsertRun_existing hrow), Tx.solo_select_bind, payslipsOf_eq hlookup,
    hnew, insertPayslips, Tx.pure_eq, Tx.solo_ret, Except.ok.injEq, Prod.mk.injEq, eq_comm (b := d')]
  exact and_iff_right rfl

/-- The columns and the checks of the table accept the payslip. -/
def Insertable (payslip : PayslipProps) : Prop :=
  FitsBigInt payslip.grossPay.minorUnits ∧ FitsBigInt payslip.netPay.minorUnits ∧
    payslip.netPay.minorUnits ≤ payslip.grossPay.minorUnits

instance (payslip : PayslipProps) : Decidable (Insertable payslip) :=
  inferInstanceAs (Decidable (_ ∧ _))

/-- Saving a loaded run with one payslip more appends that payslip. -/
theorem save_added_ok {run : PayrollRun} {d d' : Store} {row : PayrollRunRow} {p : PayslipProps}
    {a : Unit} (hrow : d.payrollRuns.lookup run.props.id = some row)
    (hp : run.payslips = row.payslips ++ [p])
    (hfresh : p.employeeId ∉ row.payslips.map PayslipProps.employeeId) :
    (save run).solo d = .ok (a, d') ↔ Insertable p ∧
      d' = { d with payrollRuns := d.payrollRuns.insert run.props.id (
        { updateColumns run.props row with payslips := row.payslips ++ [p] }) } := by
  have hlookup : (d.payrollRuns.insert run.props.id (updateColumns run.props row)).lookup
      run.props.id = some (updateColumns run.props row) := Finmap.lookup_insert _
  have hnew : (run.payslips.filter fun q =>
      q.employeeId ∉ (updateColumns run.props row).payslips.map PayslipProps.employeeId) = [p] := by
    rw [hp, List.filter_append, List.filter_eq_nil_iff.mpr, List.nil_append, List.filter_singleton]
    · simp [updateColumns, hfresh]
    · intro q hq
      simp [updateColumns, List.mem_map_of_mem hq]
  have hinserted : (d.payrollRuns.insert run.props.id (updateColumns run.props row)).insert
      run.props.id { updateColumns run.props row with payslips := row.payslips ++ [p] } =
      d.payrollRuns.insert run.props.id
        { updateColumns run.props row with payslips := row.payslips ++ [p] } :=
    Finmap.insert_insert _
  simp only [save]
  rw [Tx.solo_bind_of_ok (upsertRun_existing hrow), Tx.solo_select_bind, payslipsOf_eq hlookup,
    hnew]
  simp only [insertPayslips, insertPayslip, Tx.solo_bind_ok, Tx.solo_exec_ok,
    except_bind_ok, ensure_ok, except_pure_ok, Tx.pure_eq, Tx.solo_ret]
  refine ⟨?_, ?_⟩
  · rintro ⟨_, _, ⟨_, ⟨_, ⟨hgross, hnet⟩, _, hle, _, -, rfl⟩, rfl⟩, hret⟩
    cases hret
    simp only [Table.update_of_lookup hlookup]
    exact ⟨⟨hgross, hnet, hle⟩, by rw [← hinserted]; rfl⟩
  · rintro ⟨⟨hgross, hnet, hle⟩, rfl⟩
    refine ⟨(), _, ⟨_, ⟨(), ⟨hgross, hnet⟩, (), hle, (), ?_, rfl⟩, rfl⟩, ?_⟩
    · rw [payslipsOf_eq hlookup]
      exact hfresh
    · simp only [Table.update_of_lookup hlookup]
      rw [← hinserted]
      rfl

/-- Saving a new run without payslips inserts its row. -/
theorem save_new_ok {run : PayrollRun} {d d' : Store} {a : Unit}
    (hrow : d.payrollRuns.lookup run.props.id = none) (hp : run.payslips = []) :
    (save run).solo d = .ok (a, d') ↔
      ¬ MonthTaken d run.props.organizationId run.props.runMonth.day ∧
      d' = { d with payrollRuns := d.payrollRuns.insert run.props.id (
        ⟨{ run.props.toPayrollRunColumns with runMonth := run.props.runMonth.day }, []⟩) } := by
  have hmem : run.props.id ∉ d.payrollRuns := Finmap.lookup_eq_none.mp hrow
  simp only [save, hp, List.filter_nil, insertPayslips, Tx.solo_bind_ok, Tx.solo_select, Tx.pure_eq,
    Tx.solo_ret, upsertRun, Tx.solo_exec_ok, if_neg hmem, except_bind_ok, ensure_ok,
    except_pure_ok]
  refine ⟨?_, ?_⟩
  · rintro ⟨_, _, ⟨_, ⟨_, hmonth, rfl⟩, rfl⟩, _, _, hsel, hret⟩
    cases hsel
    cases hret
    exact ⟨hmonth, rfl⟩
  · rintro ⟨hmonth, rfl⟩
    exact ⟨(), _, ⟨_, ⟨(), hmonth, rfl⟩, rfl⟩, _, _, rfl, rfl⟩

end PayrollRunRepository

/-! ## The outbox -/

/-- `OutboxService.enqueue` -/
def enqueue (events : List DomainEvent) : StoreTx Unit :=
  if events = [] then pure ()
  else .exec (fun _ => []) fun _ => pure fun d => { d with outbox := d.outbox ++ events }

theorem enqueue_ok {events : List DomainEvent} {d d' : Store} {a : Unit} :
    (enqueue events).solo d = .ok (a, d') ↔ d' = { d with outbox := d.outbox ++ events } := by
  simp only [enqueue]
  split_ifs with h
  · simp only [h, List.append_nil, Tx.pure_eq, Tx.solo_ret, Except.ok.injEq, Prod.mk.injEq]
    exact ⟨fun hd => hd.2.symm, fun hd => ⟨trivial, hd.symm⟩⟩
  · simp only [Tx.solo_exec_ok, except_pure_ok, exists_eq_left]

end RatelPlatform
