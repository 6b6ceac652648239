import RatelPlatform.Reports

/-!
# The totals of the reports

Each report sums the minor units of its rows over groups: by department, category, vendor,
project, month, status or requester. None of them groups by currency, which `Money.add`
would not let two amounts differ in.

The status breakdown has the coarsest groups, and its rows are those of all reports, so it
alone decides whether a total mixes currencies (`noTotalMixes_iff`).
-/

namespace RatelPlatform

/-! ## The other reports -/

/-- `orderBy: { _sum: { amountMinorUnits: 'desc' } }` -/
def byTotal {κ : Type} (groups : List (SpendingGroup κ)) : List (SpendingGroup κ) :=
  groups.insertionSort fun g h => h.total ≤ g.total

/-- A line of the top categories. -/
structure CategorySpendingRow where
  categoryId : Id
  categoryName : String
  totalMinorUnits : String
  expenseCount : ℕ

/-- A line of the top vendors. -/
structure VendorSpendingRow where
  vendorId : Id
  vendorName : String
  totalMinorUnits : String
  expenseCount : ℕ

/-- A line of the spending on projects. -/
structure ProjectSpendingRow where
  projectId : Id
  projectName : String
  totalMinorUnits : String
  expenseCount : ℕ

/-- A line of the status breakdown. -/
structure ExpenseStatusBreakdownRow where
  status : String
  totalMinorUnits : String
  expenseCount : ℕ

/-- A line of the spending of requesters. -/
structure RequesterSpendingRow where
  requesterId : Id
  requesterName : String
  totalMinorUnits : String
  expenseCount : ℕ

variable (permissions : List RolePermission) (readModel : Table Id ExpenseReadModel)

/-- The groups of `TopCategoriesHandler`. -/
def TopCategoriesHandler.grouped (query : ReportQuery) (limit : ℕ) :
    List (SpendingGroup (Id × String)) :=
  (byTotal (groupBy (fun row => (row.categoryId, row.categoryName))
    (Report.rows permissions readModel query .topCategories))).take limit

/-- `TopCategoriesHandler` -/
def TopCategoriesHandler.execute (query : ReportQuery) (limit : ℕ) : List CategorySpendingRow :=
  (grouped permissions readModel query limit).map fun group =>
    ⟨group.key.1, group.key.2, toString group.total, group.rows.length⟩

/-- The groups of `TopVendorsHandler`. -/
def TopVendorsHandler.grouped (query : ReportQuery) (limit : ℕ) :
    List (SpendingGroup (Option Id × Option String)) :=
  (byTotal (groupBy (fun row => (row.vendorId, row.vendorName))
    (Report.rows permissions readModel query .topVendors))).take limit

/-- `TopVendorsHandler`: a group without a vendor gets no line. -/
def TopVendorsHandler.execute (query : ReportQuery) (limit : ℕ) : List VendorSpendingRow :=
  (grouped permissions readModel query limit).filterMap fun group =>
    group.key.1.map fun vendorId =>
      ⟨vendorId, group.key.2.getD "Unknown", toString group.total, group.rows.length⟩

/-- The groups of `ProjectSpendingHandler`. -/
def ProjectSpendingHandler.grouped (query : ReportQuery) :
    List (SpendingGroup (Option Id × Option String)) :=
  byTotal (groupBy (fun row => (row.projectId, row.projectName))
    (Report.rows permissions readModel query .projectSpending))

/-- `ProjectSpendingHandler` -/
def ProjectSpendingHandler.execute (query : ReportQuery) : List ProjectSpendingRow :=
  (grouped permissions readModel query).filterMap fun group =>
    group.key.1.map fun projectId =>
      ⟨projectId, group.key.2.getD "Unknown", toString group.total, group.rows.length⟩

/-- `STATUS_ORDER` -/
def statusOrder : List String :=
  ["draft", "pending_approval", "approved", "rejected", "cancelled", "closed"]

/-- `STATUS_ORDER.indexOf`: -1 for what is not listed. -/
def statusIndex (status : String) : ℤ :=
  match statusOrder.idxOf? status with
  | some i => i
  | none => -1

/-- The groups of `ExpenseStatusBreakdownHandler`. -/
def ExpenseStatusBreakdownHandler.grouped (query : ReportQuery) : List (SpendingGroup String) :=
  (groupBy ExpenseReadModel.status
    (Report.rows permissions readModel query .expenseStatusBreakdown)).insertionSort
      fun g h => statusIndex g.key ≤ statusIndex h.key

/-- `ExpenseStatusBreakdownHandler` -/
def ExpenseStatusBreakdownHandler.execute (query : ReportQuery) :
    List ExpenseStatusBreakdownRow :=
  (grouped permissions readModel query).map fun group =>
    ⟨group.key, toString group.total, group.rows.length⟩

/-- The groups of `RequesterSpendingHandler`. -/
def RequesterSpendingHandler.grouped (query : ReportQuery) : List (SpendingGroup Id) :=
  byTotal (groupBy ExpenseReadModel.sourceActorId
    (Report.rows permissions readModel query .requesterSpending))

/-- `RequesterSpendingHandler`, with the names of employees by user and the addresses of
users -/
def RequesterSpendingHandler.execute (fullName email : Id → Option String) (query : ReportQuery) :
    List RequesterSpendingRow :=
  (grouped permissions readModel query).map fun group =>
    ⟨group.key, ((fullName group.key).or (email group.key)).getD "Unknown",
      toString group.total, group.rows.length⟩

/-! ## The rows behind a total -/

/-- The groups of the reports by department. -/
def departmentGroups (rows : List ExpenseReadModel) : List (SpendingGroup (Id × String)) :=
  byTotal (groupBy (fun row => (row.departmentId, row.departmentName)) rows)

/-- The groups of `CashOutflowHandler`. -/
def CashOutflowHandler.grouped (query : ReportQuery) : List (SpendingGroup Civil) :=
  (groupBy (fun row => row.expenseDate.month)
    (CashOutflowHandler.rows permissions readModel query)).insertionSort
      fun g h => daysOf g.key ≤ daysOf h.key

/-- The rows each line of a report is summed from. -/
def Report.summed (query : ReportQuery) (limit : ℕ) (report : Report) :
    List (List ExpenseReadModel) :=
  match report with
  | topCategories =>
    (TopCategoriesHandler.grouped permissions readModel query limit).map SpendingGroup.rows
  | topVendors =>
    (TopVendorsHandler.grouped permissions readModel query limit).map SpendingGroup.rows
  | projectSpending =>
    (ProjectSpendingHandler.grouped permissions readModel query).map SpendingGroup.rows
  | cashOutflow => (CashOutflowHandler.grouped permissions readModel query).map SpendingGroup.rows
  | expenseStatusBreakdown =>
    (ExpenseStatusBreakdownHandler.grouped permissions readModel query).map SpendingGroup.rows
  | requesterSpending =>
    (RequesterSpendingHandler.grouped permissions readModel query).map SpendingGroup.rows
  | departmentSpendingSummary | pendingDepartmentSpending | expenseAdjustmentsSummary =>
    (departmentGroups (report.rows permissions readModel query)).map SpendingGroup.rows

/-- The totals a report answers with, line by line. -/
def Report.totals (fullName email : Id → Option String) (query : ReportQuery) (limit : ℕ) :
    Report → List String
  | departmentSpendingSummary =>
    (DepartmentSpendingSummaryHandler.execute permissions readModel query).map
      DepartmentSpendingRow.totalMinorUnits
  | topCategories =>
    (TopCategoriesHandler.execute permissions readModel query limit).map
      CategorySpendingRow.totalMinorUnits
  | topVendors =>
    (TopVendorsHandler.execute permissions readModel query limit).map
      VendorSpendingRow.totalMinorUnits
  | cashOutflow =>
    (CashOutflowHandler.execute permissions readModel query).map CashOutflowRow.totalMinorUnits
  | projectSpending =>
    (ProjectSpendingHandler.execute permissions readModel query).map
      ProjectSpendingRow.totalMinorUnits
  | pendingDepartmentSpending =>
    (PendingDepartmentSpendingHandler.execute permissions readModel query).map
      DepartmentSpendingRow.totalMinorUnits
  | expenseStatusBreakdown =>
    (ExpenseStatusBreakdownHandler.execute permissions readModel query).map
      ExpenseStatusBreakdownRow.totalMinorUnits
  | expenseAdjustmentsSummary =>
    (ExpenseAdjustmentsSummaryHandler.execute permissions readModel query).map
      DepartmentSpendingRow.totalMinorUnits
  | requesterSpending =>
    (RequesterSpendingHandler.execute permissions readModel fullName email query).map
      RequesterSpendingRow.totalMinorUnits

variable {permissions readModel} {κ : Type} [DecidableEq κ] {key : ExpenseReadModel → κ}
  {query : ReportQuery} {limit : ℕ} {report : Report} {row : ExpenseReadModel}

/-- What a group is made of. -/
theorem mem_rows_of_mem_groupBy {rows : List ExpenseReadModel} {group : SpendingGroup κ}
    (hgroup : group ∈ groupBy key rows) (hrow : row ∈ group.rows) :
    row ∈ rows ∧ key row = group.key := by
  simp only [groupBy, List.mem_map] at hgroup
  obtain ⟨k, -, rfl⟩ := hgroup
  simpa using hrow

/-- A group is some row's. -/
theorem exists_row_of_mem_groupBy {rows : List ExpenseReadModel} {group : SpendingGroup κ}
    (hgroup : group ∈ groupBy key rows) : ∃ row ∈ rows, key row = group.key :=
  exists_mem_groupBy_iff.mp ⟨group, hgroup, rfl⟩

/-- The group of a key that some row has. -/
theorem mem_groupBy_iff {rows : List ExpenseReadModel} {group : SpendingGroup κ} :
    group ∈ groupBy key rows ↔
      (∃ row ∈ rows, key row = group.key) ∧
        group.rows = rows.filter fun row => key row = group.key := by
  rw [← exists_mem_groupBy_iff]
  refine ⟨?_, ?_⟩
  · intro h
    refine ⟨⟨group, h, rfl⟩, ?_⟩
    obtain ⟨k, -, rfl⟩ := List.mem_map.mp h
    rfl
  · rintro ⟨⟨g, hg, hkey⟩, hrows⟩
    obtain ⟨k, hk, rfl⟩ := List.mem_map.mp hg
    obtain ⟨key', rows'⟩ := group
    obtain rfl : k = key' := hkey
    have hrows : rows' = rows.filter fun row => key row = k := hrows
    rw [hrows]
    exact hg

theorem mem_byTotal {κ : Type} {groups : List (SpendingGroup κ)} {group : SpendingGroup κ} :
    group ∈ byTotal groups ↔ group ∈ groups :=
  List.mem_insertionSort _

/-- Groups that all have a vendor, or a project, all get a line. -/
theorem map_filterMap_of_ne_none {β : Type} {line : SpendingGroup (Option Id × β) → Id → String}
    {groups : List (SpendingGroup (Option Id × β))}
    (h : ∀ group ∈ groups, group.key.1 ≠ none)
    (hline : ∀ group id, line group id = toString group.total) :
    (groups.filterMap fun group => group.key.1.map (line group)) =
      groups.map fun group => toString group.total := by
  induction groups with
  | nil => rfl
  | cons group groups ih =>
    obtain ⟨id, hid⟩ := Option.ne_none_iff_exists'.mp (h group List.mem_cons_self)
    rw [List.filterMap_cons, hid, Option.map_some, List.map_cons, hline,
      ih fun g hg => h g (List.mem_cons_of_mem _ hg)]

/-- The row is one the caller may see reports on. -/
def ReportQuery.Sees (permissions : List RolePermission) (query : ReportQuery)
    (row : ExpenseReadModel) : Prop :=
  row.organizationId = query.requestingUser.organizationId ∧
    match reportScope permissions query.requestingUser with
    | none => False
    | some .department => row.departmentId ∈ query.requestingUser.departmentIds
    | some _ => True

/-- The rows of a report are those the caller may see that meet its conditions. -/
theorem Report.mem_rows_iff : row ∈ report.rows permissions readModel query ↔
    (∃ id, readModel.lookup id = some row) ∧ query.Sees permissions row ∧
      report.Matches query row := by
  have hmem : row ∈ organizationRows readModel query report ↔
      (∃ id, readModel.lookup id = some row) ∧
        row.organizationId = query.requestingUser.organizationId ∧ report.Matches query row := by
    simp [organizationRows, Table.mem_rows_iff]
  simp only [Report.rows, ReportQuery.Sees]
  rcases reportScope permissions query.requestingUser with _ | _ | _ | _
  · simp
  · simpa using hmem
  · simp only [List.mem_filter, hmem, decide_eq_true_eq]
    tauto
  · simpa using hmem

/-- **Every total is the sum** of the rows behind it. -/
theorem Report.totals_eq (fullName email : Id → Option String) :
    report.totals permissions readModel fullName email query limit =
      (report.summed permissions readModel query limit).map fun rows =>
        toString (rows.map ExpenseReadModel.amountMinorUnits).sum := by
  cases report with
  | topVendors =>
    rw [totals, TopVendorsHandler.execute, List.map_filterMap, summed, List.map_map]
    simp only [Option.map_map]
    refine map_filterMap_of_ne_none (fun group hgroup hnone => ?_) fun _ _ => rfl
    obtain ⟨row, hrow, hkey⟩ :=
      exists_row_of_mem_groupBy (mem_byTotal.mp (List.mem_of_mem_take hgroup))
    obtain ⟨-, -, -, -, hvendor⟩ := mem_rows_iff.mp hrow
    exact hvendor ((congrArg Prod.fst hkey).trans hnone)
  | projectSpending =>
    rw [totals, ProjectSpendingHandler.execute, List.map_filterMap, summed, List.map_map]
    simp only [Option.map_map]
    refine map_filterMap_of_ne_none (fun group hgroup hnone => ?_) fun _ _ => rfl
    obtain ⟨row, hrow, hkey⟩ := exists_row_of_mem_groupBy (mem_byTotal.mp hgroup)
    obtain ⟨-, -, -, -, hproject⟩ := mem_rows_iff.mp hrow
    exact hproject ((congrArg Prod.fst hkey).trans hnone)
  | topCategories =>
    rw [totals, TopCategoriesHandler.execute, summed, List.map_map, List.map_map]
    rfl
  | cashOutflow =>
    rw [totals, CashOutflowHandler.execute, summed, List.map_map, List.map_map]
    rfl
  | expenseStatusBreakdown =>
    rw [totals, ExpenseStatusBreakdownHandler.execute, summed, List.map_map, List.map_map]
    rfl
  | requesterSpending =>
    rw [totals, RequesterSpendingHandler.execute, summed, List.map_map, List.map_map]
    rfl
  | departmentSpendingSummary =>
    rw [totals, DepartmentSpendingSummaryHandler.execute, byDepartment, summed, List.map_map,
      List.map_map]
    rfl
  | pendingDepartmentSpending =>
    rw [totals, PendingDepartmentSpendingHandler.execute, byDepartment, summed, List.map_map,
      List.map_map]
    rfl
  | expenseAdjustmentsSummary =>
    rw [totals, ExpenseAdjustmentsSummaryHandler.execute, byDepartment, summed, List.map_map,
      List.map_map]
    rfl

/-- The rows behind a line agree on what the report groups by. -/
theorem Report.of_mem_summed {rows : List ExpenseReadModel}
    (h : rows ∈ report.summed permissions readModel query limit) (hrow : row ∈ rows) :
    row ∈ report.rows permissions readModel query := by
  cases report <;> simp only [summed, List.mem_map] at h
  all_goals obtain ⟨group, hgroup, rfl⟩ := h
  case topCategories | topVendors =>
    exact (mem_rows_of_mem_groupBy (mem_byTotal.mp (List.mem_of_mem_take hgroup)) hrow).1
  case cashOutflow =>
    have hmem := (mem_rows_of_mem_groupBy ((List.mem_insertionSort _).mp hgroup) hrow).1
    rwa [CashOutflowHandler.rows_eq] at hmem
  case expenseStatusBreakdown =>
    exact (mem_rows_of_mem_groupBy ((List.mem_insertionSort _).mp hgroup) hrow).1
  all_goals exact (mem_rows_of_mem_groupBy (mem_byTotal.mp hgroup) hrow).1

/-! ## Currencies -/

/-- Amounts that `Money.add` would add up. -/
def OneCurrency (rows : List ExpenseReadModel) : Prop :=
  ∀ r ∈ rows, ∀ s ∈ rows, r.currency = s.currency

instance (rows : List ExpenseReadModel) : Decidable (OneCurrency rows) :=
  inferInstanceAs (Decidable (∀ r ∈ rows, ∀ s ∈ rows, _))

/-- The reports on what is spent. -/
def spendingReports : List Report :=
  [.departmentSpendingSummary, .topCategories, .topVendors, .projectSpending, .cashOutflow,
    .expenseAdjustmentsSummary, .expenseStatusBreakdown]

/-- No total of a spending report is a sum over several currencies. -/
def NoTotalMixes (permissions : List RolePermission) (readModel : Table Id ExpenseReadModel)
    (query : ReportQuery) (limit : ℕ) : Prop :=
  ∀ report ∈ spendingReports, ∀ rows ∈ report.summed permissions readModel query limit,
    OneCurrency rows

/-- Rows of one status that the caller may see, dated in the range, have one currency. -/
def StatusesOfOneCurrency (permissions : List RolePermission)
    (readModel : Table Id ExpenseReadModel) (query : ReportQuery) : Prop :=
  ∀ id₁ id₂ row₁ row₂, readModel.lookup id₁ = some row₁ → readModel.lookup id₂ = some row₂ →
    query.Sees permissions row₁ → query.Sees permissions row₂ →
    query.InRange row₁ → query.InRange row₂ →
      row₁.status = row₂.status → row₁.currency = row₂.currency

/-- The rows of `expense_read_model`: the column `expense_date` is a `DATE`. -/
structure ExpenseReadModelTable where
  rows : Table Id ExpenseReadModel
  isDay : ∀ id row, rows.lookup id = some row → row.expenseDate.day = row.expenseDate

/-- The upsert of an expense with such a date. -/
def ExpenseReadModelTable.upsert (t : ExpenseReadModelTable) (expenseId : Id)
    (expense : ExpenseRow) (names : ExpenseReadModelProjector.Names)
    (hday : expense.expenseDate.day = expense.expenseDate) : ExpenseReadModelTable where
  rows := ExpenseReadModelProjector.upsert t.rows expenseId expense names
  isDay := by
    intro id row hrow
    simp only [ExpenseReadModelProjector.upsert] at hrow
    split at hrow <;> rw [Table.lookup_insert_ite] at hrow <;> split_ifs at hrow
    · cases hrow
      exact hday
    · exact t.isDay id row hrow
    · -- an existing row keeps its date
      next old hold _ =>
      cases hrow
      exact t.isDay _ old hold
    · exact t.isDay id row hrow

/-- Whatever a report asks of a row, its date is in the range. -/
theorem Report.Matches.inRange (h : report.Matches query row)
    (hday : row.expenseDate.day = row.expenseDate) : query.InRange row := by
  cases report with
  | cashOutflow =>
    -- between two timestamps, and itself midnight
    obtain ⟨-, hfrom, hto⟩ := h
    have hms := congrArg JsDate.ms hday
    simp only [ReportQuery.InRange, JsDate.day, dayMs] at hms ⊢
    omega
  | expenseStatusBreakdown => exact h
  | departmentSpendingSummary => exact h.2
  | topCategories => exact h.2
  | pendingDepartmentSpending => exact h.2
  | requesterSpending => exact h.2
  | topVendors => exact h.2.1
  | projectSpending => exact h.2.1
  | expenseAdjustmentsSummary => exact h.2.1

/-- The rows behind a total of a spending report have one status. -/
theorem Report.status_of_mem_summed (hreport : report ∈ spendingReports)
    {rows : List ExpenseReadModel} {r s : ExpenseReadModel}
    (hrows : rows ∈ report.summed permissions readModel query limit) (hr : r ∈ rows)
    (hs : s ∈ rows) : r.status = s.status := by
  by_cases hbreakdown : report = .expenseStatusBreakdown
  · subst hbreakdown
    simp only [summed, List.mem_map] at hrows
    obtain ⟨group, hgroup, rfl⟩ := hrows
    have hgroup := (List.mem_insertionSort _).mp hgroup
    exact (mem_rows_of_mem_groupBy hgroup hr).2.trans (mem_rows_of_mem_groupBy hgroup hs).2.symm
  · -- every other one is about approved expenses
    have happroved : ∀ row, report.Matches query row → row.status = "approved" := by
      intro row h
      simp only [spendingReports, List.mem_cons, List.not_mem_nil, or_false] at hreport
      rcases hreport with rfl | rfl | rfl | rfl | rfl | rfl | rfl
      all_goals first
        | exact h.1
        | exact absurd rfl hbreakdown
    obtain ⟨-, -, hr⟩ := mem_rows_iff.mp (of_mem_summed hrows hr)
    obtain ⟨-, -, hs⟩ := mem_rows_iff.mp (of_mem_summed hrows hs)
    exact (happroved r hr).trans (happroved s hs).symm

/-- **Totals mix no currencies exactly when the statuses do not**: two amounts of different
currencies that have a status in common are added up by the status breakdown. -/
theorem noTotalMixes_iff (t : ExpenseReadModelTable) :
    NoTotalMixes permissions t.rows query limit ↔
      StatusesOfOneCurrency permissions t.rows query := by
  refine ⟨?_, ?_⟩
  · intro h id₁ id₂ row₁ row₂ h₁ h₂ hsees₁ hsees₂ hrange₁ hrange₂ hstatus
    have hrow₁ : row₁ ∈ Report.expenseStatusBreakdown.rows permissions t.rows query :=
      Report.mem_rows_iff.mpr ⟨⟨id₁, h₁⟩, hsees₁, hrange₁⟩
    have hrow₂ : row₂ ∈ Report.expenseStatusBreakdown.rows permissions t.rows query :=
      Report.mem_rows_iff.mpr ⟨⟨id₂, h₂⟩, hsees₂, hrange₂⟩
    have hmem : (Report.expenseStatusBreakdown.rows permissions t.rows query).filter
        (fun row => row.status = row₁.status) ∈
          Report.expenseStatusBreakdown.summed permissions t.rows query limit := by
      refine List.mem_map.mpr ⟨⟨row₁.status, _⟩, (List.mem_insertionSort _).mpr ?_, rfl⟩
      exact List.mem_map.mpr ⟨row₁.status,
        List.mem_dedup.mpr (List.mem_map_of_mem hrow₁), rfl⟩
    refine h _ (by simp [spendingReports]) _ hmem row₁ ?_ row₂ ?_
    · exact List.mem_filter.mpr ⟨hrow₁, decide_eq_true rfl⟩
    · exact List.mem_filter.mpr ⟨hrow₂, decide_eq_true hstatus.symm⟩
  · intro h report hreport rows hrows r hr s hs
    obtain ⟨⟨id₁, h₁⟩, hsees₁, hmatches₁⟩ := Report.mem_rows_iff.mp (Report.of_mem_summed hrows hr)
    obtain ⟨⟨id₂, h₂⟩, hsees₂, hmatches₂⟩ := Report.mem_rows_iff.mp (Report.of_mem_summed hrows hs)
    exact h id₁ id₂ r s h₁ h₂ hsees₁ hsees₂ (hmatches₁.inRange (t.isDay _ _ h₁))
      (hmatches₂.inRange (t.isDay _ _ h₂)) (Report.status_of_mem_summed hreport hrows hr hs)

namespace Sample

/-- An approved expense of 500.00 naira. -/
def nairaRow : ExpenseReadModel :=
  ExpenseReadModelProjector.create (expenseRow .approved 50000)
    ⟨some "Sales", some "Travel", none, none⟩

/-- With one of 100.00 dollars, in the same department. -/
def nairaAndDollars : ExpenseReadModelTable where
  rows := ((∅ : Table Id ExpenseReadModel).insert 101 nairaRow).insert 102
    { nairaRow with amountMinorUnits := 10000, currency := "USD" }
  isDay := by
    intro id row hrow
    rw [Table.lookup_insert_ite, Table.lookup_insert_ite] at hrow
    split_ifs at hrow
    · cases hrow
      rfl
    · cases hrow
      rfl
    · cases hrow

end Sample

open Sample in
/-- Their sum, 60000 of no currency, is what user 11 reads of department 2. -/
theorem totals_mix : ¬ ∀ (permissions : List RolePermission) (t : ExpenseReadModelTable)
    (query : ReportQuery) (limit : ℕ), NoTotalMixes permissions t.rows query limit := by
  intro h
  have hmixed := h rolePermissions nairaAndDollars firstWeeks 10 .departmentSpendingSummary
    (by simp [spendingReports])
  revert hmixed
  decide

end RatelPlatform
