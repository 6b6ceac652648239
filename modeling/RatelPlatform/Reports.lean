import RatelPlatform.ExpenseReadModel
import RatelPlatform.ExpenseListing

/-!
# Department-scoped access

A grant at department scope is meant for the departments the granted role is held
in. The guard and the reports look the two up separately: the grants of all roles
of the user, and the departments of all roles of the user. They agree with the
meaning exactly for users none of whose departments comes with a role that lacks the
grant (`pairedAccess_iff`).
-/

namespace RatelPlatform

/-! ## Reports -/

/-- A request for a report. -/
structure ReportQuery where
  requestingUser : UserPrincipal
  fromDate : JsDate
  toDate : JsDate

/-- The reports on expenses. -/
inductive Report
  | departmentSpendingSummary
  | topCategories
  | topVendors
  | cashOutflow
  | projectSpending
  | pendingDepartmentSpending
  | expenseStatusBreakdown
  | expenseAdjustmentsSummary
  | requesterSpending

/-- `expenseDate: { gte, lte }`: the column is a `DATE`, and so are the bounds. -/
def ReportQuery.InRange (query : ReportQuery) (row : ExpenseReadModel) : Prop :=
  query.fromDate.day.ms ≤ row.expenseDate.ms ∧ row.expenseDate.ms ≤ query.toDate.day.ms

instance (query : ReportQuery) (row : ExpenseReadModel) : Decidable (query.InRange row) :=
  inferInstanceAs (Decidable (_ ∧ _))

/-- The report's own part of `where`. -/
def Report.Matches (query : ReportQuery) (row : ExpenseReadModel) : Report → Prop
  | departmentSpendingSummary => row.status = "approved" ∧ query.InRange row
  | topCategories => row.status = "approved" ∧ query.InRange row
  | topVendors => row.status = "approved" ∧ query.InRange row ∧ row.vendorId ≠ none
  -- raw SQL: the bounds are timestamps
  | cashOutflow => row.status = "approved" ∧
      query.fromDate.ms ≤ row.expenseDate.ms ∧ row.expenseDate.ms ≤ query.toDate.ms
  | projectSpending => row.status = "approved" ∧ query.InRange row ∧ row.projectId ≠ none
  | pendingDepartmentSpending => row.status = "pending_approval" ∧ query.InRange row
  | expenseStatusBreakdown => query.InRange row
  | expenseAdjustmentsSummary =>
    row.status = "approved" ∧ query.InRange row ∧ row.parentExpenseId ≠ none
  | requesterSpending => row.status = "approved" ∧ query.InRange row

instance (query : ReportQuery) (row : ExpenseReadModel) :
    (report : Report) → Decidable (report.Matches query row)
  | .departmentSpendingSummary => inferInstanceAs (Decidable (_ ∧ _))
  | .topCategories => inferInstanceAs (Decidable (_ ∧ _))
  | .topVendors => inferInstanceAs (Decidable (_ ∧ _ ∧ _))
  | .cashOutflow => inferInstanceAs (Decidable (_ ∧ _ ∧ _))
  | .projectSpending => inferInstanceAs (Decidable (_ ∧ _ ∧ _))
  | .pendingDepartmentSpending => inferInstanceAs (Decidable (_ ∧ _))
  | .expenseStatusBreakdown => inferInstanceAs (Decidable (query.InRange row))
  | .expenseAdjustmentsSummary => inferInstanceAs (Decidable (_ ∧ _ ∧ _))
  | .requesterSpending => inferInstanceAs (Decidable (_ ∧ _))

variable (permissions : List RolePermission) (readModel : Table Id ExpenseReadModel)

/-- The widest scope the caller may see reports in. -/
def reportScope (user : UserPrincipal) : Option PermissionScope :=
  PrismaEffectiveScopeResolver.resolveWidestScope permissions
    (user.roles.map PrincipalRole.role) "report:view"

/-- The rows of the organization that meet the conditions of a report. -/
def organizationRows (query : ReportQuery) (report : Report) : List ExpenseReadModel :=
  ((Table.rows readModel).map Prod.snd).filter fun row =>
    row.organizationId = query.requestingUser.organizationId ∧ report.Matches query row

/-- The rows a report is computed from. A caller without any scope gets none, one
with the department scope those of their departments. -/
def Report.rows (query : ReportQuery) (report : Report) : List ExpenseReadModel :=
  match reportScope permissions query.requestingUser with
  | none => []
  | some .department => (organizationRows readModel query report).filter fun row =>
      row.departmentId ∈ query.requestingUser.departmentIds
  | some _ => organizationRows readModel query report

/-- `CashOutflowHandler` chooses between two queries, and asks neither when there is
no department. -/
def CashOutflowHandler.rows (query : ReportQuery) : List ExpenseReadModel :=
  match reportScope permissions query.requestingUser with
  | none => []
  | some scope =>
    let departmentIds :=
      if scope = .department then some query.requestingUser.departmentIds else none
    if scope = .department ∧ departmentIds = some [] then []
    else
      match departmentIds with
      | some (id :: ids) => (organizationRows readModel query .cashOutflow).filter fun row =>
          row.departmentId ∈ id :: ids
      | _ => organizationRows readModel query .cashOutflow

/-- Its two queries come to the filter of the other reports. -/
theorem CashOutflowHandler.rows_eq (query : ReportQuery) :
    CashOutflowHandler.rows permissions readModel query =
      Report.rows permissions readModel query .cashOutflow := by
  simp only [CashOutflowHandler.rows, Report.rows]
  rcases reportScope permissions query.requestingUser with _ | _ | _ | _
  · rfl
  · rfl
  · rcases query.requestingUser.departmentIds with _ | ⟨id, ids⟩
    · simp
    · simp
  · rfl

/-! ### What the reports answer -/

/-- One group of a `groupBy`. -/
structure SpendingGroup (κ : Type) where
  key : κ
  rows : List ExpenseReadModel

/-- `_sum: { amountMinorUnits: true }` -/
def SpendingGroup.total {κ : Type} (group : SpendingGroup κ) : ℤ :=
  (group.rows.map ExpenseReadModel.amountMinorUnits).sum

/-- `groupBy` -/
def groupBy {κ : Type} [DecidableEq κ] (key : ExpenseReadModel → κ) (rows : List ExpenseReadModel) :
    List (SpendingGroup κ) :=
  (rows.map key).dedup.map fun k => ⟨k, rows.filter fun row => key row = k⟩

theorem exists_mem_groupBy_iff {κ : Type} [DecidableEq κ] {key : ExpenseReadModel → κ}
    {rows : List ExpenseReadModel} {k : κ} :
    (∃ group ∈ groupBy key rows, group.key = k) ↔ ∃ row ∈ rows, key row = k := by
  simp [groupBy]

/-- A line of the reports that list departments. -/
structure DepartmentSpendingRow where
  departmentId : Id
  departmentName : String
  totalMinorUnits : String
  expenseCount : ℕ

/-- The reports by department are one query on different rows. -/
def byDepartment (rows : List ExpenseReadModel) : List DepartmentSpendingRow :=
  ((groupBy (fun row => (row.departmentId, row.departmentName)) rows).insertionSort
    fun g h => h.total ≤ g.total).map fun group =>
      ⟨group.key.1, group.key.2, toString group.total, group.rows.length⟩

/-- `DepartmentSpendingSummaryHandler` -/
def DepartmentSpendingSummaryHandler.execute (query : ReportQuery) : List DepartmentSpendingRow :=
  byDepartment (Report.rows permissions readModel query .departmentSpendingSummary)

/-- `PendingDepartmentSpendingHandler` -/
def PendingDepartmentSpendingHandler.execute (query : ReportQuery) : List DepartmentSpendingRow :=
  byDepartment (Report.rows permissions readModel query .pendingDepartmentSpending)

/-- `ExpenseAdjustmentsSummaryHandler` -/
def ExpenseAdjustmentsSummaryHandler.execute (query : ReportQuery) : List DepartmentSpendingRow :=
  byDepartment (Report.rows permissions readModel query .expenseAdjustmentsSummary)

/-- The departments a report lists are those of its rows. -/
theorem mem_byDepartment_iff {rows : List ExpenseReadModel} {departmentId : Id} :
    (∃ line ∈ byDepartment rows, line.departmentId = departmentId) ↔
      ∃ row ∈ rows, row.departmentId = departmentId := by
  simp [byDepartment, groupBy]

/-- A line of the cash outflow. -/
structure CashOutflowRow where
  month : String
  totalMinorUnits : String
  expenseCount : ℕ

/-- `CashOutflowHandler` -/
def CashOutflowHandler.execute (query : ReportQuery) : List CashOutflowRow :=
  ((groupBy (fun row => row.expenseDate.month)
    (CashOutflowHandler.rows permissions readModel query)).insertionSort
      fun g h => daysOf g.key ≤ daysOf h.key).map fun group =>
        { month := String.ofList ((isoYear group.key.year ++
            isoMonthDay group.key.month.toNat group.key.dom.toNat).take 10)
          totalMinorUnits := toString group.total
          expenseCount := group.rows.length }

/-! ## Paired access -/

variable {permissions readModel} {registry : ResourceScopeRegistry} {windowMs now : ℕ}
  {requirement : PermissionRequirement} {user : UserPrincipal} {id departmentId : Id}
  {permission : String}

/-- One role of the user is held in the department and itself carries the permission
at department scope. -/
def Justified (permissions : List RolePermission) (user : UserPrincipal) (permission : String)
    (departmentId : Id) : Prop :=
  ∃ r ∈ user.roles, r.departmentId = some departmentId ∧
    ∃ g ∈ permissions, g.role = r.role ∧ g.permission = permission ∧ g.scope = .department

instance (permissions : List RolePermission) (user : UserPrincipal) (permission : String)
    (departmentId : Id) : Decidable (Justified permissions user permission departmentId) :=
  inferInstanceAs (Decidable (∃ r ∈ user.roles, _ ∧ ∃ g ∈ permissions, _))

/-- What the user's roles grant of a permission. -/
def UserPrincipal.grants (user : UserPrincipal) (permissions : List RolePermission)
    (permission : String) : List RolePermission :=
  grantsOf permissions (user.roles.map PrincipalRole.role) permission

/-- The guard lets the request through to a resource of the department, and neither a
grant for the organization nor one for the user's own resources covers it. -/
structure GrantedByDepartment (permissions : List RolePermission)
    (registry : ResourceScopeRegistry) (windowMs now : ℕ) (requirement : PermissionRequirement)
    (user : UserPrincipal) (id departmentId : Id) : Prop where
  passes : PermissionGuard.canActivate permissions registry windowMs now (some requirement)
    (some user) (some id) = .ok ()
  organization : ¬ GrantsScope (user.grants permissions requirement.permission) .organization
  resource : ∃ resourceType provider requesterId, requirement.resourceType = some resourceType ∧
    registry resourceType = some provider ∧ provider id = some ⟨some departmentId, requesterId⟩ ∧
    ¬ (GrantsScope (user.grants permissions requirement.permission) .own ∧ requesterId = user.id)

/-- What goes through a grant at department scope is justified by one role. -/
structure PairedAccess (permissions : List RolePermission) (user : UserPrincipal) : Prop where
  guard : ∀ registry windowMs now requirement id departmentId,
    GrantedByDepartment permissions registry windowMs now requirement user id departmentId →
      Justified permissions user requirement.permission departmentId
  reports : ∀ readModel query, query.requestingUser = user →
    reportScope permissions user = some .department →
      ∀ report, ∀ row ∈ Report.rows permissions readModel query report,
        Justified permissions user "report:view" row.departmentId

/-- Every department of the user comes with a role that carries the permission at
department scope, for every permission granted at that scope at most. -/
def DepartmentsPaired (permissions : List RolePermission) (user : UserPrincipal) : Prop :=
  ∀ permission, GrantsScope (user.grants permissions permission) .department →
    ¬ GrantsScope (user.grants permissions permission) .organization →
      ∀ departmentId ∈ user.departmentIds, Justified permissions user permission departmentId

/-- A request that passes to a resource is covered by a grant. -/
theorem PermissionGuard.covered_of_canActivate {resourceType : String}
    {provider : Id → Option ResourceScopeInfo} {info : ResourceScopeInfo}
    (htype : requirement.resourceType = some resourceType)
    (hprovider : registry resourceType = some provider) (hinfo : provider id = some info)
    (hpasses : canActivate permissions registry windowMs now (some requirement) (some user)
      (some id) = .ok ()) :
    GrantsScope (user.grants permissions requirement.permission) .organization ∨
      CoversResource (user.grants permissions requirement.permission) user info := by
  simp only [canActivate, htype, hprovider, hinfo] at hpasses
  split_ifs at hpasses with hroles hnil horganization hcovers
  · exact .inl horganization
  · exact .inr hcovers

/-- The department branch of the guard, and the two lists it consults. -/
theorem GrantedByDepartment.departments
    (h : GrantedByDepartment permissions registry windowMs now requirement user id departmentId) :
    GrantsScope (user.grants permissions requirement.permission) .department ∧
      departmentId ∈ user.departmentIds := by
  obtain ⟨hpasses, horganization, _, _, _, htype, hprovider, hinfo, hown⟩ := h
  rcases PermissionGuard.covered_of_canActivate htype hprovider hinfo hpasses with
    h | h | ⟨hdepartment, hrole⟩
  · exact absurd h horganization
  · exact absurd h hown
  · exact ⟨hdepartment, mem_departmentIds_iff.mpr hrole⟩

/-- The rows of a department-scoped report are those of the user's departments. -/
theorem Report.rows_departments {query : ReportQuery} {report : Report} {row : ExpenseReadModel}
    (hscope : reportScope permissions query.requestingUser = some .department)
    (hrow : row ∈ report.rows permissions readModel query) :
    row.departmentId ∈ query.requestingUser.departmentIds := by
  rw [Report.rows, hscope] at hrow
  exact of_decide_eq_true (List.mem_filter.mp hrow).2

/-- **Access at department scope is paired with its role exactly when the user's
departments are**: a department attached to another role widens what the guard lets
through, and what the reports show. -/
theorem pairedAccess_iff : PairedAccess permissions user ↔ DepartmentsPaired permissions user := by
  refine ⟨?_, ?_⟩
  · intro h permission hdepartment horganization departmentId hmem
    -- a resource of that department that somebody else created
    have hrole := mem_departmentIds_iff.mp hmem
    refine h.guard (fun _ => some fun _ => some ⟨some departmentId, user.id + 1⟩) 0 0
      ⟨permission, some "expense", false⟩ 0 departmentId ⟨?_, horganization, "expense", _, user.id + 1,
        rfl, rfl, rfl, fun hown => ?_⟩
    · exact (PermissionGuard.canActivate_ok_iff rfl rfl rfl rfl).mpr (.inr (.inr
        ⟨hdepartment, hrole⟩))
    · exact Nat.succ_ne_self _ hown.2
  · intro h
    refine ⟨fun registry windowMs now requirement id departmentId hgranted => ?_,
      fun readModel query huser hscope report row hrow => ?_⟩
    · obtain ⟨hdepartment, hmem⟩ := hgranted.departments
      exact h _ hdepartment hgranted.organization _ hmem
    · subst huser
      obtain ⟨hdepartment, horganization⟩ :=
        PrismaEffectiveScopeResolver.resolveWidestScope_eq_some hscope
      exact h _ hdepartment (horganization nofun) _ (Report.rows_departments hscope hrow)

/-! ## Two roles in two departments -/

namespace Sample

/-- Department heads see the reports and approve expenses in their department. -/
def rolePermissions : List RolePermission :=
  [⟨.departmentHead, "expense:approve", .department⟩, ⟨.departmentHead, "report:view", .department⟩,
    ⟨.accountant, "expense:create", .department⟩]

/-- User 11 heads department 2 and keeps the accounts of department 5. -/
def headAndAccountant : UserPrincipal where
  id := 11
  organizationId := 1
  roles := [⟨.departmentHead, some 2⟩, ⟨.accountant, some 5⟩]
  stepUpAt := none

/-- An approved expense of department 5. -/
def otherDepartment : ExpenseReadModel :=
  ExpenseReadModelProjector.create
    { expenseRow .approved 50000 with departmentId := 5 } ⟨some "Legal", some "Travel", none, none⟩

/-- User 11 asks for the first weeks. -/
def firstWeeks : ReportQuery :=
  ⟨headAndAccountant, ⟨-86400000, by decide⟩, ⟨2592000000, by decide⟩⟩

end Sample

open Sample in
/-- The spending of department 5 is in the summary user 11 gets, and the role they
hold there does not see reports. -/
theorem department_of_another_role :
    ¬ ∀ (permissions : List RolePermission) (user : UserPrincipal),
      PairedAccess permissions user := by
  intro h
  have hjustified := (h rolePermissions headAndAccountant).reports
    ((∅ : Table Id ExpenseReadModel).insert 101 otherDepartment) firstWeeks rfl (by decide)
    .departmentSpendingSummary otherDepartment (by decide)
  revert hjustified
  decide

end RatelPlatform
