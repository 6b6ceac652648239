import RatelPlatform.KeysetPages

/-!
# What the list of expenses leaves out

The pages of `GET /expenses` are cut from one sorted list, so whoever follows the cursors sees
every row that meets the filter of their widest scope. The guard of a single expense goes by
all their grants: whoever may look at their own expenses and at those of their departments is
shown the latter only, and misses what they entered elsewhere (`list_complete_iff`).
-/

namespace RatelPlatform

/-! ## The rows behind the pages -/

/-- The rows that meet a filter, newest first. -/
def ExpenseRepository.sortedRows (expenses : Table Id ExpenseRow) (filter : ExpenseListFilter) :
    List (Id × ExpenseRow) :=
  ((Table.rows expenses).filter fun r => filter.Matches r.1 r.2).insertionSort NewestFirst

/-- A row as the list shows it. -/
def listedProps (r : Id × ExpenseRow) : ExpenseProps := { r.2 with id := r.1 }

/-- The cursor of an expense. -/
def ExpenseProps.cursor (e : ExpenseProps) : Cursor := ⟨e.createdAt, e.id⟩

/-- The answers to one caller, by cursor. -/
def ListExpensesHandler.listed (permissions : List RolePermission)
    (expenses : Table Id ExpenseRow) (user : UserPrincipal) (limit : ℕ)
    (hlimit : 1 ≤ limit ∧ limit ≤ 100) (cursor : Option Cursor) :
    List ExpenseProps × Option Cursor :=
  let page := execute permissions expenses ⟨user, none, cursor, limit, hlimit⟩
  (page.data, page.nextCursor)

/-- `@RequirePermission` of `GET /expenses` -/
def listExpenses : PermissionRequirement := ⟨"expense:view", none, false⟩

/-- The guard lets the user ask for the list. -/
def MayList (permissions : List RolePermission) (expenses : Table Id ExpenseRow)
    (windowMs now : ℕ) (user : UserPrincipal) : Prop :=
  PermissionGuard.canActivate permissions (scopeRegistry expenses) windowMs now
    (some listExpenses) (some user) none = .ok ()

variable {permissions : List RolePermission} {expenses : Table Id ExpenseRow} {windowMs now : ℕ}
  {user : UserPrincipal} {id : Id} {row : ExpenseRow} {filter : ExpenseListFilter}

theorem ExpenseRepository.sortedRows_eq (expenses : Table Id ExpenseRow)
    (filter : ExpenseListFilter) : sortedRows expenses filter =
      newestRows (fun row => row.createdAt) expenses fun r => filter.Matches r.1 r.2 := rfl

theorem ExpenseRepository.mem_sortedRows {r : Id × ExpenseRow} :
    r ∈ sortedRows expenses filter ↔ expenses.lookup r.1 = some r.2 ∧ filter.Matches r.1 r.2 :=
  mem_newestRows

/-- The page of a list is that of its table. -/
theorem ExpenseRepository.findMany_eq (expenses : Table Id ExpenseRow)
    (filter : ExpenseListFilter) : findMany expenses filter =
      let page := newestPage (fun row : ExpenseRow => row.createdAt) expenses
        (fun r => filter.Matches r.1 r.2) filter.limit
      ⟨page.1.map fun r => toDomain r.1 r.2, page.2⟩ := rfl

/-- A page is cut from the sorted rows. -/
theorem ExpenseRepository.findMany_eq_cutPage (expenses : Table Id ExpenseRow)
    (filter : ExpenseListFilter) :
    ((findMany expenses filter).data.map Expense.props, (findMany expenses filter).nextCursor) =
      cutPage ExpenseProps.cursor filter.limit ((sortedRows expenses filter).map listedProps) := by
  rw [findMany_eq, newestPage_eq_cutPage, ← sortedRows_eq, List.map_map]
  exact cutPage_map ExpenseProps.cursor listedProps filter.limit (sortedRows expenses filter)

/-! ## Rows behind a cursor -/

namespace ExpenseListFilter

theorem matches_cursor_iff {filter : ExpenseListFilter} (hcursor : filter.cursor = none)
    (c : Cursor) : Matches { filter with cursor := some c } id row ↔
      filter.Matches id row ∧ c.Precedes id row := by
  refine ⟨?_, ?_⟩
  · rintro ⟨horg, hdepartments, hrequester, hstatus, hbehind⟩
    refine ⟨⟨horg, hdepartments, hrequester, hstatus, fun c' hc' => ?_⟩, hbehind c rfl⟩
    rw [hcursor] at hc'
    cases hc'
  · rintro ⟨⟨horg, hdepartments, hrequester, hstatus, -⟩, hbehind⟩
    exact ⟨horg, hdepartments, hrequester, hstatus, fun c' hc' => Option.some.inj hc' ▸ hbehind⟩

end ExpenseListFilter

/-- Behind the cursor of a row stand the rows that follow it. -/
theorem ExpenseRepository.sortedRows_behind (hcursor : filter.cursor = none)
    {before after : List (Id × ExpenseRow)} {r : Id × ExpenseRow}
    (hrows : sortedRows expenses filter = before ++ r :: after) :
    sortedRows expenses { filter with cursor := some ⟨r.2.createdAt, r.1⟩ } = after :=
  newestRows_behind (fun _ => ExpenseListFilter.matches_cursor_iff hcursor _) hrows

/-! ## The pages of a caller -/

namespace ListExpensesHandler

variable {limit : ℕ} {hlimit : 1 ≤ limit ∧ limit ≤ 100} {scope : PermissionScope}

theorem listed_eq_cutPage
    (hscope : PrismaEffectiveScopeResolver.resolveWidestScope permissions
      (user.roles.map PrincipalRole.role) "expense:view" = some scope) (cursor : Option Cursor) :
    listed permissions expenses user limit hlimit cursor =
      cutPage ExpenseProps.cursor limit ((ExpenseRepository.sortedRows expenses
        (ListExpensesQuery.filter ⟨user, none, cursor, limit, hlimit⟩ scope)).map listedProps) := by
  have hpage := ExpenseRepository.findMany_eq_cutPage expenses
    (ListExpensesQuery.filter ⟨user, none, cursor, limit, hlimit⟩ scope)
  simp only [listed, execute, hscope]
  exact hpage

/-- The answers are pages of the rows of the caller. -/
theorem paginates_listed
    (hscope : PrismaEffectiveScopeResolver.resolveWidestScope permissions
      (user.roles.map PrincipalRole.role) "expense:view" = some scope) :
    Paginates ExpenseProps.cursor limit ((ExpenseRepository.sortedRows expenses
        (ListExpensesQuery.filter ⟨user, none, none, limit, hlimit⟩ scope)).map listedProps)
      (listed permissions expenses user limit hlimit) where
  first := listed_eq_cutPage hscope none
  behind := by
    intro before e after hrows
    obtain ⟨before, rest, hsplit, rfl, hrest⟩ := List.map_eq_append_iff.mp hrows
    obtain ⟨r, after, rfl, rfl, rfl⟩ := List.map_eq_cons_iff.mp hrest
    rw [listed_eq_cutPage hscope, ← ExpenseRepository.sortedRows_behind rfl hsplit]
    rfl

/-- What the first page asks of a row. -/
theorem matches_filter (horg : row.organizationId = user.organizationId)
    (hdepartment : scope = .department → user.departmentIds ≠ [] →
      row.departmentId ∈ user.departmentIds)
    (hown : scope = .own → row.source.actorId = user.id) :
    (ListExpensesQuery.filter ⟨user, none, none, limit, hlimit⟩ scope).Matches id row := by
  refine ⟨horg, fun ids hids hne => ?_, fun userId huser => ?_, fun _ h => ?_, fun _ h => ?_⟩
  · simp only [ListExpensesQuery.filter] at hids
    split_ifs at hids with hscope
    · obtain rfl := Option.some.inj hids
      exact hdepartment hscope hne
    · cases hids
  · simp only [ListExpensesQuery.filter] at huser
    split_ifs at huser with hscope
    · rw [← Option.some.inj huser]
      exact hown hscope
    · cases huser
  · cases h
  · cases h

/-- What is on a page meets the filter of the caller. -/
theorem matches_of_reached {page : List ExpenseProps × Option Cursor}
    (hpage : ReachedPage (listed permissions expenses user limit hlimit) page) {e : ExpenseProps}
    (he : e ∈ page.1) (hscope : PrismaEffectiveScopeResolver.resolveWidestScope permissions
      (user.roles.map PrincipalRole.role) "expense:view" = some scope) :
    ∃ cursor, expenses.lookup e.id = some e.toExpenseRow ∧
      (ListExpensesQuery.filter ⟨user, none, cursor, limit, hlimit⟩ scope).Matches e.id
        e.toExpenseRow := by
  obtain ⟨cursor, rfl⟩ := hpage.exists_cursor
  rw [listed_eq_cutPage hscope] at he
  obtain ⟨r, hr, rfl⟩ := List.mem_map.mp (List.mem_of_mem_take he)
  exact ⟨cursor, ExpenseRepository.mem_sortedRows.mp hr⟩

end ListExpensesHandler

/-! ## The result -/

/-- Of the scopes granted, the widest. -/
theorem PrismaEffectiveScopeResolver.resolveWidestScope_eq (permissions : List RolePermission)
    (roles : List RoleName) (permission : String) :
    resolveWidestScope permissions roles permission =
      if GrantsScope (grantsOf permissions roles permission) .organization then some .organization
      else if GrantsScope (grantsOf permissions roles permission) .department then some .department
      else if GrantsScope (grantsOf permissions roles permission) .own then some .own
      else none := by
  have hnone : ∀ scope, ¬ GrantsScope [] scope := fun _ h => h.ne_nil rfl
  rw [resolveWidestScope]
  by_cases hroles : roles = []
  · rw [if_pos hroles, hroles, grantsOf_nil, if_neg (hnone _), if_neg (hnone _), if_neg (hnone _)]
  · rw [if_neg hroles]
    by_cases hgrants : grantsOf permissions roles permission = []
    · rw [hgrants, if_neg (hnone _), if_neg (hnone _), if_neg (hnone _)]
      exact if_pos rfl
    · exact if_neg hgrants

/-- Whoever has a grant may ask for the list. -/
theorem mayList_of_grantsScope {scope : PermissionScope}
    (h : GrantsScope (user.viewGrants permissions) scope) :
    MayList permissions expenses windowMs now user := by
  have hgrants := h.ne_nil
  have hroles : user.roles.map PrincipalRole.role ≠ [] := by
    intro hnil
    rw [UserPrincipal.viewGrants, hnil] at hgrants
    exact hgrants grantsOf_nil
  rw [UserPrincipal.viewGrants] at hgrants
  have hallow : PermissionGuard.allow windowMs now listExpenses user = .ok () :=
    if_neg fun hstep => Bool.false_ne_true hstep.1
  simp only [MayList, PermissionGuard.canActivate]
  rw [if_neg hroles, if_neg (show grantsOf permissions _ listExpenses.permission ≠ [] from hgrants)]
  split_ifs
  · exact hallow
  · exact hallow

/-- **When the list leaves nothing out**: exactly unless the user holds grants for their own
expenses and for those of their departments, none for the organization, and entered an expense
for a department that none of their roles has, while some role has one. -/
theorem list_complete_iff :
    (MayList permissions expenses windowMs now user →
      ∀ id row, expenses.lookup id = some row → row.organizationId = user.organizationId →
        MayView permissions expenses windowMs now user id → ∀ limit hlimit,
          ∃ page, ReachedPage
              (ListExpensesHandler.listed permissions expenses user limit hlimit) page ∧
            ({ row with id } : ExpenseProps) ∈ page.1) ↔
    ¬ (GrantsScope (user.viewGrants permissions) .own ∧
        GrantsScope (user.viewGrants permissions) .department ∧
        ¬ GrantsScope (user.viewGrants permissions) .organization ∧
        user.departmentIds ≠ [] ∧
        ∃ id row, expenses.lookup id = some row ∧ row.organizationId = user.organizationId ∧
          row.source.actorId = user.id ∧ row.departmentId ∉ user.departmentIds) := by
  have hwidest := PrismaEffectiveScopeResolver.resolveWidestScope_eq permissions
    (user.roles.map PrincipalRole.role) "expense:view"
  rw [← UserPrincipal.viewGrants] at hwidest
  refine ⟨?_, ?_⟩
  · rintro hlist ⟨hown, hdepartment, horganization, hsome, id, row, hrow, horg, hactor, hout⟩
    rw [if_neg horganization, if_pos hdepartment] at hwidest
    obtain ⟨page, hpage, hshown⟩ := hlist (mayList_of_grantsScope hown) id row hrow horg
      ((mayView_iff hrow).mpr (.inr (.inl ⟨hown, hactor⟩))) 1 (by decide)
    obtain ⟨cursor, -, hmatches⟩ := ListExpensesHandler.matches_of_reached hpage hshown hwidest
    exact hout (hmatches.departments _ rfl hsome)
  · intro hnot _ id row hrow horg hview limit hlimit
    have hcovered := (mayView_iff hrow).mp hview
    -- the filter of the widest scope lets the row through
    obtain ⟨scope, hscope, hmatches⟩ : ∃ scope,
        PrismaEffectiveScopeResolver.resolveWidestScope permissions
          (user.roles.map PrincipalRole.role) "expense:view" = some scope ∧
        (ListExpensesQuery.filter ⟨user, none, none, limit, hlimit⟩ scope).Matches id row := by
      by_cases horganization : GrantsScope (user.viewGrants permissions) .organization
      · rw [if_pos horganization] at hwidest
        refine ⟨_, hwidest, ListExpensesHandler.matches_filter horg (fun h => ?_) fun h => ?_⟩
        · cases h
        · cases h
      rw [if_neg horganization] at hwidest
      have hcovered := hcovered.resolve_left horganization
      by_cases hdepartment : GrantsScope (user.viewGrants permissions) .department
      · rw [if_pos hdepartment] at hwidest
        refine ⟨_, hwidest, ListExpensesHandler.matches_filter horg (fun _ hsome => ?_) fun h => ?_⟩
        · rcases hcovered with ⟨hown, hactor⟩ | ⟨-, hin⟩
          · by_contra hout
            exact hnot ⟨hown, hdepartment, horganization, hsome, id, row, hrow, horg, hactor, hout⟩
          · exact mem_departmentIds_iff.mpr hin
        · cases h
      · rw [if_neg hdepartment] at hwidest
        obtain ⟨hown, hactor⟩ := hcovered.resolve_right fun h => hdepartment h.1
        rw [if_pos hown] at hwidest
        refine ⟨_, hwidest, ListExpensesHandler.matches_filter horg (fun h => ?_) fun _ => hactor⟩
        cases h
    have hmem : (id, row) ∈ ExpenseRepository.sortedRows expenses
        (ListExpensesQuery.filter ⟨user, none, none, limit, hlimit⟩ scope) :=
      ExpenseRepository.mem_sortedRows.mpr ⟨hrow, hmatches⟩
    exact (ListExpensesHandler.paginates_listed hscope).mem_reached hlimit.1
      (List.mem_map_of_mem (f := listedProps) hmem)

namespace Sample

/-- User 10 is an employee, and heads department 5. -/
def headOfAnother : UserPrincipal :=
  ⟨10, 1, [⟨.employee, none⟩, ⟨.departmentHead, some 5⟩], none⟩

end Sample

/-- **An expense that is on no page**: user 10 entered it for department 2, and may open it. -/
theorem list_leaves_out : MayList Sample.viewPermissions Sample.oneExpense 600000 0
      Sample.headOfAnother ∧
    (Sample.oneExpense.lookup 101).map (·.organizationId) =
      some Sample.headOfAnother.organizationId ∧
    MayView Sample.viewPermissions Sample.oneExpense 600000 0 Sample.headOfAnother 101 ∧
    ∀ limit hlimit page, ReachedPage (ListExpensesHandler.listed Sample.viewPermissions
        Sample.oneExpense Sample.headOfAnother limit hlimit) page →
      ∀ e ∈ page.1, e.id ≠ 101 := by
  have hrow : Sample.oneExpense.lookup 101 = some (Sample.expenseRow .draft 50000) := by
    decide +kernel
  have hgranted : GrantsScope (Sample.headOfAnother.viewGrants Sample.viewPermissions) .own := by
    decide
  refine ⟨mayList_of_grantsScope hgranted, by rw [hrow]; rfl,
    (mayView_iff hrow).mpr (by decide +kernel), ?_⟩
  rintro limit hlimit page hpage e he hid
  have hscope : PrismaEffectiveScopeResolver.resolveWidestScope Sample.viewPermissions
      (Sample.headOfAnother.roles.map PrincipalRole.role) "expense:view" = some .department := by
    decide
  obtain ⟨cursor, hlookup, hmatches⟩ := ListExpensesHandler.matches_of_reached hpage he hscope
  rw [hid, hrow] at hlookup
  have hdepartment : e.departmentId ∈ Sample.headOfAnother.departmentIds :=
    hmatches.departments _ rfl (List.cons_ne_nil _ _)
  rw [← Option.some.inj hlookup] at hdepartment
  exact absurd hdepartment (by decide)

end RatelPlatform
