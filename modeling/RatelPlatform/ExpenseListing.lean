import RatelPlatform.Commands
import RatelPlatform.Authorization
import RatelPlatform.SortedLists

/-!
# The list of expenses

`GET /expenses` answers with a page of the expenses of the caller's organization,
narrowed to their departments or to their own by the widest scope they have.
`GET /expenses/:id` asks the guard instead. The two agree except on one kind of
caller: for a user whose widest scope is the department and who has no department,
the list of departments is empty, and an empty list is no filter.
-/

namespace RatelPlatform

/-! ## Pages -/

/-- Where the page before ended. -/
structure Cursor where
  createdAt : JsDate
  id : Id

/-- What a list answers with; no cursor comes with the last page. -/
structure Page (α : Type) where
  data : List α
  nextCursor : Option Cursor

/-- What a list of expenses is narrowed to. -/
structure ExpenseListFilter where
  organizationId : Id
  departmentIds : Option (List Id)
  requesterId : Option Id
  status : Option (List ExpenseStatus)
  cursor : Option Cursor
  limit : ℕ

/-- The row comes after the cursor. -/
def Cursor.Precedes (c : Cursor) (id : Id) (row : ExpenseRow) : Prop :=
  row.createdAt.ms < c.createdAt.ms ∨ row.createdAt = c.createdAt ∧ id < c.id

instance (c : Cursor) (id : Id) (row : ExpenseRow) : Decidable (c.Precedes id row) :=
  inferInstanceAs (Decidable (_ ∨ _ ∧ _))

/-- The row meets the conditions of the query. A list without elements is none. -/
structure ExpenseListFilter.Matches (filter : ExpenseListFilter) (id : Id) (row : ExpenseRow) :
    Prop where
  organization : row.organizationId = filter.organizationId
  departments : ∀ ids ∈ filter.departmentIds, ids ≠ [] → row.departmentId ∈ ids
  requester : ∀ userId ∈ filter.requesterId, row.source.actorId = userId
  status : ∀ statuses ∈ filter.status, statuses ≠ [] → row.status ∈ statuses
  cursor : ∀ c ∈ filter.cursor, c.Precedes id row

instance (filter : ExpenseListFilter) (id : Id) (row : ExpenseRow) :
    Decidable (filter.Matches id row) :=
  decidable_of_iff (row.organizationId = filter.organizationId ∧
      (∀ ids ∈ filter.departmentIds, ids ≠ [] → row.departmentId ∈ ids) ∧
      (∀ userId ∈ filter.requesterId, row.source.actorId = userId) ∧
      (∀ statuses ∈ filter.status, statuses ≠ [] → row.status ∈ statuses) ∧
      ∀ c ∈ filter.cursor, c.Precedes id row)
    ⟨fun ⟨h₁, h₂, h₃, h₄, h₅⟩ => ⟨h₁, h₂, h₃, h₄, h₅⟩, fun ⟨h₁, h₂, h₃, h₄, h₅⟩ =>
      ⟨h₁, h₂, h₃, h₄, h₅⟩⟩

/-- `ORDER BY created_at DESC, id DESC` -/
def NewestFirst (a b : Id × ExpenseRow) : Prop :=
  b.2.createdAt.ms < a.2.createdAt.ms ∨ b.2.createdAt = a.2.createdAt ∧ b.1 ≤ a.1

instance : DecidableRel NewestFirst := fun _ _ => inferInstanceAs (Decidable (_ ∨ _ ∧ _))

theorem JsDate.eq_of_ms {a b : JsDate} (h : a.ms = b.ms) : a = b := by
  obtain ⟨a, _⟩ := a
  obtain ⟨b, _⟩ := b
  obtain rfl : a = b := h
  rfl

theorem newestFirst_descending :
    Descending (fun r : Id × ExpenseRow => r.2.createdAt.ms) Prod.fst NewestFirst :=
  fun _ _ => or_congr_right (and_congr_left' ⟨congrArg JsDate.ms, JsDate.eq_of_ms⟩)

instance : IsTrans (Id × ExpenseRow) NewestFirst := newestFirst_descending.isTrans

instance : Std.Total NewestFirst := newestFirst_descending.total

/-- `findMany`: one row more than asked for tells whether there is a next page. -/
def ExpenseRepository.findMany (expenses : Table Id ExpenseRow) (filter : ExpenseListFilter) :
    Page Expense :=
  let found := (Table.rows expenses).filter fun r => filter.Matches r.1 r.2
  let rows := (found.insertionSort NewestFirst).take (filter.limit + 1)
  let hasMore := decide (filter.limit < rows.length)
  let pageRows := if hasMore then rows.take filter.limit else rows
  { data := pageRows.map fun r => ExpenseRepository.toDomain r.1 r.2
    nextCursor := if hasMore then pageRows.getLast?.map fun r => ⟨r.2.createdAt, r.1⟩ else none }

/-! ## The handler -/

/-- A request for a page. -/
structure ListExpensesQuery where
  requestingUser : UserPrincipal
  status : Option (List ExpenseStatus)
  cursor : Option Cursor
  limit : ℕ
  /-- the limit was validated -/
  limit_mem : 1 ≤ limit ∧ limit ≤ 100

/-- The departments a user has a role in. -/
def UserPrincipal.departmentIds (user : UserPrincipal) : List Id :=
  user.roles.filterMap PrincipalRole.departmentId

/-- The filter of a caller with that widest scope. -/
def ListExpensesQuery.filter (query : ListExpensesQuery) (scope : PermissionScope) :
    ExpenseListFilter where
  organizationId := query.requestingUser.organizationId
  departmentIds := if scope = .department then some query.requestingUser.departmentIds else none
  requesterId := if scope = .own then some query.requestingUser.id else none
  status := query.status
  cursor := query.cursor
  limit := query.limit

def ListExpensesHandler.execute (permissions : List RolePermission)
    (expenses : Table Id ExpenseRow) (query : ListExpensesQuery) : Page ExpenseProps :=
  let roles := query.requestingUser.roles.map PrincipalRole.role
  match PrismaEffectiveScopeResolver.resolveWidestScope permissions roles "expense:view" with
  | none => { data := [], nextCursor := none }
  | some scope =>
    let page := ExpenseRepository.findMany expenses (query.filter scope)
    { data := page.data.map Expense.props, nextCursor := page.nextCursor }

/-! ## The guard of a single expense -/

/-- What the guard learns of an expense. -/
def ExpenseScopeProvider.getScopeInfo (expenses : Table Id ExpenseRow) (resourceId : Id) :
    Option ResourceScopeInfo :=
  (expenses.lookup resourceId).map fun row => ⟨some row.departmentId, row.source.actorId⟩

/-- The registered providers. -/
def scopeRegistry (expenses : Table Id ExpenseRow) : ResourceScopeRegistry := fun resourceType =>
  if resourceType = "expense" then some (ExpenseScopeProvider.getScopeInfo expenses) else none

/-- `@RequirePermission` of `GET /expenses/:id` -/
def viewExpense : PermissionRequirement := ⟨"expense:view", some "expense", false⟩

/-- The guard lets the user look at the expense. -/
def MayView (permissions : List RolePermission) (expenses : Table Id ExpenseRow)
    (windowMs now : ℕ) (user : UserPrincipal) (id : Id) : Prop :=
  PermissionGuard.canActivate permissions (scopeRegistry expenses) windowMs now (some viewExpense)
    (some user) (some id) = .ok ()

/-- What the user is granted. -/
def UserPrincipal.viewGrants (user : UserPrincipal) (permissions : List RolePermission) :
    List RolePermission :=
  grantsOf permissions (user.roles.map PrincipalRole.role) "expense:view"

variable {permissions : List RolePermission} {expenses : Table Id ExpenseRow} {windowMs now : ℕ}
  {user : UserPrincipal} {id : Id} {row : ExpenseRow} {filter : ExpenseListFilter}

theorem mayView_iff (hrow : expenses.lookup id = some row) :
    MayView permissions expenses windowMs now user id ↔
      GrantsScope (user.viewGrants permissions) .organization ∨
        PermissionGuard.CoversResource (user.viewGrants permissions) user
          ⟨some row.departmentId, row.source.actorId⟩ := by
  refine PermissionGuard.canActivate_ok_iff rfl rfl (if_pos rfl) ?_
  rw [ExpenseScopeProvider.getScopeInfo, hrow]
  rfl

theorem mem_departmentIds_iff {departmentId : Id} :
    departmentId ∈ user.departmentIds ↔
      ∃ r ∈ user.roles, SameDepartment r.departmentId (some departmentId) := by
  rw [UserPrincipal.departmentIds, List.mem_filterMap]
  refine exists_congr fun r => and_congr_right fun _ => ?_
  rcases r.departmentId with _ | d
  · exact iff_of_false nofun id
  · exact Option.some_inj

/-! ## What a page shows -/

/-- A page shows rows of the table that match. -/
theorem ExpenseRepository.mem_findMany {e : Expense}
    (h : e ∈ (ExpenseRepository.findMany expenses filter).data) :
    ∃ id row, e = ExpenseRepository.toDomain id row ∧ expenses.lookup id = some row ∧
      filter.Matches id row := by
  obtain ⟨⟨id, row⟩, hmem, rfl⟩ := List.mem_map.mp h
  have htake : (id, row) ∈ (((Table.rows expenses).filter fun r => filter.Matches r.1 r.2).insertionSort
      NewestFirst).take (filter.limit + 1) := by
    split_ifs at hmem
    · exact List.mem_of_mem_take hmem
    · exact hmem
  have hfound := (List.mem_insertionSort _).mp (List.mem_of_mem_take htake)
  obtain ⟨hrow, hmatches⟩ := List.mem_filter.mp hfound
  exact ⟨id, row, rfl, (Table.mem_rows_iff _ _ _).mp hrow, of_decide_eq_true hmatches⟩

/-- The newest of the rows that match is on the page. -/
theorem ExpenseRepository.newest_mem_findMany (hrow : expenses.lookup id = some row)
    (hmatches : filter.Matches id row) (hlimit : 1 ≤ filter.limit)
    (hnewest : ∀ id' row', filter.Matches id' row' → NewestFirst (id, row) (id', row')) :
    ExpenseRepository.toDomain id row ∈ (ExpenseRepository.findMany expenses filter).data := by
  obtain ⟨found, hfound⟩ : ∃ found, found =
      (Table.rows expenses).filter fun r => filter.Matches r.1 r.2 := ⟨_, rfl⟩
  have hmem : (id, row) ∈ found := by
    rw [hfound, List.mem_filter]
    exact ⟨(Table.mem_rows_iff _ _ _).mpr hrow, decide_eq_true hmatches⟩
  have hhead : (found.insertionSort NewestFirst).head? = some (id, row) := by
    refine head_insertionSort_eq_some hmem fun r hr => ?_
    obtain ⟨id', row'⟩ := r
    rw [hfound] at hr
    obtain ⟨hrow', hmatches'⟩ := List.mem_filter.mp hr
    refine or_iff_not_imp_right.mpr fun hahead => ?_
    -- the only row with this id
    obtain ⟨-, hid⟩ := newestFirst_descending.eq (not_not.mp hahead)
      (hnewest id' row' (of_decide_eq_true hmatches'))
    obtain rfl : id' = id := hid
    rw [Option.some.inj (hrow.symm.trans ((Table.mem_rows_iff _ _ _).mp hrow'))]
  obtain ⟨rest, hsorted⟩ := List.head?_eq_some_iff.mp hhead
  obtain ⟨n, hn⟩ := Nat.exists_eq_add_of_le' hlimit
  refine List.mem_map.mpr ⟨(id, row), ?_, rfl⟩
  simp only [← hfound, hsorted, hn, List.take_succ_cons]
  split_ifs
  · exact List.mem_cons_self
  · exact List.mem_cons_self

/-! ## The result -/

/-- **When the list shows no more than the guard**: exactly unless the widest scope
of the user is the department, they have none, and their organization has an expense
that is not theirs or that they may not view as their own. -/
theorem list_within_guard_iff :
    (∀ query : ListExpensesQuery, query.requestingUser = user →
      ∀ e ∈ (ListExpensesHandler.execute permissions expenses query).data,
        MayView permissions expenses windowMs now user e.id) ↔
    ¬ (PrismaEffectiveScopeResolver.resolveWidestScope permissions
          (user.roles.map PrincipalRole.role) "expense:view" = some .department ∧
        user.departmentIds = [] ∧
        ∃ id row, expenses.lookup id = some row ∧ row.organizationId = user.organizationId ∧
          ¬ (GrantsScope (user.viewGrants permissions) .own ∧ row.source.actorId = user.id)) := by
  refine ⟨?_, ?_⟩
  · rintro hlist ⟨hscope, hnone, id, row, hrow, horg, hother⟩
    obtain ⟨-, hnarrow⟩ := PrismaEffectiveScopeResolver.resolveWidestScope_eq_some hscope
    -- the page that starts at the expense
    obtain ⟨query, hquery⟩ : ∃ query : ListExpensesQuery, query =
        ⟨user, none, some ⟨row.createdAt, id + 1⟩, 1, by decide⟩ := ⟨_, rfl⟩
    have hmatches : (query.filter .department).Matches id row := by
      rw [hquery]
      refine ⟨horg, ?_, nofun, nofun, ?_⟩
      · intro ids hids hne
        obtain rfl := Option.some.inj hids
        exact absurd hnone hne
      · intro c hc
        obtain rfl := Option.some.inj hc
        exact .inr ⟨rfl, Nat.lt_succ_self id⟩
    have hshown := ExpenseRepository.newest_mem_findMany hrow hmatches (by rw [hquery]; rfl) (by
      intro id' row' hmatches'
      have hprecedes := hmatches'.cursor ⟨row.createdAt, id + 1⟩ (by rw [hquery]; rfl)
      exact hprecedes.imp_right fun h => ⟨h.1, Nat.lt_succ_iff.mp h.2⟩)
    have hdata : ({ row with id } : ExpenseProps) ∈
        (ListExpensesHandler.execute permissions expenses query).data := by
      have hscope' : PrismaEffectiveScopeResolver.resolveWidestScope permissions
          (query.requestingUser.roles.map PrincipalRole.role) "expense:view" = some .department := by
        rw [hquery]
        exact hscope
      simp only [ListExpensesHandler.execute, hscope']
      exact List.mem_map_of_mem (f := Expense.props) hshown
    have hview := (mayView_iff hrow).mp (hlist query (by rw [hquery]) _ hdata)
    rcases hview with horganization | hown | ⟨-, hdepartment⟩
    · exact hnarrow nofun horganization
    · exact hother hown
    · rw [← mem_departmentIds_iff, hnone] at hdepartment
      cases hdepartment
  · rintro hnot query rfl e he
    rcases hscope : PrismaEffectiveScopeResolver.resolveWidestScope permissions
      (query.requestingUser.roles.map PrincipalRole.role) "expense:view" with _ | scope
    · simp only [ListExpensesHandler.execute, hscope] at he
      cases he
    · simp only [ListExpensesHandler.execute, hscope] at he
      obtain ⟨expense, hexpense, rfl⟩ := List.mem_map.mp he
      obtain ⟨id, row, rfl, hrow, hmatches⟩ := ExpenseRepository.mem_findMany hexpense
      obtain ⟨hgranted, -⟩ := PrismaEffectiveScopeResolver.resolveWidestScope_eq_some hscope
      refine (mayView_iff hrow).mpr ?_
      cases scope with
      | organization => exact .inl hgranted
      | own => exact .inr (.inl ⟨hgranted, hmatches.requester _ rfl⟩)
      | department =>
        by_cases hnone : query.requestingUser.departmentIds = []
        · -- no filter, so every expense shown has to be their own
          by_contra hhidden
          refine hnot ⟨hscope, hnone, id, row, hrow, hmatches.organization, ?_⟩
          exact fun hown => hhidden (.inr (.inl hown))
        · have hdepartment := hmatches.departments _ rfl hnone
          exact .inr (.inr ⟨hgranted, mem_departmentIds_iff.mp hdepartment⟩)

namespace Sample

/-- Who may look at expenses, as seeded. -/
def viewPermissions : List RolePermission :=
  [⟨.employee, "expense:view", .own⟩, ⟨.departmentHead, "expense:view", .department⟩,
    ⟨.accountant, "expense:view", .organization⟩,
    ⟨.financeDirector, "expense:view", .organization⟩]

/-- A department head of the whole organization, so of no department. -/
def headOfNone : UserPrincipal := ⟨16, 1, [⟨.departmentHead, none⟩], none⟩

/-- Their assignment is not a department's. -/
example : AuthService.buildPrincipal 16 none [⟨.departmentHead, none, 1⟩] = some headOfNone := rfl

/-- One expense, of user 10. -/
def oneExpense : Table Id ExpenseRow := (∅ : Table Id ExpenseRow).insert 101 (expenseRow .draft 50000)

end Sample

/-- **A list of what the guard hides**: the department head without a department is
shown an expense that they may not view. -/
theorem list_beyond_guard : ∃ query : ListExpensesQuery,
    query.requestingUser = Sample.headOfNone ∧
      ∃ e ∈ (ListExpensesHandler.execute Sample.viewPermissions Sample.oneExpense query).data,
        ¬ MayView Sample.viewPermissions Sample.oneExpense 600000 0 Sample.headOfNone e.id := by
  have hrow : Sample.oneExpense.lookup 101 = some (Sample.expenseRow .draft 50000) := by
    decide +kernel
  refine ⟨⟨Sample.headOfNone, none, none, 25, by decide⟩, rfl,
    { Sample.expenseRow .draft 50000 with id := 101 }, by decide +kernel, ?_⟩
  rw [mayView_iff hrow]
  decide +kernel

end RatelPlatform
