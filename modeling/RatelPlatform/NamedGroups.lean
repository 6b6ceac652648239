import RatelPlatform.ReportingPlatform
import RatelPlatform.SpendingReports

/-!
# One line for each department

The reports group by the id together with the name that was copied next to it. A department
that was renamed between the projections of two of its expenses has two lines. They have one
exactly as long as rows with one id have one name (`spendingReportedOnce_iff`), so in a run
the reports are right throughout exactly when every projection looks up the names that the
other approved rows have (`reported_once_iff`).
-/

namespace RatelPlatform

/-! ## Groups with an id -/

section

variable {κ : Type} [DecidableEq κ] {key : ExpenseReadModel → κ} {idOf : κ → Option Id}
  {rows : List ExpenseReadModel}

/-- The keys of the groups are different. -/
theorem nodup_map_key_groupBy : ((groupBy key rows).map SpendingGroup.key).Nodup := by
  rw [groupBy, List.map_map]
  exact (List.map_id _).symm ▸ List.nodup_dedup _

/-- Rows with the same id have the same key. -/
def IdsDecide (key : ExpenseReadModel → κ) (idOf : κ → Option Id) (rows : List ExpenseReadModel) :
    Prop :=
  ∀ r ∈ rows, ∀ s ∈ rows, idOf (key r) = idOf (key s) → key r = key s

/-- A group then has all the rows with its id. -/
theorem rows_of_idsDecide (h : IdsDecide key idOf rows) {group : SpendingGroup κ}
    (hgroup : group ∈ groupBy key rows) :
    group.rows = rows.filter fun row => idOf (key row) = idOf group.key := by
  obtain ⟨⟨r, hr, hkey⟩, hrows⟩ := mem_groupBy_iff.mp hgroup
  rw [hrows]
  refine List.filter_congr fun row hrow => decide_eq_decide.mpr ?_
  rw [← hkey]
  exact ⟨congrArg idOf, h row hrow r hr⟩

/-- The first groups in some order have different ids. -/
theorem nodup_map_idOf (h : IdsDecide key idOf rows) {groups : List (SpendingGroup κ)}
    (hgroups : groups.Perm (groupBy key rows)) (limit : ℕ) :
    ((groups.take limit).map fun group => idOf group.key).Nodup := by
  have hkeys : ((groupBy key rows).map fun group => idOf group.key).Nodup := by
    refine List.Nodup.map_on (fun g hg g' hg' hid => ?_) (.of_map _ nodup_map_key_groupBy)
    obtain ⟨⟨r, hr, hkey⟩, -⟩ := mem_groupBy_iff.mp hg
    obtain ⟨⟨r', hr', hkey'⟩, -⟩ := mem_groupBy_iff.mp hg'
    rw [← hkey, ← hkey'] at hid
    have hsame : g.key = g'.key := by rw [← hkey, ← hkey', h r hr r' hr' hid]
    exact List.inj_on_of_nodup_map nodup_map_key_groupBy hg hg' hsame
  have hsorted := ((hgroups.map fun group => idOf group.key).nodup_iff).mpr hkeys
  exact hsorted.sublist ((List.take_sublist _ _).map _)

end

/-! ## The lines of the reports -/

/-- The spending report of a kind. -/
def ReferenceDataType.report : ReferenceDataType → Report
  | department => .departmentSpendingSummary
  | vendor => .topVendors
  | expenseCategory => .topCategories
  | project => .projectSpending

section

variable (permissions : List RolePermission) (readModel : Table Id ExpenseReadModel)
  (query : ReportQuery) (limit : ℕ)

/-- The lines of the spending report of a kind: an id, a total, a count. -/
def spendingLines : ReferenceDataType → List (Id × String × ℕ)
  | .department =>
    (DepartmentSpendingSummaryHandler.execute permissions readModel query).map fun line =>
      (line.departmentId, line.totalMinorUnits, line.expenseCount)
  | .vendor =>
    (TopVendorsHandler.execute permissions readModel query limit).map fun line =>
      (line.vendorId, line.totalMinorUnits, line.expenseCount)
  | .expenseCategory =>
    (TopCategoriesHandler.execute permissions readModel query limit).map fun line =>
      (line.categoryId, line.totalMinorUnits, line.expenseCount)
  | .project =>
    (ProjectSpendingHandler.execute permissions readModel query).map fun line =>
      (line.projectId, line.totalMinorUnits, line.expenseCount)

/-- No id has two lines, and a line has all the rows of its id in the caller's range and scope. -/
structure ReportedOnce (type : ReferenceDataType) : Prop where
  nodup : ((spendingLines permissions readModel query limit type).map Prod.fst).Nodup
  complete : ∀ line ∈ spendingLines permissions readModel query limit type,
    let rows := (type.report.rows permissions readModel query).filter fun row =>
      row.reference type = some line.1
    line.2.1 = toString (rows.map ExpenseReadModel.amountMinorUnits).sum ∧
      line.2.2 = rows.length

end

/-- The lines of the groups that have an id. -/
def linesOf {κ : Type} (idOf : κ → Option Id) (groups : List (SpendingGroup κ)) :
    List (Id × String × ℕ) :=
  groups.filterMap fun group =>
    (idOf group.key).map fun id => (id, toString group.total, group.rows.length)

theorem map_fst_linesOf {κ : Type} (idOf : κ → Option Id) (groups : List (SpendingGroup κ)) :
    (linesOf idOf groups).map Prod.fst = groups.filterMap fun group => idOf group.key := by
  rw [linesOf, List.map_filterMap]
  simp only [Option.map_map, Function.comp_def, Option.map_id']

/-- When all groups have an id, so do all lines. -/
theorem map_some_filterMap {α β : Type} {f : α → Option β} {l : List α}
    (h : ∀ a ∈ l, f a ≠ none) : (l.filterMap f).map some = l.map f := by
  induction l with
  | nil => rfl
  | cons a l ih =>
    obtain ⟨b, hb⟩ := Option.ne_none_iff_exists'.mp (h a List.mem_cons_self)
    rw [List.filterMap_cons, hb, List.map_cons, List.map_cons, hb,
      ih fun c hc => h c (List.mem_cons_of_mem _ hc)]

theorem nodup_filterMap {α β : Type} {f : α → Option β} {l : List α} (h : (l.map f).Nodup) :
    (l.filterMap f).Nodup := by
  have hmap : l.filterMap f = (l.map f).filterMap id := by
    rw [List.filterMap_map]
    rfl
  rw [hmap]
  refine h.filterMap fun a a' b ha ha' => ?_
  exact (Option.mem_def.mp ha).trans (Option.mem_def.mp ha').symm

/-- Rows with one id of the kind have one name. -/
def OneNameEach (type : ReferenceDataType) (rows : List ExpenseReadModel) : Prop :=
  ∀ r ∈ rows, ∀ s ∈ rows, r.reference type = s.reference type →
    r.referenceName type = s.referenceName type

section

variable {permissions : List RolePermission} {readModel : Table Id ExpenseReadModel}
  {query : ReportQuery} {limit n : ℕ} {type : ReferenceDataType}

/-- A report whose lines are the first groups by an id and a name. -/
structure GroupsBy {κ : Type} [DecidableEq κ] (key : ExpenseReadModel → κ) (idOf : κ → Option Id)
    (type : ReferenceDataType) (rows : List ExpenseReadModel) (groups : List (SpendingGroup κ)) :
    Prop where
  perm : groups.Perm (groupBy key rows)
  reference : ∀ row, idOf (key row) = row.reference type
  key_eq : ∀ r s, key r = key s ↔
    r.reference type = s.reference type ∧ r.referenceName type = s.referenceName type
  /-- the report asks for rows that have the reference -/
  ne_none : ∀ row ∈ rows, row.reference type ≠ none

section

variable {κ : Type} [DecidableEq κ] {key : ExpenseReadModel → κ} {idOf : κ → Option Id}
  {groups : List (SpendingGroup κ)}

theorem GroupsBy.idsDecide_iff {rows : List ExpenseReadModel}
    (h : GroupsBy key idOf type rows groups) :
    IdsDecide key idOf rows ↔ OneNameEach type rows := by
  refine forall₂_congr fun r _ => forall₂_congr fun s _ => ?_
  rw [h.reference, h.reference, h.key_eq]
  exact ⟨fun hboth hid => (hboth hid).2, fun hname hid => ⟨hid, hname hid⟩⟩

/-- Rows with one name for each id are reported once. -/
theorem GroupsBy.reportedOnce
    (h : GroupsBy key idOf type (type.report.rows permissions readModel query) groups)
    (hlines : spendingLines permissions readModel query limit type = linesOf idOf (groups.take n))
    (hnames : OneNameEach type (type.report.rows permissions readModel query)) :
    ReportedOnce permissions readModel query limit type := by
  have hids := h.idsDecide_iff.mpr hnames
  refine ⟨?_, ?_⟩
  · rw [hlines, map_fst_linesOf]
    exact nodup_filterMap (nodup_map_idOf hids h.perm n)
  · intro line hline
    rw [hlines] at hline
    obtain ⟨group, hgroup, hline⟩ := List.mem_filterMap.mp hline
    obtain ⟨id, hid, rfl⟩ := Option.map_eq_some_iff.mp hline
    have hrows := rows_of_idsDecide hids (h.perm.mem_iff.mp (List.mem_of_mem_take hgroup))
    simp only [h.reference, hid] at hrows
    rw [SpendingGroup.total, hrows]
    exact ⟨rfl, rfl⟩

/-- A report of all groups in which no id has two lines. -/
theorem GroupsBy.oneNameEach
    (h : GroupsBy key idOf type (type.report.rows permissions readModel query) groups)
    (hlines : spendingLines permissions readModel query limit type = linesOf idOf (groups.take n))
    (hall : groups.length ≤ n) (honce : ReportedOnce permissions readModel query limit type) :
    OneNameEach type (type.report.rows permissions readModel query) := by
  rw [List.take_of_length_le hall] at hlines
  have hsome : ∀ group ∈ groups, idOf group.key ≠ none := by
    intro group hgroup
    obtain ⟨⟨row, hrow, hkey⟩, -⟩ := mem_groupBy_iff.mp (h.perm.mem_iff.mp hgroup)
    rw [← hkey, h.reference]
    exact h.ne_none row hrow
  have hnodup : (groups.map fun group => idOf group.key).Nodup := by
    have hfst := honce.nodup
    rw [hlines, map_fst_linesOf] at hfst
    rw [← map_some_filterMap hsome]
    exact hfst.map (Option.some_injective Id)
  refine h.idsDecide_iff.mp fun r hr s hs hid => ?_
  have hgroup : ∀ row ∈ type.report.rows permissions readModel query, ∃ group ∈ groups,
      group.key = key row := by
    intro row hrow
    have hkeyed : ∃ group ∈ groupBy key (type.report.rows permissions readModel query),
        group.key = key row := exists_mem_groupBy_iff.mpr ⟨row, hrow, rfl⟩
    obtain ⟨group, hmem, hkey⟩ := hkeyed
    exact ⟨group, h.perm.mem_iff.mpr hmem, hkey⟩
  obtain ⟨g, hg, hkey⟩ := hgroup r hr
  obtain ⟨g', hg', hkey'⟩ := hgroup s hs
  rw [← hkey, ← hkey'] at hid ⊢
  rw [List.inj_on_of_nodup_map hnodup hg hg' hid]

end

theorem length_groupBy_le {κ : Type} [DecidableEq κ] (key : ExpenseReadModel → κ)
    (rows : List ExpenseReadModel) : (groupBy key rows).length ≤ rows.length := by
  rw [groupBy, List.length_map]
  exact (List.length_map key ▸ (List.dedup_sublist (rows.map key)).length_le)

/-- A line for each group. -/
theorem linesOf_some {κ : Type} (id : κ → Id) (groups : List (SpendingGroup κ)) :
    linesOf (fun k => some (id k)) groups =
      groups.map fun group => (id group.key, toString group.total, group.rows.length) := by
  rw [linesOf, ← List.filterMap_eq_map]
  rfl

/-- **The four reports** are of this form; the limit only cuts the groups. -/
theorem exists_groupsBy (permissions : List RolePermission) (readModel : Table Id ExpenseReadModel)
    (query : ReportQuery) (limit : ℕ) (type : ReferenceDataType) :
    ∃ (κ : Type) (_ : DecidableEq κ) (key : ExpenseReadModel → κ) (idOf : κ → Option Id)
      (groups : List (SpendingGroup κ)) (n : ℕ),
      GroupsBy key idOf type (type.report.rows permissions readModel query) groups ∧
        spendingLines permissions readModel query limit type = linesOf idOf (groups.take n) ∧
          ((type.report.rows permissions readModel query).length ≤ limit → groups.length ≤ n) := by
  have hlength : ∀ {κ : Type} [DecidableEq κ] (key : ExpenseReadModel → κ)
      (rows : List ExpenseReadModel), rows.length ≤ limit →
        (byTotal (groupBy key rows)).length ≤ limit := by
    intro κ _ key rows hrows
    rw [byTotal, List.length_insertionSort]
    exact (length_groupBy_le key rows).trans hrows
  cases type with
  | department =>
    refine ⟨Id × String, inferInstance, fun row => (row.departmentId, row.departmentName),
      fun k => some k.1, byTotal (groupBy _ _), _,
      ⟨List.perm_insertionSort _ _, fun _ => rfl, ?_, fun _ _ => Option.some_ne_none _⟩, ?_,
      fun _ => le_rfl⟩
    · intro r s
      simp only [Prod.mk.injEq, ExpenseReadModel.reference, ExpenseReadModel.referenceName,
        Option.some.injEq]
    · rw [List.take_length, linesOf_some, spendingLines, DepartmentSpendingSummaryHandler.execute,
        byDepartment, List.map_map]
      rfl
  | expenseCategory =>
    refine ⟨Id × String, inferInstance, fun row => (row.categoryId, row.categoryName),
      fun k => some k.1, byTotal (groupBy _ _), limit,
      ⟨List.perm_insertionSort _ _, fun _ => rfl, ?_, fun _ _ => Option.some_ne_none _⟩, ?_,
      hlength _ _⟩
    · intro r s
      simp only [Prod.mk.injEq, ExpenseReadModel.reference, ExpenseReadModel.referenceName,
        Option.some.injEq]
    · rw [linesOf_some, spendingLines, TopCategoriesHandler.execute, List.map_map]
      rfl
  | vendor =>
    refine ⟨Option Id × Option String, inferInstance, fun row => (row.vendorId, row.vendorName),
      Prod.fst, byTotal (groupBy _ _), limit,
      ⟨List.perm_insertionSort _ _, fun _ => rfl, fun _ _ => Prod.mk_inj, ?_⟩, ?_, hlength _ _⟩
    · intro row hrow
      obtain ⟨-, -, -, -, hvendor⟩ := Report.mem_rows_iff.mp hrow
      exact hvendor
    · rw [spendingLines, TopVendorsHandler.execute, List.map_filterMap]
      simp only [Option.map_map]
      rfl
  | project =>
    refine ⟨Option Id × Option String, inferInstance, fun row => (row.projectId, row.projectName),
      Prod.fst, byTotal (groupBy _ _), _,
      ⟨List.perm_insertionSort _ _, fun _ => rfl, fun _ _ => Prod.mk_inj, ?_⟩, ?_, fun _ => le_rfl⟩
    · intro row hrow
      obtain ⟨-, -, -, -, hproject⟩ := Report.mem_rows_iff.mp hrow
      exact hproject
    · rw [List.take_length, spendingLines, ProjectSpendingHandler.execute, List.map_filterMap]
      simp only [Option.map_map]
      rfl

end

/-! ## Names that agree -/

/-- An approved row has the names that the other approved rows of the organization have with the
same ids. -/
def SharesNames (readModel : Table Id ExpenseReadModel) (id : Id) (row : ExpenseReadModel) : Prop :=
  row.status = "approved" → ∀ id' row', id' ≠ id → readModel.lookup id' = some row' →
    row'.status = "approved" → row'.organizationId = row.organizationId →
      ∀ type, row'.reference type = row.reference type → row.reference type ≠ none →
        row'.referenceName type = row.referenceName type

/-- So do all of them. -/
def NamesAgree (readModel : Table Id ExpenseReadModel) : Prop :=
  ∀ id row, readModel.lookup id = some row → SharesNames readModel id row

/-- The four reports are right, whoever asks. -/
def SpendingReportedOnce (readModel : Table Id ExpenseReadModel) : Prop :=
  ∀ permissions query limit type, ReportedOnce permissions readModel query limit type

namespace Sample

/-- Someone who sees the reports of an organization. -/
def director (organizationId : Id) : UserPrincipal where
  id := 0
  organizationId := organizationId
  roles := [⟨.financeDirector, none⟩]
  stepUpAt := none

def directorPermissions : List RolePermission := [⟨.financeDirector, "report:view", .organization⟩]

theorem allTime_valid : (-8640000000000000 : ℤ) ≤ -8640000000000000 ∧
    (-8640000000000000 : ℤ) ≤ 8640000000000000 ∧ (-8640000000000000 : ℤ) ≤ 8640000000000000 ∧
      (8640000000000000 : ℤ) ≤ 8640000000000000 := by
  decide

/-- From the first day to the last one. -/
def allTime (user : UserPrincipal) : ReportQuery :=
  ⟨user, ⟨-8640000000000000, allTime_valid.1, allTime_valid.2.1⟩,
    ⟨8640000000000000, allTime_valid.2.2.1, allTime_valid.2.2.2⟩⟩

theorem inRange_allTime (user : UserPrincipal) (row : ExpenseReadModel) :
    (allTime user).InRange row := row.expenseDate.valid

end Sample

theorem reportScope_director (organizationId : Id) :
    reportScope Sample.directorPermissions (Sample.director organizationId) = some .organization :=
  rfl

/-- The spending reports read approved rows. -/
theorem approved_of_mem_rows {permissions : List RolePermission}
    {readModel : Table Id ExpenseReadModel} {query : ReportQuery} {type : ReferenceDataType}
    {row : ExpenseReadModel} (hrow : row ∈ type.report.rows permissions readModel query) :
    row.status = "approved" := by
  obtain ⟨-, -, hmatches⟩ := Report.mem_rows_iff.mp hrow
  cases type with
  | department | vendor | expenseCategory | project => exact hmatches.1

/-- A director who asks about all of time gets every approved row that has the reference. -/
theorem mem_rows_director {readModel : Table Id ExpenseReadModel} {id : Id}
    {row : ExpenseReadModel} {type : ReferenceDataType} (hrow : readModel.lookup id = some row)
    (happroved : row.status = "approved") (hsome : row.reference type ≠ none) :
    row ∈ type.report.rows Sample.directorPermissions readModel
      (Sample.allTime (Sample.director row.organizationId)) := by
  have hrange := Sample.inRange_allTime (Sample.director row.organizationId) row
  refine Report.mem_rows_iff.mpr ⟨⟨id, hrow⟩, ⟨rfl, ?_⟩, ?_⟩
  · rw [Sample.allTime, reportScope_director]
    exact trivial
  · cases type with
    | department | expenseCategory => exact ⟨happroved, hrange⟩
    | vendor | project => exact ⟨happroved, hrange, hsome⟩

/-- **Everybody's reports have one line for each id exactly when the names agree**. -/
theorem spendingReportedOnce_iff (readModel : Table Id ExpenseReadModel) :
    SpendingReportedOnce readModel ↔ NamesAgree readModel := by
  refine ⟨?_, ?_⟩
  · intro honce id row hrow happroved id' row' hne hrow' happroved' horganization type href hsome
    -- ask for as many lines as there are rows
    obtain ⟨κ, _, key, idOf, groups, n, hgroups, hlines, hall⟩ := exists_groupsBy
      Sample.directorPermissions readModel (Sample.allTime (Sample.director row.organizationId))
      (type.report.rows Sample.directorPermissions readModel
        (Sample.allTime (Sample.director row.organizationId))).length type
    have hmem' := mem_rows_director hrow' happroved' (href ▸ hsome)
    rw [horganization] at hmem'
    exact hgroups.oneNameEach hlines (hall le_rfl) (honce _ _ _ type) row' hmem' row
      (mem_rows_director hrow happroved hsome) href
  · intro hagree permissions query limit type
    obtain ⟨κ, _, key, idOf, groups, n, hgroups, hlines, -⟩ :=
      exists_groupsBy permissions readModel query limit type
    refine hgroups.reportedOnce hlines fun r hr s hs href => ?_
    obtain ⟨⟨id, hrow⟩, ⟨horganization, -⟩, -⟩ := Report.mem_rows_iff.mp hr
    obtain ⟨⟨id', hrow'⟩, ⟨horganization', -⟩, -⟩ := Report.mem_rows_iff.mp hs
    by_cases hsame : id = id'
    · subst hsame
      rw [Option.some.inj (hrow.symm.trans hrow')]
    · exact hagree id' s hrow' (approved_of_mem_rows hs) id r hsame hrow (approved_of_mem_rows hr)
        (horganization.trans horganization'.symm) type href (hgroups.ne_none s hs)

/-- A row that is written keeps the names in agreement exactly when it shares them. -/
theorem namesAgree_insert {readModel : Table Id ExpenseReadModel} (h : NamesAgree readModel)
    (id : Id) (row : ExpenseReadModel) :
    NamesAgree (readModel.insert id row) ↔ SharesNames readModel id row := by
  refine ⟨?_, ?_⟩
  · intro hagree happroved id' row' hne hrow'
    exact hagree id row (Finmap.lookup_insert _) happroved id' row' hne
      ((Finmap.lookup_insert_of_ne _ hne).trans hrow')
  · intro hshares id₁ row₁ hrow₁ happroved₁ id₂ row₂ hne hrow₂ happroved₂ horganization type href
      hsome
    rw [Table.lookup_insert_ite] at hrow₁ hrow₂
    split_ifs at hrow₁ hrow₂ with h₁ h₂ h₂
    · exact absurd (h₂.trans h₁.symm) hne
    · obtain rfl := Option.some.inj hrow₁
      exact hshares happroved₁ id₂ row₂ h₂ hrow₂ happroved₂ horganization type href hsome
    · obtain rfl := Option.some.inj hrow₂
      exact (hshares happroved₂ id₁ row₁ h₁ hrow₁ happroved₁ horganization.symm type href.symm
        (href ▸ hsome)).symm
    · exact h id₁ row₁ hrow₁ happroved₁ id₂ row₂ hne hrow₂ happroved₂ horganization type href hsome

/-! ## Runs -/

namespace ReportingPlatform

variable {runtime : ImportRuntime} {jobs : ℕ → ImportJob} {administration : Administration}
  {names : Id → String} {σ σ' : ReportingPlatform} {event : ReportingEvent}
  {events : List ReportingEvent}

/-- A projection that leaves an approved row has looked up the names of the others. -/
def WritesSharedNames (σ : ReportingPlatform) (event : ReportingEvent) : Prop :=
  ∀ id row, σ.written event = some (id, row) → SharesNames σ.readModel id row

/-- **One event** keeps the names in agreement exactly when it writes shared names. -/
theorem namesAgree_next (h : NamesAgree σ.readModel) (hn : next runtime jobs σ event = some σ') :
    NamesAgree σ'.readModel ↔ σ.WritesSharedNames event := by
  rw [readModel_next hn, WritesSharedNames]
  rcases σ.written event with _ | ⟨id, row⟩
  · simp only [reduceCtorEq, false_imp_iff, implies_true, iff_true]
    exact h
  · refine (namesAgree_insert h id row).trans ⟨fun hshares id' row' hwritten => ?_, fun h => ?_⟩
    · cases hwritten
      exact hshares
    · exact h id row rfl

/-- **The spending reports are right throughout a run exactly when every projection of it that
leaves an approved row has looked up the names the other rows have.** -/
theorem reported_once_iff
    (hr : Reaches (next runtime jobs) (fun _ _ => True) (initial administration names) events σ) :
    Throughout (next runtime jobs) (initial administration names) events
        (fun τ => SpendingReportedOnce τ.readModel) ↔
      Reaches (next runtime jobs) WritesSharedNames (initial administration names) events σ := by
  simp only [spendingReportedOnce_iff]
  refine hr.throughout_iff ?_ fun _ _ _ h hn => namesAgree_next h hn
  intro id row hrow
  cases hrow

end ReportingPlatform

namespace Sample

/-- The event of the outbox is projected without a break. -/
def projectEvent (n : ℕ) : List ReportingEvent :=
  [.read 0 n, .lookUp 0 .department, .lookUp 0 .expenseCategory, .lookUp 0 .vendor,
    .lookUp 0 .project, .upsert 0]

/-- Two expenses of the department 2 are approved. The first is projected, the department is
renamed, the second is projected. -/
def renamedBetween : List ReportingEvent :=
  [openJanuary, create 101 50000, create 102 30000, submit 101, approve 101 11, submit 102,
    approve 102 11].map (fun request => .platform (.command request)) ++
  projectEvent 1 ++
  [.platform (.referenceData ⟨noon, 950, 0⟩ (.update .department ⟨2, 1, "Sales"⟩))] ++
  projectEvent 2

/-- The lines of the spending by department after some events. -/
def departmentLines (σ : ReportingPlatform) : List (Id × String × ℕ) :=
  spendingLines directorPermissions σ.readModel (allTime (director 1)) 10 .department

end Sample

namespace ReportingPlatform

/-- **A department with two lines.** -/
theorem department_reported_twice : ∃ σ,
    Reaches (next Sample.importRuntime fun _ => Sample.importJob) (fun _ _ => True)
        (initial Sample.administration Sample.names) Sample.renamedBetween σ ∧
      Sample.departmentLines σ = [(2, "50000", 1), (2, "30000", 1)] ∧
        ¬ SpendingReportedOnce σ.readModel := by
  have hrun : (runLabels (next Sample.importRuntime fun _ => Sample.importJob)
      (initial Sample.administration Sample.names) Sample.renamedBetween).map
        Sample.departmentLines = some [(2, "50000", 1), (2, "30000", 1)] := by
    decide +kernel
  obtain ⟨σ, hσ, hlines⟩ := Option.map_eq_some_iff.mp hrun
  refine ⟨σ, reaches_of_runLabels hσ, hlines, fun honce => ?_⟩
  have hnodup := (honce Sample.directorPermissions (Sample.allTime (Sample.director 1)) 10
    .department).nodup
  change ((Sample.departmentLines σ).map Prod.fst).Nodup at hnodup
  rw [hlines] at hnodup
  exact absurd hnodup (by decide)

/-- The run of the two lines. -/
theorem reported_once_iff_sample : ∃ σ,
    Reaches (next Sample.importRuntime fun _ => Sample.importJob) (fun _ _ => True)
        (initial Sample.administration Sample.names) Sample.renamedBetween σ ∧
      (Throughout (next Sample.importRuntime fun _ => Sample.importJob)
          (initial Sample.administration Sample.names) Sample.renamedBetween
          (fun τ => SpendingReportedOnce τ.readModel) ↔
        Reaches (next Sample.importRuntime fun _ => Sample.importJob) WritesSharedNames
          (initial Sample.administration Sample.names) Sample.renamedBetween σ) := by
  have hrun : (runLabels (next Sample.importRuntime fun _ => Sample.importJob)
      (initial Sample.administration Sample.names) Sample.renamedBetween).isSome := by
    decide +kernel
  obtain ⟨σ, hσ⟩ := Option.isSome_iff_exists.mp hrun
  exact ⟨σ, reaches_of_runLabels hσ, reported_once_iff (reaches_of_runLabels hσ)⟩

end ReportingPlatform

end RatelPlatform
