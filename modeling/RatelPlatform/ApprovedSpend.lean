import Mathlib.Algebra.BigOperators.Group.Finset.Piecewise
import RatelPlatform.EncryptedPayslips
import RatelPlatform.SpendingReports

/-!
# Three reports on what is approved

The spending by department, the row `approved` of the status breakdown and the cash outflow by
month are two queries of the ORM and one in SQL. All of them sum the same rows of the read
model, group by group, so they come to the same amount and the same number of expenses
(`reports_agree`), as long as the range is one of calendar dates: a bound within a day is cut
to the day by the ORM and not in the SQL.
-/

namespace RatelPlatform

/-! ## Summing group by group -/

/-- A sum over a list is one over the values of a key, taken from any list without duplicates
that has them all. -/
theorem sum_map_filter_key {α κ M : Type} [AddCommMonoid M] [DecidableEq κ] (key : α → κ)
    (f : α → M) {keys : List κ} (hkeys : keys.Nodup) {l : List α} (hl : ∀ a ∈ l, key a ∈ keys) :
    (keys.map fun k => ((l.filter fun a => key a = k).map f).sum).sum = (l.map f).sum := by
  rw [← List.sum_toFinset _ hkeys]
  induction l with
  | nil => simp
  | cons a l ih =>
    have hcons : ∀ k, (((a :: l).filter fun b => key b = k).map f).sum =
        (if key a = k then f a else 0) + ((l.filter fun b => key b = k).map f).sum := by
      intro k
      by_cases hk : key a = k
      · simp [hk]
      · simp [hk]
    simp only [hcons, Finset.sum_add_distrib, Finset.sum_ite_eq, List.mem_toFinset,
      hl a List.mem_cons_self, if_true, List.map_cons, List.sum_cons]
    rw [ih fun b hb => hl b (List.mem_cons_of_mem _ hb)]

section

variable {κ : Type} [DecidableEq κ] {key : ExpenseReadModel → κ} {rows : List ExpenseReadModel}

/-- The groups have all the rows between them. -/
theorem sum_groupBy {M : Type} [AddCommMonoid M] (f : ExpenseReadModel → M) :
    ((groupBy key rows).map fun group => (group.rows.map f).sum).sum = (rows.map f).sum := by
  rw [groupBy, List.map_map]
  exact sum_map_filter_key key f (List.nodup_dedup _)
    fun row hrow => List.mem_dedup.mpr (List.mem_map_of_mem hrow)

end

/-- The only element of its kind is the one that is found. -/
theorem find?_eq_some_of_unique {α : Type} {p : α → Bool} {l : List α} {a : α} (ha : a ∈ l)
    (hp : p a) (hunique : ∀ b ∈ l, p b → b = a) : l.find? p = some a := by
  rcases hfind : l.find? p with _ | b
  · exact absurd hp (List.find?_eq_none.mp hfind a ha)
  · rw [hunique b (List.mem_of_find?_eq_some hfind) (List.find?_some hfind)]

/-! ## Amounts that are written -/

/-- The amount a report writes as a text. -/
def writtenAmount (text : String) : ℤ := (stringToBigInt text.toList).getD 0

theorem toList_toString (n : ℤ) : (toString n).toList = bigintText n := by
  rw [Int.toString_eq_repr, Int.repr_eq_if, bigintText]
  rcases lt_or_ge n 0 with hn | hn
  · rw [if_neg (not_le.mpr hn), if_pos hn, String.toList_append]
    have habs : (-n).toNat = n.natAbs := by omega
    simp [Nat.repr, habs]
  · rw [if_pos hn, if_neg (not_lt.mpr hn)]
    have habs : n.toNat = n.natAbs := by omega
    simp [Nat.repr, habs]

@[simp] theorem writtenAmount_toString (n : ℤ) : writtenAmount (toString n) = n := by
  rw [writtenAmount, toList_toString, stringToBigInt_bigintText, Option.getD_some]

/-- An amount and a number of expenses. -/
structure Spend where
  total : ℤ
  count : ℕ
  deriving DecidableEq

/-- What the lines of a report come to. -/
def Spend.ofLines (lines : List (String × ℕ)) : Spend where
  total := (lines.map fun line => writtenAmount line.1).sum
  count := (lines.map Prod.snd).sum

/-- What some rows come to. -/
def Spend.ofRows (rows : List ExpenseReadModel) : Spend where
  total := (rows.map ExpenseReadModel.amountMinorUnits).sum
  count := rows.length

/-- One line a group, in whatever order, comes to what the rows come to. -/
theorem Spend.ofLines_groups {κ : Type} [DecidableEq κ] {key : ExpenseReadModel → κ}
    {rows : List ExpenseReadModel} {groups : List (SpendingGroup κ)}
    (hgroups : groups.Perm (groupBy key rows)) :
    Spend.ofLines (groups.map fun group => (toString group.total, group.rows.length)) =
      Spend.ofRows rows := by
  simp only [Spend.ofLines, Spend.ofRows, List.map_map, Function.comp_def, writtenAmount_toString,
    Spend.mk.injEq]
  refine ⟨?_, ?_⟩
  · rw [(hgroups.map _).sum_eq]
    exact sum_groupBy ExpenseReadModel.amountMinorUnits
  · have hlength : ∀ rows : List ExpenseReadModel, (rows.map fun _ => 1).sum = rows.length := by
      intro rows
      simp
    rw [(hgroups.map _).sum_eq]
    simp only [← hlength]
    exact sum_groupBy fun _ => 1

/-! ## The three reports -/

section

variable (permissions : List RolePermission) (readModel : Table Id ExpenseReadModel)
  (query : ReportQuery)

/-- The spending by department, over all its lines. -/
def DepartmentSpendingSummaryHandler.spend : Spend :=
  .ofLines ((execute permissions readModel query).map fun line =>
    (line.totalMinorUnits, line.expenseCount))

/-- The line `approved` of the status breakdown, or nothing. -/
def ExpenseStatusBreakdownHandler.approvedSpend : Spend :=
  match (execute permissions readModel query).find? fun line => line.status = "approved" with
  | some line => ⟨writtenAmount line.totalMinorUnits, line.expenseCount⟩
  | none => ⟨0, 0⟩

/-- The cash outflow, over all its months. -/
def CashOutflowHandler.spend : Spend :=
  .ofLines ((execute permissions readModel query).map fun line =>
    (line.totalMinorUnits, line.expenseCount))

variable {permissions readModel query}

theorem DepartmentSpendingSummaryHandler.spend_eq : spend permissions readModel query =
    .ofRows (Report.rows permissions readModel query .departmentSpendingSummary) := by
  rw [spend, execute, byDepartment, List.map_map]
  exact Spend.ofLines_groups (List.perm_insertionSort _ _)

theorem CashOutflowHandler.spend_eq : spend permissions readModel query =
    .ofRows (Report.rows permissions readModel query .cashOutflow) := by
  rw [spend, execute, List.map_map, ← CashOutflowHandler.rows_eq]
  exact Spend.ofLines_groups (List.perm_insertionSort _ _)

theorem ExpenseStatusBreakdownHandler.approvedSpend_eq :
    approvedSpend permissions readModel query =
      .ofRows ((Report.rows permissions readModel query .expenseStatusBreakdown).filter
        fun row => row.status = "approved") := by
  set rows := Report.rows permissions readModel query .expenseStatusBreakdown with hrows
  have hfind : (fun line : ExpenseStatusBreakdownRow => decide (line.status = "approved")) ∘
      (fun group : SpendingGroup String => (⟨group.key, toString group.total, group.rows.length⟩ :
        ExpenseStatusBreakdownRow)) = fun group => decide (group.key = "approved") := rfl
  rw [approvedSpend, execute, List.find?_map, hfind]
  by_cases happroved : ∃ row ∈ rows, row.status = "approved"
  · -- there is one group of the status
    have hmem : (⟨"approved", rows.filter fun row => row.status = "approved"⟩ :
        SpendingGroup String) ∈ grouped permissions readModel query :=
      (List.mem_insertionSort _).mpr (mem_groupBy_iff.mpr ⟨happroved, rfl⟩)
    rw [find?_eq_some_of_unique hmem (decide_eq_true rfl)]
    · simp only [Option.map_some, writtenAmount_toString]
      rfl
    · intro group hgroup hkey
      obtain ⟨-, hof⟩ := mem_groupBy_iff.mp ((List.mem_insertionSort _).mp hgroup)
      obtain ⟨status, rows'⟩ := group
      obtain rfl : status = "approved" := of_decide_eq_true hkey
      exact congrArg _ hof
  · rw [List.find?_eq_none.mpr, List.filter_eq_nil_iff.mpr]
    · rfl
    · exact fun row hrow hstatus => happroved ⟨row, hrow, of_decide_eq_true hstatus⟩
    · intro group hgroup hkey
      obtain ⟨⟨row, hrow, hstatus⟩, -⟩ :=
        mem_groupBy_iff.mp ((List.mem_insertionSort _).mp hgroup)
      exact happroved ⟨row, hrow, hstatus.trans (of_decide_eq_true hkey)⟩

/-- What is approved of the breakdown is what the summary by department is about. -/
theorem Report.rows_approved : (Report.rows permissions readModel query
    .expenseStatusBreakdown).filter (fun row => row.status = "approved") =
      Report.rows permissions readModel query .departmentSpendingSummary := by
  have horganization : (organizationRows readModel query .expenseStatusBreakdown).filter
      (fun row => row.status = "approved") =
        organizationRows readModel query .departmentSpendingSummary := by
    rw [organizationRows, organizationRows, List.filter_filter]
    refine List.filter_congr fun row _ => ?_
    rw [← Bool.decide_and]
    exact decide_eq_decide.mpr (by simp only [Report.Matches]; tauto)
  simp only [Report.rows]
  rcases reportScope permissions query.requestingUser with _ | _ | _ | _
  · rfl
  · exact horganization
  · rw [List.filter_comm, horganization]
  · exact horganization

/-- Between two calendar dates the SQL reads what the ORM reads. -/
theorem Report.rows_cashOutflow (user : UserPrincipal) (fromDate toDate : JsDate) :
    Report.rows permissions readModel ⟨user, fromDate.day, toDate.day⟩ .cashOutflow =
      Report.rows permissions readModel ⟨user, fromDate.day, toDate.day⟩
        .departmentSpendingSummary := by
  have hday : ∀ t : JsDate, t.day.day.ms = t.day.ms := by
    intro t
    simp only [JsDate.day, dayMs]
    omega
  have horganization : organizationRows readModel ⟨user, fromDate.day, toDate.day⟩ .cashOutflow =
      organizationRows readModel ⟨user, fromDate.day, toDate.day⟩ .departmentSpendingSummary := by
    refine List.filter_congr fun row _ => decide_eq_decide.mpr ?_
    simp only [Report.Matches, ReportQuery.InRange, hday]
  simp only [Report.rows, horganization]

end

/-- **The reports agree** on what is approved: for every content of the read model, every caller
and every two calendar dates. -/
theorem reports_agree (permissions : List RolePermission) (readModel : Table Id ExpenseReadModel)
    (user : UserPrincipal) (fromDate toDate : JsDate) :
    DepartmentSpendingSummaryHandler.spend permissions readModel
        ⟨user, fromDate.day, toDate.day⟩ =
      ExpenseStatusBreakdownHandler.approvedSpend permissions readModel
        ⟨user, fromDate.day, toDate.day⟩ ∧
    CashOutflowHandler.spend permissions readModel ⟨user, fromDate.day, toDate.day⟩ =
      ExpenseStatusBreakdownHandler.approvedSpend permissions readModel
        ⟨user, fromDate.day, toDate.day⟩ := by
  rw [DepartmentSpendingSummaryHandler.spend_eq, CashOutflowHandler.spend_eq,
    ExpenseStatusBreakdownHandler.approvedSpend_eq, Report.rows_approved, Report.rows_cashOutflow]
  exact ⟨rfl, rfl⟩

end RatelPlatform
