import Mathlib.Data.Nat.Digits.Lemmas
import RatelPlatform.AggregateRoot
import RatelPlatform.CsvNormalizer
import RatelPlatform.Expense
import RatelPlatform.FinancialPeriod
import RatelPlatform.Payroll

/-!
# The snapshots of the aggregates

What `snapshotState` returns for each of the four aggregates: their props, which always have
the same fields, and for a payroll run also the number of its payslips. So what is said of all
aggregates holds of these, and their changes lead to the very snapshot of the last event
(`replay_ofFields`).
-/

namespace RatelPlatform

/-! ## Counts as numbers -/

/-- The significant digits of a count, the lowest first. -/
def significantDigits (n : ℕ) : List ℕ := (Nat.digits 10 n).dropWhile (· = 0)

/-- The highest significant digit is not zero. -/
theorem significantDigits_eq {n : ℕ} (hn : n ≠ 0) :
    ∃ low high, significantDigits n = low ++ [high] ∧ high ≠ 0 := by
  have hne : Nat.digits 10 n ≠ [] := Nat.digits_ne_nil_iff_ne_zero.mpr hn
  have hlast := Nat.getLast_digit_ne_zero 10 hn
  have hsome : significantDigits n ≠ [] := by
    intro hnil
    have hall := List.dropWhile_eq_nil_iff.mp hnil _ (List.getLast_mem hne)
    exact hlast (of_decide_eq_true hall)
  obtain ⟨low, high, hsplit⟩ := (List.eq_nil_or_concat' _).resolve_left hsome
  refine ⟨low, high, hsplit, ?_⟩
  have hdigits : Nat.digits 10 n =
      ((Nat.digits 10 n).takeWhile (· = 0) ++ low) ++ [high] := by
    rw [List.append_assoc, ← hsplit, significantDigits, List.takeWhile_append_dropWhile]
  rw [List.getLast_congr hne (by simp) hdigits, List.getLast_concat] at hlast
  exact hlast

/-- Nor is the lowest. -/
theorem head_significantDigits {n d : ℕ} (hd : (significantDigits n).head? = some d) : d ≠ 0 := by
  have h := List.head?_dropWhile_not (· = 0) (Nat.digits 10 n)
  rw [← significantDigits, hd] at h
  exact of_decide_eq_false h

/-- A decimal digit. -/
def decimalDigit (d : ℕ) : Fin 10 := ⟨d % 10, Nat.mod_lt d (Nat.succ_pos 9)⟩

theorem decimalDigit_ne_zero {n d : ℕ} (hd : d ∈ significantDigits n) (hne : d ≠ 0) :
    decimalDigit d ≠ 0 := by
  have hlt := Nat.digits_lt_base (by decide) ((List.dropWhile_sublist _).subset hd)
  intro hzero
  have hmod : d % 10 = 0 := congrArg Fin.val hzero
  exact hne ((Nat.mod_eq_of_lt hlt).symm.trans hmod)

theorem leading_significantDigits {n : ℕ} (hn : n ≠ 0) :
    ∃ d ds, ((significantDigits n).map decimalDigit).reverse = d :: ds ∧ d ≠ 0 := by
  obtain ⟨low, high, hsplit, hhigh⟩ := significantDigits_eq hn
  have hmem : high ∈ significantDigits n := by simp [hsplit]
  refine ⟨decimalDigit high, (low.map decimalDigit).reverse, ?_, decimalDigit_ne_zero hmem hhigh⟩
  rw [hsplit, List.map_append, List.map_singleton, List.reverse_concat]

theorem trailing_significantDigits (n : ℕ) :
    ∀ d ∈ ((significantDigits n).map decimalDigit).reverse.getLast?, d ≠ 0 := by
  intro d hd
  rw [List.getLast?_reverse, List.head?_map] at hd
  obtain ⟨low, hlow, rfl⟩ := Option.map_eq_some_iff.mp hd
  exact decimalDigit_ne_zero (List.mem_of_head? hlow) (head_significantDigits hlow)

/-- A count as a number of the language. -/
def JsNumber.ofNat (n : ℕ) : JsNumber :=
  if hn : n = 0 then .zero
  else
    .nonzero false
      { digits := ((significantDigits n).map decimalDigit).reverse
        point := (Nat.digits 10 n).length
        leading := leading_significantDigits hn
        trailing := trailing_significantDigits n }

/-! ## Values in snapshots -/

/-- A text as a value. -/
def textJs (s : String) : JsValue := .string (.ofText s.toList)

/-- A value, or `null`. -/
def orNullJs : Option JsValue → JsValue
  | none => .null
  | some v => v

/-- An amount as a value: an object with a `toJSON` method. -/
def Money.toJs (m : Money) : JsValue :=
  .serializable (.object
    [(js "minorUnits", .string (.ofAscii (bigintText m.minorUnits))),
      (js "currency", textJs m.currency.name)])

/-- The name of a kind of line item. -/
def LineItemKind.name : LineItemKind → String
  | allowance => "allowance"
  | deduction => "deduction"
  | loanRepayment => "loan_repayment"

/-- A line item as a value. -/
def SalaryLineItem.toJs (item : SalaryLineItem) : JsValue :=
  .object [(js "kind", textJs item.kind.name), (js "label", textJs item.label),
    (js "amount", item.amount.toJs)]

section

/-! The identifiers are texts, of which the model only keeps which are equal. -/

variable (idText : Id → JsString)

/-- The source of an expense as `toDomain` makes it: without an import job, the member is there
and `undefined`. -/
def ExpenseSource.toJs (source : ExpenseSource) : JsValue :=
  .object [(js "type", textJs source.type.name), (js "actorId", .string (idText source.actorId)),
    (js "importJobId", (source.importJobId.map fun id => JsValue.string (idText id)).getD .undefined)]

/-- `snapshotState` of an expense. -/
def ExpenseProps.snapshotState (props : ExpenseProps) : List (JsString × JsValue) :=
  [(js "id", .string (idText props.id)),
    (js "organizationId", .string (idText props.organizationId)),
    (js "expenseNumber", textJs props.expenseNumber),
    (js "status", textJs props.status.name),
    (js "source", props.source.toJs idText),
    (js "amount", props.amount.toJs),
    (js "categoryId", .string (idText props.categoryId)),
    (js "vendorId", orNullJs (props.vendorId.map fun id => .string (idText id))),
    (js "departmentId", .string (idText props.departmentId)),
    (js "projectId", orNullJs (props.projectId.map fun id => .string (idText id))),
    (js "periodId", .string (idText props.periodId)),
    (js "parentExpenseId", orNullJs (props.parentExpenseId.map fun id => .string (idText id))),
    (js "adjustmentReason", orNullJs (props.adjustmentReason.map textJs)),
    (js "expenseDate", .date props.expenseDate),
    (js "description", orNullJs (props.description.map textJs)),
    (js "createdAt", .date props.createdAt),
    (js "updatedAt", .date props.updatedAt)]

/-- `snapshotState` of a period. -/
def FinancialPeriodProps.snapshotState (props : FinancialPeriodProps) :
    List (JsString × JsValue) :=
  [(js "id", .string (idText props.id)),
    (js "organizationId", .string (idText props.organizationId)),
    (js "startDate", .date props.startDate),
    (js "endDate", .date props.endDate),
    (js "status", textJs props.status.name),
    (js "closedById", orNullJs (props.closedById.map fun id => .string (idText id))),
    (js "closedAt", orNullJs (props.closedAt.map .date)),
    (js "createdAt", .date props.createdAt)]

/-- `snapshotState` of a version of a salary structure. -/
def SalaryStructureProps.snapshotState (props : SalaryStructureProps) :
    List (JsString × JsValue) :=
  [(js "id", .string (idText props.id)),
    (js "organizationId", .string (idText props.organizationId)),
    (js "employeeId", .string (idText props.employeeId)),
    (js "version", .number (.ofNat props.version)),
    (js "effectiveFrom", .date props.effectiveFrom),
    (js "effectiveTo", orNullJs (props.effectiveTo.map .date)),
    (js "baseSalaryLineItems", .array (props.baseSalaryLineItems.map SalaryLineItem.toJs)),
    (js "createdAt", .date props.createdAt)]

/-- `snapshotState` of a payroll run: the payslips are no props, but their number is told. -/
def PayrollRunProps.snapshotState (props : PayrollRunProps) (payslips : List PayslipProps) :
    List (JsString × JsValue) :=
  [(js "id", .string (idText props.id)),
    (js "organizationId", .string (idText props.organizationId)),
    (js "periodId", .string (idText props.periodId)),
    (js "status", textJs props.status.name),
    (js "runMonth", .date props.runMonth),
    (js "createdById", .string (idText props.createdById)),
    (js "approvedById", orNullJs (props.approvedById.map fun id => .string (idText id))),
    (js "approvedAt", orNullJs (props.approvedAt.map .date)),
    (js "createdAt", .date props.createdAt),
    (js "payslipCount", .number (.ofNat payslips.length))]

end

/-! ## Aggregates whose fields are fixed -/

/-- A class all of whose states have the fields of the list. -/
def AggregateClass.ofFields {S : Type} (fields : List JsString)
    (snapshotState : S → List (JsString × JsValue))
    (hfields : ∀ s, (snapshotState s).map Prod.fst = fields) (hnodup : fields.Nodup)
    (hnamed : ∀ field ∈ fields, field ∉ inheritedNames) : AggregateClass S where
  snapshotState := snapshotState
  nodup s := (hfields s).symm ▸ hnodup
  named s m hm := hnamed m.1 (hfields s ▸ List.mem_map_of_mem hm)

/-- The changes of such an aggregate lead to the very snapshot of its last event. -/
theorem replay_ofFields {S : Type} {fields : List JsString}
    {snapshotState : S → List (JsString × JsValue)}
    (hfields : ∀ s, (snapshotState s).map Prod.fst = fields) (hnodup : fields.Nodup)
    (hnamed : ∀ field ∈ fields, field ∉ inheritedNames) (s : S) (steps : List (Step S)) :
    let C := AggregateClass.ofFields fields snapshotState hfields hnodup hnamed
    (Json.object (replay (C.normalizedState s)
      (C.run (C.reconstitute s) steps).domainEvents)).Same
      (.object (C.normalizedState ((recordedStates s steps).getLastD s))) := by
  refine AggregateClass.same_replay_object _ (fun t t' key => ?_) s steps
  show key ∈ (snapshotState t).map Prod.fst ↔ key ∈ (snapshotState t').map Prod.fst
  rw [hfields, hfields]

variable (idText : Id → JsString)

/-- `Expense` -/
def Expense.aggregate : AggregateClass ExpenseProps :=
  .ofFields
    [js "id", js "organizationId", js "expenseNumber", js "status", js "source", js "amount",
      js "categoryId", js "vendorId", js "departmentId", js "projectId", js "periodId",
      js "parentExpenseId", js "adjustmentReason", js "expenseDate", js "description",
      js "createdAt", js "updatedAt"]
    (ExpenseProps.snapshotState idText) (fun _ => rfl) (by decide) (by decide)

/-- `FinancialPeriod` -/
def FinancialPeriod.aggregate : AggregateClass FinancialPeriodProps :=
  .ofFields
    [js "id", js "organizationId", js "startDate", js "endDate", js "status", js "closedById",
      js "closedAt", js "createdAt"]
    (FinancialPeriodProps.snapshotState idText) (fun _ => rfl) (by decide) (by decide)

/-- `SalaryStructure` -/
def SalaryStructure.aggregate : AggregateClass SalaryStructureProps :=
  .ofFields
    [js "id", js "organizationId", js "employeeId", js "version", js "effectiveFrom",
      js "effectiveTo", js "baseSalaryLineItems", js "createdAt"]
    (SalaryStructureProps.snapshotState idText) (fun _ => rfl) (by decide) (by decide)

/-- `PayrollRun` -/
def PayrollRun.aggregate : AggregateClass (PayrollRunProps × List PayslipProps) :=
  .ofFields
    [js "id", js "organizationId", js "periodId", js "status", js "runMonth", js "createdById",
      js "approvedById", js "approvedAt", js "createdAt", js "payslipCount"]
    (fun run => run.1.snapshotState idText run.2) (fun _ => rfl) (by decide) (by decide)

-- a period that is closed and then reopened, with an event between that changes nothing
example :
    let noon : JsDate := ⟨0, by decide⟩
    let period : FinancialPeriodProps := ⟨⟨1, noon, noon, .open, none, none, noon⟩, 2⟩
    let C := FinancialPeriod.aggregate fun id => [id.toUInt16]
    let closed : NewEvent := ⟨periodClosed 2 1 3, by decide⟩
    let reopened : NewEvent := ⟨periodReopened 2 1 3 ['x'], by decide⟩
    (C.run (C.reconstitute period)
      [.mutate fun p => { p with status := .closed, closedById := some 3, closedAt := some noon },
        .record closed, .record closed,
        .mutate fun p => { p with status := .reopened, closedById := none, closedAt := none },
        .record reopened]).domainEvents.map (fun e => e.changes.map (·.map Prod.fst)) =
      [some [js "status", js "closedById", js "closedAt"], none,
        some [js "status", js "closedById", js "closedAt"]] := by
  decide +kernel

end RatelPlatform
