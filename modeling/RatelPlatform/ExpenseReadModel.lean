import RatelPlatform.Store

/-!
# The read model of expenses

The reports do not read the expenses themselves but `expense_read_model`, one
denormalized row an expense. `ExpenseReadModelProjector` writes it with an upsert
whose two halves differ: an existing row keeps the columns that never change, and
takes the others from the source as it was read.
-/

namespace RatelPlatform

/-- A row of `expense_read_model`, apart from its key. -/
structure ExpenseReadModel where
  organizationId : Id
  departmentId : Id
  departmentName : String
  categoryId : Id
  categoryName : String
  vendorId : Option Id
  vendorName : Option String
  projectId : Option Id
  projectName : Option String
  amountMinorUnits : ℤ
  sourceActorId : Id
  currency : String
  status : String
  expenseDate : JsDate
  parentExpenseId : Option Id
  createdAt : JsDate
  updatedAt : JsDate
  deriving DecidableEq

namespace ExpenseReadModelProjector

/-- The types of the events that are projected. -/
def projectedEventTypes : List String :=
  ["ExpenseDrafted", "ExpenseSubmittedForApproval", "ExpenseApproved", "ExpenseRejected",
    "ExpenseCancelled", "ExpenseAdjustmentCreated"]

/-- What the four lookups by id answer: the names found, if any. -/
structure Names where
  department : Option String
  category : Option String
  vendor : Option String
  project : Option String

/-- The row the upsert creates. -/
def create (expense : ExpenseRow) (names : Names) : ExpenseReadModel where
  organizationId := expense.organizationId
  departmentId := expense.departmentId
  departmentName := names.department.getD "Unknown"
  categoryId := expense.categoryId
  categoryName := names.category.getD "Unknown"
  vendorId := expense.vendorId
  vendorName := names.vendor
  projectId := expense.projectId
  projectName := names.project
  amountMinorUnits := expense.amount.minorUnits
  sourceActorId := expense.source.actorId
  currency := expense.amount.currency.name
  status := expense.status.name
  expenseDate := expense.expenseDate
  parentExpenseId := expense.parentExpenseId
  createdAt := expense.createdAt
  updatedAt := expense.updatedAt

/-- The row the upsert leaves of an existing one. -/
def update (expense : ExpenseRow) (names : Names) (old : ExpenseReadModel) : ExpenseReadModel :=
  { old with
    sourceActorId := expense.source.actorId
    departmentName := names.department.getD "Unknown"
    categoryName := names.category.getD "Unknown"
    vendorName := names.vendor
    projectName := names.project
    amountMinorUnits := expense.amount.minorUnits
    status := expense.status.name
    updatedAt := expense.updatedAt }

/-- The upsert. -/
def upsert (readModel : Table Id ExpenseReadModel) (expenseId : Id) (expense : ExpenseRow)
    (names : Names) : Table Id ExpenseReadModel :=
  match readModel.lookup expenseId with
  | none => readModel.insert expenseId (create expense names)
  | some old => readModel.insert expenseId (update expense names old)

end ExpenseReadModelProjector

/-- The read model says of an expense what its row says. -/
def ExpenseReadModel.InSync (model : ExpenseReadModel) (expense : ExpenseRow) : Prop :=
  model.status = expense.status.name ∧ model.amountMinorUnits = expense.amount.minorUnits ∧
    model.updatedAt = expense.updatedAt

instance (model : ExpenseReadModel) (expense : ExpenseRow) : Decidable (model.InSync expense) :=
  inferInstanceAs (Decidable (_ ∧ _ ∧ _))

/-- What the read model has to say of an expense: its status, its amount, and when it
last changed. -/
def ExpenseRow.shown (expense : ExpenseRow) : String × ℤ × JsDate :=
  (expense.status.name, expense.amount.minorUnits, expense.updatedAt)

/-- What the read model has to say of an expense there is. -/
def Store.shown (d : Store) (id : Id) : Option (String × ℤ × JsDate) :=
  (d.expenses.lookup id).map ExpenseRow.shown

theorem ExpenseReadModel.inSync_iff {model : ExpenseReadModel} {expense : ExpenseRow} :
    model.InSync expense ↔ expense.shown = (model.status, model.amountMinorUnits, model.updatedAt) := by
  simp [InSync, ExpenseRow.shown, eq_comm]

/-- After an upsert the row is in sync with the source as it was read, whichever half
wrote it; no other row changes. -/
theorem ExpenseReadModelProjector.lookup_upsert (readModel : Table Id ExpenseReadModel)
    (expenseId id : Id) (expense : ExpenseRow) (names : Names) :
    (id ≠ expenseId →
        (upsert readModel expenseId expense names).lookup id = readModel.lookup id) ∧
      ∃ model, (upsert readModel expenseId expense names).lookup expenseId = some model ∧
        model.InSync expense := by
  simp only [upsert]
  rcases readModel.lookup expenseId with _ | old
  · exact ⟨Finmap.lookup_insert_of_ne _, _, Finmap.lookup_insert _, rfl, rfl, rfl⟩
  · exact ⟨Finmap.lookup_insert_of_ne _, _, Finmap.lookup_insert _, rfl, rfl, rfl⟩

end RatelPlatform
