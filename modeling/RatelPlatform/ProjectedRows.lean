import RatelPlatform.DomainMethods
import RatelPlatform.ExpenseReadModel

/-!
# Projecting an expense again

The update of the projector is meant as a full re-sync, but it leaves nine columns of the row
alone. Five of them no method of an expense writes. The category, the vendor, the project and
the currency can be edited in a draft, and the read model keeps those of the first projection
(`fullResync_edited_iff`), the category next to the name of the new one.
-/

namespace RatelPlatform

namespace ExpenseReadModelProjector

section

variable {readModel : Table Id ExpenseReadModel} {expenseId : Id} {expense : ExpenseRow}
  {names : Names}

/-- After one projection the row is the one that would have been created, whatever was projected
before, and one more projection changes nothing. -/
structure FullResync (readModel : Table Id ExpenseReadModel) (expenseId : Id)
    (expense : ExpenseRow) (names : Names) : Prop where
  created : (upsert readModel expenseId expense names).lookup expenseId =
    some (create expense names)
  again : upsert (upsert readModel expenseId expense names) expenseId expense names =
    upsert readModel expenseId expense names

/-- The columns of which `update` says nothing agree with the expense. -/
structure AgreesElsewhere (old : ExpenseReadModel) (expense : ExpenseRow) : Prop where
  organizationId : old.organizationId = expense.organizationId
  departmentId : old.departmentId = expense.departmentId
  categoryId : old.categoryId = expense.categoryId
  vendorId : old.vendorId = expense.vendorId
  projectId : old.projectId = expense.projectId
  currency : old.currency = expense.amount.currency.name
  expenseDate : old.expenseDate = expense.expenseDate
  parentExpenseId : old.parentExpenseId = expense.parentExpenseId
  createdAt : old.createdAt = expense.createdAt

/-- A new row has them from the expense. -/
theorem agreesElsewhere_create (expense : ExpenseRow) (names : Names) :
    AgreesElsewhere (create expense names) expense :=
  ⟨rfl, rfl, rfl, rfl, rfl, rfl, rfl, rfl, rfl⟩

/-- The two halves of the upsert, compared. -/
theorem update_eq_create_iff {old : ExpenseReadModel} :
    update expense names old = create expense names ↔ AgreesElsewhere old expense := by
  refine ⟨?_, ?_⟩
  · intro h
    -- what the update keeps is what was there
    have hkept : AgreesElsewhere (update expense names old) expense := by
      rw [h]
      exact agreesElsewhere_create expense names
    exact ⟨hkept.organizationId, hkept.departmentId, hkept.categoryId, hkept.vendorId,
      hkept.projectId, hkept.currency, hkept.expenseDate, hkept.parentExpenseId, hkept.createdAt⟩
  · rintro ⟨horganization, hdepartment, hcategory, hvendor, hproject, hcurrency, hdate, hparent,
      hcreated⟩
    simp only [update, create, horganization, hdepartment, hcategory, hvendor, hproject, hcurrency,
      hdate, hparent, hcreated]

/-- Projecting the same twice is projecting it once. -/
theorem upsert_upsert : upsert (upsert readModel expenseId expense names) expenseId expense names =
    upsert readModel expenseId expense names := by
  obtain ⟨model, hmodel, hsame⟩ : ∃ model,
      upsert readModel expenseId expense names = readModel.insert expenseId model ∧
        update expense names model = model := by
    rw [upsert]
    rcases readModel.lookup expenseId with _ | old
    · exact ⟨create expense names, rfl, rfl⟩
    · exact ⟨update expense names old, rfl, rfl⟩
  rw [hmodel, upsert, Finmap.lookup_insert]
  simp only [hsame, Finmap.insert_insert]

end

end ExpenseReadModelProjector

open ExpenseReadModelProjector in
/-- **A projection is a full re-sync exactly when there is no row yet, or the row agrees** with
the expense in the columns that only `create` lists. -/
theorem fullResync_iff (readModel : Table Id ExpenseReadModel) (expenseId : Id)
    (expense : ExpenseRow) (names : Names) :
    FullResync readModel expenseId expense names ↔
      ∀ old, readModel.lookup expenseId = some old → AgreesElsewhere old expense := by
  have hcreated : FullResync readModel expenseId expense names ↔
      (upsert readModel expenseId expense names).lookup expenseId =
        some (create expense names) :=
    ⟨FullResync.created, fun h => ⟨h, upsert_upsert⟩⟩
  rw [hcreated, upsert]
  rcases readModel.lookup expenseId with _ | old
  · simp only [Finmap.lookup_insert, reduceCtorEq, false_imp_iff, implies_true]
  · simp only [Finmap.lookup_insert, Option.some.injEq, update_eq_create_iff, forall_eq']

/-! ## Drafts that are edited -/

/-- What happens to one expense. -/
inductive ExpenseStep
  /-- a method is called, and the expense is saved -/
  | call (m : ExpenseMethod × JsDate)
  /-- an event of the expense is projected -/
  | project (names : ExpenseReadModelProjector.Names)

/-- The row of the expense, and the read model. -/
structure ProjectedExpense where
  row : ExpenseRow
  readModel : Table Id ExpenseReadModel

namespace ProjectedExpense

/-- One step; a method that throws is not saved. -/
def next (id : Id) (s : ProjectedExpense) : ExpenseStep → ProjectedExpense
  | .call m =>
    match ExpenseMethod.call (ExpenseRepository.toDomain id s.row) m with
    | .ok e => { s with row := ExpenseRepository.updateRow e.props s.row }
    | .error _ => s
  | .project names =>
    { s with readModel := ExpenseReadModelProjector.upsert s.readModel id s.row names }

variable {id : Id} {s : ProjectedExpense} {step : ExpenseStep}

/-- The row of the read model agrees with the expense in what no method writes. -/
def AgreesInConstants (id : Id) (s : ProjectedExpense) : Prop :=
  ∀ model, s.readModel.lookup id = some model →
    model.organizationId = s.row.organizationId ∧ model.departmentId = s.row.departmentId ∧
      model.expenseDate = s.row.expenseDate ∧ model.parentExpenseId = s.row.parentExpenseId ∧
        model.createdAt = s.row.createdAt

theorem AgreesInConstants.next (h : s.AgreesInConstants id) :
    (s.next id step).AgreesInConstants id := by
  cases step with
  | call m =>
    simp only [ProjectedExpense.next]
    rcases ExpenseMethod.call (ExpenseRepository.toDomain id s.row) m with _ | e
    · exact h
    · exact h
  | project names =>
    intro model hmodel
    simp only [ProjectedExpense.next, ExpenseReadModelProjector.upsert] at hmodel ⊢
    rcases hold : s.readModel.lookup id with _ | old <;> rw [hold] at hmodel <;>
      obtain rfl := Option.some.inj ((Finmap.lookup_insert _).symm.trans hmodel)
    · exact ⟨rfl, rfl, rfl, rfl, rfl⟩
    · exact h old hold

/-- Whatever is called and projected. -/
theorem agreesInConstants_foldl (hnew : s.readModel.lookup id = none) (steps : List ExpenseStep) :
    (steps.foldl (next id) s).AgreesInConstants id := by
  have hstart : s.AgreesInConstants id := by
    intro model hmodel
    rw [hnew] at hmodel
    cases hmodel
  clear hnew
  induction steps generalizing s with
  | nil => exact hstart
  | cons step steps ih => exact ih hstart.next

/-- **In every history of an expense** the next projection is a full re-sync exactly when the
read model has its category, vendor, project and currency. -/
theorem fullResync_edited_iff (hnew : s.readModel.lookup id = none) (steps : List ExpenseStep)
    {now : ProjectedExpense} (hnow : steps.foldl (next id) s = now)
    (names : ExpenseReadModelProjector.Names) :
    ExpenseReadModelProjector.FullResync now.readModel id now.row names ↔
      ∀ model, now.readModel.lookup id = some model →
        model.categoryId = now.row.categoryId ∧ model.vendorId = now.row.vendorId ∧
          model.projectId = now.row.projectId ∧
            model.currency = now.row.amount.currency.name := by
  subst hnow
  have hconstants := agreesInConstants_foldl hnew steps
  rw [fullResync_iff]
  refine forall₂_congr fun model hmodel => ?_
  obtain ⟨horganization, hdepartment, hdate, hparent, hcreated⟩ := hconstants model hmodel
  refine ⟨?_, ?_⟩
  · intro h
    exact ⟨h.categoryId, h.vendorId, h.projectId, h.currency⟩
  · rintro ⟨hcategory, hvendor, hproject, hcurrency⟩
    exact ⟨horganization, hdepartment, hcategory, hvendor, hproject, hcurrency, hdate, hparent,
      hcreated⟩

end ProjectedExpense

namespace Sample

/-- A draft is projected, moved to the category 8, submitted. -/
def recategorized : ProjectedExpense :=
  [.project ⟨some "Sales", some "Travel", none, none⟩,
    .call (.update ⟨none, some 8, none, none, none⟩, noon), .call (.submitForApproval, noon)].foldl
      (ProjectedExpense.next 101) ⟨expenseRow .draft 50000, ∅⟩

end Sample

/-- The next projection leaves the category as it was. -/
theorem category_not_resynced : ¬ ∀ readModel expenseId expense names,
    ExpenseReadModelProjector.FullResync readModel expenseId expense names := by
  intro h
  have hcreated := (h Sample.recategorized.readModel 101 Sample.recategorized.row
    ⟨some "Sales", some "Fuel", none, none⟩).created
  revert hcreated
  decide

end RatelPlatform
