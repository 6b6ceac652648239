import RatelPlatform.ExpenseReadModel
import RatelPlatform.ReferenceData

/-!
# The platform with its read model

A run of `projectFromSource` reads an expense, looks up the names it refers to, and upserts the
row of the read model, in separate calls. Between two of them anything can be committed: a
command on an expense, or one that renames a department.
-/

namespace RatelPlatform

/-! ## References and their names -/

/-- The row of a kind that the expense refers to. -/
def ExpenseRow.reference (expense : ExpenseRow) : ReferenceDataType → Option Id
  | .department => some expense.departmentId
  | .vendor => expense.vendorId
  | .expenseCategory => some expense.categoryId
  | .project => expense.projectId

/-- The id of a kind in a row of the read model. -/
def ExpenseReadModel.reference (row : ExpenseReadModel) : ReferenceDataType → Option Id
  | .department => some row.departmentId
  | .vendor => row.vendorId
  | .expenseCategory => some row.categoryId
  | .project => row.projectId

/-- The name next to it. -/
def ExpenseReadModel.referenceName (row : ExpenseReadModel) : ReferenceDataType → Option String
  | .department => some row.departmentName
  | .vendor => row.vendorName
  | .expenseCategory => some row.categoryName
  | .project => row.projectName

/-- `findUnique`, of the name -/
def ReferenceStore.findName (d : ReferenceStore) (type : ReferenceDataType) (id : Id) :
    Option String :=
  if ∃ r ∈ d.rows type, r.id = id then some (d.names id) else none

namespace ExpenseReadModelProjector

/-- A run of `projectFromSource` that has read its expense, and the lookups that have been
answered. -/
structure InProgress where
  expenseId : Id
  expense : ExpenseRow
  answers : ReferenceDataType → Option (Option String)

/-- What `Promise.all` resolves to. -/
def InProgress.names (p : InProgress) : Option Names := do
  let department ← p.answers .department
  let category ← p.answers .expenseCategory
  let vendor ← p.answers .vendor
  let project ← p.answers .project
  pure ⟨department, category, vendor, project⟩

/-- The row an upsert leaves. -/
def written (readModel : Table Id ExpenseReadModel) (expenseId : Id) (expense : ExpenseRow)
    (names : Names) : ExpenseReadModel :=
  match readModel.lookup expenseId with
  | none => create expense names
  | some old => update expense names old

theorem upsert_eq_insert (readModel : Table Id ExpenseReadModel) (expenseId : Id)
    (expense : ExpenseRow) (names : Names) : upsert readModel expenseId expense names =
      readModel.insert expenseId (written readModel expenseId expense names) := by
  rw [upsert, written]
  rcases readModel.lookup expenseId with _ | old
  · rfl
  · rfl

end ExpenseReadModelProjector

/-! ## The machine -/

/-- The platform, its read model, and the projections under way. -/
structure ReportingPlatform extends Platform where
  readModel : Table Id ExpenseReadModel
  projections : ℕ → Option ExpenseReadModelProjector.InProgress

/-- What happens on the platform and to its read model. -/
inductive ReportingEvent
  | platform (event : PlatformEvent)
  /-- the projector is called with an event of the outbox, and reads the expense -/
  | read (i n : ℕ)
  /-- one of the lookups is answered -/
  | lookUp (i : ℕ) (type : ReferenceDataType)
  | upsert (i : ℕ)
  /-- a database call fails, or the process dies -/
  | fail (i : ℕ)

namespace ReportingPlatform

/-- No expense, nothing imported, nothing projected. -/
def initial (administration : Administration) (names : Id → String) : ReportingPlatform where
  toPlatform := .initial administration names
  readModel := ∅
  projections := fun _ => none

/-- The platform with another state of a projection. -/
def withProjection (σ : ReportingPlatform) (i : ℕ)
    (p : Option ExpenseReadModelProjector.InProgress) : ReportingPlatform :=
  { σ with projections := Function.update σ.projections i p }

variable (runtime : ImportRuntime) (jobs : ℕ → ImportJob)

/-- The platform after an event, if it can happen. -/
def next (σ : ReportingPlatform) : ReportingEvent → Option ReportingPlatform
  | .platform event =>
    (Platform.next runtime jobs σ.toPlatform event).map fun platform =>
      { σ with toPlatform := platform }
  | .read i n =>
    match σ.projections i, σ.store.outbox[n]? with
    | none, some event =>
      if event.type ∈ ExpenseReadModelProjector.projectedEventTypes then
        match σ.store.expenses.lookup event.aggregateId with
        -- a warning is logged
        | none => some σ
        | some expense => some (σ.withProjection i (some ⟨event.aggregateId, expense, fun _ => none⟩))
      else none
    | _, _ => none
  | .lookUp i type =>
    match σ.projections i with
    | some p =>
      match p.answers type with
      | none => some (σ.withProjection i (some { p with
          answers := Function.update p.answers type
            (some ((p.expense.reference type).bind (σ.findName type))) }))
      | some _ => none
    | none => none
  | .upsert i =>
    match σ.projections i with
    | some p => p.names.map fun names =>
        { σ.withProjection i none with
          readModel := ExpenseReadModelProjector.upsert σ.readModel p.expenseId p.expense names }
    | none => none
  | .fail i => (σ.projections i).map fun _ => σ.withProjection i none

/-- The row of the read model that an event writes. -/
def written (σ : ReportingPlatform) : ReportingEvent → Option (Id × ExpenseReadModel)
  | .upsert i => do
    let p ← σ.projections i
    let names ← p.names
    pure (p.expenseId,
      ExpenseReadModelProjector.written σ.readModel p.expenseId p.expense names)
  | _ => none

variable {runtime jobs} {σ σ' : ReportingPlatform} {event : ReportingEvent}

/-- An event that writes no row leaves the read model alone. -/
theorem readModel_next (hn : next runtime jobs σ event = some σ') :
    σ'.readModel = match σ.written event with
      | some (id, row) => σ.readModel.insert id row
      | none => σ.readModel := by
  cases event with
  | platform event =>
    obtain ⟨platform, -, rfl⟩ := Option.map_eq_some_iff.mp hn
    rfl
  | read i n =>
    simp only [next] at hn
    split at hn
    · split_ifs at hn
      split at hn <;> obtain rfl := Option.some.inj hn
      · rfl
      · rfl
    · cases hn
  | lookUp i type =>
    simp only [next] at hn
    split at hn
    · split at hn
      · obtain rfl := Option.some.inj hn
        rfl
      · cases hn
    · cases hn
  | upsert i =>
    rcases hp : σ.projections i with _ | p
    · simp only [next, hp, reduceCtorEq] at hn
    · simp only [next, hp] at hn
      obtain ⟨names, hnames, rfl⟩ := Option.map_eq_some_iff.mp hn
      simp only [written, hp, hnames, Option.bind_eq_bind, Option.bind_some, Option.pure_def]
      exact ExpenseReadModelProjector.upsert_eq_insert _ _ _ _
  | fail i =>
    obtain ⟨p, -, rfl⟩ := Option.map_eq_some_iff.mp hn
    rfl

end ReportingPlatform

end RatelPlatform
