import RatelPlatform.Employees
import RatelPlatform.ImportRuns

/-!
# Reference data, and the platform of several organizations

Departments, categories, vendors and projects are maintained by three handlers each, which
differ in the table only. A row is created for an organization, renamed and deactivated by
that organization, and never deleted.

With the commands of the contexts and the import jobs of any number of organizations they
make one machine, `Platform`.
-/

namespace RatelPlatform

/-! ## The tables -/

/-- `ReferenceDataType`, without the employees -/
inductive ReferenceDataType
  | department
  | vendor
  | expenseCategory
  | project
  deriving DecidableEq

namespace ReferenceDataType

def name : ReferenceDataType → String
  | department => "Department"
  | vendor => "Vendor"
  | expenseCategory => "ExpenseCategory"
  | project => "Project"

/-- The table of the kind. -/
def table : ReferenceDataType → String
  | department => "departments"
  | vendor => "vendors"
  | expenseCategory => "expense_categories"
  | project => "projects"

/-- The rows of the kind. -/
def rows (administration : Administration) : ReferenceDataType → List ReferenceRow
  | department => administration.departments
  | vendor => administration.vendors
  | expenseCategory => administration.expenseCategories
  | project => administration.projects

/-- Other rows of the kind. -/
def withRows (administration : Administration) (rows : List ReferenceRow) :
    ReferenceDataType → Administration
  | department => { administration with departments := rows }
  | vendor => { administration with vendors := rows }
  | expenseCategory => { administration with expenseCategories := rows }
  | project => { administration with projects := rows }

end ReferenceDataType

/-- The store with the column `name` of the reference data. -/
structure ReferenceStore where
  names : Id → String
  store : Store

/-- A row, or the key of a unique index, that a statement locks. -/
inductive ReferenceLock where
  | row (type : ReferenceDataType) (id : Id)
  | name (type : ReferenceDataType) (organizationId : Id) (name : String)
  deriving DecidableEq

/-- Transactions on the reference data. -/
abbrev ReferenceTx := Tx ReferenceStore ReferenceLock Failure

namespace ReferenceStore

/-- The rows of a kind. -/
def rows (d : ReferenceStore) (type : ReferenceDataType) : List ReferenceRow :=
  type.rows d.store.administration

/-- The store with other rows of a kind. -/
def withRows (d : ReferenceStore) (type : ReferenceDataType) (rows : List ReferenceRow) :
    ReferenceStore :=
  { d with store := { d.store with administration := type.withRows d.store.administration rows } }

/-- The organization has a row of the kind and the name. -/
def NameTaken (d : ReferenceStore) (type : ReferenceDataType) (organizationId : Id)
    (name : String) : Prop :=
  ∃ r ∈ d.rows type, r.organizationId = organizationId ∧ d.names r.id = name

/-- The organization has another row of the kind and the name. -/
def NameCollides (d : ReferenceStore) (type : ReferenceDataType) (organizationId id : Id)
    (name : String) : Prop :=
  ∃ r ∈ d.rows type, r.organizationId = organizationId ∧ d.names r.id = name ∧ r.id ≠ id

/-- It is one of the organization's rows. -/
def IsOwn (d : ReferenceStore) (type : ReferenceDataType) (id organizationId : Id) : Prop :=
  ∃ r ∈ d.rows type, r.id = id ∧ r.organizationId = organizationId

variable (d : ReferenceStore) (type : ReferenceDataType) (organizationId id : Id) (name : String)

instance : Decidable (d.NameTaken type organizationId name) :=
  inferInstanceAs (Decidable (∃ r ∈ d.rows type, _))

instance : Decidable (d.NameCollides type organizationId id name) :=
  inferInstanceAs (Decidable (∃ r ∈ d.rows type, _))

instance : Decidable (d.IsOwn type id organizationId) :=
  inferInstanceAs (Decidable (∃ r ∈ d.rows type, _))

/-- `OutboxService.enqueue` -/
def enqueueEvents (events : List DomainEvent) : ReferenceTx Unit :=
  .exec (fun _ => []) fun _ =>
    pure fun d => { d with store := { d.store with outbox := d.store.outbox ++ events } }

/-- `create`, of a row that is active. -/
def insertRow (type : ReferenceDataType) (row : ReferenceRow) (name : String) : ReferenceTx Unit :=
  .exec (fun _ => [.row type row.id, .name type row.organizationId name]) fun d => do
    ensure (∀ r ∈ d.rows type, r.id ≠ row.id) (.database (type.table ++ "_pkey"))
    ensure (¬ d.NameTaken type row.organizationId name)
      (.database (type.table ++ "_organization_id_name_key"))
    pure fun d => { d.withRows type (d.rows type ++ [row]) with
      names := Function.update d.names row.id name }

/-- `update`, of the name. -/
def renameRow (type : ReferenceDataType) (id organizationId : Id) (name : String) :
    ReferenceTx Unit :=
  .exec (fun _ => [.row type id, .name type organizationId name]) fun d => do
    ensure (¬ d.NameCollides type organizationId id name)
      (.database (type.table ++ "_organization_id_name_key"))
    pure fun d => { d with names := Function.update d.names id name }

/-- `update`, of `isActive`. -/
def deactivateRow (type : ReferenceDataType) (id : Id) : ReferenceTx Unit :=
  .exec (fun _ => [.row type id]) fun _ => pure fun d =>
    d.withRows type ((d.rows type).map fun r => if r.id = id then { r with isActive := false } else r)

/-- One of the organization's rows, or an error. -/
def findRow (type : ReferenceDataType) (id organizationId : Id) : ReferenceTx Unit := do
  let own ← .select fun d => decide (d.IsOwn type id organizationId)
  .require (own = true) (.domain (.entityNotFound type.name id))

end ReferenceStore

/-! ## The handlers -/

/-- A department, category, vendor or project is created. -/
structure CreateReferenceDataCommand where
  organizationId : Id
  name : String

/-- It gets another name. -/
structure UpdateReferenceDataCommand where
  id : Id
  organizationId : Id
  name : String

/-- It is no longer in use. -/
structure DeactivateReferenceDataCommand where
  id : Id
  organizationId : Id
  actorId : Id

section

open ReferenceStore

/-- A row is created, unless the organization has one of its name. -/
def createReferenceData (type : ReferenceDataType) (env : Env) (cmd : CreateReferenceDataCommand) :
    ReferenceTx Id := do
  let existing ← .select fun d => decide (d.NameTaken type cmd.organizationId cmd.name)
  .require (existing = false) (.domain (.duplicateName cmd.name))
  insertRow type ⟨env.uuid, cmd.organizationId, true⟩ cmd.name
  enqueueEvents [referenceDataCreated type.name env.uuid cmd.organizationId cmd.name]
  pure env.uuid

/-- A row of the organization is renamed, unless it has another one of that name. -/
def updateReferenceData (type : ReferenceDataType) (_env : Env)
    (cmd : UpdateReferenceDataCommand) : ReferenceTx Unit := do
  findRow type cmd.id cmd.organizationId
  let collision ← .select fun d =>
    decide (d.NameCollides type cmd.organizationId cmd.id cmd.name)
  .require (collision = false) (.domain (.duplicateName cmd.name))
  renameRow type cmd.id cmd.organizationId cmd.name
  enqueueEvents [referenceDataUpdated type.name cmd.id cmd.organizationId cmd.name]

/-- A row of the organization is deactivated: what refers to it stays as it is. -/
def deactivateReferenceData (type : ReferenceDataType) (_env : Env)
    (cmd : DeactivateReferenceDataCommand) : ReferenceTx Unit := do
  findRow type cmd.id cmd.organizationId
  deactivateRow type cmd.id
  enqueueEvents [referenceDataDeactivated type.name cmd.id cmd.organizationId cmd.actorId]

end

/-- `CreateDepartmentHandler` -/
def createDepartment := createReferenceData .department

/-- `UpdateDepartmentHandler` -/
def updateDepartment := updateReferenceData .department

/-- `DeactivateDepartmentHandler` -/
def deactivateDepartment := deactivateReferenceData .department

/-- `CreateCategoryHandler` -/
def createCategory := createReferenceData .expenseCategory

/-- `UpdateCategoryHandler` -/
def updateCategory := updateReferenceData .expenseCategory

/-- `DeactivateCategoryHandler` -/
def deactivateCategory := deactivateReferenceData .expenseCategory

/-- `CreateVendorHandler` -/
def createVendor := createReferenceData .vendor

/-- `UpdateVendorHandler` -/
def updateVendor := updateReferenceData .vendor

/-- `DeactivateVendorHandler` -/
def deactivateVendor := deactivateReferenceData .vendor

/-- `CreateProjectHandler` -/
def createProject := createReferenceData .project

/-- `UpdateProjectHandler` -/
def updateProject := updateReferenceData .project

/-- `DeactivateProjectHandler` -/
def deactivateProject := deactivateReferenceData .project

/-- The commands on reference data. -/
inductive ReferenceDataCommand where
  | create (type : ReferenceDataType) (cmd : CreateReferenceDataCommand)
  | update (type : ReferenceDataType) (cmd : UpdateReferenceDataCommand)
  | deactivate (type : ReferenceDataType) (cmd : DeactivateReferenceDataCommand)

namespace ReferenceDataCommand

/-- The transaction a command runs. -/
def program (env : Env) : ReferenceDataCommand → ReferenceTx Unit
  | create .department cmd => (createDepartment env cmd).discard
  | create .expenseCategory cmd => (createCategory env cmd).discard
  | create .vendor cmd => (createVendor env cmd).discard
  | create .project cmd => (createProject env cmd).discard
  | update .department cmd => updateDepartment env cmd
  | update .expenseCategory cmd => updateCategory env cmd
  | update .vendor cmd => updateVendor env cmd
  | update .project cmd => updateProject env cmd
  | deactivate .department cmd => deactivateDepartment env cmd
  | deactivate .expenseCategory cmd => deactivateCategory env cmd
  | deactivate .vendor cmd => deactivateVendor env cmd
  | deactivate .project cmd => deactivateProject env cmd

end ReferenceDataCommand

/-! ## The machine -/

/-- Administrators maintain roles; reference data is left to its handlers. -/
def Command.keepingReferences (a : Administration) : Command → Command
  | .administer b => .administer { b with
      departments := a.departments
      expenseCategories := a.expenseCategories
      vendors := a.vendors
      projects := a.projects }
  | command => command

/-- The store, the names of the reference data, and what the runs of each import job keep for
themselves. -/
structure Platform extends ReferenceStore where
  imports : ℕ → ImportSystem

/-- What happens on the platform. -/
inductive PlatformEvent
  /-- a command on reference data -/
  | referenceData (env : Env) (cmd : ReferenceDataCommand)
  /-- a command of another context -/
  | command (request : Request)
  /-- a run of an import job makes its next call -/
  | importCall (job run : ℕ) (env : Env) (outcome : CallOutcome)
  /-- the process of a run dies -/
  | importCrash (job run : ℕ)

namespace Platform

/-- No expense, nothing imported. -/
def initial (administration : Administration) (names : Id → String) : Platform where
  names := names
  store := .initial administration
  imports := fun _ => .initial administration names

/-- The runs of a job, with the tables they share with everybody. -/
def importSystem (σ : Platform) (j : ℕ) : ImportSystem :=
  { σ.imports j with store := σ.store, names := σ.names }

/-- The platform once the runs of a job have gone on. -/
def withImport (σ : Platform) (j : ℕ) (τ : ImportSystem) : Platform where
  names := τ.names
  store := τ.store
  imports := Function.update σ.imports j τ

variable (runtime : ImportRuntime) (jobs : ℕ → ImportJob)

/-- The platform after an event, if it can happen. An id that is drawn is one that is not in
use; what fails leaves the platform as it is. -/
def next (σ : Platform) : PlatformEvent → Option Platform
  | .referenceData env cmd =>
    if σ.store.Fresh env.uuid then
      match (cmd.program env).solo σ.toReferenceStore with
      | .ok (_, d) => some { σ with toReferenceStore := d }
      | .error _ => some σ
    else none
  | .command request =>
    (RatelPlatform.next σ.store ⟨request.env,
      request.command.keepingReferences σ.store.administration⟩).map fun store => { σ with store }
  | .importCall j w env outcome =>
    (ImportSystem.next runtime (jobs j) (σ.importSystem j) (.call w env outcome)).map
      (σ.withImport j)
  | .importCrash j w =>
    (ImportSystem.next runtime (jobs j) (σ.importSystem j) (.crash w)).map (σ.withImport j)

end Platform

end RatelPlatform
