import RatelPlatform.Commands
import RatelPlatform.CsvNormalizer

/-!
# Import jobs

`ImportJobProcessor.process` as a labelled machine. A run of it makes one database
call after the other, each a commit of its own: the inbox is asked whether the row
was imported before, the mapper looks up the names, the expense is created by the
handler people use, and the row's hash goes into the inbox.

Any number of runs of one job may be at work. Every call may go through, fail without
effect, or take effect and fail all the same; a process may die before any of them.
Meanwhile the platform goes on serving requests.

For which row of the file an expense was created stands in `created`: nothing reads it.
-/

namespace RatelPlatform

/-! ## Tables -/

/-- How far an import job is. -/
inductive ImportJobStatus
  | pending
  | processing
  | completed
  | failed
  deriving DecidableEq

/-- The columns of an import job that a run writes. -/
structure ImportJobRow where
  status : ImportJobStatus
  totalRecords : Option ℕ
  successCount : ℕ
  failureCount : ℕ
  completedAt : Option JsDate
  failureReason : Option String
  deriving DecidableEq

/-- A row of `failed_import_records` -/
structure FailedImportRecord where
  rowNumber : ℕ
  rawRow : CsvRow
  errorMessage : String
  deriving DecidableEq

/-- An import job: what is fixed when it is created. -/
structure ImportJob where
  id : Id
  organizationId : Id
  initiatedById : Id
  /-- what the adapter makes of the stored file: its rows, or what it throws -/
  file : Except String (List CsvRow)

/-- The data rows of the file. -/
def ImportJob.rows (job : ImportJob) : List CsvRow := job.file.toOption.getD []

/-- What the runs of a job read and write. -/
structure ImportTables where
  store : Store
  /-- the column `name` of the reference data -/
  names : Id → String
  importJob : ImportJobRow
  /-- the hashes the inbox has of the job -/
  inbox : Finset JsString
  failedRecords : List FailedImportRecord

/-- What an import takes from its surroundings. -/
structure ImportRuntime extends Runtime where
  /-- `equals` with `mode: 'insensitive'` -/
  equalsInsensitive : String → String → Bool
  /-- the text of the error for a violated constraint -/
  constraintMessage : String → String

variable (runtime : ImportRuntime) (job : ImportJob)

/-! ## The mapper -/

/-- `findFirst`: the first row that matches. Which one that is is up to the database:
the row `tie`, if it matches. -/
def findFirst (rows : List ReferenceRow) (p : ReferenceRow → Bool) (tie : Id) :
    Option ReferenceRow :=
  (rows.find? fun r => p r && r.id == tie).or (rows.find? p)

/-- An active row of the organization with the name, whatever its case. -/
def findByName (t : ImportTables) (rows : Administration → List ReferenceRow) (name : String)
    (tie : Id) : Option ReferenceRow :=
  findFirst (rows t.store.administration) (fun r => decide (r.organizationId = job.organizationId) &&
    runtime.equalsInsensitive (t.names r.id) name && r.isActive) tie

/-- What administrators maintain, with other vendors. -/
def ImportTables.withVendors (t : ImportTables) (vendors : List ReferenceRow) : ImportTables :=
  { t with store := { t.store with administration := { t.store.administration with vendors } } }

/-- `vendor.upsert`: the vendor of that name, active again, or a new one. -/
def upsertVendor (t : ImportTables) (uuid : Id) (name : String) : ImportTables × Id :=
  let vendors := t.store.administration.vendors
  match vendors.find? fun r => decide (r.organizationId = job.organizationId ∧ t.names r.id = name) with
  | some vendor =>
    (t.withVendors (vendors.map fun r => if r.id = vendor.id then { r with isActive := true } else r),
      vendor.id)
  | none =>
    ({ t.withVendors (vendors ++ [⟨uuid, job.organizationId, true⟩]) with
        names := Function.update t.names uuid name }, uuid)

/-- `importedSource` -/
def importedSource (actorId importJobId : Id) : ExpenseSource := ⟨.import, actorId, some importJobId⟩

/-- The command the mapper builds from a record once everything is found. -/
def toCreateExpenseCommand (record : RawImportRecord) (departmentId categoryId : Id)
    (vendorId : Option Id) : CreateExpenseCommand where
  organizationId := job.organizationId
  source := importedSource job.initiatedById job.id
  amountMinorUnits := record.amountMinorUnits
  currency := record.currency
  categoryId := categoryId
  departmentId := departmentId
  expenseDate := record.expenseDate
  vendorId := vendorId
  projectId := none
  description := record.description

/-! ## Where a run stands -/

/-- What a run has counted. -/
structure ImportCounts where
  successCount : ℕ
  failureCount : ℕ
  deriving DecidableEq

/-- Which call a run is about to make for a row. -/
inductive RowStep
  /-- `inbox.alreadyProcessed` -/
  | checking (record : RawImportRecord)
  /-- the first query of the mapper -/
  | findingDepartment (record : RawImportRecord)
  /-- its second one -/
  | findingCategory (record : RawImportRecord) (departmentId : Id)
  /-- and the vendor, if the row names one -/
  | upsertingVendor (record : RawImportRecord) (departmentId categoryId : Id) (name : String)
  /-- `createExpense.execute` -/
  | creating (sourceRecordHash : JsString) (cmd : CreateExpenseCommand)
  /-- `inbox.markProcessed` -/
  | marking (sourceRecordHash : JsString)
  /-- in the `catch`: `failedImportRecord.create` -/
  | rejecting (errorMessage : String)

/-- Which call a run is about to make. -/
inductive ImportPhase
  /-- delivered by the queue: about to load its job -/
  | queued
  /-- about to mark the job as processing -/
  | starting
  /-- about to download the file -/
  | loading
  /-- the file cannot be read: about to mark the job as failed -/
  | aborting (reason : String)
  /-- at a row of the file, which is the `i`-th -/
  | atRow (i : ℕ) (row : CsvRow) (counts : ImportCounts) (step : RowStep)
  /-- about to mark the job as completed -/
  | completing (counts : ImportCounts)
  /-- returned, thrown out of `process`, or dead -/
  | ended

/-- The loop at its `i`-th row: the row is normalized, and the inbox comes next. -/
def nextRow (i : ℕ) (counts : ImportCounts) : ImportPhase :=
  match job.rows[i]? with
  | none => .completing counts
  | some row =>
    match CsvNormalizer.normalize runtime.toRuntime row (i + 2) with
    | .ok record => .atRow i row counts (.checking record)
    | .error e =>
      .atRow i row { counts with failureCount := counts.failureCount + 1 } (.rejecting e.recorded)

/-- Where an error that is thrown at a call leads. -/
def ImportPhase.caught (e : ImportError) : ImportPhase → ImportPhase
  | loading => aborting e.message
  -- inside the `catch` of a row nothing catches any more
  | atRow _ _ _ (.rejecting _) => ended
  | atRow i row counts _ =>
    atRow i row { counts with failureCount := counts.failureCount + 1 } (.rejecting e.recorded)
  | _ => ended

/-- What an `err` from the handler says. -/
def failureMessage : Failure → String
  | .domain e => e.message
  | .range message => message
  | .database constraint => runtime.constraintMessage constraint

/-- The mapper, when department and category are found. -/
def mapped (record : RawImportRecord) (departmentId categoryId : Id) : RowStep :=
  match record.vendorName with
  | some name => .upsertingVendor record departmentId categoryId name
  | none =>
    .creating record.sourceRecordHash (toCreateExpenseCommand job record departmentId categoryId none)

/-- A call for a row: what it does to the tables and where the run goes on, or what it
throws. -/
def RowStep.perform (env : Env) (t : ImportTables) (i : ℕ) (row : CsvRow) (counts : ImportCounts) :
    RowStep → Except ImportError (ImportTables × ImportPhase)
  | checking record =>
    if record.sourceRecordHash ∈ t.inbox then .ok (t, nextRow runtime job (i + 1) counts)
    else .ok (t, .atRow i row counts (.findingDepartment record))
  | findingDepartment record =>
    match findByName runtime job t Administration.departments record.departmentName env.tie with
    | some department => .ok (t, .atRow i row counts (.findingCategory record department.id))
    | none => .error (.importMapping (s!"Department \"{record.departmentName}\" does not exist or " ++
        "is inactive for this organization"))
  | findingCategory record departmentId =>
    match findByName runtime job t Administration.expenseCategories record.categoryName env.tie with
    | some category => .ok (t, .atRow i row counts (mapped job record departmentId category.id))
    | none => .error (.importMapping (s!"Category \"{record.categoryName}\" does not exist or " ++
        "is inactive for this organization"))
  | upsertingVendor record departmentId categoryId name =>
    let (t, vendorId) := upsertVendor job t env.uuid name
    .ok (t, .atRow i row counts (.creating record.sourceRecordHash
      (toCreateExpenseCommand job record departmentId categoryId (some vendorId))))
  | creating sourceRecordHash cmd =>
    match (createExpense env cmd).solo t.store with
    | .ok (_, store) => .ok ({ t with store }, .atRow i row counts (.marking sourceRecordHash))
    | .error e => .error (.unexpected (failureMessage runtime e))
  | marking sourceRecordHash =>
    -- the primary key
    if sourceRecordHash ∈ t.inbox then
      .error (.unexpected (runtime.constraintMessage "inbox_records_pkey"))
    else .ok ({ t with inbox := insert sourceRecordHash t.inbox },
      nextRow runtime job (i + 1) { counts with successCount := counts.successCount + 1 })
  | rejecting errorMessage =>
    .ok ({ t with failedRecords := t.failedRecords ++ [⟨i + 2, row, errorMessage⟩] },
      nextRow runtime job (i + 1) counts)

/-- A call of a run. -/
def ImportPhase.perform (env : Env) (t : ImportTables) :
    ImportPhase → Except ImportError (ImportTables × ImportPhase)
  | queued => .ok (t, .starting)
  | starting =>
    .ok ({ t with importJob := { t.importJob with status := .processing, failureReason := none } },
      .loading)
  | loading =>
    match job.file with
    | .ok _ => .ok (t, nextRow runtime job 0 ⟨0, 0⟩)
    | .error message => .error (.unexpected message)
  | aborting reason =>
    .ok ({ t with importJob := { t.importJob with
      status := .failed, completedAt := some env.now, failureReason := some reason } }, .ended)
  | atRow i row counts step => step.perform runtime job env t i row counts
  | completing counts =>
    .ok ({ t with importJob := { t.importJob with
      status := .completed
      totalRecords := some job.rows.length
      successCount := counts.successCount
      failureCount := counts.failureCount
      completedAt := some env.now } }, .ended)
  | ended => .ok (t, .ended)

/-! ## The machine -/

/-- How a call ends. -/
inductive CallOutcome
  /-- with an answer, or with what the call itself throws -/
  | returns
  /-- with an error, and without effect -/
  | fails (message : String)
  /-- with an error, although it took effect -/
  | loses (message : String)

/-- What can happen. -/
inductive ImportEvent
  /-- the next call of a run -/
  | call (run : ℕ) (env : Env) (outcome : CallOutcome)
  /-- its process dies -/
  | crash (run : ℕ)
  /-- the platform serves a request -/
  | serve (request : Request)
  /-- reference data is renamed -/
  | rename (names : Id → String)

/-- The tables, and the runs of the job. -/
structure ImportSystem extends ImportTables where
  phase : ℕ → ImportPhase
  /-- the expenses the runs created, each with the row it was created for -/
  created : List (ℕ × Id)

/-- The request enters an expense in the name of the job. Nobody does: people's
expenses name no job, and those of other jobs name theirs. -/
def Request.createsFor (r : Request) : Bool :=
  match r.command with
  | .expense (.create cmd) => decide (cmd.source.importJobId = some job.id)
  | _ => false

namespace ImportSystem

/-- No expense, nothing imported, no run begun. -/
def initial (administration : Administration) (names : Id → String) : ImportSystem where
  store := .initial administration
  names := names
  importJob := ⟨.pending, none, 0, 0, none, none⟩
  inbox := ∅
  failedRecords := []
  phase := fun _ => .queued
  created := []

/-- The run goes on to another phase. -/
def goto (σ : ImportSystem) (w : ℕ) (phase : ImportPhase) : ImportSystem :=
  { σ with phase := Function.update σ.phase w phase }

/-- A call takes effect. -/
def commit (σ : ImportSystem) (w : ℕ) (env : Env) (t : ImportTables) : ImportSystem where
  toImportTables := t
  phase := σ.phase
  created :=
    match σ.phase w with
    | .atRow i _ _ (.creating _ _) => σ.created ++ [(i, env.uuid)]
    | _ => σ.created

/-- The system after an event, if it can happen. An id that is drawn is one that is
not in use. -/
def next (σ : ImportSystem) : ImportEvent → Option ImportSystem
  | .call w env outcome =>
    if σ.store.Fresh env.uuid then
      match (σ.phase w).perform runtime job env σ.toImportTables, outcome with
      | _, .fails message => some (σ.goto w ((σ.phase w).caught (.unexpected message)))
      | .error e, _ => some (σ.goto w ((σ.phase w).caught e))
      | .ok (t, p), .returns => some ((σ.commit w env t).goto w p)
      | .ok (t, _), .loses message =>
        some ((σ.commit w env t).goto w ((σ.phase w).caught (.unexpected message)))
    else none
  | .crash w => some (σ.goto w .ended)
  | .serve request =>
    if request.createsFor job then none
    else (RatelPlatform.next σ.store request).map fun store => { σ with store }
  | .rename names => some { σ with names }

end ImportSystem

end RatelPlatform
