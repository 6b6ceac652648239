import RatelPlatform.ColumnMappings
import RatelPlatform.CsvUploads
import RatelPlatform.ImportJobs
import RatelPlatform.Tasks

/-!
# Files in the object storage

Two requests put files into the bucket: one attaches a file to an expense, the other uploads
a CSV file for an import. Each stores the object first, records it in a table then, and puts
a job on a queue last. A worker scans the attachments for viruses, another one parses the CSV
files. A download is answered with a URL of the object.

Every request and every run of a worker is a task, call by call. A call may go through, fail
without effect, or take effect and fail all the same, and a process may die before any of
them. A queue delivers a job as often as it likes, to any number of workers.

What was attached, uploaded, scanned, parsed and granted stands in the history: nothing reads
it but the check that a new id is new.
-/

namespace RatelPlatform

/-! ## Tables -/

/-- What is known of an attachment. -/
inductive ScanStatus
  | unscanned
  | clean
  | infected
  deriving DecidableEq

/-- What the scanner says of bytes. -/
inductive ScanResult
  | clean
  | infected
  deriving DecidableEq

/-- The status that a result is written as. -/
def ScanResult.status : ScanResult → ScanStatus
  | clean => .clean
  | infected => .infected

theorem ScanResult.status_injective {a b : ScanResult} (h : a.status = b.status) : a = b := by
  cases a <;> cases b
  · rfl
  · cases h
  · cases h
  · rfl

/-- An object of the bucket. -/
structure StoredObject where
  body : Bytes
  contentType : String
  deriving DecidableEq

/-- A row of `attachments` -/
structure AttachmentRow where
  expenseId : Id
  organizationId : Id
  storageKey : JsString
  fileName : JsString
  contentType : String
  sizeBytes : ℕ
  uploadedById : Id
  scanStatus : ScanStatus
  createdAt : JsDate

/-- What is fixed of an import job when it is created. -/
structure UploadedJobRow where
  organizationId : Id
  initiatedById : Id
  storageKey : JsString
  resolvedMapping : Option SentMapping

/-- A row of `column_mappings` with its id. -/
structure SavedMapping extends ColumnMappingRow where
  id : Id

/-! ## Requests -/

/-- A file is attached to an expense. -/
structure AttachFileCommand where
  expenseId : Id
  organizationId : Id
  uploadedById : Id
  fileName : JsString
  contentType : String
  buffer : Bytes

/-- An upload of a CSV file. -/
structure UploadCsvCommand where
  organizationId : Id
  userId : Id
  mappingId : Option Id
  contentType : Option String
  buffer : Bytes

/-- A saved column mapping is deleted. -/
structure DeleteColumnMappingCommand where
  organizationId : Id
  mappingId : Id

/-- A URL is asked for, to download an attachment. -/
structure GetAttachmentDownloadUrlQuery where
  expenseId : Id
  attachmentId : Id
  organizationId : Id
  deriving DecidableEq

/-- Why a request is refused. -/
inductive FileError
  | unsupportedFileType (contentType : String)
  | fileTooLarge (sizeBytes : ℕ)
  | unsupportedImportFile (problems : List String)
  | attachmentNotSafeToDownload (scanStatus : ScanStatus)
  | failure (e : Failure)
  /-- what a call throws -/
  | unexpected (message : String)

/-- `MAX_FILE_SIZE_BYTES`: 10MB -/
def MAX_FILE_SIZE_BYTES : ℕ := 10 * 1024 * 1024

/-- `ALLOWED_CONTENT_TYPES` -/
def ALLOWED_CONTENT_TYPES : List String := ["application/pdf", "image/jpeg", "image/png"]

namespace FileError

/-- The stable code of an error of this context. -/
def code : FileError → Option String
  | unsupportedFileType _ => some "unsupported-file-type"
  | fileTooLarge _ => some "file-too-large"
  | unsupportedImportFile _ => some "unsupported-import-file"
  | attachmentNotSafeToDownload _ => some "attachment-not-safe"
  | failure (.domain e) => some e.code
  | failure _ | unexpected _ => none

/-- The HTTP status it is answered with. -/
def httpStatus : FileError → ℕ
  | unsupportedFileType _ | fileTooLarge _ | unsupportedImportFile _ => 400
  | attachmentNotSafeToDownload _ => 409
  | failure (.domain e) => e.httpStatus
  | failure _ | unexpected _ => 500

/-- What an error of this context says. -/
def message : FileError → String
  | unsupportedFileType contentType =>
    s!"File type \"{contentType}\" is not supported — allowed: " ++
      ", ".intercalate ALLOWED_CONTENT_TYPES
  | fileTooLarge sizeBytes =>
    s!"File size {sizeBytes} bytes exceeds the {MAX_FILE_SIZE_BYTES} byte limit"
  | unsupportedImportFile problems => "Uploaded file was rejected: " ++ "; ".intercalate problems
  | attachmentNotSafeToDownload .infected =>
    "This file was flagged as infected and cannot be downloaded"
  | attachmentNotSafeToDownload _ =>
    "This file has not finished virus scanning yet — try again in a moment"
  | failure (.domain e) => e.message
  | failure (.range message) | failure (.database message) | unexpected message => message

end FileError

/-! ## Keys -/

section

variable (idText : Id → JsString)

/-- The key an attachment is stored under. -/
def attachmentKey (cmd : AttachFileCommand) (attachmentId : Id) : JsString :=
  idText cmd.organizationId ++ js "/expenses/" ++ idText cmd.expenseId ++ js "/" ++
    idText attachmentId ++ js "-" ++ cmd.fileName

/-- The key the file of an import is stored under. -/
def importKey (cmd : UploadCsvCommand) (importJobId : Id) : JsString :=
  idText cmd.organizationId ++ js "/imports/" ++ idText importJobId ++ js ".csv"

end

/-! ## The state -/

/-- What has happened to files so far. -/
structure FileHistory where
  /-- the files that were attached, each with the id it was given -/
  attached : List (Id × AttachFileCommand)
  /-- the files that were uploaded, each with the id of its job and the mapping it comes with -/
  uploaded : List (Id × UploadCsvCommand × Option SentMapping)
  /-- the mappings that were saved -/
  saved : List SavedMapping
  /-- the answers of the scanner -/
  scans : List (Bytes × ScanResult)
  /-- the keys that download URLs were given out for -/
  granted : List (GetAttachmentDownloadUrlQuery × JsString)
  /-- what the adapter was given for a job -/
  parsed : List (Id × Bytes × Option SentMapping)

/-- The store of the platform, the bucket, the tables and the queues. -/
structure FileTables extends FileHistory where
  store : Store
  objects : Table JsString StoredObject
  attachments : Table Id AttachmentRow
  columnMappings : List SavedMapping
  importJobs : Table Id UploadedJobRow
  scanQueue : List Id
  importQueue : List Id

/-- The id is that of no attachment and no import job. -/
def FileTables.NewId (t : FileTables) (id : Id) : Prop :=
  (∀ r ∈ t.attached, r.1 ≠ id) ∧ ∀ r ∈ t.uploaded, r.1 ≠ id

instance (t : FileTables) (id : Id) : Decidable (t.NewId id) :=
  inferInstanceAs (Decidable ((∀ r ∈ t.attached, r.1 ≠ id) ∧ ∀ r ∈ t.uploaded, r.1 ≠ id))

/-- A store without rows, an empty bucket. -/
def FileTables.initial (administration : Administration) : FileTables where
  attached := []
  uploaded := []
  saved := []
  scans := []
  granted := []
  parsed := []
  store := .initial administration
  objects := ∅
  attachments := ∅
  columnMappings := []
  importJobs := ∅
  scanQueue := []
  importQueue := []

/-- Which call a task is about to make. -/
inductive FileTask
  /-- nothing has begun -/
  | idle
  /-- `AttachFileHandler`: about to load the expense -/
  | loadingExpense (cmd : AttachFileCommand)
  /-- about to store the object -/
  | storingFile (cmd : AttachFileCommand) (attachmentId : Id)
  /-- about to insert the row -/
  | recordingFile (cmd : AttachFileCommand) (attachmentId : Id)
  /-- about to add the job -/
  | queueingScan (attachmentId : Id)
  /-- `ImportController.create`: about to look up the mapping -/
  | resolvingMapping (cmd : UploadCsvCommand) (mappingId : Id)
  /-- about to receive the file -/
  | receivingFile (cmd : UploadCsvCommand) (mapping : Option SentMapping)
  /-- about to store the object -/
  | storingCsv (cmd : UploadCsvCommand) (mapping : Option SentMapping) (importJobId : Id)
  /-- about to insert the row -/
  | recordingJob (cmd : UploadCsvCommand) (mapping : Option SentMapping) (importJobId : Id)
  /-- about to add the job -/
  | queueingImport (importJobId : Id)
  /-- `AttachmentScanProcessor`: about to load the attachment -/
  | findingAttachment (attachmentId : Id)
  /-- about to download the object -/
  | downloading (attachmentId : Id) (storageKey : JsString)
  /-- about to have it scanned -/
  | scanning (attachmentId : Id) (buffer : Bytes)
  /-- about to write the result -/
  | recordingScan (attachmentId : Id) (result : ScanResult)
  /-- `ImportJobProcessor`: about to load the job -/
  | loadingJob (importJobId : Id)
  /-- about to download the file -/
  | loadingCsv (importJobId : Id) (job : UploadedJobRow)
  /-- answered, thrown out of its handler, or dead -/
  | ended (answer : Except FileError (Option Id))

/-! ## Calls -/

/-- `AttachFileHandler.execute`, before its first call. -/
def AttachFileHandler.execute (cmd : AttachFileCommand) : FileTask :=
  if cmd.contentType ∉ ALLOWED_CONTENT_TYPES then
    .ended (.error (.unsupportedFileType cmd.contentType))
  else if MAX_FILE_SIZE_BYTES < cmd.buffer.length then
    .ended (.error (.fileTooLarge cmd.buffer.length))
  else .loadingExpense cmd

/-- `ImportController.create`, before its first call. -/
def ImportController.create (cmd : UploadCsvCommand) : FileTask :=
  match cmd.mappingId with
  | some mappingId => .resolvingMapping cmd mappingId
  | none => .receivingFile cmd none

/-- The row of an attachment that is not scanned yet. -/
def AttachFileCommand.row (idText : Id → JsString) (cmd : AttachFileCommand) (attachmentId : Id)
    (now : JsDate) : AttachmentRow where
  expenseId := cmd.expenseId
  organizationId := cmd.organizationId
  storageKey := attachmentKey idText cmd attachmentId
  fileName := cmd.fileName
  contentType := cmd.contentType
  sizeBytes := cmd.buffer.length
  uploadedById := cmd.uploadedById
  scanStatus := .unscanned
  createdAt := now

/-- What a call takes from its surroundings. -/
structure FileEnv extends Env where
  /-- what the scanner answers, if it is asked -/
  verdict : ScanResult

section

variable (idText : Id → JsString)

/-- A call of a task: what it does to the tables and where the task goes on, or what it
throws. -/
def FileTask.perform (env : FileEnv) (t : FileTables) :
    FileTask → Except FileError (FileTables × FileTask)
  | loadingExpense cmd =>
    match (findExpense cmd.expenseId cmd.organizationId).solo t.store with
    | .ok _ =>
      .ok ({ t with attached := t.attached ++ [(env.uuid, cmd)] }, .storingFile cmd env.uuid)
    | .error e => .error (.failure e)
  | storingFile cmd id =>
    let object : StoredObject := ⟨cmd.buffer, cmd.contentType⟩
    .ok ({ t with objects := t.objects.insert (attachmentKey idText cmd id) object },
      .recordingFile cmd id)
  | recordingFile cmd id =>
    -- the primary key
    if id ∈ t.attachments then .error (.failure (.database "attachments_pkey"))
    else .ok ({ t with attachments := t.attachments.insert id (cmd.row idText id env.now) },
      .queueingScan id)
  | queueingScan id => .ok ({ t with scanQueue := t.scanQueue ++ [id] }, .ended (.ok (some id)))
  | resolvingMapping cmd mappingId =>
    match t.columnMappings.find? fun row =>
        row.id = mappingId ∧ row.organizationId = cmd.organizationId with
    | some saved => .ok (t, .receivingFile cmd (some saved.mapping))
    | none => .error (.failure (.domain (.entityNotFound "ColumnMapping" mappingId)))
  | receivingFile cmd mapping =>
    match validateCsvUpload cmd.contentType cmd.buffer with
    | [] => .ok ({ t with uploaded := t.uploaded ++ [(env.uuid, cmd, mapping)] },
        .storingCsv cmd mapping env.uuid)
    | problems => .error (.unsupportedImportFile problems)
  | storingCsv cmd mapping id =>
    let object : StoredObject := ⟨cmd.buffer, "text/csv"⟩
    .ok ({ t with objects := t.objects.insert (importKey idText cmd id) object },
      .recordingJob cmd mapping id)
  | recordingJob cmd mapping id =>
    -- the primary key
    if id ∈ t.importJobs then .error (.failure (.database "import_jobs_pkey"))
    else
      let job : UploadedJobRow := ⟨cmd.organizationId, cmd.userId, importKey idText cmd id, mapping⟩
      .ok ({ t with importJobs := t.importJobs.insert id job }, .queueingImport id)
  | queueingImport id =>
    .ok ({ t with importQueue := t.importQueue ++ [id] }, .ended (.ok (some id)))
  | findingAttachment id =>
    match t.attachments.lookup id with
    | none => .ok (t, .ended (.ok none))
    | some row => .ok (t, .downloading id row.storageKey)
  | downloading id key =>
    match t.objects.lookup key with
    | some object => .ok (t, .scanning id object.body)
    | none => .error (.unexpected "The specified key does not exist.")
  | scanning id buffer =>
    .ok ({ t with scans := t.scans ++ [(buffer, env.verdict)] }, .recordingScan id env.verdict)
  | recordingScan id result =>
    if id ∈ t.attachments then
      .ok ({ t with attachments := Table.update t.attachments id fun row =>
        { row with scanStatus := result.status } }, .ended (.ok none))
    else .error (.unexpected "Record to update not found.")
  | loadingJob id =>
    match t.importJobs.lookup id with
    | some job => .ok (t, .loadingCsv id job)
    | none => .error (.unexpected "No ImportJob found")
  | loadingCsv id job =>
    match t.objects.lookup job.storageKey with
    | some object =>
      .ok ({ t with parsed := t.parsed ++ [(id, object.body, job.resolvedMapping)] },
        .ended (.ok none))
    | none => .error (.unexpected "The specified key does not exist.")
  | idle => .ok (t, .idle)
  | ended answer => .ok (t, .ended answer)

/-! ## The machine -/

/-- What a task does. -/
inductive FileCall
  /-- it begins: a request comes in, or a worker takes a job of its queue -/
  | attach (cmd : AttachFileCommand)
  | upload (cmd : UploadCsvCommand)
  | scan (attachmentId : Id)
  | importFile (importJobId : Id)
  /-- its next call -/
  | call (env : FileEnv) (outcome : CallOutcome)
  /-- its process dies -/
  | crash

/-- The task after it, with the tables. The id a call draws is a new one. -/
def callFile (t : FileTables) (task : FileTask) : FileCall → Option (FileTables × FileTask)
  | .attach cmd =>
    match task with
    | .idle => some (t, AttachFileHandler.execute cmd)
    | _ => none
  | .upload cmd =>
    match task with
    | .idle => some (t, ImportController.create cmd)
    | _ => none
  | .scan id =>
    match task with
    | .idle => if id ∈ t.scanQueue then some (t, .findingAttachment id) else none
    | _ => none
  | .importFile id =>
    match task with
    | .idle => if id ∈ t.importQueue then some (t, .loadingJob id) else none
    | _ => none
  | .call env outcome =>
    if t.NewId env.uuid then
      match task.perform idText env t, outcome with
      | _, .fails message => some (t, .ended (.error (.unexpected message)))
      | .error e, _ => some (t, .ended (.error e))
      | .ok (t, task), .returns => some (t, task)
      | .ok (t, _), .loses message => some (t, .ended (.error (.unexpected message)))
    else none
  | .crash => some (t, .ended (.error (.unexpected "")))

end

/-- `SaveColumnMappingHandler`: the mappings after it, of which a new one gets the id. -/
def saveColumnMapping (rows : List SavedMapping) (uuid : Id) (cmd : ColumnMappingRow) :
    Except String (List SavedMapping) :=
  match validateColumnMappingShape cmd.mapping with
  | [] =>
    if rows.any fun row => row.organizationId = cmd.organizationId ∧ row.name = cmd.name then
      .ok (rows.map fun row =>
        if row.organizationId = cmd.organizationId ∧ row.name = cmd.name then
          { row with mapping := cmd.mapping }
        else row)
    else .ok (rows ++ [⟨cmd, uuid⟩])
  | problems => .error (invalidColumnMapping problems)

/-- But for the ids it is the handler that validates and saves. -/
theorem saveColumnMapping_execute (rows : List SavedMapping) (uuid : Id) (cmd : ColumnMappingRow) :
    (saveColumnMapping rows uuid cmd).map (List.map SavedMapping.toColumnMappingRow) =
      SaveColumnMappingHandler.execute (rows.map SavedMapping.toColumnMappingRow) cmd := by
  have hany : ((rows.map SavedMapping.toColumnMappingRow).any fun row =>
      row.organizationId = cmd.organizationId ∧ row.name = cmd.name) =
        rows.any fun row => row.organizationId = cmd.organizationId ∧ row.name = cmd.name :=
    List.any_map
  rcases hshape : validateColumnMappingShape cmd.mapping with _ | ⟨problem, problems⟩
  · simp only [saveColumnMapping, SaveColumnMappingHandler.execute, hshape, hany]
    split_ifs
    · simp only [Except.map, List.map_map]
      refine congrArg Except.ok (List.map_congr_left fun row _ => ?_)
      simp only [Function.comp_apply]
      split_ifs with hsame
      · obtain ⟨horg, hname⟩ := hsame
        cases cmd
        cases horg
        cases hname
        rfl
      · rfl
    · simp [Except.map]
  · simp only [saveColumnMapping, SaveColumnMappingHandler.execute, hshape]
    rfl

/-- `DeleteColumnMappingHandler` -/
def deleteColumnMapping (rows : List SavedMapping) (cmd : DeleteColumnMappingCommand) :
    Except FileError (List SavedMapping) :=
  if rows.any fun row => row.id = cmd.mappingId ∧ row.organizationId = cmd.organizationId then
    .ok (rows.filter fun row =>
      ¬ (row.id = cmd.mappingId ∧ row.organizationId = cmd.organizationId))
  else .error (.failure (.domain (.entityNotFound "ColumnMapping" cmd.mappingId)))

/-- `GetAttachmentDownloadUrlHandler`: the key of the object that the URL is for, and the name
of the file. -/
def getAttachmentDownloadUrl (t : FileTables) (query : GetAttachmentDownloadUrlQuery) :
    Except FileError (JsString × JsString) :=
  match (t.attachments.lookup query.attachmentId).filter fun row =>
      row.expenseId = query.expenseId ∧ row.organizationId = query.organizationId with
  | none => .error (.failure (.domain (.entityNotFound "Attachment" query.attachmentId)))
  | some row =>
    if row.scanStatus ≠ .clean then .error (.attachmentNotSafeToDownload row.scanStatus)
    else .ok (row.storageKey, row.fileName)

/-- What happens besides the tasks. -/
inductive FileEvent
  /-- the platform serves a request -/
  | serve (request : Request)
  | saveMapping (uuid : Id) (cmd : ColumnMappingRow)
  | deleteMapping (cmd : DeleteColumnMappingCommand)
  /-- a download is asked for -/
  | download (query : GetAttachmentDownloadUrlQuery)

/-- The tables after it. What is refused changes nothing. -/
def fileEvent (t : FileTables) : FileEvent → Option FileTables
  | .serve request => (next t.store request).map fun store => { t with store }
  | .saveMapping uuid cmd =>
    match saveColumnMapping t.columnMappings uuid cmd with
    | .ok columnMappings =>
      some { t with columnMappings, saved := t.saved ++ columnMappings }
    | .error _ => some t
  | .deleteMapping cmd =>
    match deleteColumnMapping t.columnMappings cmd with
    | .ok columnMappings => some { t with columnMappings }
    | .error _ => some t
  | .download query =>
    match getAttachmentDownloadUrl t query with
    | .ok (key, _) => some { t with granted := t.granted ++ [(query, key)] }
    | .error _ => some t

/-- The requests and workers that have to do with files. -/
def fileMachine (idText : Id → JsString) :
    TaskMachine FileTables FileTask FileCall FileEvent where
  call := callFile idText
  event := fileEvent

/-- No file yet, and no task has begun. -/
def fileSystem (administration : Administration) : TaskState FileTables FileTask where
  shared := .initial administration
  tasks _ := .idle

end RatelPlatform
