import RatelPlatform.CanonicalJson
import RatelPlatform.HashChain

/-!
# The audit log

`record` appends a row to its organization's hash chain; `verify` walks the rows
of one organization and recomputes every hash. Neither stores an order: both go
by `createdAt`, the writer to find the row it must link to and the verifier to
line the rows up, and among rows of one millisecond the database is free to
choose.

SHA-256 is a parameter: `sha256 text` is the hexadecimal digest of a text (in
UTF-8, which encodes well-formed texts one to one). So is what a `jsonb` column
hands back for a stored value.
-/

namespace RatelPlatform

/-! ## The hashes -/

/-- `GENESIS_HASH`. -/
def genesisHash : JsString := List.replicate 64 0x30

/-- `CURRENT_HASH_VERSION`. -/
def currentHashVersion : ℤ := 2

/-- `HashableEntry`: what both hash versions cover. -/
structure HashableEntry where
  organizationId : JsString
  entityType : JsString
  entityId : JsString
  action : JsString
  /-- `null` when nobody acted -/
  actorUserId : Option JsString
  correlationId : JsString
  createdAt : JsDate

/-- `HashableEntryV2`: the payload fields that version 1 left unprotected. -/
structure HashableEntryV2 extends HashableEntry where
  oldValue : JsValue
  newValue : JsValue
  reason : Option JsString

/-- A string, or `null`. -/
def orNull : Option JsString → Json
  | none => .null
  | some s => .string s

/-- `value ?? null`. -/
def nullish : JsValue → JsValue
  | .undefined => .null
  | v => v

/-- A date as the payloads hold it. -/
def JsDate.toJson (t : JsDate) : Json := .string (.ofAscii t.toISOString)

/-- The object `computeEntryHash` serializes. -/
def entryPayload (prevHash : JsString) (entry : HashableEntry) : Json :=
  .object [
    (js "prevHash", .string prevHash),
    (js "organizationId", .string entry.organizationId),
    (js "entityType", .string entry.entityType),
    (js "entityId", .string entry.entityId),
    (js "action", .string entry.action),
    (js "actorUserId", orNull entry.actorUserId),
    (js "correlationId", .string entry.correlationId),
    (js "createdAt", entry.createdAt.toJson)]

/-- The object `computeEntryHashV2` serializes. -/
def entryPayloadV2 (prevHash : JsString) (entry : HashableEntryV2) : JsValue :=
  .object [
    (js "prevHash", .string prevHash),
    (js "organizationId", .string entry.organizationId),
    (js "entityType", .string entry.entityType),
    (js "entityId", .string entry.entityId),
    (js "action", .string entry.action),
    (js "actorUserId", (orNull entry.actorUserId).toJs),
    (js "correlationId", .string entry.correlationId),
    (js "createdAt", entry.createdAt.toJson.toJs),
    (js "oldValue", nullish entry.oldValue),
    (js "newValue", nullish entry.newValue),
    (js "reason", (orNull entry.reason).toJs)]

section Hashes

variable (sha256 : List Char → JsString)

/-- `computeEntryHash`, version 1. -/
def computeEntryHash (prevHash : JsString) (entry : HashableEntry) : JsString :=
  sha256 (entryPayload prevHash entry).stringify

/-- `computeEntryHashV2`. -/
def computeEntryHashV2 (prevHash : JsString) (entry : HashableEntryV2) : JsString :=
  sha256 (canonicalStringify (entryPayloadV2 prevHash entry))

end Hashes

/-! ## Rows -/

/-- A row of `audit_log_entries`. -/
structure AuditLogEntry where
  id : JsString
  organizationId : JsString
  entityType : JsString
  entityId : JsString
  action : JsString
  actorUserId : Option JsString
  /-- `NULL` when there was no before-state -/
  oldValue : Option JsonData
  newValue : Option JsonData
  reason : Option JsString
  correlationId : JsString
  requestId : Option JsString
  ipAddress : Option JsString
  userAgent : Option JsString
  source : JsString
  prevHash : JsString
  entryHash : JsString
  /-- which function computed `entryHash` -/
  hashVersion : ℤ
  createdAt : JsDate

namespace AuditLogEntry

/-- The fields of a row both hash versions cover. -/
def hashable (row : AuditLogEntry) : HashableEntry where
  organizationId := row.organizationId
  entityType := row.entityType
  entityId := row.entityId
  action := row.action
  actorUserId := row.actorUserId
  correlationId := row.correlationId
  createdAt := row.createdAt

/-- The value a `Json?` column reads as: an SQL `NULL` is `null`. -/
def columnJson : Option JsonData → Json
  | none => .null
  | some d => d.value

/-- The fields of a row version 2 covers. -/
def hashableV2 (row : AuditLogEntry) : HashableEntryV2 where
  toHashableEntry := row.hashable
  oldValue := (columnJson row.oldValue).toJs
  newValue := (columnJson row.newValue).toJs
  reason := row.reason

variable (sha256 : List Char → JsString)

/-- The hash the verifier recomputes, if it knows the row's version. -/
def recomputed (row : AuditLogEntry) : Option JsString :=
  if row.hashVersion = 1 then some (computeEntryHash sha256 row.prevHash row.hashable)
  else if row.hashVersion = 2 then some (computeEntryHashV2 sha256 row.prevHash row.hashableV2)
  else none

end AuditLogEntry

/-! ## Recording -/

/-- `RecordAuditEntryInput`. The values come from event payloads, that is from JSON. -/
structure RecordAuditEntryInput where
  organizationId : JsString
  entityType : JsString
  entityId : JsString
  action : JsString
  actorUserId : Option JsString
  oldValue : Option JsonData
  newValue : Option JsonData
  reason : Option JsString
  correlationId : JsString
  requestId : Option JsString
  ipAddress : Option JsString
  userAgent : Option JsString
  source : JsString

/-- One call of `record`, with what its surroundings contribute. -/
structure RecordCall where
  input : RecordAuditEntryInput
  /-- the clock reading, taken under the organization's lock -/
  now : JsDate
  /-- the generated id of the row -/
  id : JsString
  /-- which of several latest rows the database returns first -/
  pick : ℕ

/-- The rows of an organization. -/
def rowsOf (organizationId : JsString) (log : List AuditLogEntry) : List AuditLogEntry :=
  log.filter fun row => row.organizationId = organizationId

/-- The rows of an organization that `ORDER BY created_at DESC` may list first. -/
def latestRows (organizationId : JsString) (log : List AuditLogEntry) : List AuditLogEntry :=
  (rowsOf organizationId log).filter fun row =>
    (rowsOf organizationId log).all fun other => other.createdAt.ms ≤ row.createdAt.ms

/-- The row `findFirst` returns. -/
def findLatest (organizationId : JsString) (pick : ℕ) (log : List AuditLogEntry) :
    Option AuditLogEntry :=
  let rows := latestRows organizationId log
  rows[pick % rows.length]?

/-- An absent field, or a value. -/
def optionalJs : Option JsonData → JsValue
  | none => .undefined
  | some d => d.value.toJs

/-- What `record` hashes of a call. -/
def RecordCall.hashable (call : RecordCall) : HashableEntryV2 where
  organizationId := call.input.organizationId
  entityType := call.input.entityType
  entityId := call.input.entityId
  action := call.input.action
  actorUserId := call.input.actorUserId
  correlationId := call.input.correlationId
  createdAt := call.now
  oldValue := optionalJs call.input.oldValue
  newValue := optionalJs call.input.newValue
  reason := call.input.reason

section Recording

variable (sha256 : List Char → JsString) (jsonb : JsonData → JsonData)

/-- The row a call writes behind `prevHash`, as it can be read back. -/
def RecordCall.entry (call : RecordCall) (prevHash : JsString) : AuditLogEntry :=
  let input := call.input
  { id := call.id
    organizationId := input.organizationId
    entityType := input.entityType
    entityId := input.entityId
    action := input.action
    actorUserId := input.actorUserId
    oldValue := input.oldValue.map jsonb
    newValue := input.newValue.map jsonb
    reason := input.reason
    correlationId := input.correlationId
    requestId := input.requestId
    ipAddress := input.ipAddress
    userAgent := input.userAgent
    source := input.source
    prevHash := prevHash
    entryHash := computeEntryHashV2 sha256 prevHash call.hashable
    hashVersion := currentHashVersion
    createdAt := call.now }

/-- `AuditLogService.record`. -/
def record (log : List AuditLogEntry) (call : RecordCall) : List AuditLogEntry :=
  let last := findLatest call.input.organizationId call.pick log
  log ++ [call.entry sha256 jsonb ((last.map (·.entryHash)).getD genesisHash)]

/-- The log after a sequence of calls, in the order in which they took their locks. -/
def recordAll (calls : List RecordCall) : List AuditLogEntry :=
  calls.foldl (record sha256 jsonb) []

end Recording

/-! ## Verifying -/

/-- `ChainMismatchReason`. -/
inductive ChainMismatchReason
  | linkage
  | content
  | unrecognizedVersion
  deriving DecidableEq

/-- `ChainVerificationResult`. -/
structure ChainVerificationResult where
  organizationId : JsString
  entriesChecked : ℕ
  valid : Bool
  firstMismatchId : Option JsString
  firstMismatchReason : Option ChainMismatchReason
  caveat : String
  deriving DecidableEq

/-- `CAVEAT`. -/
def caveat : String :=
  "This verification proves entries were not altered after being written. It " ++
  "cannot prove no entries are missing: a chain with a row deleted and every " ++
  "subsequent hash recomputed to match would still pass this check."

section Verifying

variable (sha256 : List Char → JsString)

/-- The walk of `verify`: the first row that does not fit, and why. -/
def firstMismatch (expectedPrevHash : JsString) :
    List AuditLogEntry → Option (JsString × ChainMismatchReason)
  | [] => none
  | row :: rows =>
    if row.prevHash ≠ expectedPrevHash then some (row.id, .linkage)
    else
      match row.recomputed sha256 with
      | none => some (row.id, .unrecognizedVersion)
      | some recomputed =>
        if recomputed ≠ row.entryHash then some (row.id, .content)
        else firstMismatch row.entryHash rows

/-- `ChainVerifierService.verify`, on the rows the database returned for the organization. -/
def verify (organizationId : JsString) (rows : List AuditLogEntry) : ChainVerificationResult :=
  match firstMismatch sha256 genesisHash rows with
  | some (rowId, reason) => ⟨organizationId, rows.length, false, some rowId, some reason, caveat⟩
  | none => ⟨organizationId, rows.length, true, none, none, caveat⟩

/-- What the database may return for `ORDER BY created_at ASC`. -/
def Ascending (organizationId : JsString) (log rows : List AuditLogEntry) : Prop :=
  rows.Perm (rowsOf organizationId log) ∧
    rows.Pairwise fun a b => a.createdAt.ms ≤ b.createdAt.ms

/-- A row whose stored hash is the one its version computes. -/
def AuditLogEntry.Sealed (row : AuditLogEntry) : Prop :=
  row.recomputed sha256 = some row.entryHash

end Verifying

/-- The chain the stored hashes form. -/
abbrev AuditLinked : JsString → List AuditLogEntry → Prop :=
  Linked AuditLogEntry.prevHash AuditLogEntry.entryHash

/-- The hash the next row of a chain has to store. -/
abbrev auditTip (rows : List AuditLogEntry) : JsString :=
  chainTip AuditLogEntry.entryHash genesisHash rows

variable {sha256 : List Char → JsString}

theorem firstMismatch_eq_none_iff {h : JsString} {rows : List AuditLogEntry} :
    firstMismatch sha256 h rows = none ↔ AuditLinked h rows ∧ ∀ row ∈ rows, row.Sealed sha256 := by
  induction rows generalizing h with
  | nil => exact iff_of_true rfl ⟨trivial, fun _ hr => absurd hr List.not_mem_nil⟩
  | cons row rows ih =>
    rw [firstMismatch, List.forall_mem_cons]
    simp only [AuditLinked, Linked, AuditLogEntry.Sealed] at ih ⊢
    split_ifs with hprev
    · exact iff_of_false id fun h => hprev h.1.1
    · rw [not_not] at hprev
      rcases hrec : row.recomputed sha256 with _ | recomputed
      · exact iff_of_false (Option.some_ne_none _) fun h => Option.some_ne_none _ h.2.1.symm
      · simp only
        split_ifs with hhash
        · exact iff_of_false id fun h => hhash (Option.some.inj h.2.1)
        · rw [not_not] at hhash
          rw [ih, hhash]
          exact ⟨fun h => ⟨⟨hprev, h.1⟩, rfl, h.2⟩, fun h => ⟨h.1.2, h.2.2⟩⟩

/-- **What the verifier checks**: the rows are linked from the genesis value on, and
each carries the hash of its own content. -/
theorem verify_valid_iff {organizationId : JsString} {rows : List AuditLogEntry} :
    (verify sha256 organizationId rows).valid ↔
      AuditLinked genesisHash rows ∧ ∀ row ∈ rows, row.Sealed sha256 := by
  rw [← firstMismatch_eq_none_iff, verify]
  rcases firstMismatch sha256 genesisHash rows with _ | ⟨rowId, reason⟩
  · exact iff_of_true rfl rfl
  · exact iff_of_false Bool.false_ne_true (Option.some_ne_none _)

end RatelPlatform
