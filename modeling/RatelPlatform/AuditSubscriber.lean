import RatelPlatform.AggregateSnapshots
import RatelPlatform.AuditLog
import RatelPlatform.DispatchedEvents
import RatelPlatform.PayrollTenancy

/-!
# The audit subscriber

Every event that a command records goes to the outbox, with the context of the request it came
with. From there it is dispatched to `AuditSubscriber`, which is subscribed to all events and
makes an entry of each in the audit log: whose event it is, of what, and who did it. It asks
nothing of the event but its payload. Under which key a payload says who acted depends on the
event, so the subscriber looks for several.

The call of the subscriber is one transaction. It may commit although the call fails, when the
answer is lost or the process dies.

Identifiers are texts, of which the commands only know which are equal; `idText` writes them.
-/

namespace RatelPlatform

/-! ## Rows of the outbox -/

/-- `RequestContextData` -/
structure RequestContextData where
  correlationId : JsString
  requestId : JsString
  ipAddress : Option JsString
  userAgent : Option JsString
  source : JsString

/-- `OutboxEventRow`, apart from its time. -/
structure OutboxEventRow where
  eventType : String
  aggregateType : String
  aggregateId : Id
  payload : JsonData
  correlationId : JsString
  requestId : Option JsString
  ipAddress : Option JsString
  userAgent : Option JsString
  source : JsString

/-- A value as a `Json` column takes it. -/
def JsonData.of (value : JsValue) : JsonData := ⟨toJsonSafe value, uniqueKeys_toJsonSafe value⟩

section

variable (idText : Id → JsString)

mutual

/-- A value of a payload. -/
def PayloadValue.toJs : PayloadValue → JsValue
  | .id value => .string (idText value)
  | .number value => .number (.ofNat value)
  | .text value => textJs value
  | .date value => .date value
  | .object fields => .object (payloadMembers fields)

/-- The members of a payload. -/
def payloadMembers : List (String × PayloadValue) → List (JsString × JsValue)
  | [] => []
  | (key, value) :: fields => (js key, value.toJs) :: payloadMembers fields

end

theorem payloadMembers_eq_map (fields : List (String × PayloadValue)) :
    payloadMembers idText fields = fields.map fun m => (js m.1, m.2.toJs idText) := by
  induction fields with
  | nil => rfl
  | cons m fields ih => rw [payloadMembers, ih, List.map_cons]

/-- `{ ...event.payload, changes }`, or the payload alone where nothing has changed. -/
def recordedPayload (payload : List (String × PayloadValue)) (changes : Option Changes) :
    List (JsString × JsValue) :=
  payloadMembers idText payload ++
    (changes.map fun changes => (js "changes", changes.toJson.toJs)).toList

variable (jsonb : JsonData → JsonData)

/-- The row that `enqueue` creates for an event with these changes, as it is read back;
`randomId` is what a missing correlation id is replaced by. -/
def OutboxService.enqueueRow (context : Option RequestContextData) (randomId : JsString)
    (event : DomainEvent) (changes : Option Changes) : OutboxEventRow where
  eventType := event.type
  aggregateType := event.aggregateType
  aggregateId := event.aggregateId
  payload := jsonb (.of (.object (recordedPayload idText event.payload changes)))
  correlationId := (context.map RequestContextData.correlationId).getD randomId
  requestId := context.map RequestContextData.requestId
  ipAddress := context.bind RequestContextData.ipAddress
  userAgent := context.bind RequestContextData.userAgent
  source := (context.map RequestContextData.source).getD (js "background_worker")

/-! ## `AuditSubscriber` -/

/-- `ACTOR_KEYS` -/
def actorKeys : List String :=
  ["approverId", "actorId", "closedById", "reopenedById", "createdById"]

/-- A text under a key. -/
def textMember (payload : Snapshot) (key : JsString) : Option JsString :=
  match ownMember payload key with
  | some (.string text) => some text
  | _ => none

/-- `extractActorId` -/
def extractActorId (payload : Snapshot) : Option JsString :=
  actorKeys.findSome? fun key => textMember payload (js key)

/-- The members of a payload. -/
def JsonData.members (d : JsonData) : Snapshot :=
  match d.value with
  | .object members => members
  | _ => []

/-- What `AuditSubscriber.handle` passes to `record` for the event of a row. -/
def AuditSubscriber.handle (row : OutboxEventRow) : RecordAuditEntryInput where
  organizationId := (textMember row.payload.members (js "organizationId")).getD (js "unknown")
  entityType := js row.aggregateType
  entityId := idText row.aggregateId
  action := js row.eventType
  actorUserId := extractActorId row.payload.members
  oldValue := (extractOldValue (ownMember row.payload.members (js "changes"))).map fun oldValue =>
    .of (Json.object oldValue).toJs
  newValue := some row.payload
  reason := textMember row.payload.members (js "reason")
  correlationId := row.correlationId
  requestId := row.requestId
  ipAddress := row.ipAddress
  userAgent := row.userAgent
  source := row.source

end

/-- Under this name the subscriber is registered for all events. -/
def auditSubscriberName : String := "AuditSubscriber"

/-- The call of the subscriber that the step of a job settles. -/
def auditCallOfJob (D : Dispatcher) (key : DeliveryKey) (job : Job) (result : CallResult) :
    Option (Id × Bool) :=
  match job.phase with
  | .delivering event =>
    if key.2 = auditSubscriberName then
      ((D.subscribersFor event.type).find? fun s => s.name = key.2).map fun _ =>
        (key.1, decide (result = .fulfilled))
    else none
  | _ => none

/-- Which call of the subscriber a step settles or cuts off: the event, and whether the
transaction of the call has committed for certain. -/
def DeliverySystem.auditCall (D : Dispatcher) (σ : DeliverySystem) :
    DeliverySystem.Label → Option (Id × Bool)
  | .poller n (.settle i result) =>
    match σ.pollers n with
    | .dispatching id _ results _ =>
      (results[i]?.filter fun r => r.1.name = auditSubscriberName).map fun _ =>
        (id, decide (result = .fulfilled))
    | _ => none
  | .poller n .crash =>
    match σ.pollers n with
    | .dispatching id _ results _ =>
      (results.find? fun r => r.1.name = auditSubscriberName ∧ r.2 = none).map fun _ => (id, false)
    | _ => none
  | .worker key result =>
    (σ.jobs.lookup key).bind fun job => auditCallOfJob D key job result
  | .straggler i result =>
    σ.stalled[i]?.bind fun (key, job) => auditCallOfJob D key job result
  | _ => none

/-! ## The system -/

/-- Commands, the delivery of their events, and the audit log. -/
structure AuditedSystem where
  store : Store
  delivery : DeliverySystem
  /-- the columns of the outbox that the delivery does not look at -/
  outbox : Table Id OutboxEventRow
  auditLog : List AuditLogEntry
  /-- the request that a row of the outbox comes from, with its context; read by nothing -/
  requests : Table Id (Request × Option RequestContextData)
  /-- the rows of the outbox that the entries of the log were made for; read by nothing -/
  subjects : List Id

/-- What a new row of the outbox draws from its surroundings: its ids, and what the aggregate
says has changed. -/
structure NewOutboxRow where
  id : Id
  randomId : JsString
  changes : Option Changes

/-- What a call of `record` draws from its surroundings. -/
structure Recording where
  now : JsDate
  id : JsString
  pick : ℕ

/-- What can happen. -/
inductive AuditedLabel
  /-- a command; its events get these rows at this time -/
  | command (request : Request) (context : Option RequestContextData) (rows : List NewOutboxRow)
      (now : JsDate)
  /-- a transaction on what the store does not hold: employees, salary structures,
  reference data -/
  | publish (event : DomainEvent) (context : Option RequestContextData) (row : NewOutboxRow)
      (now : JsDate)
  /-- a step of the delivery, and what the transaction of a call of the subscriber drew, if it
  has committed -/
  | delivery (label : DeliverySystem.Label) (recording : Option Recording)

namespace AuditedSystem

/-- Nothing has happened yet. -/
def initial (administration : Administration) : AuditedSystem where
  store := .initial administration
  delivery := .initial
  outbox := ∅
  auditLog := []
  requests := ∅
  subjects := []

variable (idText : Id → JsString) (jsonb : JsonData → JsonData) (sha256 : List Char → JsString)
  (D : Dispatcher)

/-- A row of the outbox is created. -/
def enqueue (request : Option Request) (context : Option RequestContextData) (now : JsDate)
    (σ : AuditedSystem) (row : NewOutboxRow) (event : DomainEvent) : Option AuditedSystem :=
  (DeliverySystem.next D σ.delivery (.enqueue row.id event now)).map fun delivery =>
    { σ with
      delivery
      outbox := σ.outbox.insert row.id
        (OutboxService.enqueueRow idText jsonb context row.randomId event row.changes)
      requests :=
        match request with
        | some request => σ.requests.insert row.id (request, context)
        | none => σ.requests }

/-- `createMany` -/
def enqueueAll (request : Request) (context : Option RequestContextData) (now : JsDate) :
    AuditedSystem → List (NewOutboxRow × DomainEvent) → Option AuditedSystem
  | σ, [] => some σ
  | σ, (row, event) :: rows =>
    (σ.enqueue idText jsonb D (some request) context now row event).bind fun σ =>
      enqueueAll request context now σ rows

/-- The transaction of a call of the subscriber commits. -/
def recordEntry (σ : AuditedSystem) (id : Id) (recording : Recording) : Option AuditedSystem :=
  (σ.outbox.lookup id).map fun row =>
    { σ with
      auditLog := record sha256 jsonb σ.auditLog
        ⟨AuditSubscriber.handle idText row, recording.now, recording.id, recording.pick⟩
      subjects := σ.subjects ++ [id] }

/-- What becomes of the log in a step of the delivery. -/
def settleCall (σ : AuditedSystem) : Option (Id × Bool) → Option Recording → Option AuditedSystem
  | none, none => some σ
  | some (id, _), some recording => σ.recordEntry idText jsonb sha256 id recording
  | some (_, false), none => some σ
  | _, _ => none

/-- One step. -/
def next (σ : AuditedSystem) : AuditedLabel → Option AuditedSystem
  | .command request context rows now =>
    (RatelPlatform.next σ.store request).bind fun store =>
      let events := σ.store.newEvents store
      if rows.length = events.length then
        enqueueAll idText jsonb D request context now { σ with store } (rows.zip events)
      else none
  | .publish event context row now => σ.enqueue idText jsonb D none context now row event
  | .delivery (.enqueue ..) _ => none
  | .delivery label recording =>
    (DeliverySystem.next D σ.delivery label).bind fun delivery =>
      ({ σ with delivery } : AuditedSystem).settleCall idText jsonb sha256
        (σ.delivery.auditCall D label) recording

end AuditedSystem

end RatelPlatform
