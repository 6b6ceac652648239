import Mathlib.Logic.Function.Basic
import RatelPlatform.Reach
import RatelPlatform.SharedKernel
import RatelPlatform.Table

/-!
# Event delivery

Three kinds of actor share the outbox, the table of failed deliveries and one
queue, without a common lock: pollers hand pending events to their subscribers
and record who failed, workers run the redelivery jobs, and operators requeue
deliveries that were given up.

A step of the system is one step of one actor between two awaits: one database
call, one queue call, or one subscriber settling. Commands that append to the
outbox, calls that fail and processes that die are labels of their own; a call
that fails may have taken effect. A worker may die at any point, or lose its job
to another one and go on. What a subscriber has completed stands in `completed`,
which nothing reads.

A failed delivery is known by its event and its subscriber. The table is unique
in that pair and never loses a row, so the pair stands for the generated id that
names the row and its job.
-/

namespace RatelPlatform

/-! ## Subscribers -/

/-- `RegisteredSubscriber`; the handler is a function, known here by a number. -/
structure RegisteredSubscriber where
  name : String
  handler : ℕ
  deriving DecidableEq

/-- The registrations of a `DomainEventDispatcher`. -/
structure Dispatcher where
  handlers : Table String (List RegisteredSubscriber)
  globalSubscribers : List RegisteredSubscriber

/-- `subscribersFor` -/
def Dispatcher.subscribersFor (D : Dispatcher) (type : String) : List RegisteredSubscriber :=
  (D.handlers.lookup type).getD [] ++ D.globalSubscribers

/-- How a call of a handler ended. -/
inductive Settled
  | fulfilled
  /-- with the message of the error -/
  | rejected (error : String)
  deriving DecidableEq

/-- `SubscriberFailure` -/
structure SubscriberFailure where
  subscriberName : String
  error : String
  deriving DecidableEq

/-- The calls of one `dispatch`, those still running without an outcome. -/
abbrev Results := List (RegisteredSubscriber × Option Settled)

/-- The failures `dispatch` returns, in the order of registration. -/
def Results.failures (results : Results) : List SubscriberFailure :=
  results.filterMap fun r =>
    match r.2 with
    | some (.rejected error) => some ⟨r.1.name, error⟩
    | _ => none

/-- The message of `UnknownSubscriberError`. -/
def unknownSubscriber (subscriberName eventType : String) : String :=
  "No subscriber named \"" ++ subscriberName ++ "\" is registered for event type \"" ++ eventType ++
    "\" — it may have been renamed or removed since this delivery failure was recorded."

/-! ## Rows and jobs -/

/-- What has become of an event; nothing writes `failed`. -/
inductive OutboxStatus
  | pending
  | dispatched
  | failed
  deriving DecidableEq

/-- A row of `outbox_events`. -/
structure OutboxEvent where
  event : DomainEvent
  status : OutboxStatus
  createdAt : JsDate
  dispatchedAt : Option JsDate

/-- What has become of a delivery that failed. -/
inductive EventDeliveryStatus
  | pendingRetry
  | recovered
  | permanentlyFailed
  deriving DecidableEq

/-- A string found in a payload: an id, or any other text. -/
inductive PayloadText
  | id (value : Id)
  | text (value : String)
  deriving DecidableEq

/-- `organizationIdFromPayload` -/
def organizationIdFromPayload (payload : List (String × PayloadValue)) : PayloadText :=
  match payload.lookup "organizationId" with
  | some (.id value) => .id value
  | some (.text value) => if 0 < value.length then .text value else .text "unknown"
  | _ => .text "unknown"

/-- The event and the subscriber a failed delivery is about. -/
abbrev DeliveryKey := Id × String

/-- A row of `failed_event_deliveries`. -/
structure FailedEventDelivery where
  eventType : String
  attempts : ℕ
  lastError : String
  status : EventDeliveryStatus
  organizationId : PayloadText

/-- Where the job of a failed delivery stands. -/
inductive RedeliveryPhase
  /-- in the queue, also between two attempts -/
  | waiting
  /-- about to read the failed delivery -/
  | started
  /-- about to read the outbox event -/
  | located
  /-- about to call the subscriber -/
  | delivering (event : DomainEvent)
  /-- the subscriber succeeded: about to mark the delivery recovered -/
  | recovering
  /-- the event is gone: about to mark the delivery permanently failed -/
  | abandoning (reason : String)
  /-- a call has failed: about to record the attempt -/
  | failing (error : String)
  /-- the attempt has failed: about to go back to the queue -/
  | retrying
  /-- nothing left to write: about to leave the queue -/
  | finished

/-- A worker has the job. -/
def RedeliveryPhase.isActive : RedeliveryPhase → Bool
  | .waiting => false
  | _ => true

/-- The processor is not done with the job. -/
def RedeliveryPhase.isProcessing : RedeliveryPhase → Bool
  | .waiting | .retrying | .finished => false
  | _ => true

/-- A live job of the redelivery queue. -/
structure Job where
  attemptsMade : ℕ
  phase : RedeliveryPhase

/-- `EVENT_REDELIVERY_JOB_OPTIONS.attempts` -/
def redeliveryAttempts : ℕ := 5

/-! ## Tables of failed deliveries -/

abbrev Deliveries := Table DeliveryKey FailedEventDelivery

namespace Deliveries

/-- One round of `recordFailures`: an upsert on the pair. -/
def upsert (t : Deliveries) (key : DeliveryKey) (eventType error : String)
    (organizationId : PayloadText) : Deliveries :=
  match t.lookup key with
  | some row =>
    t.insert key { row with
      status := .pendingRetry
      attempts := row.attempts + 1
      lastError := error
      organizationId := organizationId }
  | none =>
    t.insert key
      { eventType := eventType
        attempts := 1
        lastError := error
        status := .pendingRetry
        organizationId := organizationId }

/-- `markRecovered` -/
def markRecovered (t : Deliveries) (key : DeliveryKey) : Deliveries :=
  t.update key fun row => { row with status := .recovered, attempts := row.attempts + 1 }

/-- `markPermanentlyFailed` -/
def markPermanentlyFailed (t : Deliveries) (key : DeliveryKey) (error : String)
    (countsAsAttempt : Bool) : Deliveries :=
  t.update key fun row => { row with
    status := .permanentlyFailed
    lastError := error
    attempts := if countsAsAttempt then row.attempts + 1 else row.attempts }

/-- `recordAttempt` -/
def recordAttempt (t : Deliveries) (key : DeliveryKey) (error : String) : Deliveries :=
  t.update key fun row => { row with attempts := row.attempts + 1, lastError := error }

end Deliveries

/-! ## The actors -/

/-- Where a poller stands in `dispatchPendingBatch`; `rows` is the rest of its batch. -/
inductive Poller
  | idle
  /-- at the head of the loop over the batch -/
  | looping (rows : List (Id × OutboxEvent))
  /-- waiting for the subscribers to settle -/
  | dispatching (id : Id) (event : DomainEvent) (results : Results)
      (rows : List (Id × OutboxEvent))
  /-- about to mark the row dispatched -/
  | marking (id : Id) (event : DomainEvent) (results : Results) (rows : List (Id × OutboxEvent))
  /-- in `recordFailures`, with the rows recorded so far -/
  | recording (id : Id) (event : DomainEvent) (failures : List SubscriberFailure)
      (recorded : List DeliveryKey) (rows : List (Id × OutboxEvent))
  /-- enqueueing the retries of the recorded rows -/
  | scheduling (recorded : List DeliveryKey) (rows : List (Id × OutboxEvent))

/-- What can happen to a poller. -/
inductive PollerAction
  /-- it starts a batch, and the database answers with these rows -/
  | poll (ids : List Id)
  /-- the handler of one subscriber settles -/
  | settle (i : ℕ) (result : Settled)
  /-- its next call succeeds -/
  | proceed (now : JsDate)
  /-- its next call fails -/
  | fail
  /-- its next call takes effect, and fails all the same -/
  | lose (now : JsDate)
  /-- its process dies -/
  | crash

/-- The next call is made, whatever becomes of its answer. -/
def PollerAction.takesEffect : PollerAction → Bool
  | proceed _ | lose _ => true
  | _ => false

/-- How a call of a worker ends. -/
inductive CallResult
  | fulfilled
  /-- it fails -/
  | rejected (error : String)
  /-- it takes effect, and fails all the same -/
  | lost (error : String)
  deriving DecidableEq

def CallResult.takesEffect : CallResult → Bool
  | rejected _ => false
  | _ => true

/-- What the call throws. -/
def CallResult.error : CallResult → Option String
  | fulfilled => none
  | rejected error => some error
  | lost error => some error

/-- Where an operator's retry request stands. -/
inductive Operator
  | idle
  /-- about to enqueue the job -/
  | enqueuing (key : DeliveryKey)
  /-- about to write the status -/
  | writing (key : DeliveryKey)
  deriving DecidableEq

/-- What can happen to an operator. -/
inductive OperatorAction
  /-- a request for a delivery of an organization -/
  | request (key : DeliveryKey) (organizationId : PayloadText)
  /-- the next call of the request succeeds -/
  | proceed
  /-- the next call of the request fails -/
  | fail
  /-- the next call of the request takes effect, and fails all the same -/
  | lose

/-- The delivery system. -/
structure DeliverySystem where
  outboxEvents : Table Id OutboxEvent
  deliveries : Deliveries
  /-- which handler has completed on which event -/
  completed : List (Id × RegisteredSubscriber)
  jobs : Table DeliveryKey Job
  /-- the jobs that the queue has taken from their workers, as these left them -/
  stalled : List (DeliveryKey × Job)
  pollers : ℕ → Poller
  operators : ℕ → Operator

namespace DeliverySystem

/-- Nothing published, nobody at work. -/
def initial : DeliverySystem where
  outboxEvents := ∅
  deliveries := ∅
  completed := []
  jobs := ∅
  stalled := []
  pollers := fun _ => .idle
  operators := fun _ => .idle

/-- `queue.add` under the job id of a delivery: nothing happens while there is a job. -/
def addJob (σ : DeliverySystem) (key : DeliveryKey) : DeliverySystem :=
  match σ.jobs.lookup key with
  | some _ => σ
  | none => { σ with jobs := σ.jobs.insert key ⟨0, .waiting⟩ }

/-! ### Pollers -/

/-- `batchSize` -/
def batchSize : ℕ := 100

/-- A pending row. -/
def IsPending (σ : DeliverySystem) (id : Id) : Prop :=
  (σ.outboxEvents.lookup id).map (·.status) = some .pending

instance (σ : DeliverySystem) (id : Id) : Decidable (σ.IsPending id) :=
  inferInstanceAs (Decidable (_ = _))

/-- The creation time of a row, in milliseconds. -/
def createdAt (σ : DeliverySystem) (id : Id) : ℤ :=
  ((σ.outboxEvents.lookup id).map (·.createdAt.ms)).getD 0

/-- What the database may return for the oldest `batchSize` pending rows. -/
def IsPendingBatch (σ : DeliverySystem) (ids : List Id) : Prop :=
  ids.Nodup ∧ (∀ id ∈ ids, σ.IsPending id) ∧
    ids.Pairwise (fun a b => σ.createdAt a ≤ σ.createdAt b) ∧ ids.length ≤ batchSize ∧
    ∀ id ∈ σ.outboxEvents.keys, σ.IsPending id → id ∉ ids →
      ids.length = batchSize ∧ ∀ a ∈ ids, σ.createdAt a ≤ σ.createdAt id

instance (σ : DeliverySystem) (ids : List Id) : Decidable (σ.IsPendingBatch ids) :=
  inferInstanceAs (Decidable (_ ∧ _))

/-- The rows of a batch, as the poller holds them. -/
def rowsOf (σ : DeliverySystem) (ids : List Id) : List (Id × OutboxEvent) :=
  ids.filterMap fun id => (σ.outboxEvents.lookup id).map (id, ·)

/-- `updateMany … where: { id, status: 'pending' }` -/
def markDispatched (σ : DeliverySystem) (id : Id) (now : JsDate) : DeliverySystem :=
  { σ with
    outboxEvents := σ.outboxEvents.update id fun row =>
      if row.status = .pending then { row with status := .dispatched, dispatchedAt := some now }
      else row }

/-- One round of `recordFailures`. -/
def recordFailure (σ : DeliverySystem) (id : Id) (event : DomainEvent)
    (failure : SubscriberFailure) : DeliverySystem :=
  { σ with
    deliveries := σ.deliveries.upsert (id, failure.subscriberName) event.type failure.error
      (organizationIdFromPayload event.payload) }

variable (D : Dispatcher)

/-- The next step of a poller: the system it leaves, and where it then stands. -/
def pollerStep (σ : DeliverySystem) : Poller → PollerAction → Option (DeliverySystem × Poller)
  | .idle, .poll ids => if σ.IsPendingBatch ids then some (σ, .looping (σ.rowsOf ids)) else none
  | .looping [], .proceed _ => some (σ, .idle)
  | .looping ((id, row) :: rows), .proceed _ =>
    some (σ, .dispatching id row.event ((D.subscribersFor row.event.type).map (·, none)) rows)
  | .dispatching id event results rows, .settle i result =>
    match results[i]? with
    | some (s, none) =>
      some
        ({ σ with
            completed := if result = .fulfilled then σ.completed ++ [(id, s)] else σ.completed },
          .dispatching id event (results.set i (s, some result)) rows)
    | _ => none
  | .dispatching id event results rows, .proceed _ =>
    if results.all (·.2.isSome) then some (σ, .marking id event results rows) else none
  | .marking id event results rows, .proceed now =>
    some (σ.markDispatched id now,
      if results.failures = [] then .looping rows
      else .recording id event results.failures [] rows)
  | .recording id event (failure :: failures) recorded rows, .proceed _ =>
    some (σ.recordFailure id event failure,
      .recording id event failures (recorded ++ [(id, failure.subscriberName)]) rows)
  | .recording _ _ [] recorded rows, .proceed _ => some (σ, .scheduling recorded rows)
  | .scheduling (key :: recorded) rows, .proceed _ => some (σ.addJob key, .scheduling recorded rows)
  | .scheduling [] rows, .proceed _ => some (σ, .looping rows)
  -- the loop over the batch catches what marking and recording throw
  | .marking _ _ _ rows, .fail => some (σ, .looping rows)
  | .recording _ _ _ _ rows, .fail => some (σ, .looping rows)
  -- a failed enqueue is caught for each recorded row
  | .scheduling (_ :: recorded) rows, .fail => some (σ, .scheduling recorded rows)
  | .marking id _ _ rows, .lose now => some (σ.markDispatched id now, .looping rows)
  | .recording id event (failure :: _) _ rows, .lose _ =>
    some (σ.recordFailure id event failure, .looping rows)
  | .scheduling (key :: recorded) rows, .lose _ => some (σ.addJob key, .scheduling recorded rows)
  | .idle, _ => none
  | _, .crash => some (σ, .idle)
  | _, _ => none

/-! ### Workers -/

/-- What a step of a job leaves: the tables it wrote, and the job if it lives on. -/
structure Redelivered where
  deliveries : Deliveries
  completed : List (Id × RegisteredSubscriber)
  job : Option Job

/-- The next step of the job of a delivery: `EventRedeliveryProcessor.process` around
`EventRedeliveryService.redeliver`. The call that the step waits for, of the database or of the
subscriber, ends in `result`. -/
def jobStep (σ : DeliverySystem) (key : DeliveryKey) (job : Job) (result : CallResult) :
    Redelivered :=
  let writing : Deliveries → RedeliveryPhase → Redelivered := fun deliveries phase =>
    ⟨deliveries, σ.completed, some { job with phase := phase }⟩
  let still := writing σ.deliveries
  match job.phase, result with
  | .waiting, _ => still .started
  | .started, .fulfilled =>
    match σ.deliveries.lookup key with
    | none => still .finished
    | some row => if row.status = .recovered then still .finished else still .located
  | .located, .fulfilled =>
    match σ.outboxEvents.lookup key.1 with
    | none => still (.abandoning
        ("outbox event " ++ toString key.1 ++ " no longer exists — payload unrecoverable"))
    | some row => still (.delivering row.event)
  | .delivering event, result =>
    match (D.subscribersFor event.type).find? (·.name = key.2) with
    | none => still (.failing (unknownSubscriber key.2 event.type))
    | some s =>
      match result with
      | .fulfilled =>
        ⟨σ.deliveries, σ.completed ++ [(key.1, s)], some { job with phase := .recovering }⟩
      | .rejected error => still (.failing error)
      | .lost error => still (.failing error)
  | .recovering, .fulfilled => writing (σ.deliveries.markRecovered key) .finished
  | .recovering, .lost error => writing (σ.deliveries.markRecovered key) (.failing error)
  | .abandoning reason, .fulfilled =>
    writing (σ.deliveries.markPermanentlyFailed key reason false) .finished
  | .abandoning reason, .lost error =>
    writing (σ.deliveries.markPermanentlyFailed key reason false) (.failing error)
  -- the catch of the processor; what its own write throws ends the attempt as well
  | .failing error, result =>
    if redeliveryAttempts ≤ job.attemptsMade + 1 then
      if result.takesEffect then
        writing (σ.deliveries.markPermanentlyFailed key error true) .finished
      else still .finished
    else if result.takesEffect then writing (σ.deliveries.recordAttempt key error) .retrying
    else still .retrying
  | .retrying, _ => ⟨σ.deliveries, σ.completed, some ⟨job.attemptsMade + 1, .waiting⟩⟩
  -- `removeOnComplete` and `removeOnFail`
  | .finished, _ => ⟨σ.deliveries, σ.completed, none⟩
  -- any other call that fails is caught by the processor
  | _, .rejected error => still (.failing error)
  | _, .lost error => still (.failing error)

/-- A job takes its next step. -/
def workerStep (σ : DeliverySystem) (key : DeliveryKey) (result : CallResult) :
    Option DeliverySystem :=
  (σ.jobs.lookup key).map fun job =>
    let after := jobStep D σ key job result
    { σ with
      deliveries := after.deliveries
      completed := after.completed
      jobs := match after.job with
        | some job => σ.jobs.insert key job
        | none => σ.jobs.erase key }

/-- The lock of an active job runs out. The queue lets the job wait `again`, or fails it when
this has happened too often, which removes it. -/
def stallStep (σ : DeliverySystem) (key : DeliveryKey) (again : Bool) : Option DeliverySystem :=
  (σ.jobs.lookup key).bind fun job =>
    if job.phase.isActive then
      some { σ with
        jobs := if again then σ.jobs.insert key ⟨job.attemptsMade, .waiting⟩ else σ.jobs.erase key
        stalled := σ.stalled ++ [(key, job)] }
    else none

/-- A worker goes on that has lost its job. The queue takes no notice of it any more. -/
def stragglerStep (σ : DeliverySystem) (i : ℕ) (result : CallResult) : Option DeliverySystem :=
  σ.stalled[i]?.bind fun (key, job) =>
    let after := jobStep D σ key job result
    if job.phase.isProcessing then
      some { σ with
        deliveries := after.deliveries
        completed := after.completed
        stalled := σ.stalled.set i (key, after.job.getD job) }
    else none

/-! ### Operators -/

/-- Why a retry request is refused. -/
inductive RetryError
  | entityNotFound (key : DeliveryKey)
  | eventDeliveryNotRetryable (status : EventDeliveryStatus)
  deriving DecidableEq

/-- The checks of `RetryEventDeliveryHandler.execute`. -/
def checkRetry (σ : DeliverySystem) (key : DeliveryKey) (organizationId : PayloadText) :
    Except RetryError Unit :=
  match σ.deliveries.lookup key with
  | none => .error (.entityNotFound key)
  | some row =>
    if row.organizationId ≠ organizationId then .error (.entityNotFound key)
    else if row.status ≠ .permanentlyFailed then .error (.eventDeliveryNotRetryable row.status)
    else .ok ()

/-- The update of `RetryEventDeliveryHandler.execute`. -/
def setPendingRetry (σ : DeliverySystem) (key : DeliveryKey) : DeliverySystem :=
  { σ with
    deliveries := σ.deliveries.update key fun row => { row with status := .pendingRetry } }

/-- The next step of an operator's request. A refused request changes nothing. -/
def operatorStep (σ : DeliverySystem) : Operator → OperatorAction → Option (DeliverySystem × Operator)
  | .idle, .request key organizationId =>
    match σ.checkRetry key organizationId with
    | .ok _ => some (σ, .enqueuing key)
    | .error _ => some (σ, .idle)
  | .enqueuing key, .proceed => some (σ.addJob key, .writing key)
  | .writing key, .proceed => some (σ.setPendingRetry key, .idle)
  | .enqueuing _, .fail => some (σ, .idle)
  | .writing _, .fail => some (σ, .idle)
  | .enqueuing key, .lose => some (σ.addJob key, .idle)
  | .writing key, .lose => some (σ.setPendingRetry key, .idle)
  | _, _ => none

/-! ### The system -/

/-- A step of the system. -/
inductive Label
  /-- a command commits an event -/
  | enqueue (id : Id) (event : DomainEvent) (now : JsDate)
  | poller (i : ℕ) (action : PollerAction)
  | worker (key : DeliveryKey) (result : CallResult)
  /-- a worker dies with its job, or is too slow to renew the lock -/
  | stall (key : DeliveryKey) (again : Bool)
  /-- a worker that was too slow goes on -/
  | straggler (i : ℕ) (result : CallResult)
  | operator (i : ℕ) (action : OperatorAction)

/-- One step of the delivery system. -/
def next (σ : DeliverySystem) : Label → Option DeliverySystem
  | .enqueue id event now =>
    match σ.outboxEvents.lookup id with
    | some _ => none
    | none => some { σ with outboxEvents := σ.outboxEvents.insert id ⟨event, .pending, now, none⟩ }
  | .poller i action =>
    (pollerStep D σ (σ.pollers i) action).map fun (τ, poller) =>
      { τ with pollers := Function.update σ.pollers i poller }
  | .worker key result => workerStep D σ key result
  | .stall key again => stallStep σ key again
  | .straggler i result => stragglerStep D σ i result
  | .operator i action =>
    (operatorStep σ (σ.operators i) action).map fun (τ, operator) =>
      { τ with operators := Function.update σ.operators i operator }

/-! ### What a step can do -/

/-- The steps of a poller, by name. -/
inductive PollerStep (σ : DeliverySystem) :
    Poller → PollerAction → DeliverySystem → Poller → Prop
  | poll {ids : List Id} :
    σ.IsPendingBatch ids → PollerStep σ .idle (.poll ids) σ (.looping (σ.rowsOf ids))
  | finish {now : JsDate} : PollerStep σ (.looping []) (.proceed now) σ .idle
  | take {id : Id} {row : OutboxEvent} {rows : List (Id × OutboxEvent)} {now : JsDate} :
    PollerStep σ (.looping ((id, row) :: rows)) (.proceed now) σ
      (.dispatching id row.event ((D.subscribersFor row.event.type).map (·, none)) rows)
  | settle {id : Id} {event : DomainEvent} {results : Results} {rows : List (Id × OutboxEvent)}
      {i : ℕ} {s : RegisteredSubscriber} {result : Settled} :
    results[i]? = some (s, none) →
    PollerStep σ (.dispatching id event results rows) (.settle i result)
      { σ with completed := if result = .fulfilled then σ.completed ++ [(id, s)] else σ.completed }
      (.dispatching id event (results.set i (s, some result)) rows)
  | settled {id : Id} {event : DomainEvent} {results : Results} {rows : List (Id × OutboxEvent)}
      {now : JsDate} :
    results.all (·.2.isSome) →
    PollerStep σ (.dispatching id event results rows) (.proceed now) σ
      (.marking id event results rows)
  | mark {id : Id} {event : DomainEvent} {results : Results} {rows : List (Id × OutboxEvent)}
      {now : JsDate} :
    PollerStep σ (.marking id event results rows) (.proceed now) (σ.markDispatched id now)
      (if results.failures = [] then .looping rows
        else .recording id event results.failures [] rows)
  | record {id : Id} {event : DomainEvent} {failure : SubscriberFailure}
      {failures : List SubscriberFailure} {recorded : List DeliveryKey}
      {rows : List (Id × OutboxEvent)} {now : JsDate} :
    PollerStep σ (.recording id event (failure :: failures) recorded rows) (.proceed now)
      (σ.recordFailure id event failure)
      (.recording id event failures (recorded ++ [(id, failure.subscriberName)]) rows)
  | recorded {id : Id} {event : DomainEvent} {recorded : List DeliveryKey}
      {rows : List (Id × OutboxEvent)} {now : JsDate} :
    PollerStep σ (.recording id event [] recorded rows) (.proceed now) σ
      (.scheduling recorded rows)
  | add {key : DeliveryKey} {recorded : List DeliveryKey} {rows : List (Id × OutboxEvent)}
      {now : JsDate} :
    PollerStep σ (.scheduling (key :: recorded) rows) (.proceed now) (σ.addJob key)
      (.scheduling recorded rows)
  | scheduled {rows : List (Id × OutboxEvent)} {now : JsDate} :
    PollerStep σ (.scheduling [] rows) (.proceed now) σ (.looping rows)
  | markFails {id : Id} {event : DomainEvent} {results : Results}
      {rows : List (Id × OutboxEvent)} :
    PollerStep σ (.marking id event results rows) .fail σ (.looping rows)
  | recordFails {id : Id} {event : DomainEvent} {failures : List SubscriberFailure}
      {recorded : List DeliveryKey} {rows : List (Id × OutboxEvent)} :
    PollerStep σ (.recording id event failures recorded rows) .fail σ (.looping rows)
  | addFails {key : DeliveryKey} {recorded : List DeliveryKey} {rows : List (Id × OutboxEvent)} :
    PollerStep σ (.scheduling (key :: recorded) rows) .fail σ (.scheduling recorded rows)
  | markLost {id : Id} {event : DomainEvent} {results : Results}
      {rows : List (Id × OutboxEvent)} {now : JsDate} :
    PollerStep σ (.marking id event results rows) (.lose now) (σ.markDispatched id now)
      (.looping rows)
  | recordLost {id : Id} {event : DomainEvent} {failure : SubscriberFailure}
      {failures : List SubscriberFailure} {recorded : List DeliveryKey}
      {rows : List (Id × OutboxEvent)} {now : JsDate} :
    PollerStep σ (.recording id event (failure :: failures) recorded rows) (.lose now)
      (σ.recordFailure id event failure) (.looping rows)
  | addLost {key : DeliveryKey} {recorded : List DeliveryKey} {rows : List (Id × OutboxEvent)}
      {now : JsDate} :
    PollerStep σ (.scheduling (key :: recorded) rows) (.lose now) (σ.addJob key)
      (.scheduling recorded rows)
  | crash {poller : Poller} : PollerStep σ poller .crash σ .idle

/-- The steps of an operator, by name. -/
inductive OperatorStep (σ : DeliverySystem) :
    Operator → OperatorAction → DeliverySystem → Operator → Prop
  | request {key : DeliveryKey} {organizationId : PayloadText} {operator : Operator} :
    OperatorStep σ .idle (.request key organizationId) σ operator
  | add {key : DeliveryKey} :
    OperatorStep σ (.enqueuing key) .proceed (σ.addJob key) (.writing key)
  | write {key : DeliveryKey} :
    OperatorStep σ (.writing key) .proceed (σ.setPendingRetry key) .idle
  | fail {operator : Operator} : OperatorStep σ operator .fail σ .idle
  | addLost {key : DeliveryKey} : OperatorStep σ (.enqueuing key) .lose (σ.addJob key) .idle
  | writeLost {key : DeliveryKey} :
    OperatorStep σ (.writing key) .lose (σ.setPendingRetry key) .idle

/-- The steps of a job, by name. -/
inductive JobStep (σ : DeliverySystem) (key : DeliveryKey) (job : Job) :
    RedeliveryPhase → CallResult → Redelivered → Prop
  | start {result : CallResult} : JobStep σ key job .waiting result
      ⟨σ.deliveries, σ.completed, some { job with phase := .started }⟩
  | skip : (∀ row, σ.deliveries.lookup key = some row → row.status = .recovered) →
    JobStep σ key job .started .fulfilled
      ⟨σ.deliveries, σ.completed, some { job with phase := .finished }⟩
  | locate {row : FailedEventDelivery} :
    σ.deliveries.lookup key = some row → row.status ≠ .recovered →
    JobStep σ key job .started .fulfilled
      ⟨σ.deliveries, σ.completed, some { job with phase := .located }⟩
  | miss {reason : String} : σ.outboxEvents.lookup key.1 = none →
    JobStep σ key job .located .fulfilled
      ⟨σ.deliveries, σ.completed, some { job with phase := .abandoning reason }⟩
  | read {row : OutboxEvent} : σ.outboxEvents.lookup key.1 = some row →
    JobStep σ key job .located .fulfilled
      ⟨σ.deliveries, σ.completed, some { job with phase := .delivering row.event }⟩
  | unknown {event : DomainEvent} {result : CallResult} :
    (D.subscribersFor event.type).find? (·.name = key.2) = none →
    JobStep σ key job (.delivering event) result
      ⟨σ.deliveries, σ.completed,
        some { job with phase := .failing (unknownSubscriber key.2 event.type) }⟩
  | deliver {event : DomainEvent} {s : RegisteredSubscriber} :
    (D.subscribersFor event.type).find? (·.name = key.2) = some s →
    JobStep σ key job (.delivering event) .fulfilled
      ⟨σ.deliveries, σ.completed ++ [(key.1, s)], some { job with phase := .recovering }⟩
  | recover : JobStep σ key job .recovering .fulfilled
      ⟨σ.deliveries.markRecovered key, σ.completed, some { job with phase := .finished }⟩
  | abandon {reason : String} : JobStep σ key job (.abandoning reason) .fulfilled
      ⟨σ.deliveries.markPermanentlyFailed key reason false, σ.completed,
        some { job with phase := .finished }⟩
  | recoverLost {error : String} : JobStep σ key job .recovering (.lost error)
      ⟨σ.deliveries.markRecovered key, σ.completed, some { job with phase := .failing error }⟩
  | abandonLost {reason error : String} : JobStep σ key job (.abandoning reason) (.lost error)
      ⟨σ.deliveries.markPermanentlyFailed key reason false, σ.completed,
        some { job with phase := .failing error }⟩
  | throw {phase : RedeliveryPhase} {result : CallResult} {error : String} :
    result.error = some error → phase.isProcessing → (∀ error', phase ≠ .failing error') →
    (result.takesEffect → phase ≠ .recovering ∧ ∀ reason, phase ≠ .abandoning reason) →
    JobStep σ key job phase result
      ⟨σ.deliveries, σ.completed, some { job with phase := .failing error }⟩
  | giveUp {error : String} {result : CallResult} : redeliveryAttempts ≤ job.attemptsMade + 1 →
    result.takesEffect →
    JobStep σ key job (.failing error) result
      ⟨σ.deliveries.markPermanentlyFailed key error true, σ.completed,
        some { job with phase := .finished }⟩
  | giveUpFails {error error' : String} : redeliveryAttempts ≤ job.attemptsMade + 1 →
    JobStep σ key job (.failing error) (.rejected error')
      ⟨σ.deliveries, σ.completed, some { job with phase := .finished }⟩
  | record {error : String} {result : CallResult} : ¬ redeliveryAttempts ≤ job.attemptsMade + 1 →
    result.takesEffect →
    JobStep σ key job (.failing error) result
      ⟨σ.deliveries.recordAttempt key error, σ.completed, some { job with phase := .retrying }⟩
  | recordFails {error error' : String} : ¬ redeliveryAttempts ≤ job.attemptsMade + 1 →
    JobStep σ key job (.failing error) (.rejected error')
      ⟨σ.deliveries, σ.completed, some { job with phase := .retrying }⟩
  | retry {result : CallResult} : JobStep σ key job .retrying result
      ⟨σ.deliveries, σ.completed, some ⟨job.attemptsMade + 1, .waiting⟩⟩
  | leave {result : CallResult} :
    JobStep σ key job .finished result ⟨σ.deliveries, σ.completed, none⟩

variable {D}

/-- A job takes no other steps. -/
theorem jobStep_cases {σ : DeliverySystem} {key : DeliveryKey} {job : Job} {result : CallResult}
    {after : Redelivered} (h : jobStep D σ key job result = after) :
    JobStep D σ key job job.phase result after := by
  subst h
  obtain ⟨attemptsMade, phase⟩ := job
  cases phase with
  | waiting => exact .start
  | started =>
    cases result with
    | fulfilled =>
      simp only [jobStep]
      split
      · next hnone => exact .skip (by simp [hnone])
      · next row hrow =>
        split_ifs with hrecovered
        · exact .skip (by simp [hrow, hrecovered])
        · exact .locate hrow hrecovered
    | rejected error => exact .throw rfl rfl (by simp) (by simp)
    | lost error => exact .throw rfl rfl (by simp) (by simp)
  | located =>
    cases result with
    | fulfilled =>
      simp only [jobStep]
      split
      · next hnone => exact .miss hnone
      · next row hrow => exact .read hrow
    | rejected error => exact .throw rfl rfl (by simp) (by simp)
    | lost error => exact .throw rfl rfl (by simp) (by simp)
  | delivering event =>
    simp only [jobStep]
    split
    · next hnone => exact .unknown hnone
    · next s hs =>
      cases result with
      | fulfilled => exact .deliver hs
      | rejected error => exact .throw rfl rfl (by simp) (by simp)
      | lost error => exact .throw rfl rfl (by simp) (by simp)
  | recovering =>
    cases result with
    | fulfilled => exact .recover
    | rejected error => exact .throw rfl rfl (by simp) (by simp [CallResult.takesEffect])
    | lost error => exact .recoverLost
  | abandoning reason =>
    cases result with
    | fulfilled => exact .abandon
    | rejected error => exact .throw rfl rfl (by simp) (by simp [CallResult.takesEffect])
    | lost error => exact .abandonLost
  | failing error =>
    simp only [jobStep]
    cases result with
    | rejected error' =>
      split_ifs with hlast heffect
      · cases heffect
      · exact .giveUpFails hlast
      · cases ‹_›
      · exact .recordFails hlast
    | fulfilled | lost error' =>
      split_ifs with hlast heffect
      · exact .giveUp hlast rfl
      · exact absurd rfl heffect
      · exact .record hlast rfl
      · next hno => exact absurd rfl hno
  | retrying => exact .retry
  | finished => exact .leave

/-- A poller takes no other steps. -/
theorem pollerStep_cases {σ τ : DeliverySystem} {poller poller' : Poller} {action : PollerAction}
    (h : pollerStep D σ poller action = some (τ, poller')) :
    PollerStep D σ poller action τ poller' := by
  simp only [pollerStep] at h
  split at h
  · split_ifs at h with hids
    cases h
    exact .poll hids
  · cases h
    exact .finish
  · cases h
    exact .take
  · split at h
    · rename_i s hi
      cases h
      exact .settle hi
    · cases h
  · split_ifs at h with hall
    cases h
    exact .settled hall
  · cases h
    exact .mark
  · cases h
    exact .record
  · cases h
    exact .recorded
  · cases h
    exact .add
  · cases h
    exact .scheduled
  · cases h
    exact .markFails
  · cases h
    exact .recordFails
  · cases h
    exact .addFails
  · cases h
    exact .markLost
  · cases h
    exact .recordLost
  · cases h
    exact .addLost
  · cases h
  · cases h
    exact .crash
  · cases h

/-- An operator takes no other steps. -/
theorem operatorStep_cases {σ τ : DeliverySystem} {operator operator' : Operator}
    {action : OperatorAction} (h : operatorStep σ operator action = some (τ, operator')) :
    OperatorStep σ operator action τ operator' := by
  simp only [operatorStep] at h
  split at h
  · split at h
    · cases h
      exact .request
    · cases h
      exact .request
  · cases h
    exact .add
  · cases h
    exact .write
  · cases h
    exact .fail
  · cases h
    exact .fail
  · cases h
    exact .addLost
  · cases h
    exact .writeLost
  · cases h

/-- The steps of the system, each through the step of its actor. -/
theorem next_cases {σ τ : DeliverySystem} {l : Label} (h : next D σ l = some τ) :
    (∃ id event now, l = .enqueue id event now ∧ σ.outboxEvents.lookup id = none ∧
      τ = { σ with outboxEvents := σ.outboxEvents.insert id ⟨event, .pending, now, none⟩ }) ∨
    (∃ i action ρ poller, l = .poller i action ∧
      PollerStep D σ (σ.pollers i) action ρ poller ∧
      τ = { ρ with pollers := Function.update σ.pollers i poller }) ∨
    (∃ key result job, l = .worker key result ∧ σ.jobs.lookup key = some job ∧
      τ = { σ with
        deliveries := (jobStep D σ key job result).deliveries
        completed := (jobStep D σ key job result).completed
        jobs := match (jobStep D σ key job result).job with
          | some job => σ.jobs.insert key job
          | none => σ.jobs.erase key }) ∨
    (∃ key again job, l = .stall key again ∧ σ.jobs.lookup key = some job ∧ job.phase.isActive ∧
      τ = { σ with
        jobs := if again then σ.jobs.insert key ⟨job.attemptsMade, .waiting⟩ else σ.jobs.erase key
        stalled := σ.stalled ++ [(key, job)] }) ∨
    (∃ i result key job, l = .straggler i result ∧ σ.stalled[i]? = some (key, job) ∧
      job.phase.isProcessing ∧
      τ = { σ with
        deliveries := (jobStep D σ key job result).deliveries
        completed := (jobStep D σ key job result).completed
        stalled := σ.stalled.set i (key, (jobStep D σ key job result).job.getD job) }) ∨
    (∃ i action ρ operator, l = .operator i action ∧
      OperatorStep σ (σ.operators i) action ρ operator ∧
      τ = { ρ with operators := Function.update σ.operators i operator }) := by
  cases l with
  | enqueue id event now =>
    simp only [next] at h
    split at h
    · cases h
    · rename_i hnone
      exact .inl ⟨id, event, now, rfl, hnone, (Option.some.inj h).symm⟩
  | poller i action =>
    obtain ⟨⟨ρ, poller⟩, hstep, hτ⟩ := Option.map_eq_some_iff.mp h
    exact .inr (.inl ⟨i, action, ρ, poller, rfl, pollerStep_cases hstep, hτ.symm⟩)
  | worker key result =>
    obtain ⟨job, hjob, hτ⟩ := Option.map_eq_some_iff.mp h
    exact .inr (.inr (.inl ⟨key, result, job, rfl, hjob, hτ.symm⟩))
  | stall key again =>
    obtain ⟨job, hjob, hτ⟩ := Option.bind_eq_some_iff.mp h
    by_cases hactive : job.phase.isActive
    · rw [if_pos hactive] at hτ
      exact .inr (.inr (.inr (.inl
        ⟨key, again, job, rfl, hjob, hactive, (Option.some.inj hτ).symm⟩)))
    · rw [if_neg hactive] at hτ
      cases hτ
  | straggler i result =>
    obtain ⟨⟨key, job⟩, hjob, hτ⟩ := Option.bind_eq_some_iff.mp h
    dsimp only at hτ
    split_ifs at hτ with hprocessing
    exact .inr (.inr (.inr (.inr (.inl
      ⟨i, result, key, job, rfl, hjob, hprocessing, (Option.some.inj hτ).symm⟩))))
  | operator i action =>
    obtain ⟨⟨ρ, operator⟩, hstep, hτ⟩ := Option.map_eq_some_iff.mp h
    exact .inr (.inr (.inr (.inr (.inr
      ⟨i, action, ρ, operator, rfl, operatorStep_cases hstep, hτ.symm⟩))))

/-! ### Runs -/

/-- The runs from the initial system. -/
abbrev Runs (D : Dispatcher) : List Label → DeliverySystem → Prop :=
  Reaches (next D) (fun _ _ => True) initial

end DeliverySystem

end RatelPlatform
