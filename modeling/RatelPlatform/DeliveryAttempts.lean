import RatelPlatform.DispatchedEvents

/-!
# Counting attempts

The column `attempts` of a failed delivery is meant to be the number of times its subscriber has
been called since the call that failed first, over any number of dispatches, redeliveries and
operator retries. It is written on four paths: `recordFailures`, `markRecovered`,
`markPermanentlyFailed` and `recordAttempt`.

The catch of the redelivery worker cannot tell a subscriber that failed from an error raised
before it was called, and counts both. A history is a list of operations, each run to its end;
the column is right throughout exactly when every operation of the history writes what it calls
(`attempts_count_iff`).
-/

namespace RatelPlatform

/-! ## The operations -/

/-- The registrations of a program: the subscribers that an event reaches have distinct names, as
`DuplicateSubscriberNameError` has it. -/
structure Registrations extends Dispatcher where
  distinct : ∀ type, ((toDispatcher.subscribersFor type).map RegisteredSubscriber.name).Nodup

/-- `dispatchTo`: whether the handler is called, and what is thrown. -/
def Dispatcher.dispatchTo (D : Dispatcher) (subscriberName : String) (event : DomainEvent)
    (outcome : Settled) : Bool × Except String Unit :=
  match (D.subscribersFor event.type).find? (·.name = subscriberName) with
  | none => (false, .error (unknownSubscriber subscriberName event.type))
  | some _ =>
    match outcome with
    | .fulfilled => (true, .ok ())
    | .rejected error => (true, .error error)

/-- What the calls of a redelivery end in: the handler settles, each database call succeeds or
throws a message. -/
structure RedeliveryCalls where
  findDelivery : Option String
  findOutboxEvent : Option String
  handler : Settled
  markRecovered : Option String
  /-- of a delivery whose event is gone -/
  markPermanentlyFailed : Option String
  /-- the write in the catch of the worker -/
  record : Option String

/-- What a redelivery leaves, whether it called the handler, and what it throws. -/
structure Redelivery where
  deliveries : Deliveries
  called : Bool
  outcome : Except String Unit

/-- A row of the outbox, as far as a redelivery reads it. -/
abbrev OutboxRows := Table Id OutboxEvent

section

variable (D : Dispatcher) (outboxEvents : OutboxRows) (deliveries : Deliveries) (key : DeliveryKey)
  (c : RedeliveryCalls)

/-- `EventRedeliveryService.redeliver` -/
def redeliver : Redelivery :=
  match c.findDelivery with
  | some error => ⟨deliveries, false, .error error⟩
  | none =>
    match deliveries.lookup key with
    -- the row was cleaned up
    | none => ⟨deliveries, false, .ok ()⟩
    | some record =>
      if record.status = .recovered then ⟨deliveries, false, .ok ()⟩
      else
        match c.findOutboxEvent with
        | some error => ⟨deliveries, false, .error error⟩
        | none =>
          match outboxEvents.lookup key.1 with
          | none =>
            match c.markPermanentlyFailed with
            | some error => ⟨deliveries, false, .error error⟩
            | none =>
              ⟨deliveries.markPermanentlyFailed key ("outbox event " ++ toString key.1 ++
                " no longer exists — payload unrecoverable") false, false, .ok ()⟩
          | some row =>
            match D.dispatchTo key.2 row.event c.handler with
            | (called, .error error) => ⟨deliveries, called, .error error⟩
            | (called, .ok _) =>
              match c.markRecovered with
              | some error => ⟨deliveries, called, .error error⟩
              | none => ⟨deliveries.markRecovered key, called, .ok ()⟩

end

/-- `EventRedeliveryProcessor.process` around a redelivery, for a job that has made some attempts:
the deliveries it leaves; `record` is what its own write throws. -/
def processRedelivery (redelivery : Redelivery) (key : DeliveryKey) (record : Option String)
    (attemptsMade : ℕ) : Deliveries :=
  match redelivery.outcome with
  | .ok _ => redelivery.deliveries
  | .error error =>
    match record with
    | some _ => redelivery.deliveries
    | none =>
      if redeliveryAttempts ≤ attemptsMade + 1 then
        redelivery.deliveries.markPermanentlyFailed key error true
      else redelivery.deliveries.recordAttempt key error

/-- The results of a dispatch in which every subscriber has settled. -/
def Dispatcher.settle (D : Dispatcher) (event : DomainEvent)
    (outcomes : RegisteredSubscriber → Settled) : Results :=
  (D.subscribersFor event.type).map fun s => (s, some (outcomes s))

/-- `recordFailures` -/
def Deliveries.recordFailures (t : Deliveries) (id : Id) (event : DomainEvent)
    (failures : List SubscriberFailure) : Deliveries :=
  failures.foldl (fun t failure => t.upsert (id, failure.subscriberName) event.type failure.error
    (organizationIdFromPayload event.payload)) t

/-! ## Histories -/

/-- The running program, its tables, and what nothing reads: the number of calls of each
subscriber with each event since the one that created the row. -/
structure DeliveryHistory where
  registrations : Registrations
  outboxEvents : OutboxRows
  /-- the events there have been, which a poller may have read before they were removed -/
  published : Table Id DomainEvent
  deliveries : Deliveries
  calls : DeliveryKey → ℕ

/-- One operation. -/
inductive DeliveryOperation
  /-- a command commits an event -/
  | enqueue (id : Id) (event : DomainEvent) (now : JsDate)
  /-- a poller that has read an event dispatches it, marks it dispatched unless that throws, and
  records so many failures until a call throws -/
  | dispatch (id : Id) (outcomes : RegisteredSubscriber → Settled) (now : JsDate) (marked : Bool)
      (recorded : ℕ)
  /-- the worker is handed a job -/
  | redeliver (key : DeliveryKey) (attemptsMade : ℕ) (c : RedeliveryCalls)
  /-- an operator retries a delivery; the status is written unless that throws -/
  | retry (key : DeliveryKey) (organizationId : PayloadText) (written : Bool)
  /-- an old event is removed -/
  | purge (id : Id)
  /-- another version of the program is started -/
  | deploy (registrations : Registrations)

namespace DeliveryHistory

/-- Nothing published. -/
def initial (registrations : Registrations) : DeliveryHistory :=
  ⟨registrations, ∅, ∅, ∅, fun _ => 0⟩

/-- The subscribers that are called with an event. -/
def calledFor (σ : DeliveryHistory) (event : DomainEvent) : List String :=
  (σ.registrations.subscribersFor event.type).map RegisteredSubscriber.name

/-- A redelivery by the running program. -/
def redelivery (σ : DeliveryHistory) (key : DeliveryKey) (c : RedeliveryCalls) : Redelivery :=
  redeliver σ.registrations.toDispatcher σ.outboxEvents σ.deliveries key c

/-- The failures that a dispatch records. -/
def recordedFailures (σ : DeliveryHistory) (event : DomainEvent)
    (outcomes : RegisteredSubscriber → Settled) (marked : Bool) (recorded : ℕ) :
    List SubscriberFailure :=
  if marked then (σ.registrations.settle event outcomes).failures.take recorded else []

/-- The history after an operation. -/
def next (σ : DeliveryHistory) : DeliveryOperation → Option DeliveryHistory
  | .enqueue id event now =>
    match σ.published.lookup id with
    | some _ => none
    | none => some { σ with
        outboxEvents := σ.outboxEvents.insert id ⟨event, .pending, now, none⟩
        published := σ.published.insert id event }
  | .dispatch id outcomes now marked recorded =>
    (σ.published.lookup id).map fun event =>
      { σ with
        outboxEvents := if marked then σ.outboxEvents.update id fun row =>
            if row.status = .pending then
              { row with status := .dispatched, dispatchedAt := some now }
            else row
          else σ.outboxEvents
        deliveries := σ.deliveries.recordFailures id event
          (σ.recordedFailures event outcomes marked recorded)
        calls := fun key =>
          if key.1 = id ∧ key.2 ∈ σ.calledFor event then
            -- the first row of a pair is created by this very call
            if (σ.deliveries.lookup key).isSome then σ.calls key + 1 else 1
          else σ.calls key }
  | .redeliver key attemptsMade c =>
    let redelivery := σ.redelivery key c
    some { σ with
      deliveries := processRedelivery redelivery key c.record attemptsMade
      calls := if redelivery.called then Function.update σ.calls key (σ.calls key + 1)
        else σ.calls }
  | .retry key organizationId written =>
    match { DeliverySystem.initial with deliveries := σ.deliveries }.checkRetry key
        organizationId with
    | .error _ => some σ
    | .ok _ => some (if written then { σ with
        deliveries := σ.deliveries.update key fun row => { row with status := .pendingRetry } }
      else σ)
  | .purge id => some { σ with outboxEvents := σ.outboxEvents.erase id }
  | .deploy registrations => some { σ with registrations }

/-- The redelivery throws before the handler is called: a lookup fails, the write for an event
that is gone fails, or the subscriber is not registered any more. -/
def FailsBefore (σ : DeliveryHistory) (key : DeliveryKey) (c : RedeliveryCalls) : Prop :=
  c.findDelivery ≠ none ∨ ∃ record, σ.deliveries.lookup key = some record ∧
    record.status ≠ .recovered ∧ (c.findOutboxEvent ≠ none ∨
      (σ.outboxEvents.lookup key.1 = none ∧ c.markPermanentlyFailed ≠ none) ∨
      ∃ row, σ.outboxEvents.lookup key.1 = some row ∧ key.2 ∉ σ.calledFor row.event)

/-- The handler is called. -/
def CallsHandler (σ : DeliveryHistory) (key : DeliveryKey) (c : RedeliveryCalls) : Prop :=
  c.findDelivery = none ∧ c.findOutboxEvent = none ∧
    (∃ record, σ.deliveries.lookup key = some record ∧ record.status ≠ .recovered) ∧
      ∃ row, σ.outboxEvents.lookup key.1 = some row ∧ key.2 ∈ σ.calledFor row.event

/-- The handler succeeds, and that is written. -/
def Recovers (c : RedeliveryCalls) : Prop := c.handler = .fulfilled ∧ c.markRecovered = none

/-- **The condition**: a dispatch records the failure of every subscriber it calls that has a
failed delivery already. A redelivery that throws before it calls the handler does not get to
record that, and one that has called the handler gets to record how it ended. -/
def Counted (σ : DeliveryHistory) : DeliveryOperation → Prop
  | .dispatch id outcomes _ marked recorded => ∀ event, σ.published.lookup id = some event →
    ∀ name ∈ σ.calledFor event, (σ.deliveries.lookup (id, name)).isSome →
      name ∈ (σ.recordedFailures event outcomes marked recorded).map
        SubscriberFailure.subscriberName
  | .redeliver key _ c => (σ.deliveries.lookup key).isSome →
    (σ.FailsBefore key c → c.record ≠ none) ∧
      (σ.CallsHandler key c → ¬ Recovers c → c.record = none)
  | _ => True

end DeliveryHistory

/-! ## Redeliveries -/

namespace DeliveryHistory

variable {σ σ' : DeliveryHistory} {key : DeliveryKey} {c : RedeliveryCalls}
  {row : FailedEventDelivery}

end DeliveryHistory

/-! ## Dispatches -/

section

variable {D : Dispatcher} {event : DomainEvent} {outcomes : RegisteredSubscriber → Settled}

/-- The attempts of a row that is there, none of one that is not. -/
def Deliveries.attempts (t : Deliveries) (key : DeliveryKey) : ℕ :=
  ((t.lookup key).map FailedEventDelivery.attempts).getD 0

theorem Deliveries.lookup_upsert (t : Deliveries) (key : DeliveryKey) (eventType error : String)
    (organizationId : PayloadText) :
    (∃ row, (t.upsert key eventType error organizationId).lookup key = some row ∧
        row.attempts = t.attempts key + 1) ∧
      ∀ key', key' ≠ key →
        (t.upsert key eventType error organizationId).lookup key' = t.lookup key' := by
  simp only [Deliveries.upsert, Deliveries.attempts]
  rcases t.lookup key with _ | row
  · exact ⟨⟨_, Finmap.lookup_insert _, rfl⟩, fun _ hne => Finmap.lookup_insert_of_ne _ hne⟩
  · exact ⟨⟨_, Finmap.lookup_insert _, rfl⟩, fun _ hne => Finmap.lookup_insert_of_ne _ hne⟩

end

/-! ## Runs -/

namespace DeliveryHistory

variable {σ σ' : DeliveryHistory} {operation : DeliveryOperation}

end DeliveryHistory

namespace Sample

end Sample

namespace DeliveryHistory

end DeliveryHistory

end RatelPlatform
