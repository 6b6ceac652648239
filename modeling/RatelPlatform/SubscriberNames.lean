import RatelPlatform.DeliveryAttempts
import RatelPlatform.ExpenseReadModel

/-!
# Names of subscribers

A failed delivery is stored under the name of the subscriber that failed, and `dispatchTo`
finds the handler to call again by that name. `register` refuses a name that another subscriber
of the event type has, or a global one; `registerGlobal` only one that another global subscriber
has.

So names are distinct for every event type exactly when no subscriber is registered for all
events under a name that one of a type has already (`distinct_names_iff`).
-/

namespace RatelPlatform

/-- The message of `DuplicateSubscriberNameError`. -/
def duplicateSubscriberName (name eventType : String) : String :=
  "Subscriber name \"" ++ name ++ "\" is already registered for event type \"" ++ eventType ++
    "\". Names must be unique per event type — they are the key used to redeliver a failed " ++
    "event to one specific subscriber, so a duplicate would make redelivery ambiguous."

/-- `DispatchResult` -/
structure DispatchResult where
  invoked : ℕ
  failures : List SubscriberFailure

/-- A call of `register` or `registerGlobal`. -/
inductive Registration
  | register (eventType : String) (handler : ℕ) (subscriberName : String)
  | registerGlobal (handler : ℕ) (subscriberName : String)

namespace Dispatcher

/-- Nothing is registered. -/
def empty : Dispatcher := ⟨∅, []⟩

/-- The subscribers of one event type alone. -/
def handlersFor (D : Dispatcher) (eventType : String) : List RegisteredSubscriber :=
  (D.handlers.lookup eventType).getD []

/-- One more subscriber of an event type: `existing.push`, `handlers.set` -/
def withHandler (D : Dispatcher) (eventType : String) (s : RegisteredSubscriber) : Dispatcher :=
  { D with handlers := D.handlers.insert eventType (D.handlersFor eventType ++ [s]) }

/-- `register` -/
def register (D : Dispatcher) (eventType : String) (handler : ℕ) (subscriberName : String) :
    Except String Dispatcher :=
  if ∃ s ∈ D.handlersFor eventType, s.name = subscriberName then
    .error (duplicateSubscriberName subscriberName eventType)
  else if ∃ s ∈ D.globalSubscribers, s.name = subscriberName then
    .error (duplicateSubscriberName subscriberName eventType)
  else .ok (D.withHandler eventType ⟨subscriberName, handler⟩)

/-- `registerGlobal` -/
def registerGlobal (D : Dispatcher) (handler : ℕ) (subscriberName : String) :
    Except String Dispatcher :=
  if ∃ s ∈ D.globalSubscribers, s.name = subscriberName then
    .error (duplicateSubscriberName subscriberName "*")
  else .ok { D with globalSubscribers := D.globalSubscribers ++ [⟨subscriberName, handler⟩] }

/-- `dispatch`, in which the call of the `i`-th subscriber settles as `settled i`. -/
def dispatch (D : Dispatcher) (event : DomainEvent) (settled : ℕ → Settled) : DispatchResult :=
  let subscribers := D.subscribersFor event.type
  let results : Results := subscribers.mapIdx fun i s => (s, some (settled i))
  ⟨subscribers.length, results.failures⟩

/-- The subscriber whose handler `dispatchTo` calls, or what it throws instead. -/
def target (D : Dispatcher) (subscriberName : String) (event : DomainEvent) :
    Except String RegisteredSubscriber :=
  match (D.subscribersFor event.type).find? (·.name = subscriberName) with
  | none => .error (unknownSubscriber subscriberName event.type)
  | some target => .ok target

/-- The registrations after a call that succeeds. -/
def next (D : Dispatcher) : Registration → Option Dispatcher
  | .register eventType handler subscriberName =>
    (D.register eventType handler subscriberName).toOption
  | .registerGlobal handler subscriberName => (D.registerGlobal handler subscriberName).toOption

/-- The subscribers that any event reaches have distinct names. -/
def DistinctNames (D : Dispatcher) : Prop :=
  ∀ type, ((D.subscribersFor type).map RegisteredSubscriber.name).Nodup

/-- Whatever subscriber fails with what is reported under its name, `dispatchTo` calls that one. -/
def RedeliversToFailed (D : Dispatcher) : Prop :=
  ∀ (event : DomainEvent) (settled : ℕ → Settled),
    ∀ failure ∈ (D.dispatch event settled).failures, ∀ i s,
      (D.subscribersFor event.type)[i]? = some s → s.name = failure.subscriberName →
      settled i = .rejected failure.error →
        D.target failure.subscriberName event = .ok s

/-- A global subscriber gets a name that none of an event type has. -/
def NamesGlobalsApart (D : Dispatcher) : Registration → Prop
  | .register _ _ _ => True
  | .registerGlobal _ subscriberName =>
    ∀ type, ∀ s ∈ D.handlersFor type, s.name ≠ subscriberName

variable {D D' : Dispatcher} {event : DomainEvent}

/-- `dispatchTo` calls its target and nothing else. -/
theorem dispatchTo_eq (subscriberName : String) (outcome : Settled) :
    D.dispatchTo subscriberName event outcome =
      match D.target subscriberName event with
      | .error error => (false, .error error)
      | .ok _ =>
        match outcome with
        | .fulfilled => (true, .ok ())
        | .rejected error => (true, .error error) := by
  unfold dispatchTo target
  generalize List.find? _ _ = found
  rcases found with _ | s
  · rfl
  · rfl

/-- **Who has failed** is reported, under its name and with its error, and nobody else. -/
theorem mem_failures_iff {settled : ℕ → Settled} {failure : SubscriberFailure} :
    failure ∈ (D.dispatch event settled).failures ↔
      ∃ i s, (D.subscribersFor event.type)[i]? = some s ∧ s.name = failure.subscriberName ∧
        settled i = .rejected failure.error := by
  simp only [dispatch, Results.failures, List.mem_filterMap, List.mem_mapIdx]
  refine ⟨?_, ?_⟩
  · rintro ⟨_, ⟨i, hi, rfl⟩, hfailure⟩
    rcases hsettled : settled i with _ | error
    · simp only [hsettled, reduceCtorEq] at hfailure
    · simp only [hsettled, Option.some.injEq] at hfailure
      obtain rfl := hfailure
      exact ⟨i, _, List.getElem?_eq_getElem hi, rfl, hsettled⟩
  · rintro ⟨i, s, hs, hname, hsettled⟩
    obtain ⟨hi, rfl⟩ := List.getElem?_eq_some_iff.mp hs
    refine ⟨_, ⟨i, hi, rfl⟩, ?_⟩
    simp only [hsettled, hname]

/-! ## One registration -/

theorem toOption_eq_some_iff {ε α : Type} {x : Except ε α} {a : α} :
    x.toOption = some a ↔ x = .ok a := by
  cases x <;> simp [Except.toOption]

theorem handlersFor_withHandler (eventType type : String) (s : RegisteredSubscriber) :
    (D.withHandler eventType s).handlersFor type =
      if type = eventType then D.handlersFor eventType ++ [s] else D.handlersFor type := by
  simp only [withHandler, handlersFor, Table.lookup_insert_ite]
  split_ifs
  · rfl
  · rfl

theorem register_ok {eventType subscriberName : String} {handler : ℕ} :
    D.register eventType handler subscriberName = .ok D' ↔
      (∀ s ∈ D.subscribersFor eventType, s.name ≠ subscriberName) ∧
        D' = D.withHandler eventType ⟨subscriberName, handler⟩ := by
  have hnames : (∀ s ∈ D.subscribersFor eventType, s.name ≠ subscriberName) ↔
      (¬ ∃ s ∈ D.handlersFor eventType, s.name = subscriberName) ∧
        ¬ ∃ s ∈ D.globalSubscribers, s.name = subscriberName := by
    simp [subscribersFor, handlersFor, or_imp, forall_and]
  simp only [register]
  rw [hnames]
  split_ifs with hexisting hglobal
  · simp [hexisting]
  · simp [hglobal]
  · rw [and_iff_right ⟨hexisting, hglobal⟩, Except.ok.injEq, eq_comm]

theorem registerGlobal_ok {subscriberName : String} {handler : ℕ} :
    D.registerGlobal handler subscriberName = .ok D' ↔
      (∀ s ∈ D.globalSubscribers, s.name ≠ subscriberName) ∧
        D' = { D with
          globalSubscribers := D.globalSubscribers ++ [⟨subscriberName, handler⟩] } := by
  have hnames : (∀ s ∈ D.globalSubscribers, s.name ≠ subscriberName) ↔
      ¬ ∃ s ∈ D.globalSubscribers, s.name = subscriberName := by
    simp
  simp only [registerGlobal]
  rw [hnames]
  split_ifs with hglobal
  · simp [hglobal]
  · rw [and_iff_right hglobal, Except.ok.injEq, eq_comm]

theorem distinctNames_empty : empty.DistinctNames := fun _ => List.nodup_nil

/-- A list of subscribers with distinct names stays one exactly when the name is new. -/
theorem nodup_names_concat {subscribers : List RegisteredSubscriber} {s : RegisteredSubscriber} :
    ((subscribers ++ [s]).map RegisteredSubscriber.name).Nodup ↔
      (subscribers.map RegisteredSubscriber.name).Nodup ∧ ∀ t ∈ subscribers, t.name ≠ s.name := by
  rw [List.map_append, List.map_singleton, ← List.concat_eq_append, List.nodup_concat, and_comm]
  simp

/-- **One registration** keeps the names distinct exactly when it names a global subscriber
apart. -/
theorem distinctNames_next {registration : Registration}
    (hn : D.next registration = some D') :
    D'.DistinctNames ↔ D.DistinctNames ∧ D.NamesGlobalsApart registration := by
  cases registration with
  | register eventType handler subscriberName =>
    obtain ⟨hnew, rfl⟩ := register_ok.mp (toOption_eq_some_iff.mp hn)
    refine (Iff.trans ?_ (and_iff_left trivial).symm)
    refine forall_congr' fun type => ?_
    change ((((D.withHandler eventType _).handlersFor type) ++ D.globalSubscribers).map
      RegisteredSubscriber.name).Nodup ↔ _
    rw [handlersFor_withHandler]
    split_ifs with htype
    · obtain rfl := htype
      -- the new subscriber stands before the global ones
      have hperm (s : RegisteredSubscriber) :
          (D.handlersFor type ++ [s] ++ D.globalSubscribers).Perm
            (D.subscribersFor type ++ [s]) := by
        rw [List.append_assoc]
        exact (List.perm_append_comm.append_left _).trans (.of_eq (List.append_assoc ..).symm)
      rw [((hperm _).map _).nodup_iff, nodup_names_concat, and_iff_left hnew]
    · rfl
  | registerGlobal handler subscriberName =>
    obtain ⟨hnew, rfl⟩ := registerGlobal_ok.mp (toOption_eq_some_iff.mp hn)
    have hsubscribers : ∀ type, (⟨D.handlers, D.globalSubscribers ++ [⟨subscriberName, handler⟩]⟩ :
          Dispatcher).subscribersFor type =
        D.subscribersFor type ++ [⟨subscriberName, handler⟩] :=
      fun type => (List.append_assoc ..).symm
    simp only [DistinctNames, hsubscribers, nodup_names_concat, forall_and]
    refine and_congr_right fun _ => forall_congr' fun type => ?_
    refine ⟨?_, ?_⟩
    · exact fun h s hs => h s (List.mem_append_left _ hs)
    · intro h s hs
      rcases List.mem_append.mp hs with hs | hs
      · exact h s hs
      · exact hnew s hs

/-! ## Redelivery -/

/-- Distinct names lead back to whoever has one. -/
theorem DistinctNames.target (h : D.DistinctNames) {s : RegisteredSubscriber}
    (hs : s ∈ D.subscribersFor event.type) : D.target s.name event = .ok s := by
  unfold Dispatcher.target
  generalize hfind : List.find? _ _ = found
  rcases found with _ | t
  · have hnone := List.find?_eq_none.mp hfind s hs
    simp at hnone
  · have hname : t.name = s.name := by simpa using List.find?_some hfind
    obtain rfl := List.inj_on_of_nodup_map (h event.type) (List.mem_of_find?_eq_some hfind) hs hname
    rfl

theorem DistinctNames.redeliversToFailed (h : D.DistinctNames) : D.RedeliversToFailed := by
  rintro event settled ⟨name, error⟩ - i s hs rfl -
  exact h.target (List.mem_of_getElem? hs)

/-- **When the subscribers of every event have distinct names**, and every failure leads back to
the handler that failed: no subscriber is registered globally under the name of one of a type. -/
theorem distinct_names_iff {registrations : List Registration}
    (hr : Reaches Dispatcher.next (fun _ _ => True) empty registrations D) :
    (D.DistinctNames ∧ D.RedeliversToFailed) ↔
      Reaches Dispatcher.next NamesGlobalsApart empty registrations D := by
  rw [and_iff_left_of_imp DistinctNames.redeliversToFailed]
  refine hr.iff_allowed distinctNames_empty fun _ _ _ _ _ hn => ?_
  exact distinctNames_next hn

/-! ## The subscribers of the program -/

/-- What a subscriber is registered for, it was registered for. -/
theorem register_mem_of_reaches {registrations : List Registration}
    (hr : Reaches Dispatcher.next (fun _ _ => True) empty registrations D) {type : String}
    {s : RegisteredSubscriber} (hs : s ∈ D.handlersFor type) :
    .register type s.handler s.name ∈ registrations := by
  induction hr generalizing type s with
  | nil => exact absurd hs List.not_mem_nil
  | @snoc _ D D' registration _ _ hn ih =>
    cases registration with
    | register eventType handler subscriberName =>
      obtain ⟨-, rfl⟩ := register_ok.mp (toOption_eq_some_iff.mp hn)
      rw [handlersFor_withHandler] at hs
      split_ifs at hs with htype
      · obtain rfl := htype
        rcases List.mem_append.mp hs with hs | hs
        · exact List.mem_append_left _ (ih hs)
        · obtain rfl := List.mem_singleton.mp hs
          simp
      · exact List.mem_append_left _ (ih hs)
    | registerGlobal handler subscriberName =>
      obtain ⟨-, rfl⟩ := registerGlobal_ok.mp (toOption_eq_some_iff.mp hn)
      exact List.mem_append_left _ (ih hs)

/-- Global subscribers whose names nobody uses for one type are named apart in any order. -/
theorem reaches_of_names {registrations : List Registration}
    (hr : Reaches Dispatcher.next (fun _ _ => True) empty registrations D)
    (hnames : ∀ type handler handler' name, .register type handler name ∈ registrations →
      .registerGlobal handler' name ∉ registrations) :
    Reaches Dispatcher.next NamesGlobalsApart empty registrations D := by
  induction hr with
  | nil => exact .nil
  | @snoc registrations D D' registration hr _ hn ih =>
    have hbefore : ∀ {r}, r ∈ registrations → r ∈ registrations ++ [registration] :=
      fun hmem => List.mem_append_left _ hmem
    refine .snoc (ih fun type handler handler' name hmem hglobal =>
      hnames type handler handler' name (hbefore hmem) (hbefore hglobal)) ?_ hn
    cases registration with
    | register eventType handler subscriberName => trivial
    | registerGlobal handler subscriberName =>
      rintro type s hs rfl
      exact hnames type s.handler handler s.name (hbefore (register_mem_of_reaches hr hs))
        (List.mem_append_right _ (List.mem_singleton_self _))

/-- What `onModuleInit` of `ExpenseReadModelProjector`, `NotificationSubscriber` and
`AuditSubscriber` register. -/
def programRegistrations : List Registration :=
  ExpenseReadModelProjector.projectedEventTypes.map
      (Registration.register · 0 "ExpenseReadModelProjector") ++
    [.register "ExpenseApproved" 1 "NotificationSubscriber",
      .register "ExpenseRejected" 2 "NotificationSubscriber",
      .register "PayrollRunApproved" 3 "NotificationSubscriber",
      .register "PayrollRunRejected" 4 "NotificationSubscriber",
      .register "PeriodClosed" 5 "NotificationSubscriber",
      .register "PeriodReopened" 6 "NotificationSubscriber"] ++
    [.registerGlobal 7 "AuditSubscriber"]

/-- The audit log is the only global subscriber, and nobody else has its name. -/
theorem programRegistrations_names (type : String) (handler handler' : ℕ) (name : String)
    (hregister : .register type handler name ∈ programRegistrations) :
    .registerGlobal handler' name ∉ programRegistrations := by
  intro hglobal
  simp only [programRegistrations, List.mem_append, List.mem_map, List.mem_cons, reduceCtorEq,
    and_false, exists_false, List.not_mem_nil, Registration.registerGlobal.injEq, or_false,
    false_or] at hglobal
  obtain ⟨-, rfl⟩ := hglobal
  simp [programRegistrations] at hregister

/-- **The subscribers of the program** have distinct names, whichever registers first. -/
theorem distinctNames_program {registrations : List Registration}
    (hperm : registrations.Perm programRegistrations)
    (hr : Reaches Dispatcher.next (fun _ _ => True) empty registrations D) : D.DistinctNames := by
  have hapart : Reaches Dispatcher.next NamesGlobalsApart empty registrations D := by
    refine reaches_of_names hr fun type handler handler' name hregister hglobal => ?_
    rw [hperm.mem_iff] at hregister hglobal
    exact programRegistrations_names type handler handler' name hregister hglobal
  exact hapart.invariant distinctNames_empty fun _ _ _ h hok hn =>
    (distinctNames_next hn).mpr ⟨h, hok⟩

/-! ## One name, two subscribers -/

theorem distinct_names_iff_program : ∃ D, Reaches Dispatcher.next (fun _ _ => True) empty
    programRegistrations D ∧ D.DistinctNames ∧ D.RedeliversToFailed := by
  have hruns : (runLabels Dispatcher.next empty programRegistrations).isSome := by
    decide +kernel
  obtain ⟨D, hD⟩ := Option.isSome_iff_exists.mp hruns
  have hr := reaches_of_runLabels hD
  exact ⟨D, hr, (distinct_names_iff hr).mpr (reaches_of_names hr programRegistrations_names)⟩

/-- **A global subscriber under a name in use**: both registrations succeed. -/
theorem global_name_in_use : ¬ ∀ (registrations : List Registration) (D : Dispatcher),
    Reaches Dispatcher.next (fun _ _ => True) empty registrations D →
    D.DistinctNames ∧ D.RedeliversToFailed := by
  intro hall
  have hnames : (runLabels Dispatcher.next empty
      [.register "PeriodClosed" 1 "AuditSubscriber", .registerGlobal 2 "AuditSubscriber"]).map
      (fun D => (D.subscribersFor "PeriodClosed").map RegisteredSubscriber.name) =
        some ["AuditSubscriber", "AuditSubscriber"] := by
    decide +kernel
  obtain ⟨D, hD, hsame⟩ := Option.map_eq_some_iff.mp hnames
  have hdistinct := (hall _ D (reaches_of_runLabels hD)).1 "PeriodClosed"
  rw [hsame] at hdistinct
  simp at hdistinct

end Dispatcher

end RatelPlatform
