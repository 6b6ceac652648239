import RatelPlatform.EventDelivery

/-!
# What a dispatched event owes its subscribers

An outbox row that is marked dispatched is not polled again, so every subscriber
must by then have completed on it or be recorded as failed. The poller marks
first and records afterwards: between the two, and for good if it dies there or
a database call fails, a failed subscriber is neither.

No failure of a pending event is ever recorded (`Runs.failuresMarked`), so a row is
marked in time only if nobody who failed has still to complete.
`dispatched_accounted_iff` says that this is exactly what a run has to avoid.
-/

namespace RatelPlatform.DeliverySystem

variable {D : Dispatcher} {σ τ : DeliverySystem}

/-- A subscriber has completed on an event, or its failure is recorded. -/
def Accounted (σ : DeliverySystem) (id : Id) (s : RegisteredSubscriber) : Prop :=
  (id, s) ∈ σ.completed ∨ ∃ row, σ.deliveries.lookup (id, s.name) = some row

/-- Every subscriber of every dispatched event is accounted for. -/
def DispatchedAccounted (D : Dispatcher) (σ : DeliverySystem) : Prop :=
  ∀ id row, σ.outboxEvents.lookup id = some row → row.status = .dispatched →
    ∀ s ∈ D.subscribersFor row.event.type, σ.Accounted id s

/-- The step is about to mark a pending row although a subscriber failed in this
dispatch that no other dispatch of the event has completed. -/
def MarksTooEarly (σ : DeliverySystem) : Label → Prop
  | .poller i action =>
    match σ.pollers i with
    | .marking id _ results _ => action.takesEffect ∧ σ.IsPending id ∧
        ∃ s error, (s, some (Settled.rejected error)) ∈ results ∧ (id, s) ∉ σ.completed
    | _ => False
  | _ => False

/-! ## What steps never take away -/

/-- Somebody has taken the event off the pending ones. -/
def IsMarked (σ : DeliverySystem) (id : Id) : Prop :=
  ∃ row, σ.outboxEvents.lookup id = some row ∧ row.status ≠ .pending

/-- Events are never changed nor pending again, failures never deleted and completions
never undone. -/
structure Grows (σ τ : DeliverySystem) : Prop where
  events : ∀ id row, σ.outboxEvents.lookup id = some row →
    ∃ row', τ.outboxEvents.lookup id = some row' ∧ row'.event = row.event
  marked : ∀ id, σ.IsMarked id → τ.IsMarked id
  deliveries : ∀ key row, σ.deliveries.lookup key = some row →
    ∃ row', τ.deliveries.lookup key = some row'
  completed : ∀ c ∈ σ.completed, c ∈ τ.completed

namespace Grows

/-- Keeping the events and changing failures in place. -/
theorem of_deliveries (hevents : τ.outboxEvents = σ.outboxEvents)
    (hdeliveries : ∀ key row, σ.deliveries.lookup key = some row →
      ∃ row', τ.deliveries.lookup key = some row')
    (hcompleted : ∀ c ∈ σ.completed, c ∈ τ.completed) : Grows σ τ := by
  refine ⟨fun id row hrow => ⟨row, ?_, rfl⟩, fun id hmarked => ?_, hdeliveries, hcompleted⟩
  · rw [hevents]
    exact hrow
  · rw [IsMarked, hevents]
    exact hmarked

/-- Keeping all three tables. -/
theorem of_eq (hevents : τ.outboxEvents = σ.outboxEvents) (hdeliveries : τ.deliveries = σ.deliveries)
    (hcompleted : τ.completed = σ.completed) : Grows σ τ := by
  refine of_deliveries hevents (fun key row hrow => ⟨row, ?_⟩) (fun c hc => ?_)
  · rw [hdeliveries]
    exact hrow
  · rw [hcompleted]
    exact hc

theorem accounted (h : Grows σ τ) {id : Id} {s : RegisteredSubscriber} (ha : σ.Accounted id s) :
    τ.Accounted id s := by
  rcases ha with hc | ⟨row, hrow⟩
  · exact .inl (h.completed _ hc)
  · exact .inr (h.deliveries _ _ hrow)

end Grows

/-- Updating a row in place loses no row. -/
theorem lookup_update_some {κ ρ : Type} [DecidableEq κ] {t : Table κ ρ} {k k' : κ} {f : ρ → ρ}
    {row : ρ} (h : t.lookup k' = some row) : ∃ row', (t.update k f).lookup k' = some row' := by
  rw [Table.lookup_update]
  split_ifs with hk
  · rw [← hk, h]
    exact ⟨_, rfl⟩
  · exact ⟨row, h⟩

theorem lookup_upsert (t : Deliveries) (key key' : DeliveryKey) (type error : String)
    (org : PayloadText) : ∃ row, row.status = .pendingRetry ∧
      (t.upsert key type error org).lookup key' = if key' = key then some row else t.lookup key' := by
  simp only [Deliveries.upsert]
  split
  · exact ⟨_, rfl, Table.lookup_insert_ite _ _ _ _⟩
  · exact ⟨_, rfl, Table.lookup_insert_ite _ _ _ _⟩

/-- Marking takes an event off the pending ones, and leaves the others as they are. -/
theorem isMarked_markDispatched {id id' : Id} {now : JsDate}
    (h : id' = id ∧ (∃ row, σ.outboxEvents.lookup id = some row) ∨ σ.IsMarked id') :
    (σ.markDispatched id now).IsMarked id' := by
  simp only [IsMarked, markDispatched, Table.lookup_update]
  by_cases hid : id' = id
  · obtain ⟨row, hrow⟩ : ∃ row, σ.outboxEvents.lookup id = some row := by
      rcases h with ⟨-, hrow⟩ | ⟨row, hrow, -⟩
      · exact hrow
      · exact ⟨row, hid ▸ hrow⟩
    simp only [if_pos hid, hrow, Option.map_some, Option.some.injEq, exists_eq_left']
    split_ifs with hp
    · simp
    · exact hp
  · obtain ⟨row, hrow, hstatus⟩ := h.resolve_left fun h => hid h.1
    exact ⟨row, by rw [if_neg hid, hrow], hstatus⟩

theorem markDispatched_grows (id : Id) (now : JsDate) : Grows σ (σ.markDispatched id now) := by
  refine ⟨fun id' row hrow => ?_, fun id' hmarked => isMarked_markDispatched (.inr hmarked),
    fun key row hrow => ⟨row, hrow⟩, fun c hc => hc⟩
  simp only [markDispatched, Table.lookup_update]
  split_ifs with hid
  · rw [← hid, hrow]
    refine ⟨_, rfl, ?_⟩
    simp only
    split_ifs with hp
    · rfl
    · rfl
  · exact ⟨row, hrow, rfl⟩

theorem addJob_eq (σ : DeliverySystem) (key : DeliveryKey) :
    ∃ jobs, σ.addJob key = { σ with jobs := jobs } := by
  simp only [addJob]
  split
  · exact ⟨σ.jobs, rfl⟩
  · exact ⟨_, rfl⟩

theorem addJob_outboxEvents (σ : DeliverySystem) (key : DeliveryKey) :
    (σ.addJob key).outboxEvents = σ.outboxEvents := by
  obtain ⟨jobs, hjobs⟩ := σ.addJob_eq key
  rw [hjobs]

theorem addJob_pollers (σ : DeliverySystem) (key : DeliveryKey) :
    (σ.addJob key).pollers = σ.pollers := by
  obtain ⟨jobs, hjobs⟩ := σ.addJob_eq key
  rw [hjobs]

theorem addJob_grows (key : DeliveryKey) : Grows σ (σ.addJob key) := by
  obtain ⟨jobs, hjobs⟩ := σ.addJob_eq key
  rw [hjobs]
  exact .of_eq rfl rfl rfl

theorem PollerStep.grows {p p' : Poller} {a : PollerAction} (h : PollerStep D σ p a τ p') :
    Grows σ τ := by
  cases h with
  | settle _ =>
    refine .of_deliveries rfl (fun key row hrow => ⟨row, hrow⟩) (fun c hc => ?_)
    simp only
    split_ifs with hr
    · exact List.mem_append_left _ hc
    · exact hc
  | mark | markLost => exact markDispatched_grows _ _
  | @record id event failure | @recordLost id event failure =>
    refine .of_deliveries rfl (fun key row hrow => ?_) (fun c hc => hc)
    obtain ⟨new, -, hlookup⟩ := lookup_upsert σ.deliveries (id, failure.subscriberName) key
      event.type failure.error (organizationIdFromPayload event.payload)
    simp only [recordFailure, hlookup]
    split_ifs with hkey
    · exact ⟨new, rfl⟩
    · exact ⟨row, hrow⟩
  | add | addLost => exact addJob_grows _
  | poll _ => exact .of_eq rfl rfl rfl
  | finish => exact .of_eq rfl rfl rfl
  | take => exact .of_eq rfl rfl rfl
  | settled _ => exact .of_eq rfl rfl rfl
  | recorded => exact .of_eq rfl rfl rfl
  | scheduled => exact .of_eq rfl rfl rfl
  | markFails => exact .of_eq rfl rfl rfl
  | recordFails => exact .of_eq rfl rfl rfl
  | addFails => exact .of_eq rfl rfl rfl
  | crash => exact .of_eq rfl rfl rfl

/-- The step of a job writes to its own delivery, or not at all. -/
theorem jobStep_writes {key : DeliveryKey} {job : Job} {result : CallResult} :
    (jobStep D σ key job result).deliveries = σ.deliveries ∨
      ∃ f, (jobStep D σ key job result).deliveries = σ.deliveries.update key f := by
  generalize hafter : jobStep D σ key job result = after
  have hstep := jobStep_cases hafter
  generalize job.phase = phase at hstep
  cases hstep with
  | recover | abandon | recoverLost | abandonLost | giveUp | record => exact .inr ⟨_, rfl⟩
  | _ => exact .inl rfl

theorem jobStep_grows (key : DeliveryKey) (job : Job) (result : CallResult) :
    (∀ k row, σ.deliveries.lookup k = some row →
      ∃ row', (jobStep D σ key job result).deliveries.lookup k = some row') ∧
    ∀ c ∈ σ.completed, c ∈ (jobStep D σ key job result).completed := by
  refine ⟨fun k row hrow => ?_, fun c hc => ?_⟩
  · rcases @jobStep_writes D σ key job result with heq | ⟨f, heq⟩
    · exact ⟨row, by rw [heq, hrow]⟩
    · rw [heq]
      exact lookup_update_some hrow
  · generalize hafter : jobStep D σ key job result = after
    have hstep := jobStep_cases hafter
    generalize job.phase = phase at hstep
    cases hstep with
    | deliver _ => exact List.mem_append_left _ hc
    | _ => exact hc

theorem OperatorStep.grows {o o' : Operator} {a : OperatorAction}
    (h : OperatorStep σ o a τ o') : Grows σ τ := by
  cases h with
  | request | fail => exact .of_eq rfl rfl rfl
  | add | addLost => exact addJob_grows _
  | write | writeLost =>
    exact .of_deliveries rfl (fun key row hrow => lookup_update_some hrow) (fun c hc => hc)

theorem OperatorStep.outboxEvents_eq {o o' : Operator} {a : OperatorAction}
    (h : OperatorStep σ o a τ o') : τ.outboxEvents = σ.outboxEvents := by
  cases h with
  | request | fail | write | writeLost => rfl
  | add | addLost => exact addJob_outboxEvents _ _

theorem OperatorStep.pollers_eq {o o' : Operator} {a : OperatorAction}
    (h : OperatorStep σ o a τ o') : τ.pollers = σ.pollers := by
  cases h with
  | request | fail | write | writeLost => rfl
  | add | addLost => exact addJob_pollers _ _

/-- No step takes anything away. -/
theorem next_grows {l : Label} (h : next D σ l = some τ) : Grows σ τ := by
  rcases next_cases h with ⟨id, event, now, -, hnone, rfl⟩ | ⟨i, a, ρ, p, -, hstep, rfl⟩ |
    ⟨key, result, job, -, -, rfl⟩ | ⟨key, again, job, -, -, -, rfl⟩ |
    ⟨i, result, key, job, -, -, -, rfl⟩ | ⟨i, a, ρ, o, -, hstep, rfl⟩
  · have hother : ∀ id' row, σ.outboxEvents.lookup id' = some row →
        (σ.outboxEvents.insert id ⟨event, .pending, now, none⟩).lookup id' = some row := by
      intro id' row hrow
      rw [Table.lookup_insert_ite, if_neg]
      · exact hrow
      · rintro rfl
        rw [hnone] at hrow
        cases hrow
    exact ⟨fun id' row hrow => ⟨row, hother id' row hrow, rfl⟩,
      fun id' ⟨row, hrow, hstatus⟩ => ⟨row, hother id' row hrow, hstatus⟩,
      fun key row hrow => ⟨row, hrow⟩, fun c hc => hc⟩
  · obtain ⟨he, hm, hd, hc⟩ := hstep.grows
    exact ⟨he, hm, hd, hc⟩
  · obtain ⟨hd, hc⟩ := jobStep_grows (σ := σ) (D := D) key job result
    exact .of_deliveries rfl hd hc
  · exact .of_eq rfl rfl rfl
  · obtain ⟨hd, hc⟩ := jobStep_grows (σ := σ) (D := D) key job result
    exact .of_deliveries rfl hd hc
  · obtain ⟨he, hm, hd, hc⟩ := hstep.grows
    exact ⟨he, hm, hd, hc⟩

/-! ## What a poller knows -/

/-- The row of an event is in the outbox. -/
def Published (σ : DeliverySystem) (id : Id) (event : DomainEvent) : Prop :=
  ∃ row, σ.outboxEvents.lookup id = some row ∧ row.event = event

/-- The calls of a dispatch are those of the event's subscribers, and the fulfilled
ones have completed. -/
def Covers (D : Dispatcher) (σ : DeliverySystem) (id : Id) (event : DomainEvent)
    (results : Results) : Prop :=
  results.map Prod.fst = D.subscribersFor event.type ∧
    ∀ s, (s, some Settled.fulfilled) ∈ results → (id, s) ∈ σ.completed

/-- The rest of a poller's batch. -/
def restOf : Poller → List (Id × OutboxEvent)
  | .idle => []
  | .looping rows => rows
  | .dispatching _ _ _ rows => rows
  | .marking _ _ _ rows => rows
  | .recording _ _ _ _ rows => rows
  | .scheduling _ rows => rows

/-- The dispatch a poller is busy with agrees with the tables. -/
def DispatchSound (D : Dispatcher) (σ : DeliverySystem) : Poller → Prop
  | .dispatching id event results _ => σ.Published id event ∧ Covers D σ id event results
  | .marking id event results _ =>
    σ.Published id event ∧ Covers D σ id event results ∧ ∀ r ∈ results, r.2.isSome
  | .recording id _ _ _ _ => σ.IsMarked id
  | _ => True

/-- What a poller holds agrees with the tables. -/
def PollerSound (D : Dispatcher) (σ : DeliverySystem) (p : Poller) : Prop :=
  (∀ r ∈ restOf p, σ.Published r.1 r.2.event) ∧ DispatchSound D σ p

theorem Grows.published (h : Grows σ τ) {id : Id} {event : DomainEvent}
    (hp : σ.Published id event) : τ.Published id event := by
  obtain ⟨row, hrow, hevent⟩ := hp
  obtain ⟨row', hrow', heq⟩ := h.events id row hrow
  exact ⟨row', hrow', heq.trans hevent⟩

theorem Grows.covers (h : Grows σ τ) {id : Id} {event : DomainEvent} {results : Results}
    (hc : Covers D σ id event results) : Covers D τ id event results :=
  ⟨hc.1, fun s hs => h.completed _ (hc.2 s hs)⟩

/-- What a poller knows stays true while others move. -/
theorem Grows.pollerSound (h : Grows σ τ) {p : Poller} (hp : PollerSound D σ p) :
    PollerSound D τ p := by
  refine ⟨fun r hr => h.published (hp.1 r hr), ?_⟩
  rcases p with _ | _ | ⟨id, event, results, rows⟩ | ⟨id, event, results, rows⟩ | _ | _
  · trivial
  · trivial
  · exact ⟨h.published hp.2.1, h.covers hp.2.2⟩
  · exact ⟨h.published hp.2.1, h.covers hp.2.2.1, hp.2.2.2⟩
  · exact h.marked _ hp.2
  · trivial

theorem published_of_mem_rowsOf {ids : List Id} {r : Id × OutboxEvent} (hr : r ∈ σ.rowsOf ids) :
    σ.Published r.1 r.2.event := by
  obtain ⟨id, -, hrow⟩ := List.mem_filterMap.mp hr
  obtain ⟨row, hlookup, rfl⟩ := Option.map_eq_some_iff.mp hrow
  exact ⟨row, hlookup, rfl⟩

/-- Settling one call leaves the others, and the subscribers, as they are. -/
theorem Covers.settle {id : Id} {event : DomainEvent} {results : Results} {i : ℕ}
    {s : RegisteredSubscriber} {result : Settled} (hc : Covers D σ id event results)
    (hi : results[i]? = some (s, none)) :
    Covers D
      { σ with completed := if result = .fulfilled then σ.completed ++ [(id, s)] else σ.completed }
      id event (results.set i (s, some result)) := by
  refine ⟨?_, fun s' hs' => ?_⟩
  · rw [List.map_set, ← hc.1]
    refine List.ext_getElem? fun j => ?_
    rw [List.getElem?_set]
    split_ifs with hij hlt
    · rw [← hij, List.getElem?_map, hi]
      rfl
    · rw [← hij, List.getElem?_eq_none (not_lt.mp hlt)]
    · rfl
  · simp only
    rcases List.mem_or_eq_of_mem_set hs' with hold | hnew
    · have := hc.2 s' hold
      split_ifs with hr
      · exact List.mem_append_left _ this
      · exact this
    · obtain ⟨rfl, hresult⟩ := Prod.mk.inj hnew
      rw [if_pos (Option.some.inj hresult).symm]
      exact List.mem_append_right _ List.mem_cons_self

theorem PollerStep.sound {p p' : Poller} {a : PollerAction} (h : PollerStep D σ p a τ p')
    (hp : PollerSound D σ p) : PollerSound D τ p' := by
  have hrest : ∀ r ∈ restOf p, τ.Published r.1 r.2.event :=
    fun r hr => h.grows.published (hp.1 r hr)
  cases h with
  | poll _ => exact ⟨fun r hr => published_of_mem_rowsOf hr, trivial⟩
  | finish => exact ⟨hrest, trivial⟩
  | take =>
    refine ⟨fun r hr => hrest r (List.mem_cons_of_mem _ hr), hrest _ List.mem_cons_self, ?_, ?_⟩
    · rw [List.map_map]
      exact List.map_id _
    · intro s hs
      obtain ⟨s', -, heq⟩ := List.mem_map.mp hs
      cases heq
  | settle hi => exact ⟨hrest, hp.2.1, hp.2.2.settle hi⟩
  | settled hall => exact ⟨hrest, hp.2.1, hp.2.2, List.all_eq_true.mp hall⟩
  | mark =>
    split_ifs with hf
    · exact ⟨hrest, trivial⟩
    · obtain ⟨row, hrow, -⟩ := hp.2.1
      exact ⟨hrest, isMarked_markDispatched (.inl ⟨rfl, row, hrow⟩)⟩
  | record => exact ⟨hrest, hp.2⟩
  | recorded => exact ⟨hrest, trivial⟩
  | add => exact ⟨hrest, trivial⟩
  | scheduled => exact ⟨hrest, trivial⟩
  | markFails => exact ⟨hrest, trivial⟩
  | recordFails => exact ⟨hrest, trivial⟩
  | addFails => exact ⟨hrest, trivial⟩
  | markLost => exact ⟨hrest, trivial⟩
  | recordLost => exact ⟨hrest, trivial⟩
  | addLost => exact ⟨hrest, trivial⟩
  | crash => exact ⟨fun _ hr => absurd hr List.not_mem_nil, trivial⟩

/-! ## Who marks a row dispatched -/

theorem lookup_markDispatched {id id' : Id} {now : JsDate} {row' : OutboxEvent}
    (h : (σ.markDispatched id now).outboxEvents.lookup id' = some row')
    (hd : row'.status = .dispatched) :
    (∃ row, σ.outboxEvents.lookup id' = some row ∧ row.event = row'.event ∧
      row.status = .dispatched) ∨
    (id' = id ∧ σ.IsPending id ∧ σ.Published id row'.event) := by
  simp only [markDispatched, Table.lookup_update] at h
  split_ifs at h with hid
  · obtain ⟨row, hrow, heq⟩ := Option.map_eq_some_iff.mp h
    split_ifs at heq with hp
    · refine .inr ⟨hid, ?_, row, hrow, ?_⟩
      · rw [IsPending, hrow, Option.map_some, hp]
      · rw [← heq]
    · subst heq
      rw [hid]
      exact .inl ⟨row, hrow, rfl, hd⟩
  · exact .inl ⟨row', h, rfl, hd⟩

/-- Only marking writes to the outbox. -/
theorem PollerStep.outboxEvents_cases {p p' : Poller} {a : PollerAction}
    (h : PollerStep D σ p a τ p') : τ.outboxEvents = σ.outboxEvents ∨
      ∃ id event results rows now, p = .marking id event results rows ∧ a.takesEffect ∧
        τ.outboxEvents = (σ.markDispatched id now).outboxEvents := by
  cases h with
  | mark | markLost => exact .inr ⟨_, _, _, _, _, rfl, rfl, rfl⟩
  | add | addLost => exact .inl (addJob_outboxEvents _ _)
  | poll _ | finish | take | settle _ | settled _ | record | recorded | scheduled | markFails
  | recordFails | addFails | recordLost | crash => exact .inl rfl

/-- A row that is dispatched after a step was so before, or the step marked it. -/
theorem dispatched_cases {l : Label} (h : next D σ l = some τ) {id : Id} {row' : OutboxEvent}
    (hrow : τ.outboxEvents.lookup id = some row') (hd : row'.status = .dispatched) :
    (∃ row, σ.outboxEvents.lookup id = some row ∧ row.event = row'.event ∧
      row.status = .dispatched) ∨
    (∃ i action event results rows, l = .poller i action ∧ action.takesEffect ∧
      σ.pollers i = .marking id event results rows ∧ σ.IsPending id ∧
      σ.Published id row'.event) := by
  have same : ∀ ρ : DeliverySystem, ρ.outboxEvents = σ.outboxEvents →
      ρ.outboxEvents.lookup id = some row' → ∃ row, σ.outboxEvents.lookup id = some row ∧
        row.event = row'.event ∧ row.status = .dispatched := by
    intro ρ hρ hrow
    rw [hρ] at hrow
    exact ⟨row', hrow, rfl, hd⟩
  rcases next_cases h with ⟨id', event, now, -, -, rfl⟩ | ⟨i, a, ρ, p, rfl, hstep, rfl⟩ |
    ⟨key, result, job, -, -, rfl⟩ | ⟨key, again, job, -, -, -, rfl⟩ |
    ⟨i, result, key, job, -, -, -, rfl⟩ | ⟨i, a, ρ, o, -, hstep, rfl⟩
  · obtain ⟨-, rfl⟩ | ⟨-, hrow⟩ := Table.lookup_insert_cases hrow
    · cases hd
    · exact .inl ⟨row', hrow, rfl, hd⟩
  · rcases hstep.outboxEvents_cases with hsame |
      ⟨id', event, results, rows, now, hp, heffect, hmarked⟩
    · exact .inl (same _ hsame hrow)
    · simp only [hmarked] at hrow
      rcases lookup_markDispatched hrow hd with hbefore | ⟨rfl, hpending, hpub⟩
      · exact .inl hbefore
      · exact .inr ⟨i, a, event, results, rows, rfl, heffect, hp, hpending, hpub⟩
  · exact .inl (same _ rfl hrow)
  · exact .inl (same _ rfl hrow)
  · exact .inl (same _ rfl hrow)
  · exact .inl (same _ hstep.outboxEvents_eq hrow)

theorem next_sound {l : Label} (h : next D σ l = some τ)
    (hs : ∀ i, PollerSound D σ (σ.pollers i)) (i : ℕ) : PollerSound D τ (τ.pollers i) := by
  have hgrows := next_grows h
  rcases next_cases h with ⟨id, event, now, -, -, rfl⟩ | ⟨j, a, ρ, p, -, hstep, rfl⟩ |
    ⟨key, result, job, -, -, rfl⟩ | ⟨key, again, job, -, -, -, rfl⟩ |
    ⟨j, result, key, job, -, -, -, rfl⟩ | ⟨j, a, ρ, o, -, hstep, rfl⟩
  · exact hgrows.pollerSound (hs i)
  · by_cases hij : i = j
    · rw [hij]
      simp only [Function.update_self]
      exact hstep.sound (hs j)
    · simp only [Function.update_of_ne hij]
      exact hgrows.pollerSound (hs i)
  · exact hgrows.pollerSound (hs i)
  · exact hgrows.pollerSound (hs i)
  · exact hgrows.pollerSound (hs i)
  · simp only [hstep.pollers_eq]
    exact hgrows.pollerSound (hs i)

/-- In every run, what the pollers hold agrees with the tables. -/
theorem Runs.sound {ls : List Label} (hr : Runs D ls σ) (i : ℕ) : PollerSound D σ (σ.pollers i) := by
  refine Reaches.invariant (P := fun σ => ∀ i, PollerSound D σ (σ.pollers i))
    ?_ ?_ hr i
  · exact fun _ => ⟨fun _ h => absurd h List.not_mem_nil, trivial⟩
  · intro t l u ht _ hn
    exact next_sound hn ht

/-! ## Whose failures are recorded -/

/-- Only of an event that is not pending any more are failures recorded. -/
def FailuresMarked (σ : DeliverySystem) : Prop :=
  ∀ key row, σ.deliveries.lookup key = some row → σ.IsMarked key.1

theorem FailuresMarked.of_lookup (h : FailuresMarked σ) (hgrows : Grows σ τ)
    (hold : ∀ key row, τ.deliveries.lookup key = some row →
      ∃ row', σ.deliveries.lookup key = some row') : FailuresMarked τ := by
  intro key row hrow
  obtain ⟨row', hrow'⟩ := hold key row hrow
  exact hgrows.marked _ (h key row' hrow')

theorem lookup_of_update {t : Deliveries} {key key' : DeliveryKey}
    {f : FailedEventDelivery → FailedEventDelivery} {row : FailedEventDelivery}
    (h : (t.update key f).lookup key' = some row) : ∃ row', t.lookup key' = some row' := by
  have hmem := (Table.mem_update t key key' f).mp (Finmap.mem_of_lookup_eq_some h)
  exact Finmap.mem_iff.mp hmem

theorem lookup_of_jobStep {key key' : DeliveryKey} {job : Job} {result : CallResult}
    {row : FailedEventDelivery}
    (h : (jobStep D σ key job result).deliveries.lookup key' = some row) :
    ∃ row', σ.deliveries.lookup key' = some row' := by
  rcases @jobStep_writes D σ key job result with heq | ⟨f, heq⟩
  · exact ⟨row, by rw [← heq, h]⟩
  · rw [heq] at h
    exact lookup_of_update h

theorem lookup_of_operatorStep {o o' : Operator} {a : OperatorAction} {key : DeliveryKey}
    {row : FailedEventDelivery} (h : OperatorStep σ o a τ o')
    (hrow : τ.deliveries.lookup key = some row) : ∃ row', σ.deliveries.lookup key = some row' := by
  cases h with
  | request | fail => exact ⟨row, hrow⟩
  | add | addLost =>
    obtain ⟨jobs, hjobs⟩ := σ.addJob_eq _
    rw [hjobs] at hrow
    exact ⟨row, hrow⟩
  | write | writeLost => exact lookup_of_update hrow

/-- A poller records failures after it has marked the event. -/
theorem PollerStep.failuresMarked {p p' : Poller} {a : PollerAction}
    (h : PollerStep D σ p a τ p') (hp : PollerSound D σ p) (hf : FailuresMarked σ) :
    FailuresMarked τ := by
  cases h with
  | @record id event failure failures recorded rows now
  | @recordLost id event failure failures recorded rows now =>
    intro key row hrow
    obtain ⟨new, -, hlookup⟩ := lookup_upsert σ.deliveries (id, failure.subscriberName) key
      event.type failure.error (organizationIdFromPayload event.payload)
    rw [recordFailure, hlookup] at hrow
    split_ifs at hrow with hkey
    · rw [hkey]
      exact hp.2
    · exact hf key row hrow
  | mark | markLost => exact hf.of_lookup (markDispatched_grows _ _) fun _ row hrow => ⟨row, hrow⟩
  | @add key recorded rows now | @addLost key recorded rows now =>
    obtain ⟨jobs, hjobs⟩ := σ.addJob_eq key
    rw [hjobs]
    exact hf
  | _ => exact hf

theorem failuresMarked_next {l : Label} (h : next D σ l = some τ)
    (hs : ∀ i, PollerSound D σ (σ.pollers i)) (hf : FailuresMarked σ) : FailuresMarked τ := by
  have hgrows := next_grows h
  rcases next_cases h with ⟨id, event, now, -, -, rfl⟩ | ⟨i, a, ρ, p, -, hstep, rfl⟩ |
    ⟨key, result, job, -, -, rfl⟩ | ⟨key, again, job, -, -, -, rfl⟩ |
    ⟨i, result, key, job, -, -, -, rfl⟩ | ⟨i, a, ρ, o, -, hstep, rfl⟩
  · exact hf.of_lookup hgrows fun _ row hrow => ⟨row, hrow⟩
  · exact hstep.failuresMarked (hs i) hf
  · exact hf.of_lookup hgrows fun _ _ hrow => lookup_of_jobStep hrow
  · exact hf
  · exact hf.of_lookup hgrows fun _ _ hrow => lookup_of_jobStep hrow
  · exact hf.of_lookup hgrows fun _ _ hrow => lookup_of_operatorStep hstep hrow

/-- In every run, no failure of a pending event is recorded. -/
theorem Runs.failuresMarked {ls : List Label} (hr : Runs D ls σ) : FailuresMarked σ := by
  have hboth : (∀ i, PollerSound D σ (σ.pollers i)) ∧ FailuresMarked σ := by
    refine Reaches.invariant
      (P := fun σ => (∀ i, PollerSound D σ (σ.pollers i)) ∧ FailuresMarked σ) ?_ ?_ hr
    · exact ⟨fun _ => ⟨fun _ h => absurd h List.not_mem_nil, trivial⟩,
        fun _ _ hrow => by cases hrow⟩
    · intro t l u ht _ hn
      exact ⟨next_sound hn ht.1, failuresMarked_next hn ht.1 ht.2⟩
  exact hboth.2

/-! ## The result -/

/-- When a poller is about to mark an event, each of its subscribers has completed or has failed
in the dispatch. -/
theorem DispatchSound.outcome {id : Id} {event event' : DomainEvent} {results : Results}
    {rows : List (Id × OutboxEvent)} (hp : DispatchSound D σ (.marking id event results rows))
    (hpub : σ.Published id event') {s : RegisteredSubscriber}
    (hsub : s ∈ D.subscribersFor event'.type) :
    (id, s) ∈ σ.completed ∨ ∃ error, (s, some (.rejected error)) ∈ results := by
  obtain ⟨⟨row, hrow, rfl⟩, ⟨hsubs, hfulfilled⟩, hall⟩ := hp
  obtain ⟨row', hrow', rfl⟩ := hpub
  obtain rfl := Option.some.inj (hrow.symm.trans hrow')
  rw [← hsubs] at hsub
  obtain ⟨⟨_, outcome⟩, hr, rfl⟩ := List.mem_map.mp hsub
  obtain ⟨outcome, rfl⟩ := Option.isSome_iff_exists.mp (hall _ hr)
  cases outcome with
  | fulfilled => exact .inl (hfulfilled _ hr)
  | rejected error => exact .inr ⟨error, hr⟩

/-- A step keeps every dispatched event accounted for, unless it marks one too early. -/
theorem dispatchedAccounted_next {l : Label} (h : next D σ l = some τ)
    (hs : ∀ i, PollerSound D σ (σ.pollers i)) (ha : DispatchedAccounted D σ)
    (hl : ¬ σ.MarksTooEarly l) : DispatchedAccounted D τ := by
  intro id row' hrow hd s hsub
  have hgrows := next_grows h
  rcases dispatched_cases h hrow hd with ⟨row, hold, hevent, hstatus⟩ |
    ⟨i, action, event, results, rows, rfl, heffect, hp, hpending, hpub⟩
  · rw [← hevent] at hsub
    exact hgrows.accounted (ha id row hold hstatus s hsub)
  · have hsound := (hs i).2
    rw [hp] at hsound
    refine hgrows.accounted (.inl ?_)
    rcases hsound.outcome hpub hsub with hcompleted | ⟨error, hr⟩
    · exact hcompleted
    · by_contra hnot
      apply hl
      simp only [MarksTooEarly, hp]
      exact ⟨heffect, hpending, s, error, hr, hnot⟩

/-- Marking an event too early leaves a subscriber unaccounted for: its failure cannot have
been recorded. -/
theorem not_dispatchedAccounted_next {l : Label} (h : next D σ l = some τ)
    (hs : ∀ i, PollerSound D σ (σ.pollers i)) (hf : FailuresMarked σ) (hl : σ.MarksTooEarly l) :
    ¬ DispatchedAccounted D τ := by
  intro ha
  obtain ⟨i, action, rfl⟩ : ∃ i action, l = .poller i action := by
    cases l with
    | poller i action => exact ⟨i, action, rfl⟩
    | _ => exact absurd hl id
  simp only [MarksTooEarly] at hl
  rcases hp : σ.pollers i with _ | _ | _ | ⟨id, event, results, rows⟩ | _ | _ <;>
    rw [hp] at hl <;> try exact hl
  obtain ⟨heffect, hpending, s, error, hr, hnot⟩ := hl
  obtain ⟨⟨row, hrow, rfl⟩, ⟨hsubs, -⟩, -⟩ := (hp ▸ (hs i).2 :
    DispatchSound D σ (.marking id event results rows))
  have hstatus : row.status = .pending := by
    rw [IsPending, hrow] at hpending
    exact Option.some.inj hpending
  -- the call marks the row, and nothing else
  obtain ⟨now, pollers, rfl⟩ : ∃ now pollers, τ = { σ.markDispatched id now with pollers } := by
    cases action with
    | proceed now | lose now =>
      simp only [next, hp, pollerStep, Option.map_some, Option.some.injEq] at h
      exact ⟨now, _, h.symm⟩
    | _ => cases heffect
  have hafter : (σ.markDispatched id now).outboxEvents.lookup id =
      some { row with status := .dispatched, dispatchedAt := some now } := by
    simp only [markDispatched, Table.lookup_update, hrow, Option.map_some, if_true, hstatus]
  have hsub : s ∈ D.subscribersFor row.event.type := by
    rw [← hsubs]
    exact List.mem_map_of_mem hr
  rcases ha id _ hafter rfl s hsub with hcompleted | ⟨failed, hfailed⟩
  · exact hnot hcompleted
  · obtain ⟨row', hrow', hmarked⟩ := hf _ _ hfailed
    obtain rfl := Option.some.inj (hrow.symm.trans hrow')
    exact hmarked hstatus

/-- **When dispatched events are accounted for**: in every state of a run, every
subscriber of every dispatched event has completed or is recorded as failed,
exactly when no step of the run marks a pending row while a subscriber that failed
in that dispatch has not completed on the event in another one. -/
theorem dispatched_accounted_iff {ls : List Label} (hr : Runs D ls σ) :
    (∀ before after ρ, ls = before ++ after → Runs D before ρ → DispatchedAccounted D ρ) ↔
    ∀ before l after ρ, ls = before ++ l :: after → Runs D before ρ → ¬ ρ.MarksTooEarly l := by
  refine ⟨?_, ?_⟩
  · intro haccounted before l after ρ hls hρ hearly
    -- the run goes on from `ρ`, to a state of the same run
    obtain ⟨υ, hn⟩ : ∃ υ, next D ρ l = some υ := by
      have hall := hr.runLabels_eq
      rw [hls, runLabels_append, hρ.runLabels_eq, Option.bind_some] at hall
      obtain ⟨υ, hn, -⟩ := Option.bind_eq_some_iff.mp hall
      exact ⟨υ, hn⟩
    refine not_dispatchedAccounted_next hn (Runs.sound hρ) (Runs.failuresMarked hρ) hearly ?_
    exact haccounted (before ++ [l]) after υ (by rw [hls, List.append_assoc]; rfl)
      (.snoc hρ trivial hn)
  · intro hearly before
    induction before using List.reverseRecOn with
    | nil =>
      intro after ρ _ hρ
      obtain rfl := Option.some.inj hρ.runLabels_eq
      intro id row hrow
      cases hrow
    | append_singleton before l ih =>
      intro after ρ hls hρ
      obtain ⟨π, hπ, -, hn⟩ := hρ.of_snoc
      rw [List.append_assoc] at hls
      exact dispatchedAccounted_next hn (Runs.sound hπ) (ih ([l] ++ after) π hls hπ)
        (hearly before l after π hls hπ)

/-! ## Two polls of one event -/

namespace Sample

/-- The audit log listens to every event. -/
def auditSubscriber : RegisteredSubscriber := ⟨"AuditSubscriber", 1⟩

def dispatcher : Dispatcher := ⟨∅, [auditSubscriber]⟩

/-- The run 201 of the organization 1 is submitted. -/
def submitted : DomainEvent :=
  ⟨"payroll.run_submitted", "PayrollRun", 201, [("organizationId", .id 1)]⟩

def noon : JsDate := ⟨12 * 60 * 60 * 1000, by decide⟩

/-- Two events: the subscriber completes on the first, and the call that marks it fails although
it takes effect. The second is dispatched by two pollers; the subscriber completes in the one and
fails in the other, which marks the event and records the failure, while the first poller dies. -/
def marksInTime : List Label :=
  [.enqueue 1 submitted noon, .enqueue 2 submitted noon, .poller 0 (.poll [1, 2]),
    .poller 0 (.proceed noon), .poller 0 (.settle 0 .fulfilled), .poller 0 (.proceed noon),
    .poller 0 (.lose noon), .poller 1 (.poll [2]), .poller 1 (.proceed noon),
    .poller 0 (.proceed noon), .poller 1 (.settle 0 .fulfilled),
    .poller 0 (.settle 0 (.rejected "connection refused")), .poller 0 (.proceed noon),
    .poller 0 (.proceed noon), .poller 0 (.proceed noon), .poller 1 .crash]

/-- Whoever failed in the dispatch of a poller that marks has completed in another one. -/
def inTime (σ : DeliverySystem) : Label → Bool
  | .poller i _ =>
    match σ.pollers i with
    | .marking id _ results _ => results.all fun r => decide (r.2 = some .fulfilled) ||
        decide ((id, r.1) ∈ σ.completed)
    | _ => true
  | _ => true

theorem not_marksTooEarly_of_inTime (σ : DeliverySystem) (l : Label) (h : inTime σ l) :
    ¬ σ.MarksTooEarly l := by
  intro hearly
  cases l with
  | poller i action =>
    simp only [MarksTooEarly] at hearly
    split at hearly
    · next id event results rows hp =>
      obtain ⟨-, -, s, error, hr, hnot⟩ := hearly
      simp only [inTime, hp, List.all_eq_true, Bool.or_eq_true, decide_eq_true_eq] at h
      rcases h _ hr with hfulfilled | hcompleted
      · cases hfulfilled
      · exact hnot hcompleted
    · exact hearly
  | _ => exact hearly

/-- The subscriber fails, and the poller dies once it has marked the row. -/
def diesAfterMarking : List Label :=
  [.enqueue 1 submitted noon, .poller 0 (.poll [1]), .poller 0 (.proceed noon),
    .poller 0 (.settle 0 (.rejected "connection refused")), .poller 0 (.proceed noon),
    .poller 0 (.proceed noon), .poller 0 .crash]

/-- The state after some steps. -/
def state (ls : List Label) : DeliverySystem :=
  (runLabels (next dispatcher) initial ls).getD initial

theorem runs {ls : List Label} (h : (runLabels (next dispatcher) initial ls).isSome) :
    Runs dispatcher ls (state ls) := by
  obtain ⟨σ, hσ⟩ := Option.isSome_iff_exists.mp h
  rw [state, hσ]
  exact reaches_of_runLabels hσ

end Sample

/-- Two events are dispatched in time, the second by the poller whose subscriber failed. -/
theorem dispatched_accounted_iff_sample : ∃ σ, Runs Sample.dispatcher Sample.marksInTime σ ∧
    ([1, 2].map fun id => (σ.outboxEvents.lookup id).map OutboxEvent.status) =
      [some .dispatched, some .dispatched] ∧
    ∀ before after ρ, Sample.marksInTime = before ++ after →
      Runs Sample.dispatcher before ρ → DispatchedAccounted Sample.dispatcher ρ := by
  have hr := Sample.runs (show (runLabels (next Sample.dispatcher) initial
    Sample.marksInTime).isSome by decide +kernel)
  obtain ⟨_, hok⟩ : ∃ σ, Reaches (next Sample.dispatcher) (fun σ l => ¬ σ.MarksTooEarly l) initial
      Sample.marksInTime σ :=
    exists_reaches_of_checked Sample.not_marksTooEarly_of_inTime (by decide +kernel)
  refine ⟨_, hr, by decide +kernel, (dispatched_accounted_iff hr).mpr ?_⟩
  intro before l after ρ hls hρ
  exact (hls ▸ hok).ok_of_append_cons hρ

/-- **A failed subscriber is lost**: the poller marks the row and dies before it
records the failure. The row is not polled again, the subscriber has not
completed, and no failed delivery says so. -/
theorem dispatched_unaccounted : ∃ σ row,
    Runs Sample.dispatcher Sample.diesAfterMarking σ ∧ σ.outboxEvents.lookup 1 = some row ∧
      row.status = .dispatched ∧
      Sample.auditSubscriber ∈ Sample.dispatcher.subscribersFor row.event.type ∧
      ¬ σ.Accounted 1 Sample.auditSubscriber ∧ ¬ DispatchedAccounted Sample.dispatcher σ := by
  have hr := Sample.runs (show (runLabels (next Sample.dispatcher) initial
    Sample.diesAfterMarking).isSome by decide +kernel)
  have hstatus : ((Sample.state Sample.diesAfterMarking).outboxEvents.lookup 1).map (·.status) =
      some .dispatched := by
    decide +kernel
  have hcompleted : (1, Sample.auditSubscriber) ∉
      (Sample.state Sample.diesAfterMarking).completed := by
    decide +kernel
  have hrecorded : ((Sample.state Sample.diesAfterMarking).deliveries.lookup
      (1, Sample.auditSubscriber.name)).isNone := by
    decide +kernel
  obtain ⟨row, hrow, hdispatched⟩ := Option.map_eq_some_iff.mp hstatus
  have hsub : Sample.auditSubscriber ∈ Sample.dispatcher.subscribersFor row.event.type := by
    exact List.mem_singleton_self _
  have hnot : ¬ (Sample.state Sample.diesAfterMarking).Accounted 1 Sample.auditSubscriber := by
    rintro (hc | ⟨row', hrow'⟩)
    · exact hcompleted hc
    · rw [hrow'] at hrecorded
      cases hrecorded
  exact ⟨_, row, hr, hrow, hdispatched, hsub, hnot,
    fun ha => hnot (ha 1 row hrow hdispatched _ hsub)⟩

end RatelPlatform.DeliverySystem
