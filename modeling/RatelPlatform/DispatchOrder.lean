import RatelPlatform.DispatchedEvents
import RatelPlatform.PeriodLifecycle
import RatelPlatform.Precedence

/-!
# The order of dispatch

An aggregate records its events in some order, and the transaction that stores it
enqueues them with one statement. The rows of one statement get the same creation time
and random ids, and a poller sorts pending rows by their creation time only: the order in
which the events were recorded is not stored.

`dispatched_in_order` says when a single poller nevertheless dispatches the events of an
aggregate in that order: whenever a transaction enqueues an event, the creation time grows
over the rows the aggregate has by then. Of two waiting rows for which it does not, a poll
may return the later one first (`dispatched_out_of_order`), and no transaction that
processes a payroll run meets the condition (`process_not_spaced`).
-/

namespace RatelPlatform

/-- The aggregate that recorded an event: its type and its id. -/
def DomainEvent.aggregate (e : DomainEvent) : String × Id := (e.aggregateType, e.aggregateId)

/-- Commands on the store, and the delivery of the events they enqueue. -/
structure PublishingSystem where
  store : Store
  delivery : DeliverySystem
  /-- the rows of the outbox, in the order in which their events were recorded -/
  recorded : List (Id × DomainEvent)
  /-- the rows handed to the dispatcher, in the order in which they were -/
  handed : List Id

namespace PublishingSystem

open DeliverySystem (IsPending IsPendingBatch rowsOf restOf PollerStep)

/-- Nothing has happened yet. -/
def initial (administration : Administration) : PublishingSystem where
  store := .initial administration
  delivery := .initial
  recorded := []
  handed := []

/-- What can happen. -/
inductive Label
  /-- a command; its events get these ids and this creation time -/
  | command (request : Request) (ids : List Id) (now : JsDate)
  /-- a transaction on what the store does not hold: employees, salary structures,
  reference data -/
  | publish (events : List DomainEvent) (ids : List Id) (now : JsDate)
  /-- the poller, the only one -/
  | poller (action : PollerAction)
  | worker (key : DeliveryKey) (result : CallResult)
  | stall (key : DeliveryKey) (again : Bool)
  | straggler (i : ℕ) (result : CallResult)
  | operator (i : ℕ) (action : OperatorAction)

variable (D : Dispatcher)

/-- `createMany`: the rows get one creation time. -/
def record (now : JsDate) :
    PublishingSystem → List (Id × DomainEvent) → Option PublishingSystem
  | σ, [] => some σ
  | σ, (id, event) :: rows =>
    (DeliverySystem.next D σ.delivery (.enqueue id event now)).bind fun delivery =>
      record now { σ with delivery, recorded := σ.recorded ++ [(id, event)] } rows

/-- The row a poller hands to the dispatcher with its next step. -/
def handing : Poller → PollerAction → List Id
  | .looping ((id, _) :: _), .proceed _ => [id]
  | _, _ => []

/-- One step. -/
def next (σ : PublishingSystem) : Label → Option PublishingSystem
  | .command request ids now =>
    (RatelPlatform.next σ.store request).bind fun store =>
      let events := σ.store.newEvents store
      if ids.length = events.length then record D now { σ with store } (ids.zip events) else none
  | .publish events ids now =>
    if ids.length = events.length then record D now σ (ids.zip events) else none
  | .poller action =>
    (DeliverySystem.next D σ.delivery (.poller 0 action)).map fun delivery =>
      { σ with delivery, handed := σ.handed ++ handing (σ.delivery.pollers 0) action }
  | .worker key result =>
    (DeliverySystem.next D σ.delivery (.worker key result)).map fun delivery =>
      { σ with delivery }
  | .stall key again =>
    (DeliverySystem.next D σ.delivery (.stall key again)).map fun delivery => { σ with delivery }
  | .straggler i result =>
    (DeliverySystem.next D σ.delivery (.straggler i result)).map fun delivery =>
      { σ with delivery }
  | .operator i action =>
    (DeliverySystem.next D σ.delivery (.operator i action)).map fun delivery =>
      { σ with delivery }

/-- The aggregate recorded the event of the one row before that of the other. -/
def RecordedBefore (aggregate : String × Id) (recorded : List (Id × DomainEvent)) (a b : Id) :
    Prop :=
  ∃ e e', [(a, e), (b, e')].Sublist recorded ∧ e.aggregate = aggregate ∧ e'.aggregate = aggregate

/-- **The property**: when an event of the aggregate is dispatched, those it recorded
before have been. -/
def DispatchedInOrder (aggregate : String × Id) (σ : PublishingSystem) : Prop :=
  Respects (RecordedBefore aggregate σ.recorded) σ.handed

/-- At most one of the new events is of the aggregate, and it is created later than those
the aggregate has. -/
def Spaced (aggregate : String × Id) (σ : PublishingSystem) (events : List DomainEvent)
    (now : JsDate) : Prop :=
  (events.Pairwise fun e e' => e.aggregate = aggregate → e'.aggregate ≠ aggregate) ∧
    ∀ e ∈ events, e.aggregate = aggregate → ∀ r ∈ σ.recorded, r.2.aggregate = aggregate →
      σ.delivery.createdAt r.1 < now.ms

instance (aggregate : String × Id) (σ : PublishingSystem) (events : List DomainEvent)
    (now : JsDate) : Decidable (Spaced aggregate σ events now) :=
  inferInstanceAs (Decidable (_ ∧ _))

/-- **The condition**: along the events of the aggregate the creation time grows. -/
def EnqueuesSpaced (aggregate : String × Id) (σ : PublishingSystem) : Label → Prop
  | .command request _ now =>
    ∀ store ∈ RatelPlatform.next σ.store request,
      Spaced aggregate σ (σ.store.newEvents store) now
  | .publish events _ now => Spaced aggregate σ events now
  | _ => True

instance (aggregate : String × Id) (σ : PublishingSystem) (l : Label) :
    Decidable (EnqueuesSpaced aggregate σ l) :=
  match l with
  | .command request _ now => inferInstanceAs (Decidable
      (∀ store ∈ RatelPlatform.next σ.store request,
        Spaced aggregate σ (σ.store.newEvents store) now))
  | .publish events _ now => inferInstanceAs (Decidable (Spaced aggregate σ events now))
  | .poller _ => isTrue trivial
  | .worker _ _ => isTrue trivial
  | .stall _ _ => isTrue trivial
  | .straggler _ _ => isTrue trivial
  | .operator _ _ => isTrue trivial

variable {D} {aggregate : String × Id} {σ τ : PublishingSystem}

/-! ## What a poller holds -/

/-- The row whose event a poller has handed over and will mark. -/
def current : Poller → List Id
  | .dispatching id _ _ _ => [id]
  | .marking id _ _ _ => [id]
  | _ => []

/-- The rows a poller will hand over. -/
def waiting (p : Poller) : List Id := (restOf p).map Prod.fst

theorem current_of_pollerStep {σ τ : DeliverySystem} {p p' : Poller} {a : PollerAction}
    (h : PollerStep D σ p a τ p') : ∀ id ∈ current p', id ∈ current p ∨ id ∈ handing p a := by
  cases h with
  | mark =>
    split_ifs
    · simp [current]
    · simp [current]
  | poll _ | finish | take | settle _ | settled _ | record | recorded | add | scheduled | markFails
  | recordFails | addFails | markLost | recordLost | addLost | crash => simp [current, handing]

/-- A poller starts a batch, gives one up, or hands over what is next. -/
theorem waiting_of_pollerStep {σ τ : DeliverySystem} {p p' : Poller} {a : PollerAction}
    (h : PollerStep D σ p a τ p') :
    (∃ ids, p = .idle ∧ a = .poll ids ∧ σ.IsPendingBatch ids ∧ p' = .looping (σ.rowsOf ids)) ∨
      (handing p a = [] ∧ waiting p' = []) ∨ handing p a ++ waiting p' = waiting p := by
  cases h with
  | poll hids => exact .inl ⟨_, rfl, rfl, hids, rfl⟩
  | crash =>
    refine .inr (.inl ⟨?_, rfl⟩)
    simp only [handing]
  | mark =>
    refine .inr (.inr ?_)
    split_ifs
    · rfl
    · rfl
  | finish | take | settle _ | settled _ | record | recorded | add | scheduled | markFails
  | recordFails | addFails | markLost | recordLost | addLost => exact .inr (.inr rfl)

theorem map_fst_rowsOf {σ : DeliverySystem} {ids : List Id} (h : ∀ id ∈ ids, σ.IsPending id) :
    (σ.rowsOf ids).map Prod.fst = ids := by
  induction ids with
  | nil => rfl
  | cons id ids ih =>
    obtain ⟨row, hrow, -⟩ := Option.map_eq_some_iff.mp (h id List.mem_cons_self)
    have hrest := ih fun id' hid => h id' (List.mem_cons_of_mem _ hid)
    simp only [DeliverySystem.rowsOf] at hrest
    simp [DeliverySystem.rowsOf, hrow, hrest]

/-! ## What a run keeps -/

/-- What is kept as long as the events of an aggregate are enqueued one after the other:
the rows handed over and those of the batch stand in their order. -/
structure InStep (aggregate : String × Id) (σ : PublishingSystem) : Prop where
  stored : ∀ id, id ∈ σ.delivery.outboxEvents ↔ id ∈ σ.recorded.map Prod.fst
  dispatched : ∀ id row, σ.delivery.outboxEvents.lookup id = some row → row.status ≠ .pending →
    id ∈ σ.handed
  current : ∀ id ∈ current (σ.delivery.pollers 0), id ∈ σ.handed
  known : ∀ id ∈ σ.handed ++ waiting (σ.delivery.pollers 0), id ∈ σ.delivery.outboxEvents
  spaced : σ.recorded.Pairwise fun r r' => r.2.aggregate = aggregate → r'.2.aggregate = aggregate →
    σ.delivery.createdAt r.1 < σ.delivery.createdAt r'.1
  order : Respects (RecordedBefore aggregate σ.recorded)
    (σ.handed ++ waiting (σ.delivery.pollers 0))

theorem InStep.initial (administration : Administration) :
    InStep aggregate (.initial administration) where
  stored := by simp [PublishingSystem.initial, DeliverySystem.initial, Finmap.notMem_empty]
  dispatched := fun _ _ h => nomatch h
  current := by simp [PublishingSystem.initial, DeliverySystem.initial, PublishingSystem.current]
  known := by
    simp [PublishingSystem.initial, DeliverySystem.initial, waiting, DeliverySystem.restOf]
  spaced := .nil
  order := .nil

/-- The later of two events of an aggregate is enqueued later. -/
theorem InStep.createdAt_lt (h : InStep aggregate σ) {a b : Id}
    (hab : RecordedBefore aggregate σ.recorded a b) :
    σ.delivery.createdAt a < σ.delivery.createdAt b := by
  obtain ⟨e, e', hsub, he, he'⟩ := hab
  exact List.pairwise_iff_forall_sublist.mp h.spaced hsub he he'

theorem RecordedBefore.mem_left {recorded : List (Id × DomainEvent)} {a b : Id}
    (h : RecordedBefore aggregate recorded a b) : a ∈ recorded.map Prod.fst := by
  obtain ⟨e, e', hsub, -⟩ := h
  exact List.mem_map.mpr ⟨(a, e), hsub.subset (by simp), rfl⟩

/-- Steps that leave the outbox and the poller alone. -/
theorem InStep.of_eq (h : InStep aggregate σ) {delivery : DeliverySystem}
    (houtbox : delivery.outboxEvents = σ.delivery.outboxEvents)
    (hpollers : delivery.pollers = σ.delivery.pollers) : InStep aggregate { σ with delivery } := by
  have hcreated : delivery.createdAt = σ.delivery.createdAt := by
    funext id
    rw [DeliverySystem.createdAt, houtbox, DeliverySystem.createdAt]
  refine ⟨?_, ?_, ?_, ?_, ?_, ?_⟩
  · simpa only [houtbox] using h.stored
  · simpa only [houtbox] using h.dispatched
  · simpa only [hpollers] using h.current
  · simpa only [houtbox, hpollers] using h.known
  · simpa only [hcreated] using h.spaced
  · simpa only [hpollers] using h.order

/-! ### Enqueueing -/

/-- **A row that comes later** than those its aggregate has. -/
theorem InStep.enqueue (h : InStep aggregate σ) {id : Id} {event : DomainEvent} {now : JsDate}
    (hnew : σ.delivery.outboxEvents.lookup id = none)
    (hlater : event.aggregate = aggregate → ∀ r ∈ σ.recorded, r.2.aggregate = aggregate →
      σ.delivery.createdAt r.1 < now.ms) :
    InStep aggregate { σ with
      delivery := { σ.delivery with
        outboxEvents := σ.delivery.outboxEvents.insert id ⟨event, .pending, now, none⟩ }
      recorded := σ.recorded ++ [(id, event)] } := by
  have hne : ∀ id' ∈ σ.delivery.outboxEvents, id' ≠ id := by
    rintro id' hmem rfl
    exact Finmap.lookup_eq_none.mp hnew hmem
  refine ⟨fun id' => ?_, fun id' row hrow hstatus => ?_, h.current, fun id' hid => ?_, ?_, ?_⟩
  · rw [Finmap.mem_insert, h.stored id']
    simp [or_comm]
  · obtain ⟨-, rfl⟩ | ⟨-, hrow⟩ := Table.lookup_insert_cases hrow
    · exact absurd rfl hstatus
    · exact h.dispatched id' row hrow hstatus
  · rw [Finmap.mem_insert]
    exact .inr (h.known id' hid)
  · have hold : ∀ r ∈ σ.recorded, DeliverySystem.createdAt { σ.delivery with
        outboxEvents := σ.delivery.outboxEvents.insert id ⟨event, .pending, now, none⟩ } r.1 =
        σ.delivery.createdAt r.1 := by
      intro r hr
      have hmem := (h.stored r.1).mpr (List.mem_map_of_mem hr)
      simp only [DeliverySystem.createdAt, Finmap.lookup_insert_of_ne _ (hne r.1 hmem)]
    refine List.pairwise_append.mpr ⟨?_, List.pairwise_singleton _ _, ?_⟩
    · refine h.spaced.imp_of_mem fun hr hr' hlt => ?_
      rw [hold _ hr, hold _ hr']
      exact hlt
    · intro r hr r' hr' hof hof'
      obtain rfl := List.mem_singleton.mp hr'
      rw [hold r hr]
      simpa [DeliverySystem.createdAt] using hlater hof' r hr hof
  · refine h.order.mono fun b hb a hab => ?_
    obtain ⟨e, e', hsub, hof⟩ := hab
    rcases pair_sublist_concat hsub with hsub | ⟨-, hb'⟩
    · exact ⟨e, e', hsub, hof⟩
    · -- the new row has not been handed over
      cases hb'
      exact absurd rfl (hne _ (h.known _ hb))

theorem record_inStep {now : JsDate} {rows : List (Id × DomainEvent)} (h : InStep aggregate σ)
    (hspaced : Spaced aggregate σ (rows.map Prod.snd) now) (hn : record D now σ rows = some τ) :
    InStep aggregate τ := by
  induction rows generalizing σ with
  | nil =>
    cases hn
    exact h
  | cons row rows ih =>
    obtain ⟨id, event⟩ := row
    obtain ⟨delivery, henqueue, hn⟩ := Option.bind_eq_some_iff.mp hn
    obtain ⟨hpairwise, hlater⟩ := hspaced
    rw [List.map_cons, List.pairwise_cons] at hpairwise
    simp only [DeliverySystem.next] at henqueue
    split at henqueue
    · cases henqueue
    · next hnew =>
      cases henqueue
      refine ih (h.enqueue hnew (hlater event (by simp))) ⟨hpairwise.2, ?_⟩ hn
      intro e he hof r hr hof'
      rcases List.mem_append.mp hr with hr | hr
      · have hmem := (h.stored r.1).mpr (List.mem_map_of_mem hr)
        have hne : r.1 ≠ id := fun heq => Finmap.lookup_eq_none.mp hnew (heq ▸ hmem)
        simp only [DeliverySystem.createdAt, Finmap.lookup_insert_of_ne _ hne]
        exact hlater e (List.mem_cons_of_mem _ he) hof r hr hof'
      · obtain rfl := List.mem_singleton.mp hr
        exact absurd hof (hpairwise.1 e he hof')

/-! ### Polling -/

/-- What has to precede a row of a batch has been handed over, or is in the batch. -/
theorem InStep.mem_batch (h : InStep aggregate σ) {ids : List Id}
    (hids : σ.delivery.IsPendingBatch ids) {a b : Id} (hb : b ∈ ids)
    (hab : RecordedBefore aggregate σ.recorded a b) : a ∈ σ.handed ∨ a ∈ ids := by
  obtain ⟨-, -, -, -, hrest⟩ := hids
  have hmem := (h.stored a).mpr hab.mem_left
  obtain ⟨row, hrow⟩ := Finmap.mem_iff.mp hmem
  by_cases hstatus : row.status = .pending
  · by_cases hin : a ∈ ids
    · exact .inr hin
    · have hpending : σ.delivery.IsPending a := by
        rw [DeliverySystem.IsPending, hrow, Option.map_some, hstatus]
      obtain ⟨-, holdest⟩ := hrest a ((Table.mem_keys_iff _ _).mpr ⟨row, hrow⟩) hpending hin
      exact absurd (h.createdAt_lt hab) (not_lt.mpr (holdest b hb))
  · exact .inl (h.dispatched a row hrow hstatus)

/-- The rows handed over and those that wait stand in their order after each step of the
poller. -/
theorem InStep.order_next (h : InStep aggregate σ) {ρ : DeliverySystem} {p : Poller}
    {action : PollerAction}
    (hstep : PollerStep D σ.delivery (σ.delivery.pollers 0) action ρ p) :
    Respects (RecordedBefore aggregate σ.recorded)
      (σ.handed ++ handing (σ.delivery.pollers 0) action ++ waiting p) := by
  rcases waiting_of_pollerStep hstep with ⟨ids, hp, rfl, hids, rfl⟩ | ⟨hnone, hgone⟩ | hsame
  · have hwaiting : waiting (.looping (σ.delivery.rowsOf ids)) = ids := map_fst_rowsOf hids.2.1
    rw [hp, hwaiting]
    simp only [handing, List.append_nil]
    apply h.order.of_append.append_sorted
    · exact fun a b hab => h.createdAt_lt hab
    · exact hids.2.2.1
    · exact fun b hb a hab => h.mem_batch hids hb hab
  · rw [hnone, hgone, List.append_nil, List.append_nil]
    exact h.order.of_append
  · rw [List.append_assoc, hsame]
    exact h.order

theorem InStep.pollerStep (h : InStep aggregate σ) {ρ : DeliverySystem} {p : Poller}
    {action : PollerAction}
    (hstep : PollerStep D σ.delivery (σ.delivery.pollers 0) action ρ p) :
    InStep aggregate { σ with
      delivery := { ρ with pollers := Function.update σ.delivery.pollers 0 p }
      handed := σ.handed ++ handing (σ.delivery.pollers 0) action } := by
  have hmem : ∀ id, id ∈ ρ.outboxEvents ↔ id ∈ σ.delivery.outboxEvents := by
    intro id
    rcases hstep.outboxEvents_cases with heq | ⟨_, _, _, _, _, -, -, heq⟩
    · rw [heq]
    · rw [heq, DeliverySystem.markDispatched, Table.mem_update]
  have hcreated : ∀ id, DeliverySystem.createdAt
      { ρ with pollers := Function.update σ.delivery.pollers 0 p } id =
        σ.delivery.createdAt id := by
    intro id
    simp only [DeliverySystem.createdAt]
    rcases hstep.outboxEvents_cases with heq | ⟨id', _, _, _, _, -, -, heq⟩
    · rw [heq]
    · simp only [heq, DeliverySystem.markDispatched, Table.lookup_update]
      split_ifs with hid
      · rw [hid]
        rcases σ.delivery.outboxEvents.lookup id' with _ | row
        · rfl
        · simp only [Option.map_some]
          split_ifs
          · rfl
          · rfl
      · rfl
  refine ⟨fun id => (hmem id).trans (h.stored id), fun id row hrow hstatus => ?_, fun id hid => ?_,
    fun id hid => ?_, ?_, ?_⟩
  · apply List.mem_append_left
    rcases hstep.outboxEvents_cases with heq | ⟨id', _, _, _, _, hp, -, heq⟩
    · simp only [heq] at hrow
      exact h.dispatched id row hrow hstatus
    · simp only [heq, DeliverySystem.markDispatched, Table.lookup_update] at hrow
      split_ifs at hrow with hid
      · apply h.current
        simp [hp, PublishingSystem.current, hid]
      · exact h.dispatched id row hrow hstatus
  · simp only [Function.update_self] at hid
    exact List.mem_append.mpr ((current_of_pollerStep hstep id hid).imp_left (h.current id))
  · simp only [Function.update_self] at hid
    rw [hmem]
    rcases waiting_of_pollerStep hstep with ⟨ids, hp, rfl, hids, rfl⟩ | ⟨hnone, hgone⟩ | hsame
    · have hwaiting : waiting (.looping (σ.delivery.rowsOf ids)) = ids := map_fst_rowsOf hids.2.1
      rw [hp, hwaiting] at hid
      simp only [handing, List.append_nil, List.mem_append] at hid
      rcases hid with hid | hid
      · exact h.known id (List.mem_append_left _ hid)
      · obtain ⟨row, hrow, -⟩ := Option.map_eq_some_iff.mp (hids.2.1 id hid)
        exact Finmap.mem_of_lookup_eq_some hrow
    · rw [hnone, hgone, List.append_nil, List.append_nil] at hid
      exact h.known id (List.mem_append_left _ hid)
    · rw [List.append_assoc, hsame] at hid
      exact h.known id hid
  · simpa only [hcreated] using h.spaced
  · simpa only [Function.update_self] using h.order_next hstep

/-! ### Every step -/

theorem InStep.next (h : InStep aggregate σ) {l : Label} (hok : EnqueuesSpaced aggregate σ l)
    (hn : next D σ l = some τ) : InStep aggregate τ := by
  have hzip : ∀ {ids : List Id} {events : List DomainEvent}, ids.length = events.length →
      (ids.zip events).map Prod.snd = events := fun hlength => List.map_snd_zip (by omega)
  cases l with
  | command request ids now =>
    obtain ⟨store, hstore, hn⟩ := Option.bind_eq_some_iff.mp hn
    simp only at hn
    split_ifs at hn with hlength
    have hstored : InStep aggregate { σ with store } := ⟨h.1, h.2, h.3, h.4, h.5, h.6⟩
    apply record_inStep hstored _ hn
    rw [hzip hlength]
    exact hok store hstore
  | publish events ids now =>
    simp only [PublishingSystem.next] at hn
    split_ifs at hn with hlength
    apply record_inStep h _ hn
    rw [hzip hlength]
    exact hok
  | poller action =>
    obtain ⟨delivery, hdelivery, rfl⟩ := Option.map_eq_some_iff.mp hn
    obtain ⟨⟨ρ, p⟩, hstep, rfl⟩ := Option.map_eq_some_iff.mp hdelivery
    exact h.pollerStep (DeliverySystem.pollerStep_cases hstep)
  | worker key result =>
    obtain ⟨delivery, hdelivery, rfl⟩ := Option.map_eq_some_iff.mp hn
    obtain ⟨job, -, rfl⟩ := Option.map_eq_some_iff.mp hdelivery
    exact h.of_eq rfl rfl
  | stall key again =>
    obtain ⟨delivery, hdelivery, rfl⟩ := Option.map_eq_some_iff.mp hn
    obtain ⟨job, -, hstall⟩ := Option.bind_eq_some_iff.mp hdelivery
    by_cases hactive : job.phase.isActive
    · rw [if_pos hactive] at hstall
      obtain rfl := Option.some.inj hstall
      exact h.of_eq rfl rfl
    · rw [if_neg hactive] at hstall
      cases hstall
  | straggler i result =>
    obtain ⟨delivery, hdelivery, rfl⟩ := Option.map_eq_some_iff.mp hn
    obtain ⟨⟨key, job⟩, -, hstep⟩ := Option.bind_eq_some_iff.mp hdelivery
    dsimp only at hstep
    split_ifs at hstep
    obtain rfl := Option.some.inj hstep
    exact h.of_eq rfl rfl
  | operator i action =>
    obtain ⟨delivery, hdelivery, rfl⟩ := Option.map_eq_some_iff.mp hn
    obtain ⟨⟨ρ, o⟩, hstep, rfl⟩ := Option.map_eq_some_iff.mp hdelivery
    have hcases := DeliverySystem.operatorStep_cases hstep
    have houtbox := hcases.outboxEvents_eq
    have hpollers := hcases.pollers_eq
    exact h.of_eq houtbox hpollers

/-- **The order of dispatch**: as long as along the events of an aggregate the creation
time grows, a single poller dispatches them in the order in which they were recorded. -/
theorem dispatched_in_order {administration : Administration} {labels : List Label}
    (hr : Reaches (next D) (EnqueuesSpaced aggregate) (initial administration) labels σ) :
    DispatchedInOrder aggregate σ :=
  (hr.invariant (P := InStep aggregate) (.initial administration)
    fun _ _ _ h hok hn => h.next hok hn).order.of_append

/-! ## Why the creation time has to grow -/

/-- The runs without a condition. -/
abbrev Leads (D : Dispatcher) (σ τ : PublishingSystem) : Prop :=
  ∃ labels, Reaches (next D) (fun _ _ => True) σ labels τ

theorem Leads.trans {ρ : PublishingSystem} (h : Leads D σ ρ) (h' : Leads D ρ τ) :
    Leads D σ τ := by
  obtain ⟨labels, hr⟩ := h
  obtain ⟨labels', hr'⟩ := h'
  exact ⟨_, hr.append hr'⟩

/-- A step of the poller. -/
theorem leads_poller {ρ : DeliverySystem} {p p' : Poller} {action : PollerAction}
    (hp : σ.delivery.pollers 0 = p)
    (hstep : DeliverySystem.pollerStep D σ.delivery p action = some (ρ, p')) :
    ∃ τ, Leads D σ τ ∧ τ.recorded = σ.recorded ∧ τ.handed = σ.handed ++ handing p action ∧
      τ.delivery.pollers 0 = p' := by
  refine ⟨{ σ with
    delivery := { ρ with pollers := Function.update σ.delivery.pollers 0 p' }
    handed := σ.handed ++ handing p action },
    ⟨[.poller action], .snoc .nil trivial ?_⟩, rfl, rfl, ?_⟩
  · simp [next, DeliverySystem.next, hp, hstep]
  · simp

/-- The subscribers settle, one after the other. -/
theorem leads_settled {id : Id} {event : DomainEvent} {rows : List (Id × OutboxEvent)}
    (settled unsettled : Results) (hsettled : ∀ r ∈ settled, r.2.isSome)
    (hp : σ.delivery.pollers 0 = .dispatching id event (settled ++ unsettled) rows) :
    ∃ τ results, Leads D σ τ ∧ τ.recorded = σ.recorded ∧ τ.handed = σ.handed ∧
      τ.delivery.pollers 0 = .dispatching id event results rows ∧
        ∀ r ∈ results, r.2.isSome := by
  induction unsettled generalizing σ settled with
  | nil =>
    rw [List.append_nil] at hp
    exact ⟨σ, settled, ⟨[], .nil⟩, rfl, rfl, hp, hsettled⟩
  | cons r unsettled ih =>
    obtain ⟨s, _ | result⟩ := r
    · have hstep : DeliverySystem.pollerStep D σ.delivery
          (.dispatching id event (settled ++ (s, none) :: unsettled) rows)
          (.settle settled.length .fulfilled) = some
            ({ σ.delivery with completed := σ.delivery.completed ++ [(id, s)] },
              .dispatching id event (settled ++ [(s, some .fulfilled)] ++ unsettled) rows) := by
        simp [DeliverySystem.pollerStep]
      obtain ⟨ρ, hleads, hrecorded, hhanded, hpoller⟩ := leads_poller hp hstep
      obtain ⟨τ, results, hleads', hrecorded', hhanded', hpoller', hall⟩ :=
        ih (settled ++ [(s, some .fulfilled)]) (by simpa [or_imp, forall_and] using hsettled)
          hpoller
      refine ⟨τ, results, hleads.trans hleads', hrecorded'.trans hrecorded, ?_, hpoller', hall⟩
      simpa [hhanded', handing] using hhanded
    · apply ih (settled ++ [(s, some result)])
      · simpa [or_imp, forall_and] using hsettled
      · simpa using hp

/-- The head of the batch is handed over, and the poller goes on with the rest. -/
theorem leads_dispatched {id : Id} {row : OutboxEvent} {rows : List (Id × OutboxEvent)}
    (hp : σ.delivery.pollers 0 = .looping ((id, row) :: rows)) :
    ∃ τ, Leads D σ τ ∧ τ.recorded = σ.recorded ∧ τ.handed = σ.handed ++ [id] ∧
      τ.delivery.pollers 0 = .looping rows := by
  obtain ⟨σ₁, hleads₁, hrecorded₁, hhanded₁, hp₁⟩ := leads_poller (D := D) hp
    (show DeliverySystem.pollerStep D _ _ (.proceed row.createdAt) = some _ from rfl)
  obtain ⟨σ₂, results, hleads₂, hrecorded₂, hhanded₂, hp₂, hall⟩ :=
    leads_settled (D := D) [] _ (by simp) hp₁
  have hsettled : DeliverySystem.pollerStep D σ₂.delivery (.dispatching id row.event results rows)
      (.proceed row.createdAt) = some (σ₂.delivery, .marking id row.event results rows) := by
    simp only [DeliverySystem.pollerStep, List.all_eq_true.mpr hall, if_true]
  obtain ⟨σ₃, hleads₃, hrecorded₃, hhanded₃, hp₃⟩ := leads_poller hp₂ hsettled
  -- the update that marks the row may fail: the loop goes on
  obtain ⟨τ, hleads, hrecorded, hhanded, hp'⟩ := leads_poller (D := D) hp₃
    (show DeliverySystem.pollerStep D _ _ .fail = some _ from rfl)
  refine ⟨τ, ((hleads₁.trans hleads₂).trans hleads₃).trans hleads, ?_, ?_, hp'⟩
  · rw [hrecorded, hrecorded₃, hrecorded₂, hrecorded₁]
  · rw [hhanded, hhanded₃, hhanded₂, hhanded₁]
    simp [handing]

/-- A batch is handed over up to one of its rows. -/
theorem leads_handed {rows₁ rows₂ : List (Id × OutboxEvent)} {id : Id} {row : OutboxEvent}
    (hp : σ.delivery.pollers 0 = .looping (rows₁ ++ (id, row) :: rows₂)) :
    ∃ τ, Leads D σ τ ∧ τ.recorded = σ.recorded ∧
      τ.handed = σ.handed ++ rows₁.map Prod.fst ++ [id] := by
  induction rows₁ generalizing σ with
  | nil =>
    obtain ⟨τ, hleads, hrecorded, hhanded, -⟩ := leads_dispatched (D := D) hp
    exact ⟨τ, hleads, hrecorded, by simpa using hhanded⟩
  | cons r rows₁ ih =>
    obtain ⟨ρ, hleads, hrecorded, hhanded, hp'⟩ := leads_dispatched (D := D) hp
    obtain ⟨τ, hleads', hrecorded', hhanded'⟩ := ih hp'
    refine ⟨τ, hleads.trans hleads', hrecorded'.trans hrecorded, ?_⟩
    simp [hhanded', hhanded]

/-- **Two rows whose creation times do not grow**: when both wait and the earlier event
has not been dispatched, the next batch may bring the later one first. -/
theorem dispatched_out_of_order {a b : Id} (hidle : σ.delivery.pollers 0 = .idle)
    (hfew : (σ.delivery.outboxEvents.keys.filter σ.delivery.IsPending).card ≤
      DeliverySystem.batchSize)
    (ha : σ.delivery.IsPending a) (hb : σ.delivery.IsPending b) (hne : a ≠ b)
    (hbefore : RecordedBefore aggregate σ.recorded a b) (hnot : a ∉ σ.handed)
    (hle : σ.delivery.createdAt b ≤ σ.delivery.createdAt a) :
    ∃ τ, Leads D σ τ ∧ ¬ DispatchedInOrder aggregate τ := by
  have hpending : ∀ id, id ∈ (σ.delivery.outboxEvents.keys.filter σ.delivery.IsPending).toList ↔
      σ.delivery.IsPending id := by
    intro id
    rw [Finset.mem_toList, Finset.mem_filter, and_iff_right_iff_imp, Table.mem_keys_iff]
    intro h
    obtain ⟨row, hrow, -⟩ := Option.map_eq_some_iff.mp h
    exact ⟨row, hrow⟩
  obtain ⟨ids₁, ids₂, hperm, hsorted, hafter⟩ := exists_sorted_reversed
    ((hpending a).mpr ha) ((hpending b).mpr hb) hne hle
  have hbatch : σ.delivery.IsPendingBatch (ids₁ ++ b :: ids₂) := by
    refine ⟨hperm.nodup_iff.mpr (Finset.nodup_toList _), ?_, hsorted, ?_, ?_⟩
    · exact fun id hid => (hpending id).mp (hperm.mem_iff.mp hid)
    · rw [hperm.length_eq, Finset.length_toList]
      exact hfew
    · intro id _ hid hout
      exact absurd (hperm.mem_iff.mpr ((hpending id).mpr hid)) hout
  have hpoll : DeliverySystem.pollerStep D σ.delivery .idle (.poll (ids₁ ++ b :: ids₂)) =
      some (σ.delivery, .looping (σ.delivery.rowsOf (ids₁ ++ b :: ids₂))) := by
    simp only [DeliverySystem.pollerStep, hbatch, if_true]
  obtain ⟨ρ, hleads, hrecorded, hhanded, hp⟩ := leads_poller hidle hpoll
  obtain ⟨row, hrow, -⟩ := Option.map_eq_some_iff.mp hb
  have hrows : σ.delivery.rowsOf (ids₁ ++ b :: ids₂) =
      σ.delivery.rowsOf ids₁ ++ (b, row) :: σ.delivery.rowsOf ids₂ := by
    simp [DeliverySystem.rowsOf, hrow]
  rw [hrows] at hp
  obtain ⟨τ, hleads', hrecorded', hhanded'⟩ := leads_handed (D := D) hp
  refine ⟨τ, hleads.trans hleads', fun horder => ?_⟩
  have hids₁ : (σ.delivery.rowsOf ids₁).map Prod.fst = ids₁ :=
    map_fst_rowsOf fun id hid => hbatch.2.1 id (List.mem_append_left _ hid)
  rw [DispatchedInOrder, hhanded', hhanded, hids₁, hrecorded', hrecorded] at horder
  have hmem := horder (σ.handed ++ ids₁) b [] (by simp [handing]) a hbefore
  -- neither before this batch nor in it before the later one
  rcases List.mem_append.mp hmem with hmem | hmem
  · exact hnot hmem
  · exact (List.nodup_append.mp hbatch.1).2.2 a hmem a (List.mem_cons_of_mem _ hafter) rfl

/-- **Processing a payroll run** enqueues two events of the run at once. -/
theorem process_not_spaced {env : Env} {cmd : ProcessPayrollRunCommand} {store : Store}
    (hok : (processPayrollRun env cmd).solo σ.store = .ok ((), store)) (now : JsDate) :
    ¬ Spaced ("PayrollRun", cmd.payrollRunId) σ (σ.store.newEvents store) now := by
  obtain ⟨row, -, -, -, rfl⟩ := processPayrollRun_ok.mp hok
  rintro ⟨hpairwise, -⟩
  simp only [Store.newEvents, List.drop_left] at hpairwise
  exact (List.pairwise_cons.mp hpairwise).1 _ (List.mem_singleton_self _) rfl rfl

/-- So does an adjustment that requires approval. -/
theorem adjustment_not_spaced {env : Env} {cmd : CreateAdjustmentCommand} {store : Store} {id : Id}
    (hfresh : σ.store.expenses.lookup env.uuid = none)
    (hok : (createAdjustment env cmd).solo σ.store = .ok (id, store))
    (hpending : (store.expenses.lookup env.uuid).map (·.status) = some .pendingApproval)
    (now : JsDate) : ¬ Spaced ("Expense", env.uuid) σ (σ.store.newEvents store) now := by
  obtain ⟨original, periodId, number, _, -, -, -, -, -, -, -, rfl⟩ := createAdjustment_ok hfresh hok
  rintro ⟨hpairwise, -⟩
  have hrequires : (adjustmentInput cmd original periodId number).requiresApproval = true := by
    by_contra hnot
    simp [adjustmentRow, ExpenseRepository.toRow, Expense.adjustmentProps, hnot] at hpending
  simp only [Store.newEvents, List.drop_left, Expense.adjustmentEvents, hrequires, if_true]
    at hpairwise
  exact (List.pairwise_cons.mp hpairwise).1 _ (List.mem_singleton_self _) rfl rfl

end PublishingSystem

namespace Sample

theorem tick_valid (n : Fin 100) :
    -8640000000000000 ≤ (43200000 + n : ℤ) ∧ (43200000 + n : ℤ) ≤ 8640000000000000 := by
  omega

/-- The first milliseconds after noon. -/
def tick (n : Fin 100) : JsDate := ⟨43200000 + n, tick_valid n⟩

open PublishingSystem in
/-- The poller hands a row to the audit log and marks it. -/
def handsOver : List Label :=
  [.poller (.proceed noon), .poller (.settle 0 .fulfilled), .poller (.proceed noon),
    .poller (.proceed noon)]

open PublishingSystem in
/-- A payroll run is created, and gets a payslip after a first poll. -/
def polledTwice : List Label :=
  [.command openJanuary [1] (tick 1), .command (createRun 201) [2] (tick 2),
      .poller (.poll [1, 2])] ++
    handsOver ++ .command (payslipFor 301 201 20) [3] (tick 3) :: handsOver ++
      [.poller (.proceed noon), .poller (.poll [3])] ++ handsOver

open PublishingSystem in
/-- The two events of the run being processed come in the other order. -/
def polledReversed : List Label :=
  [.command openJanuary [1] (tick 1), .command (createRun 201) [2] (tick 2),
      .command (payslipFor 301 201 20) [3] (tick 3), .command (submitRun 201) [4] (tick 4),
      .command (approveRun 201 14) [5] (tick 5), .command (processRun 201) [6, 7] (tick 6),
      .poller (.poll [1, 2, 3, 4, 5, 7, 6])] ++
    (List.replicate 6 handsOver).flatten

end Sample

namespace PublishingSystem

/-- Two batches of three events, in their order. -/
theorem dispatched_in_order_sample : ∃ σ, Reaches (next DeliverySystem.Sample.dispatcher)
    (EnqueuesSpaced ("PayrollRun", 201)) (initial Sample.administration) Sample.polledTwice σ ∧
      σ.handed = [1, 2, 3] ∧ DispatchedInOrder ("PayrollRun", 201) σ := by
  have hrun : (runLabels (fun σ l => if decide (EnqueuesSpaced ("PayrollRun", 201) σ l) = true then
      next DeliverySystem.Sample.dispatcher σ l else none) (initial Sample.administration)
        Sample.polledTwice).map PublishingSystem.handed = some [1, 2, 3] := by
    decide +kernel
  obtain ⟨σ, hσ, hhanded⟩ := Option.map_eq_some_iff.mp hrun
  have hr := reaches_of_checked_inv (I := fun _ => True) trivial (fun _ _ _ _ _ _ => trivial)
    (fun _ _ _ => of_decide_eq_true) hσ
  exact ⟨σ, hr, hhanded, dispatched_in_order hr⟩

theorem recordedBefore_of_aggregates {recorded : List (Id × DomainEvent)} {a b : Id}
    (h : [(a, aggregate), (b, aggregate)].Sublist
      (recorded.map fun r => (r.1, r.2.aggregate))) :
    RecordedBefore aggregate recorded a b := by
  obtain ⟨l, hsub, hl⟩ := List.sublist_map_iff.mp h
  obtain ⟨r, l, rfl, hr, hl⟩ := List.map_eq_cons_iff.mp hl.symm
  obtain ⟨r', l, rfl, hr', hl⟩ := List.map_eq_cons_iff.mp hl
  obtain rfl := List.map_eq_nil_iff.mp hl
  obtain ⟨rfl, hagg⟩ := Prod.mk.inj hr
  obtain ⟨rfl, hagg'⟩ := Prod.mk.inj hr'
  exact ⟨r.2, r'.2, hsub, hagg, hagg'⟩

/-- **Processed before it started**: the poller dispatches that a payroll run has been
processed, and has not dispatched that its processing started. -/
theorem processed_before_started : ¬ ∀ (D : Dispatcher) (administration : Administration)
    (labels : List Label) (σ : PublishingSystem) (aggregate : String × Id),
    Reaches (next D) (fun _ _ => True) (initial administration) labels σ →
      DispatchedInOrder aggregate σ := by
  intro hall
  have hrun : (runLabels (next DeliverySystem.Sample.dispatcher) (initial Sample.administration)
      Sample.polledReversed).map (fun σ => (σ.handed,
        σ.recorded.map fun r => (r.1, r.2.aggregate))) =
      some ([1, 2, 3, 4, 5, 7], [(1, "FinancialPeriod", 100), (2, "PayrollRun", 201),
        (3, "PayrollRun", 201), (4, "PayrollRun", 201), (5, "PayrollRun", 201),
        (6, "PayrollRun", 201), (7, "PayrollRun", 201)]) := by
    decide +kernel
  obtain ⟨σ, hσ, hfacts⟩ := Option.map_eq_some_iff.mp hrun
  obtain ⟨hhanded, hrecorded⟩ := Prod.mk.inj hfacts
  have horder := hall _ _ _ σ ("PayrollRun", 201) (reaches_of_runLabels hσ)
  rw [DispatchedInOrder, hhanded] at horder
  have hbefore : RecordedBefore ("PayrollRun", 201) σ.recorded 6 7 := by
    apply recordedBefore_of_aggregates
    rw [hrecorded]
    decide
  have hmem := horder [1, 2, 3, 4, 5] 7 [] rfl 6 hbefore
  simp at hmem

end PublishingSystem

end RatelPlatform
