import RatelPlatform.PeriodLifecycle

/-!
# The outbox tells the status

Every event an aggregate records goes to the outbox in the transaction that stores
the aggregate. What an event does to the status of an expense or of a payroll run
can be read off its type, so that the events of either, folded in the order they
were enqueued, give its stored status (`events_determine_status`).
-/

namespace RatelPlatform

/-! ## Folding events -/

/-- The types of the events of one aggregate, in the order they were enqueued. -/
def eventTypes (outbox : List DomainEvent) (aggregateType : String) (id : Id) : List String :=
  (outbox.filter fun e => e.aggregateType = aggregateType ∧ e.aggregateId = id).map DomainEvent.type

section Fold

variable {ρ σ : Type} {status : ρ → σ} {after : Option σ → String → Option σ}
  {aggregateType aggregateType' : String} {t : Table Id ρ} {outbox events : List DomainEvent}
  {id id' : Id} {row : ρ}

theorem eventTypes_append : eventTypes (outbox ++ events) aggregateType id =
    eventTypes outbox aggregateType id ++ eventTypes events aggregateType id := by
  simp only [eventTypes, List.filter_append, List.map_append]

/-- The events are those of one aggregate. -/
def EventsOf (aggregateType : String) (id : Id) (events : List DomainEvent) : Prop :=
  ∀ e ∈ events, e.aggregateType = aggregateType ∧ e.aggregateId = id

theorem EventsOf.nil : EventsOf aggregateType id [] := fun _ he => (List.not_mem_nil he).elim

theorem EventsOf.cons {e : DomainEvent} (he : e.aggregateType = aggregateType ∧ e.aggregateId = id)
    (h : EventsOf aggregateType id events) : EventsOf aggregateType id (e :: events) :=
  List.forall_mem_cons.mpr ⟨he, h⟩

theorem EventsOf.one {e : DomainEvent} (he : e.aggregateType = aggregateType ∧ e.aggregateId = id) :
    EventsOf aggregateType id [e] := .cons he .nil

theorem EventsOf.eventTypes_self (h : EventsOf aggregateType id events) :
    eventTypes events aggregateType id = events.map DomainEvent.type := by
  rw [eventTypes, List.filter_eq_self.mpr]
  exact fun e he => decide_eq_true (h e he)

theorem EventsOf.eventTypes_ne (h : EventsOf aggregateType id events)
    (hne : aggregateType' ≠ aggregateType ∨ id' ≠ id) :
    eventTypes events aggregateType' id' = [] := by
  rw [eventTypes, List.filter_eq_nil_iff.mpr, List.map_nil]
  intro e he
  obtain ⟨rfl, rfl⟩ := h e he
  simp only [decide_eq_true_eq, not_and]
  rintro rfl rfl
  simp at hne

/-- Every row has the status its events tell, and what has no row has none. -/
def Told (status : ρ → σ) (after : Option σ → String → Option σ) (aggregateType : String)
    (t : Table Id ρ) (outbox : List DomainEvent) : Prop :=
  ∀ id, (eventTypes outbox aggregateType id).foldl after none = (t.lookup id).map status

/-- Events of other aggregates tell nothing. -/
theorem Told.other (h : Told status after aggregateType t outbox)
    (hevents : EventsOf aggregateType' id events) (hne : aggregateType ≠ aggregateType') :
    Told status after aggregateType t (outbox ++ events) := by
  intro id'
  rw [eventTypes_append, hevents.eventTypes_ne (.inl hne), List.append_nil]
  exact h id'

/-- A row is written with the status its new events tell. -/
theorem Told.insert (h : Told status after aggregateType t outbox)
    (hevents : EventsOf aggregateType id events)
    (hstatus : (events.map DomainEvent.type).foldl after ((t.lookup id).map status) =
      some (status row)) :
    Told status after aggregateType (t.insert id row) (outbox ++ events) := by
  intro id'
  rw [eventTypes_append, List.foldl_append, h id', Table.lookup_insert_ite]
  split_ifs with hid
  · rw [hid, hevents.eventTypes_self]
    exact hstatus
  · rw [hevents.eventTypes_ne (.inr hid), List.foldl_nil]

/-- A status that differs has an event that tells it. -/
theorem Told.recorded {t' : Table Id ρ} (h : Told status after aggregateType t outbox)
    (h' : Told status after aggregateType t' (outbox ++ events))
    (hne : (t'.lookup id).map status ≠ (t.lookup id).map status) :
    ∃ e ∈ events, e.aggregateType = aggregateType ∧ e.aggregateId = id := by
  by_contra hnone
  refine hne ?_
  have hnil : eventTypes events aggregateType id = [] := by
    rw [eventTypes, List.filter_eq_nil_iff.mpr, List.map_nil]
    intro e he hof
    exact hnone ⟨e, he, of_decide_eq_true hof⟩
  rw [← h' id, ← h id, eventTypes_append, hnil, List.append_nil]

end Fold

/-! ## What the types tell -/

/-- The status of an expense after an event. An adjustment starts approved; that it
requires approval is told by the submission enqueued with it. -/
def afterExpenseEvent (status : Option ExpenseStatus) (type : String) : Option ExpenseStatus :=
  if type = "ExpenseDrafted" then some .draft
  else if type = "ExpenseSubmittedForApproval" then some .pendingApproval
  else if type = "ExpenseApproved" then some .approved
  else if type = "ExpenseRejected" then some .rejected
  else if type = "ExpenseCancelled" then some .cancelled
  else if type = "ExpenseAdjustmentCreated" then some .approved
  else status

/-- The status of a payroll run after an event. A rejected run is a draft again, and
a payslip leaves the status alone. -/
def afterPayrollRunEvent (status : Option PayrollRunStatus) (type : String) :
    Option PayrollRunStatus :=
  if type = "PayrollRunCreated" then some .draft
  else if type = "PayrollRunSubmittedForApproval" then some .pendingApproval
  else if type = "PayrollRunApproved" then some .approved
  else if type = "PayrollRunRejected" then some .draft
  else if type = "PayrollRunProcessingStarted" then some .processing
  else if type = "PayrollRunProcessed" then some .completed
  else if type = "PayrollRunCancelled" then some .cancelled
  else status

/-- The status of a row of `payroll_runs`. -/
def PayrollRunRow.status (row : PayrollRunRow) : PayrollRunStatus := row.columns.status

/-- The statuses of all expenses and payroll runs are those their events tell. -/
structure Store.EventSourced (d : Store) : Prop where
  expenses : Told ExpenseRow.status afterExpenseEvent "Expense" d.expenses d.outbox
  payrollRuns : Told PayrollRunRow.status afterPayrollRunEvent "PayrollRun" d.payrollRuns d.outbox

variable {d d' : Store} {env : Env} {a : Unit} {events : List DomainEvent}

/-- A step adds events to the outbox that tell what it does to the statuses. -/
structure EventStep (d d' : Store) : Prop where
  sourced : d.EventSourced → d'.EventSourced
  outbox : ∃ events, d'.outbox = d.outbox ++ events

theorem EventStep.expense {id : Id} {row : ExpenseRow}
    (hexpenses : d'.expenses = d.expenses.insert id row) (hruns : d'.payrollRuns = d.payrollRuns)
    (hout : d'.outbox = d.outbox ++ events) (hevents : EventsOf "Expense" id events)
    (hstatus : (events.map DomainEvent.type).foldl afterExpenseEvent
      ((d.expenses.lookup id).map ExpenseRow.status) = some row.status) : EventStep d d' := by
  refine ⟨fun h => ⟨?_, ?_⟩, events, hout⟩
  · rw [hexpenses, hout]
    exact h.expenses.insert hevents hstatus
  · rw [hruns, hout]
    exact h.payrollRuns.other hevents (by simp)

theorem EventStep.payrollRun {id : Id} {row : PayrollRunRow}
    (hruns : d'.payrollRuns = d.payrollRuns.insert id row) (hexpenses : d'.expenses = d.expenses)
    (hout : d'.outbox = d.outbox ++ events) (hevents : EventsOf "PayrollRun" id events)
    (hstatus : (events.map DomainEvent.type).foldl afterPayrollRunEvent
      ((d.payrollRuns.lookup id).map PayrollRunRow.status) = some row.status) : EventStep d d' := by
  refine ⟨fun h => ⟨?_, ?_⟩, events, hout⟩
  · rw [hexpenses, hout]
    exact h.expenses.other hevents (by simp)
  · rw [hruns, hout]
    exact h.payrollRuns.insert hevents hstatus

/-- The events of a period tell nothing of expenses and payroll runs. -/
theorem EventStep.period {periods : Table Id FinancialPeriodRow} {id : Id}
    (hevents : EventsOf "FinancialPeriod" id events) :
    EventStep d { d with financialPeriods := periods, outbox := d.outbox ++ events } :=
  ⟨fun h => ⟨h.expenses.other hevents (by simp), h.payrollRuns.other hevents (by simp)⟩, events, rfl⟩

/-! ## Every command -/

theorem Expense.adjustmentEvents_of {id : Id} {input : AdjustmentInput} :
    EventsOf "Expense" id (adjustmentEvents id input) := by
  simp only [adjustmentEvents]
  split_ifs
  · exact .cons ⟨rfl, rfl⟩ (.one ⟨rfl, rfl⟩)
  · exact .one ⟨rfl, rfl⟩

/-- A new adjustment has the status its events tell. -/
theorem Expense.adjustmentEvents_status {id : Id} {input : AdjustmentInput}
    {before : Option ExpenseStatus} :
    ((adjustmentEvents id input).map DomainEvent.type).foldl afterExpenseEvent before =
      some (if input.requiresApproval then .pendingApproval else .approved) := by
  simp only [adjustmentEvents]
  split_ifs
  · rfl
  · rfl

theorem EventStep.expenseCommand {cmd : ExpenseCommand} (hal : d.RecordsAligned)
    (hfresh : d.Fresh env.uuid) (hok : (cmd.program env).solo d = .ok (a, d')) :
    EventStep d d' := by
  have hnew := Finmap.lookup_eq_none.mpr hfresh.2.1
  cases cmd with
  | create cmd =>
    obtain ⟨_, hok⟩ := Tx.solo_discard_ok.mp hok
    obtain ⟨row, _, -, -, hstatus, -, -, -, rfl⟩ := createExpense_ok hnew hok
    refine .expense rfl rfl rfl (.one ⟨rfl, rfl⟩) ?_
    rw [hstatus]
    rfl
  | submit cmd =>
    obtain ⟨row, -, -, -, -, -, rfl⟩ := submitExpense_ok hok
    exact .expense rfl rfl rfl (.one ⟨rfl, rfl⟩) rfl
  | approve cmd =>
    obtain ⟨row, prow, _, hrow, -, -, -, -, -, -, -, -, rfl⟩ := approveExpense_ok hal hok
    refine @EventStep.expense _ _ (if _ then _ else _) _ _ rfl rfl rfl ?_ ?_
    · split_ifs
      · exact .one ⟨rfl, rfl⟩
      · exact .nil
    · split_ifs
      · rfl
      · -- an approval that is not the last one stores the expense as it was
        rw [hrow]
        rfl
  | reject cmd =>
    obtain ⟨row, _, -, -, -, -, -, -, -, rfl⟩ := rejectExpense_ok hal hok
    exact .expense rfl rfl rfl (.one ⟨rfl, rfl⟩) rfl
  | cancel cmd =>
    obtain ⟨row, -, -, -, -, rfl⟩ := cancelExpense_ok hok
    exact .expense rfl rfl rfl (.one ⟨rfl, rfl⟩) rfl
  | createAdjustment cmd =>
    obtain ⟨_, hok⟩ := Tx.solo_discard_ok.mp hok
    obtain ⟨_, _, _, _, -, -, -, -, -, -, -, rfl⟩ := createAdjustment_ok hnew hok
    exact .expense rfl rfl rfl Expense.adjustmentEvents_of Expense.adjustmentEvents_status

theorem EventStep.payrollCommand {cmd : PayrollCommand} (hal : d.RecordsAligned)
    (hfresh : d.Fresh env.uuid) (hok : (cmd.program env).solo d = .ok (a, d')) :
    EventStep d d' := by
  have hnew := Finmap.lookup_eq_none.mpr hfresh.2.2.2
  cases cmd with
  | create cmd =>
    obtain ⟨_, hok⟩ := Tx.solo_discard_ok.mp hok
    obtain ⟨_, -, rfl⟩ := createPayrollRun_ok hnew hok
    exact .payrollRun rfl rfl rfl (.one ⟨rfl, rfl⟩) rfl
  | addPayslip cmd =>
    obtain ⟨_, hok⟩ := Tx.solo_discard_ok.mp hok
    obtain ⟨row, _, hrow, -, -, -, -, -, rfl⟩ := addPayslip_ok hok
    refine .payrollRun rfl rfl rfl (.one ⟨rfl, rfl⟩) ?_
    rw [hrow]
    rfl
  | submit cmd =>
    obtain ⟨_, -, -, -, -, -, -, -, rfl⟩ := (@submitPayrollRun_ok env _ _ _ _).mp hok
    exact .payrollRun rfl rfl rfl (.one ⟨rfl, rfl⟩) rfl
  | approve cmd =>
    obtain ⟨row, _, _, hrow, -, -, -, -, -, -, -, -, -, rfl⟩ := (approvePayrollRun_ok hal).mp hok
    refine @EventStep.payrollRun _ _ (if _ then _ else _) _ _ rfl rfl rfl ?_ ?_
    · split_ifs
      · exact .one ⟨rfl, rfl⟩
      · exact .nil
    · split_ifs
      · rfl
      · rw [hrow]
        rfl
  | reject cmd =>
    obtain ⟨_, _, -, -, -, -, -, -, -, rfl⟩ := rejectPayrollRun_ok hal hok
    exact .payrollRun rfl rfl rfl (.one ⟨rfl, rfl⟩) rfl
  | cancel cmd =>
    obtain ⟨_, -, -, -, rfl⟩ := (@cancelPayrollRun_ok env _ _ _ _).mp hok
    exact .payrollRun rfl rfl rfl (.one ⟨rfl, rfl⟩) rfl
  | process cmd =>
    obtain ⟨_, -, -, -, rfl⟩ := (@processPayrollRun_ok env _ _ _ _).mp hok
    exact .payrollRun rfl rfl rfl (.cons ⟨rfl, rfl⟩ (.one ⟨rfl, rfl⟩)) rfl

theorem EventStep.periodCommand {cmd : PeriodCommand} (hfresh : d.Fresh env.uuid)
    (hok : (cmd.program env).solo d = .ok (a, d')) : EventStep d d' := by
  cases cmd with
  | «open» cmd =>
    obtain ⟨_, hok⟩ := Tx.solo_discard_ok.mp hok
    obtain rfl := openPeriod_ok (Finmap.lookup_eq_none.mpr hfresh.1) hok
    exact .period (.one ⟨rfl, rfl⟩)
  | close cmd =>
    obtain ⟨row, -, -, -, rfl⟩ := closePeriod_ok.mp hok
    exact .period (.one ⟨rfl, rfl⟩)
  | reopen cmd =>
    obtain ⟨row, -, -, -, -, rfl⟩ := (@reopenPeriod_ok env _ _ _ _).mp hok
    exact .period (.one ⟨rfl, rfl⟩)

theorem EventStep.command {cmd : Command} (hwf : d.WellFormed) (hfresh : d.Fresh env.uuid)
    (hok : (cmd.program env).solo d = .ok (a, d')) : EventStep d d' := by
  cases cmd with
  | administer administration =>
    obtain ⟨_, hp, rfl⟩ := Tx.solo_exec_ok.mp hok
    cases hp
    exact ⟨fun h => ⟨h.expenses, h.payrollRuns⟩, [], (List.append_nil _).symm⟩
  | period cmd => exact .periodCommand hfresh hok
  | expense cmd => exact .expenseCommand hwf.aligned hfresh hok
  | payroll cmd => exact .payrollCommand hwf.aligned hfresh hok

/-! ## Runs -/

theorem Store.eventSourced_initial (administration : Administration) :
    (Store.initial administration).EventSourced where
  expenses := fun _ => rfl
  payrollRuns := fun _ => rfl

variable {administration : Administration} {rs : List Request}

theorem Runs.eventSourced (hr : Runs administration rs d) : d.EventSourced := by
  refine hr.invariant_along (P := fun _ d => d.EventSourced)
    (Store.eventSourced_initial administration) ?_
  intro rs d r d' hr h _ hn
  obtain ⟨hfresh, ⟨-, rfl⟩ | hok⟩ := next_cases hn
  · exact h
  · exact (EventStep.command (Runs.wellFormed hr) hfresh hok).sourced h

/-- A transaction that changes the status of an expense or of a payroll run enqueues
an event of it. -/
structure RecordsChanges (d d' : Store) (events : List DomainEvent) : Prop where
  expenses : ∀ id, (d'.expenses.lookup id).map ExpenseRow.status ≠
      (d.expenses.lookup id).map ExpenseRow.status →
    ∃ e ∈ events, e.aggregateType = "Expense" ∧ e.aggregateId = id
  payrollRuns : ∀ id, (d'.payrollRuns.lookup id).map PayrollRunRow.status ≠
      (d.payrollRuns.lookup id).map PayrollRunRow.status →
    ∃ e ∈ events, e.aggregateType = "PayrollRun" ∧ e.aggregateId = id

/-- **The events determine the status**: after every run of commands, folding the
events of an expense or of a payroll run gives its stored status; a command that
commits enqueues an event of everything whose status it changes, and one that fails
enqueues nothing. -/
theorem events_determine_status (hr : Runs administration rs d) :
    (∀ id, (eventTypes d.outbox "Expense" id).foldl afterExpenseEvent none =
        (d.expenses.lookup id).map ExpenseRow.status) ∧
      (∀ id, (eventTypes d.outbox "PayrollRun" id).foldl afterPayrollRunEvent none =
        (d.payrollRuns.lookup id).map PayrollRunRow.status) ∧
      ∀ r d', next d r = some d' →
        (∀ d₁, (r.command.program r.env).solo d = .ok ((), d₁) → d' = d₁ ∧
          ∃ events, d'.outbox = d.outbox ++ events ∧ RecordsChanges d d' events) ∧
        ∀ e, (r.command.program r.env).solo d = .error e → d'.outbox = d.outbox := by
  have hsourced := hr.eventSourced
  refine ⟨hsourced.expenses, hsourced.payrollRuns, fun r d' hn => ?_⟩
  obtain ⟨hfresh, ⟨⟨e, he⟩, rfl⟩ | hok⟩ := next_cases hn
  · refine ⟨fun d₁ hok => ?_, fun _ _ => rfl⟩
    rw [he] at hok
    cases hok
  · have hstep := EventStep.command hr.wellFormed hfresh hok
    have hsourced' := hstep.sourced hsourced
    refine ⟨fun d₁ hok₁ => ?_, fun e he => ?_⟩
    · rw [hok] at hok₁
      cases hok₁
      obtain ⟨events, hout⟩ := hstep.outbox
      refine ⟨rfl, events, hout, fun id hne => ?_, fun id hne => ?_⟩
      · exact hsourced.expenses.recorded (hout ▸ hsourced'.expenses) hne
      · exact hsourced.payrollRuns.recorded (hout ▸ hsourced'.payrollRuns) hne
    · rw [hok] at he
      cases he

/-- An adjustment that raises an amount is told approved by its first event, and
pending by its second. -/
theorem events_determine_status_sample :
    (eventTypes (Sample.store [Sample.openJanuary, Sample.create 101 50000,
      Sample.adjust 102 101 80000]).outbox "Expense" 102).foldl afterExpenseEvent none =
        some .pendingApproval :=
  ((events_determine_status (Sample.runs (by decide +kernel))).1 102).trans (by decide +kernel)

end RatelPlatform
