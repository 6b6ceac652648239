import RatelPlatform.OrganizationSlices

/-!
# Organizations are apart

A command of an organization has the same outcome on its slice as on the whole store, and
leaves a slice (`Store.Slice.relates_command`). A command of another organization writes what
is that organization's, and so leaves the slice as it was (`Command.writtenBy`). So of a run
only the requests of the organization, and the changes that administrators make, decide what
it has and what it is answered (`organizations_apart`).
-/

namespace RatelPlatform

namespace Store.Slice

variable {O : Id} {d d' : Store} {α β : Type}

/-! ### The commands of the organization -/

/-- The slices of well-formed stores in which the id is free. -/
def Before (O uuid : Id) (d d' : Store) : Prop := Slice O d d' ∧ d.WellFormed ∧ d.Fresh uuid

theorem Before.slice {uuid : Id} (h : Before O uuid d d') : Slice O d d' := h.1

theorem Before.new {uuid : Id} (h : Before O uuid d d') : At O uuid d d' := at_of_fresh h.1 h.2.2

theorem Has.slice {id : Id} (h : Has O id d d') : Slice O d d' := h.1.toSlice

theorem eventOf_cons {type aggregateType : String} {aggregateId : Id}
    (payload : List (String × PayloadValue)) :
    EventOf O ⟨type, aggregateType, aggregateId, ("organizationId", .id O) :: payload⟩ := by
  simp [EventOf, organizationIdFromPayload]

/-- An item as it is loaded for a command of the organization: it is the one that is asked for,
one of the organization, and so are its events. -/
structure Mine (O id itemId organizationId : Id) (events : List DomainEvent) : Prop where
  id_eq : itemId = id
  organization_eq : organizationId = O
  events : ∀ e ∈ events, EventOf O e

theorem Mine.add {id itemId organizationId : Id} {events : List DomainEvent}
    (h : Mine O id itemId organizationId events) {type aggregateType : String} {aggregateId : Id}
    {payload : List (String × PayloadValue)} : Mine O id itemId organizationId (events ++
      [⟨type, aggregateType, aggregateId, ("organizationId", .id organizationId) :: payload⟩]) := by
  refine ⟨h.id_eq, h.organization_eq, fun e he => ?_⟩
  rcases List.mem_append.mp he with he | he
  · exact h.events e he
  · obtain rfl := List.mem_singleton.mp he
    rw [h.organization_eq]
    exact eventOf_cons payload

theorem mine_new (id : Id) {type aggregateType : String} {aggregateId : Id}
    {payload : List (String × PayloadValue)} :
    Mine O id id O [⟨type, aggregateType, aggregateId, ("organizationId", .id O) :: payload⟩] :=
  Mine.add (⟨rfl, rfl, by simp⟩ : Mine O id id O [])

/-- Saving a period of the organization, and enqueueing its events. -/
theorem relates_savesPeriod {period : FinancialPeriod} {id : Id}
    (h : Mine O id period.props.id period.props.organizationId period.domainEvents) :
    (do
      FinancialPeriodRepository.save period
      enqueue period.domainEvents : StoreTx Unit).Relates (AtPeriod O id) fun _ => Slice O := by
  obtain ⟨rfl, horg, hevents⟩ := h
  exact (relates_savePeriod horg).bind fun _ => relates_enqueue hevents

/-- The period that a command of the organization is about. -/
theorem relates_findsPeriod {uuid id : Id} : (findPeriod id O).Relates (Before O uuid)
    fun period d d' => Mine O id period.props.id period.props.organizationId period.domainEvents ∧
      AtPeriod O id d d' := by
  refine (relates_findPeriod id).mono (fun _ _ h => h.slice) ?_
  rintro period d d' ⟨h, row, hrow, horg, rfl⟩
  refine ⟨⟨rfl, horg, by simp [FinancialPeriodRepository.toDomain,
    FinancialPeriod.reconstitute]⟩, h, fun row' hrow' => ?_⟩
  obtain rfl := Option.some.inj (hrow.symm.trans hrow')
  exact horg

theorem relates_period (env : Env) (cmd : PeriodCommand) :
    (cmd.program env).Relates (Before cmd.organizationId env.uuid)
      fun _ => Slice cmd.organizationId := by
  cases cmd with
  | «open» cmd =>
    refine Tx.Relates.discard (Tx.Relates.ofExcept fun period hperiod => ?_)
    obtain ⟨-, rfl⟩ := FinancialPeriod.create_ok.mp hperiod
    refine ((relates_savePeriod rfl).mono (fun d d' h => ⟨h.slice, fun row hrow => ?_⟩)
      fun _ _ _ h => h).bind fun _ => ?_
    · cases (Finmap.lookup_eq_none.mpr h.2.2.1).symm.trans hrow
    · refine (relates_enqueue ?_).bind fun _ => Tx.relates_ret fun _ _ h => h
      exact (mine_new env.uuid).events
  | close cmd =>
    refine relates_findsPeriod.then fun period hmine => Tx.Relates.ofExcept fun period' hclose => ?_
    obtain ⟨-, rfl⟩ := FinancialPeriod.close_ok.mp hclose
    exact relates_savesPeriod hmine.add
  | reopen cmd =>
    refine relates_findsPeriod.then fun period hmine =>
      Tx.Relates.ofExcept fun period' hreopen => ?_
    obtain ⟨-, -, rfl⟩ := FinancialPeriod.reopen_ok.mp hreopen
    exact relates_savesPeriod hmine.add

/-- Saving an expense of the organization, and enqueueing its events. -/
theorem relates_savesExpense {expense : Expense} {id : Id}
    (h : Mine O id expense.props.id expense.props.organizationId expense.domainEvents) :
    (do
      ExpenseRepository.save expense
      enqueue expense.domainEvents : StoreTx Unit).Relates (Has O id) fun _ => Slice O :=
  ((relates_saveExpense h.id_eq h.organization_eq).mono (fun _ _ h => h.1) fun _ _ _ h =>
    h.slice).bind fun _ => relates_enqueue h.events

/-- The expense that a command of the organization is about. -/
theorem relates_findsExpense {uuid id : Id} : (findExpense id O).Relates (Before O uuid)
    fun expense d d' => Mine O id expense.props.id expense.props.organizationId
      expense.domainEvents ∧ Has O id d d' := by
  refine (((relates_findExpense id).mono (fun _ _ h => h.slice) fun _ _ _ h => h).keep
    (looks_findExpense (Q := fun _ => True) fun _ _ => trivial)).mono (fun _ _ h => h) ?_
  rintro expense d d' ⟨⟨h, row, hrow, horg, rfl⟩, -, -, hwf, -⟩
  exact ⟨⟨rfl, horg, by simp [ExpenseRepository.toDomain, Expense.reconstitute]⟩,
    has_of_expense h hwf hrow horg⟩

theorem looks_findPayrollRun {payrollRunId organizationId : Id} :
    (findPayrollRun payrollRunId organizationId).Looks fun _ => True := by
  simp only [findPayrollRun, PayrollRunRepository.findById, Tx.looks_bind, Tx.looks_select,
    Tx.pure_eq, Tx.looks_orFail, implies_true]
  rintro (_ | columns)
  · exact trivial
  · simp

/-- The payroll run that a command of the organization is about. -/
theorem relates_findsRun {uuid id : Id} : (findPayrollRun id O).Relates (Before O uuid)
    fun run d d' => Mine O id run.props.id run.props.organizationId run.domainEvents ∧
      Has O id d d' := by
  refine (((relates_findPayrollRun id).mono (fun _ _ h => h.slice) fun _ _ _ h => h).keep
    looks_findPayrollRun).mono (fun _ _ h => h) ?_
  rintro run d d' ⟨⟨h, row, hrow, horg, rfl⟩, -, -, hwf, -⟩
  exact ⟨⟨rfl, horg, by simp [PayrollRun.reconstitute]⟩, has_of_run h hwf hrow horg⟩

/-! ### Looking, and going on -/

section

variable {P : Store → Store → Prop} {R : α → Store → Store → Prop}

theorem relates_assertsActive {rows : Administration → List ReferenceRow} {entityType : String}
    {id : Id} {g : Unit → StoreTx α} (hP : ∀ d d', P d d' → Slice O d d')
    (hg : (g ()).Relates P R) : (assertActive rows entityType id O >>= g).Relates P R :=
  (relates_assertActive rows entityType id O).look (looks_assertActive (Q := fun _ => True) trivial)
    hP fun _ _ => hg

theorem relates_assertsActiveIfGiven {rows : Administration → List ReferenceRow}
    {entityType : String} {id : Option Id} {g : Unit → StoreTx α}
    (hP : ∀ d d', P d d' → Slice O d d') (hg : (g ()).Relates P R) :
    (assertActiveIfGiven rows entityType id O >>= g).Relates P R :=
  (relates_assertActiveIfGiven rows entityType id O).look
    (looks_assertActiveIfGiven (Q := fun _ => True) trivial) hP fun _ _ => hg

theorem relates_requiresOpenPeriod {tie : Id} {g : FinancialPeriod → StoreTx α}
    (hP : ∀ d d', P d d' → Slice O d d') (hg : ∀ period, (g period).Relates P R) :
    (requireOpenPeriod O tie >>= g).Relates P R :=
  (relates_requireOpenPeriod tie).look
    (looks_requireOpenPeriod (Q := fun _ => True) fun _ => trivial) hP fun period _ => hg period

theorem relates_assertsPeriodOpen {periodId : Id} {g : Unit → StoreTx α}
    (hP : ∀ d d', P d d' → Slice O d d') (hg : (g ()).Relates P R) :
    (assertPeriodOpen O periodId >>= g).Relates P R :=
  (relates_assertPeriodOpen periodId).look looks_assertPeriodOpen hP fun _ _ => hg

/-- The approval of an item goes on with its progress. -/
theorem relates_findsProgress {id itemId : Id} {R : α → Store → Store → Prop}
    {g : ApprovalProgress → StoreTx α} (hid : itemId = id)
    (hg : ∀ progress, (g progress).Relates (Has O id) R) :
    (findProgress itemId >>= g).Relates (Has O id) R := by
  rw [hid]
  exact (relates_findProgress id).look looks_findProgress (fun _ _ h => h) fun progress _ =>
    hg progress

/-- It goes on with what the workflow engine decides. -/
theorem relates_decides {id : Id} {m : StoreTx β} {φ : β → Prop}
    {g : β → StoreTx α} (hm : m.Relates (Slice O) fun _ _ _ => True) (hlooks : m.Looks φ)
    (hg : ∀ b, (g b).Relates (Has O id) R) : (m >>= g).Relates (Has O id) R :=
  hm.look hlooks (fun _ _ h => h.slice) fun b _ => hg b

end

theorem relates_expense (env : Env) (cmd : ExpenseCommand) :
    (cmd.program env).Relates (Before cmd.organizationId env.uuid)
      fun _ => Slice cmd.organizationId := by
  have hbefore : ∀ d d', Before cmd.organizationId env.uuid d d' →
    Slice cmd.organizationId d d' := fun _ _ h => h.slice
  have hhas : ∀ {id} d d', Has cmd.organizationId id d d' →
    Slice cmd.organizationId d d' := fun _ _ h => h.slice
  cases cmd with
  | create cmd =>
    refine Tx.Relates.discard (relates_requiresOpenPeriod hbefore fun openPeriod =>
      relates_assertsActive hbefore (relates_assertsActive hbefore
        (relates_assertsActiveIfGiven hbefore (relates_assertsActiveIfGiven hbefore ?_))))
    refine ((relates_nextExpenseNumber env.uuid).mono (fun _ _ h => h.new) fun _ _ _ h => h).bind
      fun number => Tx.Relates.ofExcept fun amount _ =>
      Tx.Relates.ofExcept fun expense hcreate => ?_
    obtain ⟨-, rfl⟩ := Expense.create_ok.mp hcreate
    refine Tx.Relates.bind (Q := fun _ => Has cmd.organizationId env.uuid) (relates_saveExpense
      (by rfl) (by rfl)) fun _ => Tx.Relates.bind (Q := fun _ => Slice cmd.organizationId)
      ((relates_enqueue (mine_new env.uuid).events).mono hhas fun _ _ _ h => h)
      fun _ => Tx.relates_ret fun _ _ h => h
  | submit cmd =>
    refine relates_findsExpense.then fun expense hmine => relates_assertsPeriodOpen hhas
      (Tx.Relates.ofExcept fun submitted hsubmit => ?_)
    obtain ⟨-, rfl⟩ := Expense.transition_ok.mp hsubmit
    simp only [startApproval]
    split_ifs
    · refine Tx.Relates.ofExcept fun approved happrove => ?_
      obtain ⟨-, rfl⟩ := Expense.transition_ok.mp happrove
      exact relates_savesExpense hmine.add.add
    · refine Tx.Relates.then (φ := fun e : Expense => Mine cmd.organizationId cmd.expenseId
        e.props.id e.props.organizationId e.domainEvents) ((relates_initializeProgress hmine.id_eq
        _ _).bind fun _ => Tx.relates_ret fun _ _ h => ⟨hmine.add, h⟩) fun e he =>
        relates_savesExpense he
  | approve cmd =>
    refine relates_findsExpense.then fun expense hmine => relates_assertsPeriodOpen hhas
      (relates_findsProgress hmine.id_eq fun progress => relates_decides
        (relates_recordApproval _ _ _ _) looks_recordApproval fun decided =>
        Tx.Relates.ofExcept fun expense' hexpense => ?_)
    have hmine' : Mine cmd.organizationId cmd.expenseId expense'.props.id
        expense'.props.organizationId expense'.domainEvents := by
      split_ifs at hexpense
      · obtain ⟨-, rfl⟩ := Expense.transition_ok.mp hexpense
        exact hmine.add
      · obtain rfl := Except.ok.inj hexpense
        exact hmine
    exact (relates_saveProgress hmine'.id_eq _).bind fun _ => relates_savesExpense hmine'
  | reject cmd =>
    refine relates_findsExpense.then fun expense hmine => relates_assertsPeriodOpen hhas
      (relates_findsProgress hmine.id_eq fun progress => relates_decides
        (relates_recordRejection _ _ _ _ _) looks_recordRejection fun decided =>
        Tx.Relates.ofExcept fun rejected hreject => ?_)
    obtain ⟨-, rfl⟩ := Expense.transition_ok.mp hreject
    exact (relates_saveProgress hmine.id_eq _).bind fun _ => relates_savesExpense hmine.add
  | cancel cmd =>
    refine relates_findsExpense.then fun expense hmine => relates_assertsPeriodOpen hhas
      (Tx.Relates.ofExcept fun cancelled hcancel => ?_)
    obtain ⟨-, rfl⟩ := Expense.transition_ok.mp hcancel
    exact relates_savesExpense hmine.add
  | createAdjustment cmd =>
    refine Tx.Relates.discard (relates_requiresOpenPeriod hbefore fun openPeriod => ?_)
    refine Tx.Relates.then (φ := fun e : Expense => e.props.organizationId = cmd.organizationId)
      ((relates_findsExpense.keep (looks_findExpense fun _ h => h)).mono (fun _ _ h => h)
        fun _ _ _ h => h.2) fun original horg => ?_
    refine ((relates_nextExpenseNumber env.uuid).mono (fun _ _ h => h.new) fun _ _ _ h => h).bind
      fun number => Tx.Relates.ofExcept fun adjustment hadjust => ?_
    obtain ⟨-, -, -, rfl⟩ := Expense.createAdjustment_ok.mp hadjust
    refine Tx.Relates.bind (Q := fun _ => Has cmd.organizationId env.uuid) (relates_saveExpense
      (by rfl) horg) fun _ => ?_
    refine Tx.Relates.bind (Q := fun _ => Has cmd.organizationId env.uuid) ?_ fun _ => ?_
    · simp only [startAdjustmentApproval]
      split_ifs
      · exact (relates_initializeProgress rfl _ _).discard
      · exact Tx.relates_ret fun _ _ h => h
    · refine Tx.Relates.bind (Q := fun _ => Slice cmd.organizationId) ((relates_enqueue
        fun e he => ?_).mono hhas fun _ _ _ h => h) fun _ => Tx.relates_ret fun _ _ h => h
      rw [Expense.adjustmentEvents, horg] at he
      split_ifs at he
      · exact (mine_new env.uuid).add.events e he
      · exact (mine_new env.uuid).events e he

/-- Saving a payroll run of the organization, and enqueueing its events. -/
theorem relates_savesRun {run : PayrollRun} {id : Id}
    (h : Mine O id run.props.id run.props.organizationId run.domainEvents) :
    (do
      PayrollRunRepository.save run
      enqueue run.domainEvents : StoreTx Unit).Relates (At O id) fun _ => Slice O := by
  exact ((relates_saveRun h.id_eq h.organization_eq).mono (fun _ _ h => h) fun _ _ _ h =>
    h.slice).bind fun _ => relates_enqueue h.events

theorem relates_payroll (env : Env) (cmd : PayrollCommand) :
    (cmd.program env).Relates (Before cmd.organizationId env.uuid)
      fun _ => Slice cmd.organizationId := by
  have hhas : ∀ {id} d d', Has cmd.organizationId id d d' →
    Slice cmd.organizationId d d' := fun _ _ h => h.slice
  have hat : ∀ {id} d d', Has cmd.organizationId id d d' →
    At cmd.organizationId id d d' := fun _ _ h => h.1
  cases cmd with
  | create cmd =>
    refine Tx.Relates.discard (relates_requiresOpenPeriod (fun _ _ h => h.slice)
      fun openPeriod => ?_)
    refine Tx.Relates.bind (Q := fun _ => Before cmd.organizationId env.uuid)
      (Tx.relates_select (fun d d' h => ?_) fun _ _ h => h) fun existing => Tx.Relates.require ?_
    · exact decide_eq_decide.mpr (h.slice.monthTaken_iff _).symm
    · refine Tx.Relates.bind (Q := fun _ => Slice cmd.organizationId) ((relates_saveRun
        (by rfl) (by rfl)).mono (fun _ _ h => h.new) fun _ _ _ h => h.slice) fun _ => ?_
      exact (relates_enqueue (mine_new env.uuid).events).bind fun _ => Tx.relates_ret fun _ _ h => h
  | addPayslip cmd =>
    refine Tx.Relates.discard (relates_findsRun.then fun run hmine =>
      relates_assertsPeriodOpen hhas ?_)
    refine Tx.Relates.bind (Q := fun _ => Has cmd.organizationId cmd.payrollRunId)
      (Tx.relates_select (fun d d' h => ?_) fun _ _ h => h) fun structure? =>
      Tx.Relates.orFail fun salaryStructure _ => Tx.Relates.ofExcept fun tax _ =>
      Tx.Relates.ofExcept fun payslip _ => Tx.Relates.ofExcept fun run' hadd => ?_
    · rw [h.slice.administration]
    · obtain ⟨-, -, rfl⟩ := PayrollRun.addPayslip_ok.mp hadd
      refine Tx.Relates.bind (Q := fun _ => Slice cmd.organizationId)
        (Tx.Relates.mono (relates_saveRun ?_ ?_) hat fun _ _ _ h => h.slice) fun _ => ?_
      · exact hmine.id_eq
      · exact hmine.organization_eq
      exact (relates_enqueue hmine.add.events).bind fun _ => Tx.relates_ret fun _ _ h => h
  | submit cmd =>
    refine relates_findsRun.then fun run hmine => relates_assertsPeriodOpen hhas
      (Tx.Relates.ofExcept fun submitted hsubmit => Tx.Relates.ofExcept fun item _ => ?_)
    obtain ⟨-, -, rfl⟩ := PayrollRun.submitForApproval_ok.mp hsubmit
    exact (relates_initializeProgress hmine.id_eq _ _).bind fun _ =>
      (relates_savesRun hmine.add).mono hat fun _ _ _ h => h
  | approve cmd =>
    refine relates_findsRun.then fun run hmine => relates_assertsPeriodOpen hhas
      (relates_findsProgress hmine.id_eq fun progress => Tx.Relates.ofExcept fun item _ =>
        relates_decides (relates_recordApproval _ _ _ _) looks_recordApproval fun decided =>
        Tx.Relates.ofExcept fun run' hrun => ?_)
    have hmine' : Mine cmd.organizationId cmd.payrollRunId run'.props.id
        run'.props.organizationId run'.domainEvents := by
      split_ifs at hrun
      · obtain ⟨-, rfl⟩ := PayrollRun.approve_ok.mp hrun
        exact hmine.add
      · obtain rfl := Except.ok.inj hrun
        exact hmine
    exact (relates_saveProgress hmine'.id_eq _).bind fun _ =>
      (relates_savesRun hmine').mono hat fun _ _ _ h => h
  | reject cmd =>
    refine relates_findsRun.then fun run hmine => relates_assertsPeriodOpen hhas
      (relates_findsProgress hmine.id_eq fun progress => Tx.Relates.ofExcept fun item _ =>
        relates_decides (relates_recordRejection _ _ _ _ _) looks_recordRejection fun decided =>
        Tx.Relates.ofExcept fun rejected hreject => ?_)
    obtain ⟨-, rfl⟩ := PayrollRun.transition_ok.mp hreject
    exact (relates_saveProgress hmine.id_eq _).bind fun _ =>
      (relates_savesRun hmine.add).mono hat fun _ _ _ h => h
  | cancel cmd =>
    refine relates_findsRun.then fun run hmine => Tx.Relates.ofExcept fun cancelled hcancel => ?_
    obtain ⟨-, rfl⟩ := PayrollRun.transition_ok.mp hcancel
    exact (relates_savesRun hmine.add).mono hat fun _ _ _ h => h
  | process cmd =>
    refine relates_findsRun.then fun run hmine => Tx.Relates.ofExcept fun started hstart =>
      Tx.Relates.ofExcept fun completed hcomplete => ?_
    obtain ⟨-, rfl⟩ := PayrollRun.transition_ok.mp hstart
    obtain ⟨-, rfl⟩ := PayrollRun.transition_ok.mp hcomplete
    exact (relates_savesRun hmine.add.add).mono hat fun _ _ _ h => h

end Store.Slice

/-! ## The commands of another organization -/

/-- All that is written is the organization's. -/
structure Store.WrittenBy (O : Id) (d d₁ : Store) : Prop where
  administration : d₁.administration = d.administration
  financialPeriods : d₁.financialPeriods = d.financialPeriods ∨
    Table.OwnInsert FinancialPeriodRow.organizationId O d.financialPeriods d₁.financialPeriods
  expenses : d₁.expenses = d.expenses ∨
    Table.OwnInsert ExpenseRow.organizationId O d.expenses d₁.expenses
  payrollRuns : d₁.payrollRuns = d.payrollRuns ∨
    Table.OwnInsert PayrollRunRow.organizationId O d.payrollRuns d₁.payrollRuns
  numbers : ∀ O' ≠ O, d₁.expenseNumberSequences.lookup O' = d.expenseNumberSequences.lookup O'
  progress : ∃ id, d.ProgressOf d₁ id ∧ ∀ O' ≠ O, ¬ d.OwnsItem O' id
  outbox : ∃ events, d₁.outbox = d.outbox ++ events ∧ ∀ e ∈ events, EventOf O e

/-- What the others have is as it was. -/
theorem ofOwner_eq_of_written {ρ : Type} {owner : ρ → Id} {O O' : Id} {t t₁ : Table Id ρ}
    (h : t₁ = t ∨ Table.OwnInsert owner O t t₁) (hne : O' ≠ O) :
    Table.ofOwner owner O' t₁ = Table.ofOwner owner O' t := by
  rcases h with rfl | h
  · rfl
  · exact h.ofOwner_ne hne

/-- **The slice of another organization** stays a slice. -/
theorem Store.WrittenBy.slice {O O' : Id} {d d₁ d' : Store} (h : Store.WrittenBy O' d d₁)
    (hne : O ≠ O') (hslice : Slice O d d') : Slice O d₁ d' := by
  have hexpenses := ofOwner_eq_of_written h.expenses hne
  have hruns := ofOwner_eq_of_written h.payrollRuns hne
  have hitem : ∀ id, d₁.OwnsItem O id ↔ d.OwnsItem O id := by
    intro id
    simp only [Store.OwnsItem, ← Table.ofOwner_eq_some, hexpenses, hruns]
  obtain ⟨subject, hprogress, hother⟩ := h.progress
  obtain ⟨events, hout, hevents⟩ := h.outbox
  refine ⟨hslice.administration.trans h.administration.symm, fun id => ?_, fun id => ?_,
    fun id => ?_, hslice.numbers.trans (h.numbers O hne).symm, fun id hid => ?_,
    fun id hid => ?_, ?_⟩
  · rw [hslice.financialPeriods, ofOwner_eq_of_written h.financialPeriods hne]
  · rw [hslice.expenses, hexpenses]
  · rw [hslice.payrollRuns, hruns]
  · rw [hitem] at hid
    rw [hslice.progress id hid, hprogress.lookup_ne]
    rintro rfl
    exact hother O hne hid
  · exact hslice.noProgress id fun hold => hid ((hitem id).mpr hold)
  · have hforeign : events.filter (fun e => EventOf O e) = [] := by
      refine List.filter_eq_nil_iff.mpr fun e he hmine => hne ?_
      have hsame := (of_decide_eq_true hmine).symm.trans (hevents e he)
      exact PayloadText.id.inj hsame
    rw [hslice.outbox, hout, List.filter_append, hforeign, List.append_nil]

section

variable {env : Env} {d d' : Store} {a : Unit}

theorem Store.Fresh.no_item {O id : Id} (h : d.Fresh id) : ¬ d.OwnsItem O id := by
  rintro (⟨row, hrow, -⟩ | ⟨row, hrow, -⟩)
  · exact h.2.1 (Finmap.mem_of_lookup_eq_some hrow)
  · exact h.2.2.2 (Finmap.mem_of_lookup_eq_some hrow)

/-- An event that names the organization. -/
theorem eventOf_event {O organizationId : Id} (horg : organizationId = O)
    {type aggregateType : String} {aggregateId : Id} {payload : List (String × PayloadValue)} :
    ∀ e ∈ [(⟨type, aggregateType, aggregateId, ("organizationId", .id organizationId) :: payload⟩ :
      DomainEvent)], EventOf O e := by
  subst horg
  exact (Store.Slice.mine_new aggregateId).events

/-- An expense command writes an expense of its organization, and adds events of it. -/
theorem ExpenseCommand.writesOwn {cmd : ExpenseCommand} (hal : d.RecordsAligned)
    (hfresh : d.Fresh env.uuid) (h : (cmd.program env).solo d = .ok (a, d')) :
    ∃ row, d'.expenses = d.expenses.insert (cmd.subject env) row ∧
      row.organizationId = cmd.organizationId ∧
      (∀ old ∈ d.expenses.lookup (cmd.subject env), old.organizationId = cmd.organizationId) ∧
      ∃ events, d'.outbox = d.outbox ++ events ∧ ∀ e ∈ events, EventOf cmd.organizationId e := by
  have hold : ∀ {id : Id} {row : ExpenseRow} {organizationId : Id},
      d.expenses.lookup id = some row → row.organizationId = organizationId →
      ∀ old ∈ d.expenses.lookup id, old.organizationId = organizationId := by
    rintro id row _ hrow rfl old hold
    obtain rfl := Option.some.inj (hrow.symm.trans hold)
    rfl
  have hnew := Finmap.lookup_eq_none.mpr hfresh.2.1
  have hnone : ∀ {organizationId : Id}, ∀ old ∈ d.expenses.lookup env.uuid,
      old.organizationId = organizationId := fun old hmem => by cases hnew.symm.trans hmem
  cases cmd with
  | create cmd =>
    obtain ⟨_, h⟩ := Tx.solo_discard_ok.mp h
    obtain ⟨row, _, -, horg, -, -, -, -, rfl⟩ := createExpense_ok hnew h
    exact ⟨row, rfl, horg, hnone, _, rfl, eventOf_event rfl⟩
  | submit cmd =>
    obtain ⟨row, hrow, horg, -, -, -, rfl⟩ := submitExpense_ok h
    exact ⟨_, rfl, horg, hold hrow horg, _, rfl, eventOf_event horg⟩
  | approve cmd =>
    obtain ⟨row, prow, _, hrow, horg, -, -, -, -, -, -, -, rfl⟩ := approveExpense_ok hal h
    refine ⟨_, rfl, ?_, hold hrow horg, _, rfl, ?_⟩
    · split_ifs
      · exact horg
      · exact horg
    · split_ifs
      · exact eventOf_event horg
      · simp
  | reject cmd =>
    obtain ⟨row, prow, hrow, horg, -, -, -, -, -, rfl⟩ := rejectExpense_ok hal h
    exact ⟨_, rfl, horg, hold hrow horg, _, rfl, eventOf_event horg⟩
  | cancel cmd =>
    obtain ⟨row, hrow, horg, -, -, rfl⟩ := cancelExpense_ok h
    exact ⟨_, rfl, horg, hold hrow horg, _, rfl, eventOf_event horg⟩
  | createAdjustment cmd =>
    obtain ⟨_, h⟩ := Tx.solo_discard_ok.mp h
    obtain ⟨original, _, _, _, -, horg, -, -, -, -, -, rfl⟩ := createAdjustment_ok hnew h
    refine ⟨_, rfl, horg, hnone, _, rfl, fun e he => ?_⟩
    rw [Expense.adjustmentEvents] at he
    rcases List.mem_cons.mp he with rfl | he
    · exact eventOf_event horg _ (List.mem_singleton_self _)
    · split_ifs at he
      · exact eventOf_event horg e he
      · simp at he

/-- The events that a payroll command adds are of its organization. -/
theorem PayrollCommand.eventsOwn {cmd : PayrollCommand} (hal : d.RecordsAligned)
    (hfresh : d.Fresh env.uuid) (h : (cmd.program env).solo d = .ok (a, d')) :
    ∃ events, d'.outbox = d.outbox ++ events ∧ ∀ e ∈ events, EventOf cmd.organizationId e := by
  cases cmd with
  | create cmd =>
    obtain ⟨_, h⟩ := Tx.solo_discard_ok.mp h
    obtain ⟨_, -, rfl⟩ := createPayrollRun_ok (Finmap.lookup_eq_none.mpr hfresh.2.2.2) h
    exact ⟨_, rfl, eventOf_event rfl⟩
  | addPayslip cmd =>
    obtain ⟨_, h⟩ := Tx.solo_discard_ok.mp h
    obtain ⟨row, _, -, horg, -, -, -, -, rfl⟩ := addPayslip_ok h
    exact ⟨_, rfl, eventOf_event horg⟩
  | submit cmd =>
    obtain ⟨row, -, horg, -, -, -, -, -, rfl⟩ := (@submitPayrollRun_ok env _ _ _ _).mp h
    exact ⟨_, rfl, eventOf_event horg⟩
  | approve cmd =>
    obtain ⟨row, _, _, -, horg, -, -, -, -, -, -, -, -, rfl⟩ := (approvePayrollRun_ok hal).mp h
    refine ⟨_, rfl, ?_⟩
    split_ifs
    · exact eventOf_event horg
    · simp
  | reject cmd =>
    obtain ⟨row, _, -, horg, -, -, -, -, -, rfl⟩ := rejectPayrollRun_ok hal h
    exact ⟨_, rfl, eventOf_event horg⟩
  | cancel cmd =>
    obtain ⟨row, -, horg, -, rfl⟩ := (@cancelPayrollRun_ok env _ _ _ _).mp h
    exact ⟨_, rfl, eventOf_event horg⟩
  | process cmd =>
    obtain ⟨row, -, horg, -, rfl⟩ := (@processPayrollRun_ok env _ _ _ _).mp h
    refine ⟨_, rfl, fun e he => ?_⟩
    rcases List.mem_cons.mp he with rfl | he
    · exact eventOf_event horg _ (List.mem_singleton_self _)
    · exact eventOf_event horg e he

/-- **A command writes what is its organization's.** -/
theorem Command.writtenBy {command : Command} {O : Id} (hO : command.organizationId = some O)
    (hwf : d.WellFormed) (hfresh : d.Fresh env.uuid)
    (h : (command.program env).solo d = .ok (a, d')) : Store.WrittenBy O d d' := by
  have hnewItem : ∀ O' ≠ O, ¬ d.OwnsItem O' env.uuid := fun _ _ => hfresh.no_item
  cases command with
  | administer administration => cases hO
  | period cmd =>
    obtain rfl := Option.some.inj hO
    have hwrites := PeriodCommand.writes hfresh h
    cases cmd with
    | «open» cmd =>
      obtain ⟨_, h⟩ := Tx.solo_discard_ok.mp h
      obtain rfl := openPeriod_ok (Finmap.lookup_eq_none.mpr hfresh.1) h
      exact ⟨rfl, .inr hwrites, .inl rfl, .inl rfl, fun _ _ => rfl, ⟨_, .inl rfl, hnewItem⟩, _, rfl,
        eventOf_event rfl⟩
    | close cmd =>
      obtain ⟨row, -, horg, -, rfl⟩ := closePeriod_ok.mp h
      exact ⟨rfl, .inr hwrites, .inl rfl, .inl rfl, fun _ _ => rfl, ⟨_, .inl rfl, hnewItem⟩, _, rfl,
        eventOf_event horg⟩
    | reopen cmd =>
      obtain ⟨row, -, horg, -, -, rfl⟩ := (@reopenPeriod_ok env _ _ _ cmd).mp h
      exact ⟨rfl, .inr hwrites, .inl rfl, .inl rfl, fun _ _ => rfl, ⟨_, .inl rfl, hnewItem⟩, _, rfl,
        eventOf_event horg⟩
  | expense cmd =>
    obtain rfl := Option.some.inj hO
    obtain ⟨hadministration, hperiods, hruns, -, hsubject, hprogress⟩ :=
      ExpenseCommand.frame hwf.aligned hfresh h
    obtain ⟨row, hexpenses, horg, hold, events⟩ := ExpenseCommand.writesOwn hwf.aligned hfresh h
    refine ⟨hadministration, .inl hperiods, .inr ⟨_, row, hexpenses, horg, hold⟩, .inl hruns,
      fun O' hne => ?_, ⟨_, hprogress, fun O' hne => ?_⟩, events⟩
    · rcases hcreating : cmd.isCreating with _ | _
      · rw [ExpenseCommand.keepsCounters hcreating hwf.aligned h]
      · rw [((ExpenseCommand.enters env hcreating).solo h
          (Finmap.lookup_eq_none.mpr hfresh.2.1)).sequence, Finmap.lookup_insert_of_ne _ hne]
    · rcases hsubject with hmem | hnew
      · rintro (⟨row', hrow', rfl⟩ | ⟨run, hrun, -⟩)
        · exact hne (hold row' hrow')
        · exact hwf.disjoint _ hmem (Finmap.mem_of_lookup_eq_some hrun)
      · rw [hnew]
        exact hnewItem O' hne
  | payroll cmd =>
    obtain rfl := Option.some.inj hO
    obtain ⟨hadministration, hperiods, hexpenses, -, hsubject, hprogress⟩ :=
      PayrollCommand.frame hwf.aligned (fun _ => Finmap.lookup_eq_none.mpr hfresh.2.2.2) h
    obtain ⟨row, hruns, horg, hold, -⟩ := PayrollCommand.writes hwf.aligned hfresh h
    refine ⟨hadministration, .inl hperiods, .inl hexpenses, .inr ⟨_, row, hruns, horg, hold⟩,
      fun O' hne => ?_, ⟨_, hprogress, fun O' hne => ?_⟩,
      PayrollCommand.eventsOwn hwf.aligned hfresh h⟩
    · rw [PayrollCommand.keepsCounters hwf.aligned (Finmap.lookup_eq_none.mpr hfresh.2.2.2) h]
    · rcases hsubject with hmem | hnew
      · rintro (⟨expense, hexpense, -⟩ | ⟨row', hrow', rfl⟩)
        · exact hwf.disjoint _ (Finmap.mem_of_lookup_eq_some hexpense) hmem
        · exact hne (hold row' hrow')
      · rw [hnew]
        exact hnewItem O' hne

end

/-! ## Runs -/

/-- The request is the organization's, or an administrator's. -/
def Request.Concerns (O : Id) (r : Request) : Prop :=
  r.command.organizationId = none ∨ r.command.organizationId = some O

instance (O : Id) (r : Request) : Decidable (r.Concerns O) := inferInstanceAs (Decidable (_ ∨ _))

/-- What a request is answered: that it is done, or why it fails. -/
def answer (d : Store) (r : Request) : Except Failure Unit :=
  ((r.command.program r.env).solo d).map Prod.fst

namespace Store.Slice

variable {O : Id} {d d' d₁ : Store} {r : Request}

/-- A request of the organization, or of an administrator, runs alike on the slice. -/
theorem relates_command {env : Env} {command : Command} (hO : Request.Concerns O ⟨env, command⟩) :
    (command.program env).Relates (Before O env.uuid) fun _ => Slice O := by
  cases command with
  | administer administration =>
    exact Tx.relates_exec fun d d' h => ⟨rfl, h.slice.financialPeriods, h.slice.expenses,
      h.slice.payrollRuns, h.slice.numbers, h.slice.progress, h.slice.noProgress, h.slice.outbox⟩
  | period cmd =>
    obtain rfl : cmd.organizationId = O := by
      simpa [Request.Concerns, Command.organizationId] using hO
    exact relates_period env cmd
  | expense cmd =>
    obtain rfl : cmd.organizationId = O := by
      simpa [Request.Concerns, Command.organizationId] using hO
    exact relates_expense env cmd
  | payroll cmd =>
    obtain rfl : cmd.organizationId = O := by
      simpa [Request.Concerns, Command.organizationId] using hO
    exact relates_payroll env cmd

theorem answer_eq (h : Slice O d d') (hwf : d.WellFormed) (hfresh : d.Fresh r.env.uuid)
    (hO : r.Concerns O) : answer d' r = answer d r := by
  have hboth := relates_command hO d d' ⟨h, hwf, hfresh⟩
  simp only [answer]
  rcases hs : (r.command.program r.env).solo d with e | ⟨u, d₁⟩ <;>
    rcases hs' : (r.command.program r.env).solo d' with e' | ⟨u', d₁'⟩ <;> rw [hs, hs'] at hboth
  · exact congrArg Except.error hboth.symm
  · exact hboth.elim
  · exact hboth.elim
  · rfl

/-- **A request that concerns the organization** is made on the slice as well. -/
theorem next_own (h : Slice O d d') (hwf : d.WellFormed) (hO : r.Concerns O)
    (hn : next d r = some d₁) : ∃ d₁', next d' r = some d₁' ∧ Slice O d₁ d₁' := by
  obtain ⟨hfresh, hcases⟩ := next_cases hn
  have hboth := relates_command hO d d' ⟨h, hwf, hfresh⟩
  simp only [next, if_pos (h.fresh hfresh)]
  rcases hcases with ⟨⟨e, hs⟩, rfl⟩ | hs <;>
    rcases hs' : (r.command.program r.env).solo d' with e' | ⟨u', d₁'⟩ <;> rw [hs, hs'] at hboth
  · exact ⟨d', rfl, h⟩
  · exact hboth.elim
  · exact hboth.elim
  · exact ⟨d₁', rfl, hboth.2⟩

/-- **A request of another organization** makes no difference. -/
theorem next_other (h : Slice O d d') (hwf : d.WellFormed) (hO : ¬ r.Concerns O)
    (hn : next d r = some d₁) : Slice O d₁ d' := by
  obtain ⟨hfresh, ⟨-, rfl⟩ | hok⟩ := next_cases hn
  · exact h
  · simp only [Request.Concerns, not_or] at hO
    obtain ⟨O', hO'⟩ := Option.ne_none_iff_exists'.mp hO.1
    refine (Command.writtenBy hO' hwf hfresh hok).slice ?_ h
    rintro rfl
    exact hO.2 hO'

end Store.Slice

/-- **Organizations are apart**: what an organization has after any run of requests, and what
it is answered then, is what it would have and be answered had it been the only one to make
requests. -/
theorem organizations_apart {administration : Administration} {rs : List Request} {d : Store}
    (hr : Runs administration rs d) (O : Id) :
    ∃ d', Runs administration (rs.filter fun r => r.Concerns O) d' ∧ Store.Slice O d d' ∧
      ∀ r : Request, r.Concerns O → d.Fresh r.env.uuid → answer d r = answer d' r := by
  obtain ⟨d', hr', h⟩ := hr.purge (S := Store.Slice O) (P := Request.Concerns O)
    (Store.Slice.initial administration)
    (fun _ _ _ _ _ hr h hO hn => h.next_own (Runs.wellFormed hr) hO hn)
    (fun _ _ _ _ _ hr h hO hn => h.next_other (Runs.wellFormed hr) hO hn)
  exact ⟨d', hr', h, fun r hO hfresh => (h.answer_eq hr.wellFormed hfresh hO).symm⟩

namespace Sample

/-- The organization 2 opens a period under the id 300. -/
def openElsewhere : Request := request 300 (.period (.open ⟨2, noon.day, noon⟩))

/-- A user of organization 2 tries to approve an expense by its id. -/
def approveElsewhere (expenseId : Id) : Request :=
  request 902 (.expense (.approve ⟨expenseId, 2, 12⟩))

/-- The organization 2 closes the period again. -/
def closeElsewhere : Request := request 900 (.period (.close ⟨2, 300, 14⟩))

/-- An expense of organization 1 is approved while the organization 2 is at work and a role is
withdrawn. -/
def requestsOfBoth : List Request :=
  [openJanuary, openElsewhere, create 101 5000, submit 101, approveElsewhere 101, withdrawHead,
    approve 101 11, closeElsewhere, approve 101 12]

/-- The same without the organization 2. -/
def requestsOfFirst : List Request :=
  [openJanuary, create 101 5000, submit 101, withdrawHead, approve 101 11, approve 101 12]

end Sample

open Sample in
theorem organizations_apart_sample :
    ∃ d', Runs Sample.administration requestsOfFirst d' ∧
      Store.Slice 1 (Sample.store requestsOfBoth) d' ∧
      ∀ r : Request, r.Concerns 1 → (Sample.store requestsOfBoth).Fresh r.env.uuid →
        answer (Sample.store requestsOfBoth) r = answer d' r := by
  have hr : Runs Sample.administration requestsOfBoth (Sample.store requestsOfBoth) :=
    Sample.runs (by decide +kernel)
  exact organizations_apart hr 1

end RatelPlatform
