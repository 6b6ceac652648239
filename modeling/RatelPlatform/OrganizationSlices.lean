import RatelPlatform.ExpenseNumbers
import RatelPlatform.EventDelivery
import RatelPlatform.PayrollTenancy
import RatelPlatform.RelatedStates

/-!
# What one organization has of the store

The organizations share every table. `Store.Slice O d d'` says that `d'` is what the
organization `O` has of the store `d`: its periods, expenses and payroll runs with their
approval progress, its number sequence, and the events of it in the outbox.

Here is what the statements of a transaction do to a store and to a slice of it, as long as
the items they are about are the organization's: they see the same, and leave a slice.
-/

namespace RatelPlatform

/-- The event is one of the organization. -/
def EventOf (O : Id) (e : DomainEvent) : Prop := organizationIdFromPayload e.payload = .id O

instance (O : Id) (e : DomainEvent) : Decidable (EventOf O e) :=
  inferInstanceAs (Decidable (_ = _))

/-- The id is that of an expense or a payroll run of the organization. -/
def Store.OwnsItem (d : Store) (O id : Id) : Prop :=
  (∃ row, d.expenses.lookup id = some row ∧ row.organizationId = O) ∨
    ∃ row, d.payrollRuns.lookup id = some row ∧ row.organizationId = O

/-- `d'` is what the organization has of `d`. -/
structure Store.Slice (O : Id) (d d' : Store) : Prop where
  administration : d'.administration = d.administration
  financialPeriods : ∀ id, d'.financialPeriods.lookup id =
    Table.ofOwner FinancialPeriodRow.organizationId O d.financialPeriods id
  expenses : ∀ id, d'.expenses.lookup id = Table.ofOwner ExpenseRow.organizationId O d.expenses id
  payrollRuns : ∀ id, d'.payrollRuns.lookup id =
    Table.ofOwner PayrollRunRow.organizationId O d.payrollRuns id
  numbers : d'.expenseNumberSequences.lookup O = d.expenseNumberSequences.lookup O
  progress : ∀ id, d.OwnsItem O id → d'.approvalProgress.lookup id = d.approvalProgress.lookup id
  noProgress : ∀ id, ¬ d.OwnsItem O id → d'.approvalProgress.lookup id = none
  outbox : d'.outbox = d.outbox.filter fun e => EventOf O e

namespace Store.Slice

variable {O : Id} {d d' : Store} {α β : Type}

/-- A store without rows is its own slice. -/
theorem initial (administration : Administration) :
    Slice O (.initial administration) (.initial administration) where
  administration := rfl
  financialPeriods _ := rfl
  expenses _ := rfl
  payrollRuns _ := rfl
  numbers := rfl
  progress _ _ := rfl
  noProgress _ _ := rfl
  outbox := rfl

/-! ### Queries -/

/-- **What the organization asks for by id** is in both stores, or in none. -/
theorem lookup_filter {κ ρ : Type} [DecidableEq κ] {owner : ρ → Id} {t t' : Table κ ρ}
    (h : ∀ id, t'.lookup id = Table.ofOwner owner O t id) (id : κ) :
    Table.ofOwner owner O t' id = Table.ofOwner owner O t id := by
  simp only [Table.ofOwner, h, Option.filter_filter, Bool.and_self]

/-- A unique index within the organization has the same keys in both. -/
theorem any_own_iff {ρ : Type} {owner : ρ → Id} {t t' : Table Id ρ}
    (h : ∀ id, t'.lookup id = Table.ofOwner owner O t id) {P : ρ → Bool}
    (hP : ∀ row, P row = true → owner row = O) :
    (∃ id ∈ t'.keys, (t'.lookup id).any P) ↔ ∃ id ∈ t.keys, (t.lookup id).any P := by
  simp only [Table.mem_keys_iff, Option.any_eq_true, h, Table.ofOwner_eq_some]
  refine ⟨?_, ?_⟩
  · rintro ⟨id, -, row, ⟨hrow, -⟩, hp⟩
    exact ⟨id, ⟨row, hrow⟩, row, hrow, hp⟩
  · rintro ⟨id, -, row, hrow, hp⟩
    exact ⟨id, ⟨row, hrow, hP row hp⟩, row, ⟨hrow, hP row hp⟩, hp⟩

theorem openStart (h : Slice O d d') (id : Id) : FinancialPeriodRepository.openStart d' O id =
    FinancialPeriodRepository.openStart d O id := by
  simp only [FinancialPeriodRepository.openStart, h.financialPeriods, Table.ofOwner,
    Option.filter_filter]
  congr 2
  funext row
  by_cases horg : row.organizationId = O
  · simp [horg]
  · simp [horg]

theorem currentOpen (h : Slice O d d') (tie : Id) :
    FinancialPeriodRepository.currentOpen d' O tie =
      FinancialPeriodRepository.currentOpen d O tie := by
  have hlatest : FinancialPeriodRepository.latestOpen d' O =
      FinancialPeriodRepository.latestOpen d O := by
    ext id
    simp only [FinancialPeriodRepository.mem_latestOpen_iff, h.openStart]
  simp only [FinancialPeriodRepository.currentOpen, hlatest]

theorem periodIsOpen_iff (h : Slice O d d') (periodId : Id) :
    d'.PeriodIsOpen O periodId ↔ d.PeriodIsOpen O periodId := by
  simp only [Store.PeriodIsOpen, Option.mem_def, h.financialPeriods, Table.ofOwner_eq_some,
    and_assoc, and_self_left]

theorem datesTaken_iff (h : Slice O d d') {row : FinancialPeriodRow}
    (horg : row.organizationId = O) : FinancialPeriodRepository.DatesTaken d' row ↔
      FinancialPeriodRepository.DatesTaken d row := by
  refine any_own_iff h.financialPeriods fun r hr => ?_
  exact (of_decide_eq_true hr).1.trans horg

theorem numberTaken_iff (h : Slice O d d') {row : ExpenseRow} (horg : row.organizationId = O) :
    ExpenseRepository.NumberTaken d' row ↔ ExpenseRepository.NumberTaken d row := by
  refine any_own_iff h.expenses fun r hr => ?_
  exact (of_decide_eq_true hr).1.trans horg

theorem monthTaken_iff (h : Slice O d d') (runMonth : JsDate) :
    PayrollRunRepository.MonthTaken d' O runMonth ↔
      PayrollRunRepository.MonthTaken d O runMonth :=
  any_own_iff h.payrollRuns fun _ hr => (of_decide_eq_true hr).1

theorem fresh (h : Slice O d d') {id : Id} (hfresh : d.Fresh id) : d'.Fresh id := by
  obtain ⟨hperiod, hexpense, hprogress, hrun⟩ := hfresh
  simp only [Store.Fresh, ← Finmap.lookup_eq_none] at *
  refine ⟨?_, ?_, ?_, ?_⟩
  · simp [h.financialPeriods, Table.ofOwner, hperiod]
  · simp [h.expenses, Table.ofOwner, hexpense]
  · by_cases hitem : d.OwnsItem O id
    · rw [h.progress id hitem, hprogress]
    · exact h.noProgress id hitem
  · simp [h.payrollRuns, Table.ofOwner, hrun]

/-! ### Looking -/

theorem relates_findPeriod (id : Id) : (findPeriod id O).Relates (Slice O)
    fun period d d' => Slice O d d' ∧ ∃ row, d.financialPeriods.lookup id = some row ∧
      row.organizationId = O ∧ period = FinancialPeriodRepository.toDomain id row := by
  refine Tx.Relates.bind (Q := fun (period : Option FinancialPeriod) d d' => Slice O d d' ∧
    period = ((d.financialPeriods.lookup id).filter fun row => row.organizationId = O).map
      (FinancialPeriodRepository.toDomain id)) ?_ fun period => Tx.relates_orFail ?_
  · intro d d' h
    rw [FinancialPeriodRepository.findByIdForOrganization_solo,
      FinancialPeriodRepository.findByIdForOrganization_solo]
    have hlookup := lookup_filter h.financialPeriods id
    simp only [Table.ofOwner] at hlookup
    exact ⟨by rw [hlookup], h, rfl⟩
  · rintro period d d' rfl ⟨h, hperiod⟩
    obtain ⟨row, hrow, rfl⟩ := Option.map_eq_some_iff.mp hperiod.symm
    obtain ⟨hrow, horg⟩ := Option.filter_eq_some_iff.mp hrow
    exact ⟨h, row, hrow, of_decide_eq_true horg, rfl⟩

/-- An item that is looked up by its id, and is refused to another organization. -/
theorem filter_map_owner {ρ ε : Type} {owner : ρ → Id} {toDomain : ρ → ε} {p : ε → Bool}
    (hp : ∀ row, p (toDomain row) = decide (owner row = O)) (found : Option ρ) :
    (found.map toDomain).filter p = (found.filter fun row => owner row = O).map toDomain := by
  rcases found with _ | row
  · rfl
  · rw [Option.map_some, Option.filter_some, Option.filter_some, hp]
    split_ifs <;> rfl

/-- It is found in both states, or in none. -/
theorem relates_found {ρ ε : Type} {owner : ρ → Id} {table : Store → Table Id ρ}
    {toDomain : ρ → ε} {find : StoreTx (Option ε)} {id : Id} {p : ε → Bool} {e : Failure}
    (hfind : ∀ d, find.solo d = .ok (((table d).lookup id).map toDomain, d))
    (hp : ∀ row, p (toDomain row) = decide (owner row = O))
    (hslice : ∀ d d', Slice O d d' → ∀ id,
      (table d').lookup id = Table.ofOwner owner O (table d) id) :
    (find >>= fun found => Tx.orFail (found.filter p) e).Relates (Slice O)
      fun item d d' => Slice O d d' ∧ ∃ row, (table d).lookup id = some row ∧ owner row = O ∧
        item = toDomain row := by
  intro d d' h
  have hsame := lookup_filter (hslice d d' h) id
  simp only [Table.ofOwner] at hsame
  rw [Tx.solo_bind_of_ok (hfind d), Tx.solo_bind_of_ok (hfind d'), filter_map_owner hp,
    filter_map_owner hp, hsame]
  rcases hown : ((table d).lookup id).filter fun row => owner row = O with _ | row
  · rfl
  · obtain ⟨hrow, horg⟩ := Option.filter_eq_some_iff.mp hown
    exact ⟨rfl, h, row, hrow, of_decide_eq_true horg, rfl⟩

theorem relates_findExpense (id : Id) : (findExpense id O).Relates (Slice O)
    fun expense d d' => Slice O d d' ∧ ∃ row, d.expenses.lookup id = some row ∧
      row.organizationId = O ∧ expense = ExpenseRepository.toDomain id row :=
  relates_found (ExpenseRepository.findById_solo id) (fun _ => rfl) fun _ _ h => h.expenses

theorem relates_findPayrollRun (id : Id) : (findPayrollRun id O).Relates (Slice O)
    fun run d d' => Slice O d d' ∧ ∃ row, d.payrollRuns.lookup id = some row ∧
      row.organizationId = O ∧
      run = PayrollRun.reconstitute { row.columns with id } row.payslips :=
  relates_found (PayrollRunRepository.findById_solo id) (fun _ => rfl) fun _ _ h => h.payrollRuns

theorem relates_requireOpenPeriod (tie : Id) :
    (requireOpenPeriod O tie).Relates (Slice O) fun _ _ _ => True := by
  refine Tx.Relates.bind (Q := fun _ _ _ => True) (fun d d' h => ?_) fun _ =>
    Tx.relates_orFail fun _ _ _ _ _ => trivial
  rw [FinancialPeriodRepository.findCurrentOpen_solo,
    FinancialPeriodRepository.findCurrentOpen_solo]
  refine ⟨?_, trivial⟩
  rw [h.currentOpen]
  rcases hopen : FinancialPeriodRepository.currentOpen d O tie with _ | id
  · rfl
  · obtain ⟨row, hrow, horg, -⟩ := FinancialPeriodRepository.periodIsOpen_of_currentOpen hopen
    have hrow' : d'.financialPeriods.lookup id = some row := by
      rw [h.financialPeriods]
      exact Table.ofOwner_eq_some.mpr ⟨hrow, horg⟩
    rw [Option.bind_some, Option.bind_some, Option.mem_def.mp hrow, hrow']

theorem relates_assertPeriodOpen (periodId : Id) :
    (assertPeriodOpen O periodId).Relates (Slice O) fun _ _ _ => True := by
  refine Tx.Relates.bind (Q := fun _ _ _ => True) (fun d d' h => ?_) fun _ =>
    Tx.relates_require fun _ _ _ _ => trivial
  rw [isOpen_solo, isOpen_solo]
  exact ⟨decide_eq_decide.mpr (h.periodIsOpen_iff periodId).symm, trivial⟩

theorem relates_assertActive (rows : Administration → List ReferenceRow) (entityType : String)
    (id organizationId : Id) :
    (assertActive rows entityType id organizationId).Relates (Slice O) fun _ _ _ => True := by
  refine Tx.Relates.bind (Q := fun _ _ _ => True) (Tx.relates_select (fun d d' h => ?_)
    fun _ _ _ => trivial) fun _ => Tx.relates_require fun _ _ _ _ => trivial
  rw [h.administration]

theorem relates_assertActiveIfGiven (rows : Administration → List ReferenceRow)
    (entityType : String) (id : Option Id) (organizationId : Id) :
    (assertActiveIfGiven rows entityType id organizationId).Relates (Slice O)
      fun _ _ _ => True := by
  rcases id with _ | id
  · exact Tx.relates_ret fun _ _ _ => trivial
  · exact relates_assertActive rows entityType id organizationId

theorem relates_assertHoldsCurrentStepRole (item : Approvable) (progress : ApprovalProgress)
    (approverId : Id) :
    (WorkflowEngine.assertHoldsCurrentStepRole getRolesForUser item progress approverId).Relates
      (Slice O) fun _ _ _ => True := by
  simp only [WorkflowEngine.assertHoldsCurrentStepRole]
  cases progress.currentStepRequirement with
  | none => exact Tx.relates_ret fun _ _ _ => trivial
  | some step =>
    refine Tx.Relates.bind (Q := fun _ _ _ => True) (fun d d' h => ?_) fun _ =>
      Tx.relates_require fun _ _ _ _ => trivial
    rw [getRolesForUser_solo, getRolesForUser_solo, h.administration]
    exact ⟨rfl, trivial⟩

theorem relates_recordApproval (item : Approvable) (progress : ApprovalProgress) (approverId : Id)
    (now : JsDate) :
    (WorkflowEngine.recordApproval getRolesForUser item progress approverId now).Relates
      (Slice O) fun _ _ _ => True :=
  (Tx.relates_require fun _ _ _ h => h).bind fun _ => (Tx.relates_require fun _ _ _ h => h).bind
    fun _ => (relates_assertHoldsCurrentStepRole item progress approverId).bind
    fun _ => Tx.relates_ofExcept fun _ _ _ _ _ => trivial

theorem relates_recordRejection (item : Approvable) (progress : ApprovalProgress) (approverId : Id)
    (reason : String) (now : JsDate) :
    (WorkflowEngine.recordRejection getRolesForUser item progress approverId reason now).Relates
      (Slice O) fun _ _ _ => True :=
  (Tx.relates_require fun _ _ _ h => h).bind fun _ =>
    (relates_assertHoldsCurrentStepRole item progress approverId).bind
    fun _ => Tx.relates_ret fun _ _ _ => trivial

/-! ### The item a command is about -/

/-- An id that is no other organization's, with the same progress in both stores. -/
structure At (O id : Id) (d d' : Store) : Prop extends Slice O d d' where
  mineExpense : ∀ row, d.expenses.lookup id = some row → row.organizationId = O
  mineRun : ∀ row, d.payrollRuns.lookup id = some row → row.organizationId = O
  progressAt : d'.approvalProgress.lookup id = d.approvalProgress.lookup id

/-- An item of the organization. -/
def Has (O id : Id) (d d' : Store) : Prop := At O id d d' ∧ d.OwnsItem O id

/-- A new id. -/
theorem at_of_fresh (h : Slice O d d') {id : Id} (hfresh : d.Fresh id) : At O id d d' := by
  have hfresh' := h.fresh hfresh
  have hexpense := Finmap.lookup_eq_none.mpr hfresh.2.1
  have hrun := Finmap.lookup_eq_none.mpr hfresh.2.2.2
  refine ⟨h, fun row hrow => ?_, fun row hrow => ?_, ?_⟩
  · cases hexpense.symm.trans hrow
  · cases hrun.symm.trans hrow
  · rw [Finmap.lookup_eq_none.mpr hfresh.2.2.1, Finmap.lookup_eq_none.mpr hfresh'.2.2.1]

theorem has_of_expense (h : Slice O d d') (hwf : d.WellFormed) {id : Id} {row : ExpenseRow}
    (hrow : d.expenses.lookup id = some row) (horg : row.organizationId = O) : Has O id d d' := by
  have hitem : d.OwnsItem O id := .inl ⟨row, hrow, horg⟩
  refine ⟨⟨h, fun row' hrow' => ?_, fun run hrun => ?_, h.progress id hitem⟩, hitem⟩
  · obtain rfl := Option.some.inj (hrow.symm.trans hrow')
    exact horg
  · exact absurd (Finmap.mem_of_lookup_eq_some hrun)
      (hwf.disjoint id (Finmap.mem_of_lookup_eq_some hrow))

theorem has_of_run (h : Slice O d d') (hwf : d.WellFormed) {id : Id} {row : PayrollRunRow}
    (hrow : d.payrollRuns.lookup id = some row) (horg : row.organizationId = O) :
    Has O id d d' := by
  have hitem : d.OwnsItem O id := .inr ⟨row, hrow, horg⟩
  refine ⟨⟨h, fun expense hexpense => ?_, fun row' hrow' => ?_, h.progress id hitem⟩, hitem⟩
  · exact absurd (Finmap.mem_of_lookup_eq_some hrow)
      (hwf.disjoint id (Finmap.mem_of_lookup_eq_some hexpense))
  · obtain rfl := Option.some.inj (hrow.symm.trans hrow')
    exact horg

/-- It is in both stores, or in none. -/
theorem At.lookup_expense {id : Id} (h : At O id d d') :
    d'.expenses.lookup id = d.expenses.lookup id := by
  rw [h.expenses]
  rcases hrow : d.expenses.lookup id with _ | row
  · simp [Table.ofOwner, hrow]
  · exact Table.ofOwner_eq_some.mpr ⟨hrow, h.mineExpense row hrow⟩

theorem At.lookup_run {id : Id} (h : At O id d d') :
    d'.payrollRuns.lookup id = d.payrollRuns.lookup id := by
  rw [h.payrollRuns]
  rcases hrow : d.payrollRuns.lookup id with _ | row
  · simp [Table.ofOwner, hrow]
  · exact Table.ofOwner_eq_some.mpr ⟨hrow, h.mineRun row hrow⟩

/-! ### Writing -/

theorem lookup_insert {ρ : Type} {owner : ρ → Id} {t t' : Table Id ρ}
    (h : ∀ id, t'.lookup id = Table.ofOwner owner O t id) {id : Id} {row : ρ} (horg : owner row = O)
    (id' : Id) : (t'.insert id row).lookup id' = Table.ofOwner owner O (t.insert id row) id' := by
  rw [Table.ofOwner_insert horg, Table.lookup_insert_ite, Function.update_apply, h]

theorem lookup_update {ρ : Type} {owner : ρ → Id} {t t' : Table Id ρ}
    (h : ∀ id, t'.lookup id = Table.ofOwner owner O t id) {id : Id} {f : ρ → ρ}
    (hmine : ∀ row, t.lookup id = some row → owner row = O) (hf : ∀ row, owner (f row) = owner row)
    (id' : Id) : (t'.update id f).lookup id' = Table.ofOwner owner O (t.update id f) id' := by
  simp only [Table.lookup_update, Table.ofOwner, h]
  split_ifs
  · rcases hrow : t.lookup id with _ | row
    · rfl
    · have horg := hmine row hrow
      simp [Option.filter_some, hf, horg]
  · rfl

/-- The row of the item is written in both stores. -/
theorem At.withExpenses {id : Id} (h : At O id d d') {t t' : Table Id ExpenseRow}
    (ht : ∀ id', t'.lookup id' = Table.ofOwner ExpenseRow.organizationId O t id')
    (hothers : ∀ id', id' ≠ id → t.lookup id' = d.expenses.lookup id')
    (hmine : ∃ row, t.lookup id = some row ∧ row.organizationId = O) :
    Has O id { d with expenses := t } { d' with expenses := t' } := by
  have hitem : ∀ {id'}, id' ≠ id → (({ d with expenses := t } : Store).OwnsItem O id' ↔
      d.OwnsItem O id') := by
    intro id' hne
    simp only [Store.OwnsItem, hothers id' hne]
  have hhas : ({ d with expenses := t } : Store).OwnsItem O id := .inl hmine
  refine ⟨⟨⟨h.administration, h.financialPeriods, ht, h.payrollRuns, h.numbers, fun id' hid' => ?_,
    fun id' hid' => ?_, h.outbox⟩, fun row hrow => ?_, h.mineRun, h.progressAt⟩, hhas⟩
  · by_cases hne : id' = id
    · rw [hne]
      exact h.progressAt
    · exact h.progress id' ((hitem hne).mp hid')
  · by_cases hne : id' = id
    · rw [hne] at hid'
      exact absurd hhas hid'
    · exact h.noProgress id' fun hold => hid' ((hitem hne).mpr hold)
  · obtain ⟨row', hrow', horg⟩ := hmine
    obtain rfl := Option.some.inj (hrow'.symm.trans hrow)
    exact horg

theorem At.withRuns {id : Id} (h : At O id d d') {t t' : Table Id PayrollRunRow}
    (ht : ∀ id', t'.lookup id' = Table.ofOwner PayrollRunRow.organizationId O t id')
    (hothers : ∀ id', id' ≠ id → t.lookup id' = d.payrollRuns.lookup id')
    (hmine : ∃ row, t.lookup id = some row ∧ row.organizationId = O) :
    Has O id { d with payrollRuns := t } { d' with payrollRuns := t' } := by
  have hitem : ∀ {id'}, id' ≠ id → (({ d with payrollRuns := t } : Store).OwnsItem O id' ↔
      d.OwnsItem O id') := by
    intro id' hne
    simp only [Store.OwnsItem, hothers id' hne]
  have hhas : ({ d with payrollRuns := t } : Store).OwnsItem O id := .inr hmine
  refine ⟨⟨⟨h.administration, h.financialPeriods, h.expenses, ht, h.numbers, fun id' hid' => ?_,
    fun id' hid' => ?_, h.outbox⟩, h.mineExpense, fun row hrow => ?_, h.progressAt⟩, hhas⟩
  · by_cases hne : id' = id
    · rw [hne]
      exact h.progressAt
    · exact h.progress id' ((hitem hne).mp hid')
  · by_cases hne : id' = id
    · rw [hne] at hid'
      exact absurd hhas hid'
    · exact h.noProgress id' fun hold => hid' ((hitem hne).mpr hold)
  · obtain ⟨row', hrow', horg⟩ := hmine
    obtain rfl := Option.some.inj (hrow'.symm.trans hrow)
    exact horg

/-- The progress of the item is written in both stores. -/
theorem Has.withProgress {id : Id} (h : Has O id d d') {t t' : Table Id ApprovalProgressRow}
    (hsame : t'.lookup id = t.lookup id)
    (hothers : ∀ id', id' ≠ id → t.lookup id' = d.approvalProgress.lookup id')
    (hothers' : ∀ id', id' ≠ id → t'.lookup id' = d'.approvalProgress.lookup id') :
    Has O id { d with approvalProgress := t } { d' with approvalProgress := t' } := by
  obtain ⟨hat, hitem⟩ := h
  refine ⟨⟨⟨hat.administration, hat.financialPeriods, hat.expenses, hat.payrollRuns, hat.numbers,
    fun id' hid' => ?_, fun id' hid' => ?_, hat.outbox⟩, hat.mineExpense, hat.mineRun, hsame⟩,
    hitem⟩
  · by_cases hne : id' = id
    · rw [hne]
      exact hsame
    · rw [hothers id' hne, hothers' id' hne]
      exact hat.progress id' hid'
  · by_cases hne : id' = id
    · rw [hne] at hid'
      exact absurd hitem hid'
    · rw [hothers' id' hne]
      exact hat.noProgress id' hid'

theorem relates_enqueue {events : List DomainEvent} (hevents : ∀ e ∈ events, EventOf O e) :
    (enqueue events).Relates (Slice O) fun _ => Slice O := by
  simp only [enqueue]
  split_ifs
  · exact Tx.relates_ret fun _ _ h => h
  · refine Tx.relates_exec fun d d' h => ?_
    refine ⟨h.administration, h.financialPeriods, h.expenses, h.payrollRuns, h.numbers, h.progress,
      h.noProgress, ?_⟩
    change d'.outbox ++ events = _
    rw [List.filter_append, h.outbox, List.filter_eq_self.mpr fun e he =>
      decide_eq_true (hevents e he)]

/-- A constraint that says the same in both states. -/
theorem both_ensure {β γ : Type} {R : β → γ → Prop} {p p' : Prop} [Decidable p] [Decidable p']
    {e : Failure} {k : Unit → Except Failure β} {k' : Unit → Except Failure γ} (hp : p' ↔ p)
    (h : p → Tx.Both R (k ()) (k' ())) :
    Tx.Both R (ensure p e >>= k) (ensure p' e >>= k') := by
  by_cases hholds : p
  · rw [ensure, ensure, if_pos hholds, if_pos (hp.mpr hholds)]
    exact h hholds
  · rw [ensure, ensure, if_neg hholds, if_neg fun h' => hholds (hp.mp h')]
    exact rfl

theorem relates_nextExpenseNumber (id : Id) :
    (ExpenseRepository.nextExpenseNumber O).Relates (At O id) fun _ => At O id := by
  refine Tx.Relates.bind (Q := fun _ => At O id) (Tx.relates_write fun d d' h => ?_)
    fun _ => Tx.relates_ret fun _ _ h => h
  rw [h.numbers]
  refine both_ensure Iff.rfl fun _ => ⟨rfl, ?_⟩
  refine ⟨⟨h.administration, h.financialPeriods, h.expenses, h.payrollRuns, ?_, h.progress,
    h.noProgress, h.outbox⟩, h.mineExpense, h.mineRun, h.progressAt⟩
  simp only [Finmap.lookup_insert]

theorem relates_saveExpense {expense : Expense} {id : Id} (hid : expense.props.id = id)
    (horg : expense.props.organizationId = O) :
    (ExpenseRepository.save expense).Relates (At O id) fun _ => Has O id := by
  subst hid
  refine Tx.relates_exec fun d d' h => both_ensure Iff.rfl fun _ => both_ensure Iff.rfl fun _ => ?_
  have hmem : expense.props.id ∈ d'.expenses ↔ expense.props.id ∈ d.expenses := by
    rw [Finmap.mem_iff, Finmap.mem_iff, h.lookup_expense]
  by_cases hold : expense.props.id ∈ d.expenses
  · rw [if_pos hold, if_pos (hmem.mpr hold)]
    obtain ⟨row, hrow⟩ := Finmap.mem_iff.mp hold
    refine h.withExpenses (lookup_update h.expenses h.mineExpense fun _ => rfl)
      (fun id' hne => ?_) ⟨ExpenseRepository.updateRow expense.props row, ?_, ?_⟩
    · rw [Table.lookup_update, if_neg hne]
    · rw [Table.lookup_update, if_pos rfl, hrow]
      rfl
    · exact h.mineExpense row hrow
  · rw [if_neg hold, if_neg fun h' => hold (hmem.mp h')]
    refine both_ensure Iff.rfl fun _ => both_ensure ?_ fun _ => ?_
    · exact not_congr (h.numberTaken_iff horg)
    · exact h.withExpenses (lookup_insert h.expenses horg)
        (fun id' hne => Finmap.lookup_insert_of_ne _ hne) ⟨_, Finmap.lookup_insert _, horg⟩

theorem relates_initializeProgress {itemId id : Id} (hid : itemId = id) (itemType : String)
    (chain : ApprovalChain) : (ApprovalProgressRepository.initializeProgress itemId itemType
      chain).Relates (Has O id) fun _ => Has O id := by
  obtain rfl := hid.symm
  refine Tx.Relates.bind (Q := fun _ => Has O id) (Tx.relates_exec fun d d' h => ?_)
    fun _ => Tx.relates_ret fun _ _ h => h
  refine both_ensure ?_ fun _ => ?_
  · rw [Finmap.mem_iff, Finmap.mem_iff, h.1.progressAt]
  · refine h.withProgress ?_ (fun id' hne => Finmap.lookup_insert_of_ne _ hne)
      fun id' hne => Finmap.lookup_insert_of_ne _ hne
    rw [Finmap.lookup_insert, Finmap.lookup_insert]

theorem Has.recordsOf {id : Id} (h : Has O id d d') : ApprovalProgressRepository.recordsOf d' id =
    ApprovalProgressRepository.recordsOf d id := by
  simp only [ApprovalProgressRepository.recordsOf, h.1.progressAt]

theorem relates_findProgress (id : Id) :
    (findProgress id).Relates (Has O id) fun _ _ _ => True := by
  refine Tx.Relates.bind (Q := fun _ _ _ => True) (fun d d' h => ?_) fun _ =>
    Tx.relates_orFail fun _ _ _ _ _ => trivial
  rw [ApprovalProgressRepository.findByItemId_solo, ApprovalProgressRepository.findByItemId_solo,
    h.1.progressAt, h.recordsOf]
  exact ⟨rfl, trivial⟩

theorem relates_saveProgress {itemId id : Id} (hid : itemId = id) (progress : ApprovalProgress) :
    (ApprovalProgressRepository.save itemId progress).Relates (Has O id) fun _ => Has O id := by
  obtain rfl := hid.symm
  refine Tx.Relates.bind (Q := fun _ => Has O id) (Tx.relates_select (fun d d' h => ?_)
    fun _ _ h => h) fun found => ?_
  · rw [decide_eq_decide, Finmap.mem_iff, Finmap.mem_iff, h.1.progressAt]
  refine Tx.Relates.bind (Q := fun _ => Has O id) (Tx.relates_require fun _ _ _ h => h) fun _ => ?_
  refine Tx.Relates.bind (Q := fun _ => Has O id) (Tx.relates_select (fun d d' h => ?_)
    fun _ _ h => h) fun existingSteps => ?_
  · rw [h.recordsOf]
  simp only
  split_ifs
  · exact Tx.relates_ret fun _ _ h => h
  · refine Tx.relates_exec fun d d' h => both_ensure (by rw [h.recordsOf]) fun _ => ?_
    refine h.withProgress ?_ (fun id' hne => ?_) fun id' hne => ?_
    · rw [Table.lookup_update, Table.lookup_update, if_pos rfl, if_pos rfl, h.1.progressAt]
    · rw [Table.lookup_update, if_neg hne]
    · rw [Table.lookup_update, if_neg hne]

theorem relates_upsertRun {props : PayrollRunProps} (horg : props.organizationId = O) :
    (PayrollRunRepository.upsertRun props).Relates (At O props.id) fun _ => Has O props.id := by
  refine Tx.relates_exec fun d d' h => ?_
  have hmem : props.id ∈ d'.payrollRuns ↔ props.id ∈ d.payrollRuns := by
    rw [Finmap.mem_iff, Finmap.mem_iff, h.lookup_run]
  by_cases hold : props.id ∈ d.payrollRuns
  · rw [if_pos hold, if_pos (hmem.mpr hold)]
    obtain ⟨row, hrow⟩ := Finmap.mem_iff.mp hold
    refine h.withRuns (lookup_update h.payrollRuns h.mineRun fun _ => rfl)
      (fun id' hne => ?_) ⟨PayrollRunRepository.updateColumns props row, ?_, ?_⟩
    · rw [Table.lookup_update, if_neg hne]
    · rw [Table.lookup_update, if_pos rfl, hrow]
      rfl
    · exact h.mineRun row hrow
  · rw [if_neg hold, if_neg fun h' => hold (hmem.mp h')]
    refine both_ensure ?_ fun _ => ?_
    · rw [horg]
      exact not_congr (h.monthTaken_iff _)
    · exact h.withRuns (lookup_insert h.payrollRuns horg)
        (fun id' hne => Finmap.lookup_insert_of_ne _ hne) ⟨_, Finmap.lookup_insert _, horg⟩

/-- A run that is there is updated in both stores. -/
theorem Has.updateRun {id : Id} (h : Has O id d d') {f : PayrollRunRow → PayrollRunRow}
    (hf : ∀ row, (f row).organizationId = row.organizationId) :
    Has O id { d with payrollRuns := Table.update d.payrollRuns id f }
      { d' with payrollRuns := Table.update d'.payrollRuns id f } := by
  rcases hrow : d.payrollRuns.lookup id with _ | row
  · have hrow' := h.1.lookup_run.trans hrow
    simp only [Table.update, hrow, hrow']
    exact h
  · refine h.1.withRuns (lookup_update h.1.payrollRuns h.1.mineRun hf) (fun id' hne => ?_)
      ⟨f row, ?_, (hf row).trans (h.1.mineRun row hrow)⟩
    · rw [Table.lookup_update, if_neg hne]
    · rw [Table.lookup_update, if_pos rfl, hrow]
      rfl

theorem Has.payslipsOf {id : Id} (h : Has O id d d') :
    PayrollRunRepository.payslipsOf d' id = PayrollRunRepository.payslipsOf d id := by
  simp only [PayrollRunRepository.payslipsOf, h.1.lookup_run]

theorem relates_insertPayslips (id : Id) (payslips : List PayslipProps) :
    (PayrollRunRepository.insertPayslips id payslips).Relates (Has O id) fun _ => Has O id := by
  induction payslips with
  | nil => exact Tx.relates_ret fun _ _ h => h
  | cons payslip payslips ih =>
    refine Tx.Relates.bind (Q := fun _ => Has O id) (Tx.relates_exec fun d d' h => ?_) fun _ => ih
    refine both_ensure Iff.rfl fun _ => both_ensure Iff.rfl fun _ => both_ensure ?_ fun _ => ?_
    · rw [h.payslipsOf]
    · exact h.updateRun fun _ => rfl

theorem relates_saveRun {run : PayrollRun} {id : Id} (hid : run.props.id = id)
    (horg : run.props.organizationId = O) :
    (PayrollRunRepository.save run).Relates (At O id) fun _ => Has O id := by
  subst hid
  refine (relates_upsertRun horg).bind fun _ => ?_
  refine Tx.Relates.bind (Q := fun _ => Has O run.props.id) (Tx.relates_select (fun d d' h => ?_)
    fun _ _ h => h) fun existingIds => relates_insertPayslips _ _
  rw [h.payslipsOf]

/-- The period is no other organization's. -/
def AtPeriod (O id : Id) (d d' : Store) : Prop :=
  Slice O d d' ∧ ∀ row, d.financialPeriods.lookup id = some row → row.organizationId = O

theorem relates_savePeriod {period : FinancialPeriod} (horg : period.props.organizationId = O) :
    (FinancialPeriodRepository.save period).Relates (AtPeriod O period.props.id)
      fun _ => Slice O := by
  refine Tx.relates_exec fun d d' hat => ?_
  obtain ⟨h, hmine⟩ := hat
  have hmem : period.props.id ∈ d'.financialPeriods ↔ period.props.id ∈ d.financialPeriods := by
    rw [Finmap.mem_iff, Finmap.mem_iff, h.financialPeriods]
    simp only [Table.ofOwner_eq_some]
    refine exists_congr fun row => and_iff_left_of_imp ?_
    exact hmine row
  by_cases hold : period.props.id ∈ d.financialPeriods
  · rw [if_pos hold, if_pos (hmem.mpr hold)]
    exact ⟨h.administration, lookup_update h.financialPeriods hmine fun _ => rfl, h.expenses,
      h.payrollRuns, h.numbers, h.progress, h.noProgress, h.outbox⟩
  · rw [if_neg hold, if_neg fun h' => hold (hmem.mp h')]
    refine both_ensure Iff.rfl fun _ => both_ensure ?_ fun _ => ?_
    · exact not_congr (h.datesTaken_iff horg)
    · exact ⟨h.administration, lookup_insert h.financialPeriods horg, h.expenses,
        h.payrollRuns, h.numbers, h.progress, h.noProgress, h.outbox⟩

end Store.Slice

end RatelPlatform
