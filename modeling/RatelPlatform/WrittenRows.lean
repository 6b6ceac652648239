import RatelPlatform.Commands
import RatelPlatform.CriticalSection
import RatelPlatform.Patches

/-!
# What the commands may write

The transactions of the expense context and the closing of a period, read for what
they write whatever they see. An expense transaction looks for its period once, before
it writes anything; from then on it writes the row of one expense, in that period
(`ExpenseCommand.shape`). Closing a period writes no expense.
-/

namespace RatelPlatform

/-- All that is written to periods and expenses is the row of one expense, which is of
the period, or keeps the one it has. -/
structure Touches (id periodId : Id) (p : Store → Store) : Prop where
  periods : ∀ d, (p d).financialPeriods = d.financialPeriods
  others : ∀ d id', id' ≠ id → (p d).expenses.lookup id' = d.expenses.lookup id'
  kept : ∀ d row, d.expenses.lookup id = some row →
    ∃ row', (p d).expenses.lookup id = some row' ∧
      (row'.periodId = row.periodId ∨ row'.periodId = periodId)
  added : ∀ d row, d.expenses.lookup id = none → (p d).expenses.lookup id = some row →
    row.periodId = periodId

namespace Touches

variable {id periodId : Id} {p q : Store → Store}

/-- Nothing of the kind is written. -/
theorem of_same (hperiods : ∀ d, (p d).financialPeriods = d.financialPeriods)
    (hexpenses : ∀ d, (p d).expenses = d.expenses) : Touches id periodId p where
  periods := hperiods
  others := fun d id' _ => by rw [hexpenses]
  kept := fun d row hrow => ⟨row, by rw [hexpenses, hrow], .inl rfl⟩
  added := fun d row hnone hrow => by
    rw [hexpenses, hnone] at hrow
    cases hrow

theorem refl : Touches id periodId fun d => d := of_same (fun _ => rfl) fun _ => rfl

/-- First one, then the other. -/
theorem comp (hp : Touches id periodId p) (hq : Touches id periodId q) :
    Touches id periodId fun d => q (p d) where
  periods := fun d => (hq.periods _).trans (hp.periods d)
  others := fun d id' hne => (hq.others _ id' hne).trans (hp.others d id' hne)
  kept := fun d row hrow => by
    obtain ⟨row₁, hrow₁, hperiod₁⟩ := hp.kept d row hrow
    obtain ⟨row₂, hrow₂, hperiod₂⟩ := hq.kept _ row₁ hrow₁
    refine ⟨row₂, hrow₂, ?_⟩
    rcases hperiod₂ with hperiod₂ | hperiod₂
    · rw [hperiod₂]
      exact hperiod₁
    · exact .inr hperiod₂
  added := fun d row hnone hrow => by
    rcases hmid : (p d).expenses.lookup id with _ | row₁
    · exact hq.added _ row hmid hrow
    · obtain ⟨row₂, hrow₂, hperiod⟩ := hq.kept _ row₁ hmid
      obtain rfl := Option.some.inj (hrow₂.symm.trans hrow)
      rcases hperiod with hperiod | hperiod
      · rw [hperiod]
        exact hp.added d row₁ hnone hmid
      · exact hperiod

/-- A row afterwards is in the period it was in before, or in the one of the expense. -/
theorem row {d : Store} {id' : Id} {row' : ExpenseRow} (h : Touches id periodId p)
    (hrow' : (p d).expenses.lookup id' = some row') :
    (∃ row, d.expenses.lookup id' = some row ∧ row'.periodId = row.periodId) ∨
      id' = id ∧ row'.periodId = periodId := by
  by_cases hid : id' = id
  · subst hid
    rcases hrow : d.expenses.lookup id' with _ | row
    · exact .inr ⟨rfl, h.added d row' hrow hrow'⟩
    · obtain ⟨row₁, hrow₁, hperiod⟩ := h.kept d row hrow
      obtain rfl := Option.some.inj (hrow₁.symm.trans hrow')
      exact hperiod.imp (fun hperiod => ⟨row, rfl, hperiod⟩) fun hperiod => ⟨rfl, hperiod⟩
  · rw [h.others d id' hid] at hrow'
    exact .inl ⟨row', hrow', rfl⟩

/-- A statement whose every outcome touches no more. -/
theorem exec {locks : Store → List RowLock} {f : Store → Except Failure (Store → Store)}
    (h : Touches id periodId p) (hf : ∀ d q, f d = .ok q → Touches id periodId q) :
    (Tx.exec locks f).Patches (fun _ => Touches id periodId) p :=
  Tx.patches_exec.mpr fun d q hq => h.comp (hf d q hq)

/-- The upsert of an expense. -/
theorem save {e : Expense} (h : Touches e.props.id e.props.periodId p) :
    (ExpenseRepository.save e).Patches (fun _ => Touches e.props.id e.props.periodId) p := by
  refine h.exec fun d q hf => ?_
  simp only [except_bind_ok, ensure_ok] at hf
  obtain ⟨-, -, -, -, hf⟩ := hf
  split_ifs at hf
  · rw [except_pure_ok] at hf
    subst hf
    refine ⟨fun _ => rfl, fun d id' hne => ?_, fun d row hrow => ?_, fun d row hnone hrow => ?_⟩
    · simp only [Table.lookup_update, if_neg hne]
    · refine ⟨ExpenseRepository.updateRow e.props row, ?_, .inl rfl⟩
      simp only [Table.lookup_update, if_pos, hrow, Option.map_some]
    · simp only [Table.lookup_update, if_pos, hnone, Option.map_none, reduceCtorEq] at hrow
  · simp only [except_bind_ok, ensure_ok, except_pure_ok] at hf
    obtain ⟨-, -, -, -, rfl⟩ := hf
    refine ⟨fun _ => rfl, fun d id' hne => Finmap.lookup_insert_of_ne _ hne, fun d row _ =>
      ⟨_, Finmap.lookup_insert _, .inr rfl⟩, fun d row _ hrow => ?_⟩
    obtain rfl := Option.some.inj ((Finmap.lookup_insert _).symm.trans hrow)
    rfl

/-! ## Statements on other tables -/

theorem enqueue {events : List DomainEvent} (h : Touches id periodId p) :
    (RatelPlatform.enqueue events).Patches (fun _ => Touches id periodId) p := by
  simp only [RatelPlatform.enqueue]
  split_ifs
  · exact h
  · refine h.exec fun d q hf => ?_
    rw [except_pure_ok] at hf
    subst hf
    exact of_same (fun _ => rfl) fun _ => rfl

theorem nextExpenseNumber {organizationId : Id} (h : Touches id periodId p) :
    (ExpenseRepository.nextExpenseNumber organizationId).Patches (fun _ => Touches id periodId) p := by
  intro d b q hf
  simp only [except_bind_ok, except_pure_ok, Prod.mk.injEq] at hf
  obtain ⟨-, -, -, hq⟩ := hf
  have htouches : Touches id periodId q := by
    subst hq
    exact of_same (fun _ => rfl) fun _ => rfl
  exact h.comp htouches

theorem initializeProgress {itemId : Id} {itemType : String} {chain : ApprovalChain}
    (h : Touches id periodId p) :
    (ApprovalProgressRepository.initializeProgress itemId itemType chain).Patches
      (fun _ => Touches id periodId) p := by
  refine Tx.patches_bind.mpr (h.exec fun d q hf => ?_)
  simp only [except_bind_ok, except_pure_ok] at hf
  obtain ⟨-, -, rfl⟩ := hf
  exact of_same (fun _ => rfl) fun _ => rfl

theorem saveProgress {itemId : Id} {progress : ApprovalProgress} (h : Touches id periodId p) :
    (ApprovalProgressRepository.save itemId progress).Patches (fun _ => Touches id periodId) p := by
  simp only [ApprovalProgressRepository.save]
  simp only [Tx.patches_bind, Tx.patches_select, Tx.patches_require]
  intro _ _ steps
  split_ifs
  · exact h
  · refine h.exec fun d q hf => ?_
    simp only [except_bind_ok, except_pure_ok] at hf
    obtain ⟨-, -, rfl⟩ := hf
    exact of_same (fun _ => rfl) fun _ => rfl

end Touches

/-! ## Statements that only look -/

variable {p : Store → Store}

theorem assertActive_patches {rows : Administration → List ReferenceRow} {entityType : String}
    {id organizationId : Id} {Q : Unit → (Store → Store) → Prop} (h : Q () p) :
    (assertActive rows entityType id organizationId).Patches Q p := by
  simp only [assertActive, Tx.patches_bind, Tx.patches_select, Tx.patches_require]
  exact fun _ _ => h

theorem assertActiveIfGiven_patches {rows : Administration → List ReferenceRow}
    {entityType : String} {id : Option Id} {organizationId : Id}
    {Q : Unit → (Store → Store) → Prop} (h : Q () p) :
    (assertActiveIfGiven rows entityType id organizationId).Patches Q p := by
  rcases id with _ | id
  · exact h
  · exact assertActive_patches h

theorem findExpense_patches {expenseId organizationId : Id} {Q : Expense → (Store → Store) → Prop}
    (h : ∀ e, Q e p) : (findExpense expenseId organizationId).Patches Q p := by
  simp only [findExpense, ExpenseRepository.findById, Tx.patches_bind, Tx.patches_select,
    Tx.pure_eq, Tx.patches_ret, Tx.patches_orFail]
  exact fun _ e _ => h e

theorem findProgress_patches {itemId : Id} {Q : ApprovalProgress → (Store → Store) → Prop}
    (h : ∀ progress, Q progress p) : (findProgress itemId).Patches Q p := by
  simp only [findProgress, ApprovalProgressRepository.findByItemId, Tx.patches_bind,
    Tx.patches_select]
  intro chain
  rcases chain with _ | chain
  · simp only [Tx.pure_eq, Tx.patches_ret, Tx.patches_orFail, reduceCtorEq, false_implies,
      implies_true]
  · simp only [Tx.patches_bind, Tx.patches_select, Tx.pure_eq, Tx.patches_ret, Tx.patches_orFail]
    exact fun _ progress _ => h progress

theorem assertHoldsCurrentStepRole_patches {item : Approvable} {progress : ApprovalProgress}
    {approverId : Id} {Q : Unit → (Store → Store) → Prop} (h : Q () p) :
    (WorkflowEngine.assertHoldsCurrentStepRole getRolesForUser item progress approverId).Patches
      Q p := by
  simp only [WorkflowEngine.assertHoldsCurrentStepRole]
  rcases progress.currentStepRequirement with _ | step
  · exact h
  · simp only [getRolesForUser, Tx.patches_bind, Tx.patches_select, Tx.pure_eq, Tx.patches_ret,
      Tx.patches_require]
    exact fun _ _ _ => h

theorem recordApproval_patches {item : Approvable} {progress : ApprovalProgress} {approverId : Id}
    {now : JsDate} {Q : ApprovalProgress × Bool → (Store → Store) → Prop} (h : ∀ r, Q r p) :
    (WorkflowEngine.recordApproval getRolesForUser item progress approverId now).Patches Q p := by
  simp only [WorkflowEngine.recordApproval, Tx.patches_bind, Tx.patches_require]
  refine fun _ _ => assertHoldsCurrentStepRole_patches ?_
  rw [Tx.patches_ofExcept]
  exact fun r _ => h r

theorem recordRejection_patches {item : Approvable} {progress : ApprovalProgress} {approverId : Id}
    {reason : String} {now : JsDate} {Q : ApprovalProgress → (Store → Store) → Prop}
    (h : ∀ progress, Q progress p) :
    (WorkflowEngine.recordRejection getRolesForUser item progress approverId reason now).Patches
      Q p := by
  simp only [WorkflowEngine.recordRejection, Tx.patches_bind, Tx.patches_require]
  exact fun _ => assertHoldsCurrentStepRole_patches (h _)

theorem looks_requireOpenPeriod {organizationId tie : Id} {Q : FinancialPeriod → Prop}
    (h : ∀ period, Q period) : (requireOpenPeriod organizationId tie).Looks Q := by
  simp only [requireOpenPeriod, FinancialPeriodRepository.findCurrentOpen, Tx.looks_bind,
    Tx.looks_select, Tx.looks_orFail, Tx.pure_eq, Tx.looks_ret]
  exact fun _ period _ => h period

theorem looks_assertActive {rows : Administration → List ReferenceRow} {entityType : String}
    {id organizationId : Id} {Q : Unit → Prop} (h : Q ()) :
    (assertActive rows entityType id organizationId).Looks Q := by
  simp only [assertActive, Tx.looks_bind, Tx.looks_select, Tx.looks_require]
  exact fun _ _ => h

theorem looks_assertActiveIfGiven {rows : Administration → List ReferenceRow} {entityType : String}
    {id : Option Id} {organizationId : Id} {Q : Unit → Prop} (h : Q ()) :
    (assertActiveIfGiven rows entityType id organizationId).Looks Q := by
  rcases id with _ | id
  · exact h
  · exact looks_assertActive h

theorem looks_findExpense {expenseId organizationId : Id} {Q : Expense → Prop}
    (h : ∀ e, e.props.organizationId = organizationId → Q e) :
    (findExpense expenseId organizationId).Looks Q := by
  simp only [findExpense, ExpenseRepository.findById, Tx.looks_bind, Tx.looks_select, Tx.pure_eq,
    Tx.looks_ret, Tx.looks_orFail]
  intro found e he
  exact h e (by simpa using (Option.filter_eq_some_iff.mp he).2)

theorem looks_assertPeriodOpen {organizationId periodId : Id} :
    (assertPeriodOpen organizationId periodId).Looks fun _ => True := by
  simp only [assertPeriodOpen, isOpen, FinancialPeriodRepository.findById, Tx.looks_bind,
    Tx.looks_select, Tx.pure_eq, Tx.looks_ret]
  intro period
  split
  · simp [Tx.looks_require]
  · split_ifs
    · simp [Tx.looks_require]
    · simp [Tx.looks_require]

theorem looks_findProgress {itemId : Id} : (findProgress itemId).Looks fun _ => True := by
  simp only [findProgress, ApprovalProgressRepository.findByItemId, Tx.looks_bind, Tx.looks_select]
  intro chain
  cases chain with
  | none => simp [Tx.looks_orFail]
  | some chain => simp [Tx.looks_orFail]

theorem looks_assertHoldsCurrentStepRole {item : Approvable} {progress : ApprovalProgress}
    {approverId : Id} {Q : Unit → Prop} (h : Q ()) :
    (WorkflowEngine.assertHoldsCurrentStepRole getRolesForUser item progress approverId).Looks Q := by
  simp only [WorkflowEngine.assertHoldsCurrentStepRole]
  cases progress.currentStepRequirement with
  | none => exact h
  | some step => simp [getRolesForUser, Tx.looks_require, h]

theorem looks_recordApproval {item : Approvable} {progress : ApprovalProgress} {approverId : Id}
    {now : JsDate} :
    (WorkflowEngine.recordApproval getRolesForUser item progress approverId now).Looks
      fun _ => True := by
  simp only [WorkflowEngine.recordApproval, Tx.looks_bind, Tx.looks_require]
  intro _ _
  refine looks_assertHoldsCurrentStepRole ?_
  cases progress.recordApproval approverId now with
  | error e => trivial
  | ok r => trivial

theorem looks_recordRejection {item : Approvable} {progress : ApprovalProgress} {approverId : Id}
    {reason : String} {now : JsDate} :
    (WorkflowEngine.recordRejection getRolesForUser item progress approverId reason now).Looks
      fun _ => True := by
  simp only [WorkflowEngine.recordRejection, Tx.looks_bind, Tx.looks_require]
  exact fun _ => looks_assertHoldsCurrentStepRole trivial

theorem looks_findPeriod {periodId organizationId : Id} :
    (findPeriod periodId organizationId).Looks fun _ => True := by
  simp [findPeriod, FinancialPeriodRepository.findByIdForOrganization]

/-! ## The six transactions -/

namespace ExpenseCommand

/-- The command creates its expense, in the period that is open; any other changes
one that has a period. -/
def isCreating : ExpenseCommand → Bool
  | create _ | createAdjustment _ => true
  | _ => false

/-- The organization a command is given for. -/
def organizationId : ExpenseCommand → Id
  | create cmd => cmd.organizationId
  | submit cmd => cmd.organizationId
  | approve cmd => cmd.organizationId
  | reject cmd => cmd.organizationId
  | cancel cmd => cmd.organizationId
  | createAdjustment cmd => cmd.organizationId

variable {env : Env} {cmd : ExpenseCommand}

theorem subject_of_creating (h : cmd.isCreating = true) : cmd.subject env = env.uuid := by
  cases cmd with
  | create | createAdjustment => rfl
  | submit | approve | reject | cancel => cases h

/-- **Creating**: the open period is looked for first, and the new row is in it. -/
theorem creating_shape (env : Env) (h : cmd.isCreating = true) :
    ∃ cont : FinancialPeriod → StoreTx Unit,
      cmd.program env = (requireOpenPeriod cmd.organizationId env.tie >>= cont) ∧
      ∀ period, (cont period).Patches (fun _ => Touches (cmd.subject env) period.props.id) id := by
  cases cmd with
  | create cmd =>
    refine ⟨_, Tx.bind_assoc _ _ _, fun period => ?_⟩
    have hnothing : Touches env.uuid period.props.id id := Touches.refl
    simp only [Tx.patches_bind, Tx.patches_ofExcept, Tx.patches_ret, Tx.pure_eq]
    refine assertActive_patches (assertActive_patches (assertActiveIfGiven_patches
      (assertActiveIfGiven_patches ?_)))
    refine (Touches.nextExpenseNumber hnothing).mono fun number p hp amount _ e he => ?_
    obtain ⟨-, rfl⟩ := Expense.create_ok.mp he
    exact (Touches.save hp).mono fun _ _ hp => Touches.enqueue hp
  | createAdjustment cmd =>
    refine ⟨_, Tx.bind_assoc _ _ _, fun period => ?_⟩
    have hnothing : Touches env.uuid period.props.id id := Touches.refl
    simp only [Tx.patches_bind, Tx.patches_ofExcept, Tx.patches_ret, Tx.pure_eq]
    refine findExpense_patches fun original => ?_
    refine (Touches.nextExpenseNumber hnothing).mono fun number p hp e he => ?_
    obtain ⟨-, -, -, rfl⟩ := Expense.createAdjustment_ok.mp he
    refine (Touches.save hp).mono fun _ p hp => ?_
    simp only [startAdjustmentApproval]
    split_ifs
    · simp only [Tx.patches_bind, Tx.pure_eq, Tx.patches_ret]
      exact (Touches.initializeProgress hp).mono fun _ _ hp => Touches.enqueue hp
    · exact Touches.enqueue hp
  | submit | approve | reject | cancel => cases h

/-- A transition keeps the id and the period. -/
theorem transition_same {e e' : Expense} {target : ExpenseStatus} {allowedFrom : List ExpenseStatus}
    {now : JsDate} {event : DomainEvent} (h : e.transition target allowedFrom now event = .ok e') :
    e'.props.id = e.props.id ∧ e'.props.periodId = e.props.periodId := by
  obtain ⟨-, rfl⟩ := Expense.transition_ok.mp h
  exact ⟨rfl, rfl⟩

/-- An expense of the same id and period is saved. -/
theorem save_same {e e' : Expense} {p : Store → Store}
    (hsame : e'.props.id = e.props.id ∧ e'.props.periodId = e.props.periodId)
    (h : Touches e.props.id e.props.periodId p) :
    (ExpenseRepository.save e').Patches (fun _ p =>
      (enqueue e'.domainEvents).Patches (fun _ => Touches e.props.id e.props.periodId) p) p := by
  obtain ⟨hid, hperiod⟩ := hsame
  rw [← hid, ← hperiod] at h ⊢
  exact (Touches.save h).mono fun _ _ h => Touches.enqueue h

/-- **Changing**: the expense is loaded first, and its period looked for next; it is
its row that is written. -/
theorem changing_shape (env : Env) (h : cmd.isCreating = false) :
    ∃ cont : Expense → StoreTx Unit,
      cmd.program env = (findExpense (cmd.subject env) cmd.organizationId >>= fun e =>
        assertPeriodOpen cmd.organizationId e.props.periodId >>= fun _ => cont e) ∧
      ∀ e, (cont e).Patches (fun _ => Touches e.props.id e.props.periodId) id := by
  cases cmd with
  | create | createAdjustment => cases h
  | submit cmd =>
    refine ⟨_, rfl, fun e => ?_⟩
    simp only [Tx.patches_bind, Tx.patches_ofExcept]
    intro submitted hsubmitted
    have hsame := transition_same hsubmitted
    simp only [startApproval]
    split_ifs
    · rw [Tx.patches_ofExcept]
      intro approved happroved
      obtain ⟨hid, hperiod⟩ := transition_same happroved
      exact save_same ⟨hid.trans hsame.1, hperiod.trans hsame.2⟩ Touches.refl
    · simp only [Tx.patches_bind, Tx.pure_eq, Tx.patches_ret]
      exact (Touches.initializeProgress Touches.refl).mono fun _ _ hp => save_same hsame hp
  | approve cmd =>
    refine ⟨_, rfl, fun e => ?_⟩
    simp only [Tx.patches_bind, Tx.patches_ofExcept]
    refine findProgress_patches fun progress => recordApproval_patches fun r approved happroved => ?_
    have hsame : approved.props.id = e.props.id ∧ approved.props.periodId = e.props.periodId := by
      split_ifs at happroved
      · exact transition_same happroved
      · cases happroved
        exact ⟨rfl, rfl⟩
    exact (Touches.saveProgress Touches.refl).mono fun _ _ hp => save_same hsame hp
  | reject cmd =>
    refine ⟨_, rfl, fun e => ?_⟩
    simp only [Tx.patches_bind, Tx.patches_ofExcept]
    refine findProgress_patches fun progress => recordRejection_patches fun progress' rejected h => ?_
    exact (Touches.saveProgress Touches.refl).mono fun _ _ hp => save_same (transition_same h) hp
  | cancel cmd =>
    refine ⟨_, rfl, fun e => ?_⟩
    simp only [Tx.patches_bind, Tx.patches_ofExcept]
    exact fun cancelled h => save_same (transition_same h) Touches.refl

end ExpenseCommand

/-! ## The closing -/

/-- No expense is written, and the period is not open afterwards. -/
structure Shuts (periodId : Id) (p : Store → Store) : Prop where
  expenses : ∀ d, (p d).expenses = d.expenses
  shut : ∀ d row, (p d).financialPeriods.lookup periodId = some row →
    row.status ∉ PeriodStatus.openStatuses

theorem closePeriod_patches {env : Env} {cmd : ClosePeriodCommand} :
    (closePeriod env cmd).Patches (fun _ => Shuts cmd.periodId) id := by
  simp only [closePeriod, findPeriod, FinancialPeriodRepository.findByIdForOrganization,
    Tx.patches_bind, Tx.patches_select, Tx.pure_eq, Tx.patches_ret, Tx.patches_orFail,
    Tx.patches_ofExcept]
  intro found period hfound closed hclosed
  obtain ⟨row, -, rfl⟩ := Option.map_eq_some_iff.mp hfound
  obtain ⟨-, rfl⟩ := FinancialPeriod.close_ok.mp hclosed
  have hclosed : PeriodStatus.closed ∉ PeriodStatus.openStatuses := by decide
  -- the upsert writes the status, whether or not it finds a row
  simp only [FinancialPeriodRepository.save]
  rw [Tx.patches_exec]
  intro d q hf
  have hq : Shuts cmd.periodId q := by
    split_ifs at hf
    · rw [except_pure_ok] at hf
      subst hf
      refine ⟨fun _ => rfl, fun d row hrow => ?_⟩
      simp only [FinancialPeriodRepository.toDomain, FinancialPeriod.reconstitute,
        Table.lookup_update, if_pos, Option.map_eq_some_iff] at hrow
      obtain ⟨old, -, rfl⟩ := hrow
      exact hclosed
    · simp only [except_bind_ok, except_pure_ok] at hf
      obtain ⟨-, -, -, -, rfl⟩ := hf
      refine ⟨fun _ => rfl, fun d row hrow => ?_⟩
      obtain rfl := Option.some.inj ((Finmap.lookup_insert _).symm.trans hrow)
      exact hclosed
  simp only [enqueue]
  split_ifs
  · exact hq
  · rw [Tx.patches_exec]
    intro d' q' hf'
    rw [except_pure_ok] at hf'
    subst hf'
    exact ⟨fun d => hq.expenses d, fun d => hq.shut d⟩

end RatelPlatform
