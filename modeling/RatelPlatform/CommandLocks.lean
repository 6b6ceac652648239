import RatelPlatform.Commands
import RatelPlatform.ExpenseNumbers
import RatelPlatform.LockOrder
import RatelPlatform.WrittenRows

/-!
# The locks of the commands

The commands of the three contexts take their row locks in one order: the number
sequence of the organization, then the approval progress, then the row itself. The
payslips of a run are locked under the run. Only a new adjustment is locked before its
progress; nobody else can be at that one, as a submission asks for the progress of
expenses that are committed.

So the commands do not deadlock (`Commands.no_deadlock`).
-/

namespace RatelPlatform

/-- The state knows of an expense or a payroll run with the id. -/
def Store.Knows (d : Store) (id : Id) : Prop := id ∈ d.expenses ∨ id ∈ d.payrollRuns

/-- The order of the row locks. -/
def storeLocks : LockOrder Store RowLock where
  rank
    | .expenseNumberSequence _ => 0
    | .approvalProgress _ => 1
    | .approvalRecord _ _ => 1
    | _ => 2
  height := 2
  rank_le l := by
    cases l <;> simp
  guard
    | .payslip payrollRunId _ => some (.payrollRun payrollRunId)
    | _ => none
  issued d
    | .approvalProgress id => d.Knows id
    | _ => True

/-- The lock of a new item that is taken out of the order. -/
def ownLocks (uuid : Id) : Set RowLock := {l | l = .approvalProgress uuid}

theorem grows_iff {d d' : Store} :
    storeLocks.Grows d d' ↔ ∀ id, d.Knows id → d'.Knows id := by
  refine ⟨fun h id => h (.approvalProgress id), fun h l => ?_⟩
  cases l with
  | approvalProgress id => exact h id
  | _ => exact fun _ => trivial

/-- The change adds at most the item `x`, and takes none away. -/
def AddsOnly (x : Id) (q : Store → Store) : Prop :=
  ∀ d id, (d.Knows id → (q d).Knows id) ∧ ((q d).Knows id → d.Knows id ∨ id = x)

/-- A transaction that draws the id `uuid` and is about the item `x`, below the rank `n`. -/
structure Reached (uuid x : Id) (n : ℕ) (s : Stage Store RowLock) : Prop where
  level : s.level ≤ n
  may : s.since.Knows x ∨ x = uuid
  adds : AddsOnly x s.patch

namespace Reached

variable {uuid x : Id} {n r : ℕ} {s : Stage Store RowLock} {α : Type}

/-- At the start, a transaction may create an item. -/
theorem start (uuid : Id) (d : Store) : Reached uuid uuid 0 (.start d) :=
  ⟨le_rfl, .inr rfl, fun _ _ => ⟨id, .inl⟩⟩

theorem publishes (h : Reached uuid x n s) : storeLocks.Publishes (ownLocks uuid) s := by
  intro d hd
  refine ⟨grows_iff.mpr fun id => (h.adds d id).1, fun l hl => ?_⟩
  cases l with
  | approvalProgress id =>
    rcases (h.adds d id).2 hl with hl | rfl
    · exact .inl hl
    · exact h.may.imp (grows_iff.mp hd _) (congrArg RowLock.approvalProgress)
  | _ => exact .inl trivial

theorem since (h : Reached uuid x n s) {d : Store} (hd : storeLocks.Grows s.since d) :
    Reached uuid x n { s with since := d } :=
  ⟨h.level, h.may.imp_left (grows_iff.mp hd x), h.adds⟩

/-- A statement on rows of the item. -/
theorem write (h : Reached uuid x n s) {d : Store} (hd : storeLocks.Grows s.since d)
    {q : Store → Store} (hq : AddsOnly x q) (held : Set RowLock) :
    Reached uuid x r ⟨held, fun d => q (s.patch d), d, r⟩ := by
  refine ⟨le_rfl, h.may.imp_left (grows_iff.mp hd x), fun d id => ⟨fun hid => ?_, fun hid => ?_⟩⟩
  · exact (hq _ id).1 ((h.adds d id).1 hid)
  · exact ((hq _ id).2 hid).elim (h.adds d id).2 .inr

/-- A transaction may ask for the lock at rank `n`, and is below `r` with it. -/
def Asks (uuid x : Id) (n r : ℕ) (l : RowLock) : Prop :=
  l = .approvalProgress uuid ∨ n ≤ storeLocks.rank l ∧ storeLocks.rank l < r ∧
    storeLocks.guard l = none ∧ ∀ id, l = .approvalProgress id → id = x

theorem Asks.passed {l : RowLock} (h : Asks uuid x n r l) :
    storeLocks.Passed (ownLocks uuid) r l :=
  h.imp_right fun h => .inr h.2.1

theorem Asks.admits {l : RowLock} (h : Asks uuid x n r l) (hs : Reached uuid x n s) {d : Store}
    (hd : storeLocks.Grows s.since d) : storeLocks.Admits (ownLocks uuid) s d l := by
  rcases h with hown | ⟨hrank, -, hguard, hitem⟩
  · exact .inl hown
  · have hissued : l = .approvalProgress uuid ∨ storeLocks.issued d l := by
      cases l with
      | approvalProgress id =>
        obtain rfl := hitem id rfl
        exact (hs.may.imp (grows_iff.mp hd id) (congrArg RowLock.approvalProgress)).symm
      | _ => exact .inr trivial
    refine hissued.imp_right fun hissued => ⟨hissued, ?_, fun _ => hs.level.trans hrank⟩
    intro g hg
    rw [hguard] at hg
    cases hg

end Reached

/-! ## The statements -/

section

variable {uuid x : Id} {n r : ℕ} {s : Stage Store RowLock} {α : Type}

theorem climbs_looks {m : StoreTx α} {Q : α → Stage Store RowLock → Prop} (h : Reached uuid x n s)
    (hm : m.Looks fun _ => True) (hQ : ∀ a s', Reached uuid x n s' → Q a s') :
    m.Climbs storeLocks (ownLocks uuid) Q s :=
  hm.climbs fun a _ _ hd => hQ a _ (h.since hd)

theorem climbs_write {locks : Store → List RowLock} {f : Store → Except Failure (Store → Store)}
    {Q : Unit → Stage Store RowLock → Prop} (h : Reached uuid x n s) (hle : n ≤ r)
    (hlocks : ∀ d, ∀ l ∈ locks d, Reached.Asks uuid x n r l)
    (hpatch : ∀ d q, f d = .ok q → AddsOnly x q) (hQ : ∀ s', Reached uuid x r s' → Q () s') :
    (Tx.exec locks f : StoreTx Unit).Climbs storeLocks (ownLocks uuid) Q s := by
  refine Tx.climbs_exec r (h.level.trans hle) fun d hd => ⟨fun l hl => ?_, fun q hq => ?_⟩
  · exact ⟨(hlocks _ l hl).admits h hd, (hlocks _ l hl).passed⟩
  · exact hQ _ (h.write hd (hpatch _ q hq) _)

/-! ### What they write -/

theorem addsOnly_of_eq {q : Store → Store} (hexpenses : ∀ d, (q d).expenses = d.expenses)
    (hruns : ∀ d, (q d).payrollRuns = d.payrollRuns) : AddsOnly x q := by
  intro d id
  simp only [Store.Knows, hexpenses, hruns]
  exact ⟨fun h => h, .inl⟩

theorem addsOnly_insertExpense (row : ExpenseRow) :
    AddsOnly x fun d => { d with expenses := d.expenses.insert x row } := by
  intro d id
  simp only [Store.Knows, Finmap.mem_insert]
  tauto

theorem addsOnly_insertRun (row : PayrollRunRow) :
    AddsOnly x fun d => { d with payrollRuns := d.payrollRuns.insert x row } := by
  intro d id
  simp only [Store.Knows, Finmap.mem_insert]
  tauto

theorem addsOnly_updateExpense (id : Id) (f : ExpenseRow → ExpenseRow) :
    AddsOnly x fun d => { d with expenses := Table.update d.expenses id f } := by
  intro d id'
  simp only [Store.Knows, Table.mem_update]
  exact ⟨fun h => h, .inl⟩

theorem addsOnly_updateRun (id : Id) (f : PayrollRunRow → PayrollRunRow) :
    AddsOnly x fun d => { d with payrollRuns := Table.update d.payrollRuns id f } := by
  intro d id'
  simp only [Store.Knows, Table.mem_update]
  exact ⟨fun h => h, .inl⟩

/-! ### What they lock -/

/-- A lock of the order. -/
theorem asks_of_rank {l : RowLock} (m : ℕ) (hrank : storeLocks.rank l = m) (hle : n ≤ m)
    (hlt : m < r) (hguard : storeLocks.guard l = none) (hitem : ∀ id, l ≠ .approvalProgress id) :
    Reached.Asks uuid x n r l := by
  subst hrank
  exact .inr ⟨hle, hlt, hguard, fun id hl => absurd hl (hitem id)⟩

/-- An upsert locks the row, and the key of the unique index of a row that is new. -/
theorem asks_upsert {l row key : RowLock} {c : Prop} [Decidable c]
    (hl : l ∈ row :: if c then [] else [key]) (hrow : Reached.Asks uuid x n r row)
    (hkey : Reached.Asks uuid x n r key) : Reached.Asks uuid x n r l := by
  rcases List.mem_cons.mp hl with rfl | hl
  · exact hrow
  · split_ifs at hl
    · exact absurd hl List.not_mem_nil
    · obtain rfl := List.mem_singleton.mp hl
      exact hkey

theorem climbs_enqueue {events : List DomainEvent} {Q : Unit → Stage Store RowLock → Prop}
    (h : Reached uuid x n s) (hQ : ∀ s', Reached uuid x n s' → Q () s') :
    (enqueue events).Climbs storeLocks (ownLocks uuid) Q s := by
  simp only [enqueue]
  split_ifs
  · exact hQ s h
  · refine climbs_write h le_rfl (fun _ _ hl => absurd hl List.not_mem_nil) ?_ hQ
    rintro d q ⟨⟩
    exact addsOnly_of_eq (fun _ => rfl) fun _ => rfl

theorem climbs_savePeriod {period : FinancialPeriod} {Q : Unit → Stage Store RowLock → Prop}
    (h : Reached uuid x n s) (hle : n ≤ 2) (hQ : ∀ s', Reached uuid x 3 s' → Q () s') :
    (FinancialPeriodRepository.save period).Climbs storeLocks (ownLocks uuid) Q s := by
  refine climbs_write h (hle.trans (by decide)) (fun d l hl => ?_) (fun d q hf => ?_) hQ
  · exact asks_upsert hl (asks_of_rank 2 rfl hle (by decide) rfl (by simp))
      (asks_of_rank 2 rfl hle (by decide) rfl (by simp))
  · split_ifs at hf
    · rw [except_pure_ok] at hf
      subst hf
      exact addsOnly_of_eq (fun _ => rfl) fun _ => rfl
    · simp only [except_bind_ok, except_pure_ok] at hf
      obtain ⟨-, -, -, -, rfl⟩ := hf
      exact addsOnly_of_eq (fun _ => rfl) fun _ => rfl

theorem climbs_saveExpense {expense : Expense} {Q : Unit → Stage Store RowLock → Prop}
    (h : Reached uuid x n s) (hle : n ≤ 2) (hid : expense.props.id = x)
    (hQ : ∀ s', Reached uuid x 3 s' → Q () s') :
    (ExpenseRepository.save expense).Climbs storeLocks (ownLocks uuid) Q s := by
  subst hid
  refine climbs_write h (hle.trans (by decide)) (fun d l hl => ?_) (fun d q hf => ?_) hQ
  · exact asks_upsert hl (asks_of_rank 2 rfl hle (by decide) rfl (by simp))
      (asks_of_rank 2 rfl hle (by decide) rfl (by simp))
  · simp only [except_bind_ok] at hf
    obtain ⟨-, -, -, -, hf⟩ := hf
    split_ifs at hf
    · rw [except_pure_ok] at hf
      subst hf
      exact addsOnly_updateExpense _ _
    · simp only [except_bind_ok, except_pure_ok] at hf
      obtain ⟨-, -, -, -, rfl⟩ := hf
      exact addsOnly_insertExpense _

theorem climbs_nextExpenseNumber {organizationId : Id} {Q : String → Stage Store RowLock → Prop}
    (h : Reached uuid x 0 s) (hQ : ∀ number s', Reached uuid x 1 s' → Q number s') :
    (ExpenseRepository.nextExpenseNumber organizationId).Climbs storeLocks (ownLocks uuid) Q s := by
  intro d hd
  have hasks : ∀ l ∈ [RowLock.expenseNumberSequence organizationId], Reached.Asks uuid x 0 1 l := by
    rintro l hl
    obtain rfl := List.mem_singleton.mp hl
    exact asks_of_rank 0 rfl le_rfl (by decide) rfl (by simp)
  refine ⟨fun l hl => (hasks l hl).admits h hd, fun b q hf => ?_⟩
  refine ⟨1, h.level.trans (by decide), fun l hl => (hasks l hl).passed, hQ _ _ (h.write hd ?_ _)⟩
  simp only [except_bind_ok, except_pure_ok, Prod.mk.injEq] at hf
  obtain ⟨-, -, -, hq⟩ := hf
  subst hq
  exact addsOnly_of_eq (fun _ => rfl) fun _ => rfl

/-- The progress of the item: in the order, or of a new item. -/
theorem climbs_initializeProgress {itemId : Id} {itemType : String} {chain : ApprovalChain}
    {Q : ApprovalProgress → Stage Store RowLock → Prop} (h : Reached uuid x n s) (hid : itemId = x)
    (hle : x = uuid ∨ n ≤ 1) (hr : n ≤ r ∧ 2 ≤ r)
    (hQ : ∀ progress s', Reached uuid x r s' → Q progress s') :
    (ApprovalProgressRepository.initializeProgress itemId itemType chain).Climbs storeLocks
      (ownLocks uuid) Q s := by
  subst hid
  refine Tx.climbs_bind (climbs_write h hr.1 (fun d l hl => ?_) (fun d q hf => ?_) fun s' h' => ?_)
  · obtain rfl := List.mem_singleton.mp hl
    refine hle.imp (congrArg _) fun hle => ⟨hle, hr.2, rfl, ?_⟩
    rintro id ⟨⟩
    rfl
  · simp only [except_bind_ok, except_pure_ok] at hf
    obtain ⟨-, -, rfl⟩ := hf
    exact addsOnly_of_eq (fun _ => rfl) fun _ => rfl
  · exact hQ _ s' h'

theorem climbs_saveProgress {itemId : Id} {progress : ApprovalProgress}
    {Q : Unit → Stage Store RowLock → Prop} (h : Reached uuid x n s) (hle : n ≤ 1)
    (hQ : ∀ s', Reached uuid x 2 s' → Q () s') :
    (ApprovalProgressRepository.save itemId progress).Climbs storeLocks (ownLocks uuid) Q s := by
  refine Tx.climbs_bind (climbs_looks h ?_ fun found s₁ h₁ => ?_)
  · exact fun _ => trivial
  refine Tx.climbs_bind (Tx.climbs_require fun _ => Tx.climbs_bind ?_)
  refine climbs_looks h₁ (fun _ => trivial) fun existingSteps s₂ h₂ => ?_
  simp only
  split_ifs
  · exact hQ s₂ ⟨h₂.level.trans (hle.trans (by decide)), h₂.may, h₂.adds⟩
  · refine climbs_write h₂ (hle.trans (by decide)) (fun d l hl => ?_) (fun d q hf => ?_) hQ
    · obtain ⟨record, -, rfl⟩ := List.mem_map.mp hl
      exact asks_of_rank 1 rfl hle (by decide) rfl (by simp)
    · simp only [except_bind_ok, except_pure_ok] at hf
      obtain ⟨-, -, rfl⟩ := hf
      exact addsOnly_of_eq (fun _ => rfl) fun _ => rfl

/-- The payslips, under the lock of the run. -/
theorem climbs_insertPayslips {runId : Id} {payslips : List PayslipProps}
    {Q : Unit → Stage Store RowLock → Prop} (h : Reached uuid x n s)
    (hheld : .payrollRun runId ∈ s.held) (hQ : ∀ s', Reached uuid x n s' → Q () s') :
    (PayrollRunRepository.insertPayslips runId payslips).Climbs storeLocks (ownLocks uuid) Q s := by
  induction payslips generalizing s with
  | nil => exact hQ s h
  | cons payslip payslips ih =>
    refine Tx.climbs_bind (Tx.climbs_exec n h.level fun d hd => ⟨fun l hl => ?_, fun q hf => ?_⟩)
    · obtain rfl := List.mem_singleton.mp hl
      refine ⟨.inr ⟨trivial, ?_, nofun⟩, .inr (.inl nofun)⟩
      rintro g ⟨⟩
      exact hheld
    · simp only [except_bind_ok, except_pure_ok] at hf
      obtain ⟨-, -, -, -, -, -, rfl⟩ := hf
      exact ih (h.write hd (addsOnly_updateRun _ _) _) (.inl hheld)

theorem climbs_saveRun {run : PayrollRun} {Q : Unit → Stage Store RowLock → Prop}
    (h : Reached uuid x n s) (hle : n ≤ 2) (hid : run.props.id = x)
    (hQ : ∀ s', Reached uuid x 3 s' → Q () s') :
    (PayrollRunRepository.save run).Climbs storeLocks (ownLocks uuid) Q s := by
  subst hid
  have hasks : ∀ d : Store, ∀ l ∈ RowLock.payrollRun run.props.id ::
      (if run.props.id ∈ d.payrollRuns then []
        else [RowLock.payrollRunMonth run.props.organizationId run.props.runMonth.day]),
      Reached.Asks uuid run.props.id n 3 l := fun d l hl =>
    asks_upsert hl (asks_of_rank 2 rfl hle (by decide) rfl (by simp))
      (asks_of_rank 2 rfl hle (by decide) rfl (by simp))
  refine Tx.climbs_bind (Tx.climbs_exec 3 (h.level.trans (hle.trans (by decide))) fun d hd =>
    ⟨fun l hl => ⟨(hasks _ l hl).admits h hd, (hasks _ l hl).passed⟩, fun q hf => ?_⟩)
  have hadds : AddsOnly run.props.id q := by
    split_ifs at hf
    · rw [except_pure_ok] at hf
      subst hf
      exact addsOnly_updateRun _ _
    · simp only [except_bind_ok, except_pure_ok] at hf
      obtain ⟨-, -, rfl⟩ := hf
      exact addsOnly_insertRun _
  intro d' hd'
  exact climbs_insertPayslips ((h.write hd hadds _).since hd') (.inr List.mem_cons_self) hQ

end

/-! ## The commands -/

section

variable {uuid x : Id} {d : Store}

/-- What a command reads first says that its item is there. -/
theorem climbs_findExpense {expenseId organizationId : Id}
    {Q : Expense → Stage Store RowLock → Prop}
    (hQ : ∀ row s', Reached uuid expenseId 0 s' → Q (ExpenseRepository.toDomain expenseId row) s') :
    (findExpense expenseId organizationId).Climbs storeLocks (ownLocks uuid) Q (.start d) := by
  refine fun d' hd' => Tx.climbs_orFail fun e he => ?_
  obtain ⟨he, -⟩ := Option.filter_eq_some_iff.mp he
  obtain ⟨row, hrow, rfl⟩ := Option.map_eq_some_iff.mp he
  exact hQ row _ ⟨le_rfl, .inl (.inl (Finmap.mem_of_lookup_eq_some hrow)),
    fun _ _ => ⟨fun h => h, .inl⟩⟩

theorem climbs_findPayrollRun {payrollRunId organizationId : Id}
    {Q : PayrollRun → Stage Store RowLock → Prop}
    (hQ : ∀ (run : PayrollRun) s', run.props.id = payrollRunId → Reached uuid payrollRunId 0 s' →
      Q run s') :
    (findPayrollRun payrollRunId organizationId).Climbs storeLocks (ownLocks uuid) Q (.start d) := by
  refine Tx.climbs_bind (Tx.climbs_bind fun d' hd' => ?_)
  rw [Tx.climbs_ret]
  dsimp only
  rcases hcolumns : (((Stage.start d).patch d').payrollRuns.lookup payrollRunId).map
    PayrollRunRow.columns with _ | columns
  · exact Tx.climbs_orFail fun run hrun => by simp at hrun
  · obtain ⟨row, hrow, rfl⟩ := Option.map_eq_some_iff.mp hcolumns
    refine fun d'' hd'' => Tx.climbs_orFail fun run hrun => ?_
    obtain ⟨hrun, -⟩ := Option.filter_eq_some_iff.mp hrun
    obtain rfl := Option.some.inj hrun
    refine hQ _ _ rfl (Reached.since ⟨le_rfl, ?_, fun _ _ => ⟨fun h => h, .inl⟩⟩ hd'')
    exact .inl (.inr (Finmap.mem_of_lookup_eq_some hrow))

/-- The end of most commands: the expense is saved, and its events are enqueued. -/
theorem climbs_saveAndEnqueue {expense : Expense} {n : ℕ} {s : Stage Store RowLock}
    (h : Reached uuid x n s) (hle : n ≤ 2) (hid : expense.props.id = x) :
    (do
      ExpenseRepository.save expense
      enqueue expense.domainEvents : StoreTx Unit).Climbs storeLocks (ownLocks uuid)
        (fun _ s => storeLocks.Publishes (ownLocks uuid) s) s :=
  Tx.climbs_bind (climbs_saveExpense h hle hid fun _ h =>
    climbs_enqueue h fun _ h => h.publishes)

theorem climbs_saveRunAndEnqueue {run : PayrollRun} {n : ℕ} {s : Stage Store RowLock}
    (h : Reached uuid x n s) (hle : n ≤ 2) (hid : run.props.id = x) :
    (do
      PayrollRunRepository.save run
      enqueue run.domainEvents : StoreTx Unit).Climbs storeLocks (ownLocks uuid)
        (fun _ s => storeLocks.Publishes (ownLocks uuid) s) s :=
  Tx.climbs_bind (climbs_saveRun h hle hid fun _ h => climbs_enqueue h fun _ h => h.publishes)

/-- The transaction takes its locks in order. -/
def TakesLocksInOrder (uuid : Id) (d : Store) (m : StoreTx Unit) : Prop :=
  m.Climbs storeLocks (ownLocks uuid) (fun _ s => storeLocks.Publishes (ownLocks uuid) s) (.start d)

theorem PeriodCommand.climbs (env : Env) (cmd : PeriodCommand) (d : Store) :
    TakesLocksInOrder env.uuid d (cmd.program env) := by
  have hsaves : ∀ (period : FinancialPeriod) s, Reached env.uuid env.uuid 0 s → (do
      FinancialPeriodRepository.save period
      enqueue period.domainEvents : StoreTx Unit).Climbs storeLocks (ownLocks env.uuid)
        (fun _ s => storeLocks.Publishes (ownLocks env.uuid) s) s :=
    fun period s h => Tx.climbs_bind (climbs_savePeriod h (by decide) fun _ h =>
      climbs_enqueue h fun _ h => h.publishes)
  have hstart := Reached.start env.uuid d
  cases cmd with
  | «open» cmd =>
    exact Tx.climbs_bind (Tx.climbs_bind (Tx.climbs_ofExcept fun period _ => Tx.climbs_bind
      (climbs_savePeriod hstart (by decide) fun _ h => Tx.climbs_bind
        (climbs_enqueue h fun _ h => h.publishes))))
  | close cmd =>
    exact Tx.climbs_bind (climbs_looks hstart looks_findPeriod fun _ _ h =>
      Tx.climbs_bind (Tx.climbs_ofExcept fun period _ => hsaves period _ h))
  | reopen cmd =>
    exact Tx.climbs_bind (climbs_looks hstart looks_findPeriod fun _ _ h =>
      Tx.climbs_bind (Tx.climbs_ofExcept fun period _ => hsaves period _ h))

theorem ExpenseCommand.climbs (env : Env) (cmd : ExpenseCommand) (d : Store) :
    TakesLocksInOrder env.uuid d (cmd.program env) := by
  have hstart := Reached.start env.uuid d
  cases cmd with
  | create cmd =>
    refine Tx.climbs_bind (Tx.climbs_bind (climbs_looks hstart
      (looks_requireOpenPeriod fun _ => trivial) fun openPeriod _ h => Tx.climbs_bind
      (climbs_looks h (looks_assertActive trivial) fun _ _ h => Tx.climbs_bind
      (climbs_looks h (looks_assertActive trivial) fun _ _ h => Tx.climbs_bind
      (climbs_looks h (looks_assertActiveIfGiven trivial) fun _ _ h => Tx.climbs_bind
      (climbs_looks h (looks_assertActiveIfGiven trivial) fun _ _ h => Tx.climbs_bind
      (climbs_nextExpenseNumber h fun number _ h => Tx.climbs_bind
      (Tx.climbs_ofExcept fun amount _ => Tx.climbs_bind
      (Tx.climbs_ofExcept fun expense hcreate => ?_)))))))))
    obtain ⟨-, rfl⟩ := Expense.create_ok.mp hcreate
    exact Tx.climbs_bind (climbs_saveExpense h (by decide) rfl fun _ h => Tx.climbs_bind
      (climbs_enqueue h fun _ h => h.publishes))
  | submit cmd =>
    refine Tx.climbs_bind (climbs_findExpense fun row _ h => Tx.climbs_bind
      (climbs_looks h looks_assertPeriodOpen fun _ _ h => Tx.climbs_bind
      (Tx.climbs_ofExcept fun submitted hsubmit => ?_)))
    obtain ⟨-, rfl⟩ := Expense.transition_ok.mp hsubmit
    refine Tx.climbs_bind ?_
    simp only [startApproval]
    split_ifs
    · refine Tx.climbs_ofExcept fun expense hexpense => ?_
      obtain ⟨-, rfl⟩ := Expense.transition_ok.mp hexpense
      exact climbs_saveAndEnqueue h (by decide) rfl
    · exact Tx.climbs_bind (climbs_initializeProgress h rfl (.inr (by decide)) ⟨by decide, le_rfl⟩
        fun _ _ h => climbs_saveAndEnqueue h le_rfl rfl)
  | approve cmd =>
    refine Tx.climbs_bind (climbs_findExpense fun row _ h => Tx.climbs_bind
      (climbs_looks h looks_assertPeriodOpen fun _ _ h => Tx.climbs_bind
      (climbs_looks h looks_findProgress fun progress _ h => Tx.climbs_bind
      (climbs_looks h looks_recordApproval fun decided _ h => Tx.climbs_bind
      (Tx.climbs_ofExcept fun expense hexpense => ?_)))))
    have hid : expense.props.id = cmd.expenseId := by
      split_ifs at hexpense
      · obtain ⟨-, rfl⟩ := Expense.transition_ok.mp hexpense
        rfl
      · cases hexpense
        rfl
    exact Tx.climbs_bind (climbs_saveProgress h (by decide) fun _ h =>
      climbs_saveAndEnqueue h le_rfl hid)
  | reject cmd =>
    refine Tx.climbs_bind (climbs_findExpense fun row _ h => Tx.climbs_bind
      (climbs_looks h looks_assertPeriodOpen fun _ _ h => Tx.climbs_bind
      (climbs_looks h looks_findProgress fun progress _ h => Tx.climbs_bind
      (climbs_looks h looks_recordRejection fun decided _ h => Tx.climbs_bind
      (Tx.climbs_ofExcept fun expense hexpense => ?_)))))
    obtain ⟨-, rfl⟩ := Expense.transition_ok.mp hexpense
    exact Tx.climbs_bind (climbs_saveProgress h (by decide) fun _ h =>
      climbs_saveAndEnqueue h le_rfl rfl)
  | cancel cmd =>
    refine Tx.climbs_bind (climbs_findExpense fun row _ h => Tx.climbs_bind
      (climbs_looks h looks_assertPeriodOpen fun _ _ h => Tx.climbs_bind
      (Tx.climbs_ofExcept fun expense hexpense => ?_)))
    obtain ⟨-, rfl⟩ := Expense.transition_ok.mp hexpense
    exact climbs_saveAndEnqueue h (by decide) rfl
  | createAdjustment cmd =>
    refine Tx.climbs_bind (Tx.climbs_bind (climbs_looks hstart
      (looks_requireOpenPeriod fun _ => trivial) fun openPeriod _ h => Tx.climbs_bind
      (climbs_looks h (looks_findExpense fun _ _ => trivial) fun original _ h => Tx.climbs_bind
      (climbs_nextExpenseNumber h fun number _ h => Tx.climbs_bind
      (Tx.climbs_ofExcept fun adjustment hadjustment => ?_)))))
    obtain ⟨-, -, -, rfl⟩ := Expense.createAdjustment_ok.mp hadjustment
    refine Tx.climbs_bind (climbs_saveExpense h (by decide) rfl fun _ h => Tx.climbs_bind ?_)
    have hends : ∀ s, Reached env.uuid env.uuid 3 s → ∀ events (id : Id), (do
        enqueue events
        pure id : StoreTx Id).Climbs storeLocks (ownLocks env.uuid)
          (fun _ s => storeLocks.Publishes (ownLocks env.uuid) s) s :=
      fun s h events id => Tx.climbs_bind (climbs_enqueue h fun _ h => h.publishes)
    simp only [startAdjustmentApproval]
    split_ifs
    · exact Tx.climbs_bind (climbs_initializeProgress h rfl (.inl rfl) ⟨le_rfl, by decide⟩
        fun _ _ h => hends _ h _ _)
    · exact hends _ h _ _

theorem PayrollCommand.climbs (env : Env) (cmd : PayrollCommand) (d : Store) :
    TakesLocksInOrder env.uuid d (cmd.program env) := by
  have hstart := Reached.start env.uuid d
  cases cmd with
  | create cmd =>
    exact Tx.climbs_bind (Tx.climbs_bind (climbs_looks hstart
      (looks_requireOpenPeriod fun _ => trivial) fun openPeriod _ h => Tx.climbs_bind
      (climbs_looks h (fun _ => trivial) fun existing _ h => Tx.climbs_bind
      (Tx.climbs_require fun _ => Tx.climbs_bind
      (climbs_saveRun h (by decide) rfl fun _ h => Tx.climbs_bind
      (climbs_enqueue h fun _ h => h.publishes))))))
  | addPayslip cmd =>
    refine Tx.climbs_bind (Tx.climbs_bind (climbs_findPayrollRun fun run _ hid h => Tx.climbs_bind
      (climbs_looks h looks_assertPeriodOpen fun _ _ h => Tx.climbs_bind
      (climbs_looks h (fun _ => trivial) fun structure? _ h => Tx.climbs_bind
      (Tx.climbs_orFail fun salaryStructure _ => Tx.climbs_bind
      (Tx.climbs_ofExcept fun tax _ => Tx.climbs_bind
      (Tx.climbs_ofExcept fun payslip _ => Tx.climbs_bind
      (Tx.climbs_ofExcept fun run' hrun => ?_))))))))
    obtain ⟨-, -, rfl⟩ := PayrollRun.addPayslip_ok.mp hrun
    exact Tx.climbs_bind (climbs_saveRun h (by decide) hid fun _ h => Tx.climbs_bind
      (climbs_enqueue h fun _ h => h.publishes))
  | submit cmd =>
    refine Tx.climbs_bind (climbs_findPayrollRun fun run _ hid h => Tx.climbs_bind
      (climbs_looks h looks_assertPeriodOpen fun _ _ h => Tx.climbs_bind
      (Tx.climbs_ofExcept fun run' hrun => Tx.climbs_bind
      (Tx.climbs_ofExcept fun item _ => ?_))))
    obtain ⟨-, -, rfl⟩ := PayrollRun.submitForApproval_ok.mp hrun
    exact Tx.climbs_bind (climbs_initializeProgress h hid (.inr (by decide)) ⟨by decide, le_rfl⟩
      fun _ _ h => climbs_saveRunAndEnqueue h le_rfl hid)
  | approve cmd =>
    refine Tx.climbs_bind (climbs_findPayrollRun fun run _ hid h => Tx.climbs_bind
      (climbs_looks h looks_assertPeriodOpen fun _ _ h => Tx.climbs_bind
      (climbs_looks h looks_findProgress fun progress _ h => Tx.climbs_bind
      (Tx.climbs_ofExcept fun item _ => Tx.climbs_bind
      (climbs_looks h looks_recordApproval fun decided _ h => Tx.climbs_bind
      (Tx.climbs_ofExcept fun run' hrun => ?_))))))
    have hid' : run'.props.id = cmd.payrollRunId := by
      split_ifs at hrun
      · obtain ⟨-, rfl⟩ := PayrollRun.approve_ok.mp hrun
        exact hid
      · cases hrun
        exact hid
    exact Tx.climbs_bind (climbs_saveProgress h (by decide) fun _ h =>
      climbs_saveRunAndEnqueue h le_rfl hid')
  | reject cmd =>
    refine Tx.climbs_bind (climbs_findPayrollRun fun run _ hid h => Tx.climbs_bind
      (climbs_looks h looks_assertPeriodOpen fun _ _ h => Tx.climbs_bind
      (climbs_looks h looks_findProgress fun progress _ h => Tx.climbs_bind
      (Tx.climbs_ofExcept fun item _ => Tx.climbs_bind
      (climbs_looks h looks_recordRejection fun decided _ h => Tx.climbs_bind
      (Tx.climbs_ofExcept fun run' hrun => ?_))))))
    obtain ⟨-, rfl⟩ := PayrollRun.transition_ok.mp hrun
    exact Tx.climbs_bind (climbs_saveProgress h (by decide) fun _ h =>
      climbs_saveRunAndEnqueue h le_rfl hid)
  | cancel cmd =>
    refine Tx.climbs_bind (climbs_findPayrollRun fun run _ hid h => Tx.climbs_bind
      (Tx.climbs_ofExcept fun run' hrun => ?_))
    obtain ⟨-, rfl⟩ := PayrollRun.transition_ok.mp hrun
    exact climbs_saveRunAndEnqueue h (by decide) hid
  | process cmd =>
    refine Tx.climbs_bind (climbs_findPayrollRun fun run _ hid h => Tx.climbs_bind
      (Tx.climbs_ofExcept fun started hstarted => Tx.climbs_bind
      (Tx.climbs_ofExcept fun run' hrun => ?_)))
    obtain ⟨-, rfl⟩ := PayrollRun.transition_ok.mp hstarted
    obtain ⟨-, rfl⟩ := PayrollRun.transition_ok.mp hrun
    exact climbs_saveRunAndEnqueue h (by decide) hid

theorem Command.climbs (env : Env) (cmd : Command) (d : Store) :
    TakesLocksInOrder env.uuid d (cmd.program env) := by
  cases cmd with
  | administer administration =>
    refine climbs_write (Reached.start env.uuid d) le_rfl
      (fun _ _ hl => absurd hl List.not_mem_nil) ?_ fun _ h => h.publishes
    rintro d q ⟨⟩
    exact addsOnly_of_eq (fun _ => rfl) fun _ => rfl
  | period cmd => exact cmd.climbs env d
  | expense cmd => exact cmd.climbs env d
  | payroll cmd => exact cmd.climbs env d

end

/-- **The commands do not deadlock**: whichever requests are made at one time, by however many
sessions, and however far each of them has got, every one of them can be brought to its end
by statements alone. The ids they draw are new, and different ones. -/
theorem commands_no_deadlock {d₀ : Store} {requests : ℕ → Request}
    (hfresh : ∀ i, ¬ d₀.Knows (requests i).env.uuid)
    (hdistinct : ∀ i j, (requests i).env.uuid = (requests j).env.uuid → i = j)
    {ok : System Store RowLock Failure Unit → Turn → Prop} {turns : List Turn}
    {σ : System Store RowLock Failure Unit}
    (hr : Reaches System.next ok
      (System.init d₀ fun i => (requests i).command.program (requests i).env) turns σ) (i : ℕ) :
    ∃ turns' σ', Reaches System.next System.IsStep σ turns' σ' ∧ σ'.Ended i := by
  have hclimbs : ∀ i, TakesLocksInOrder (requests i).env.uuid d₀
      ((requests i).command.program (requests i).env) := fun i => Command.climbs _ _ d₀
  refine System.no_deadlock ?_ ?_ hclimbs hr i
  · intro i j l hi hj
    exact hdistinct i j (RowLock.approvalProgress.inj (hi.symm.trans hj))
  · rintro i l rfl hissued
    exact hfresh i hissued

/-- Two expenses are entered at once: the second one has to wait for the number of the first,
and is brought to its end. -/
theorem commands_no_deadlock_sample : ∃ σ : System Store RowLock Failure Unit,
    (σ.next (.step 1)).isNone = true ∧
      ∃ turns σ', Reaches System.next System.IsStep σ turns σ' ∧ σ'.Ended 1 := by
  have hrun : (runLabels System.next (System.init (Sample.store [Sample.openJanuary])
      fun i => (Sample.create (101 + i) 50000).command.program (Sample.create (101 + i) 50000).env)
        (List.replicate 4 (.step 0) ++ List.replicate 3 (.step 1))).map
          (fun σ => (σ.next (.step 1)).isNone) = some true := by
    decide +kernel
  obtain ⟨σ, hσ, hwaits⟩ := Option.map_eq_some_iff.mp hrun
  refine ⟨σ, hwaits, @commands_no_deadlock (Sample.store [Sample.openJanuary])
    (fun i => Sample.create (101 + i) 50000) (fun i => ?_) Sample.ids_distinct _ _ _
    (reaches_of_runLabels hσ) 1⟩
  rintro (hexpense | hrun)
  · exact Finmap.lookup_eq_none.mp (Sample.noExpenses (101 + i)) hexpense
  · rw [show (Sample.store [Sample.openJanuary]).payrollRuns = ∅ by decide +kernel] at hrun
    exact Finmap.notMem_empty hrun

end RatelPlatform
