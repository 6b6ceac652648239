import RatelPlatform.WrittenRows

/-!
# Closing a period under way

One transaction closes a period while any number of expense transactions run,
interleaved statement by statement under READ COMMITTED. Each of them looks for its
period once (a creation or a correction before anything else, a change right after
loading its expense) and neither locks it nor looks again.

So a transaction that has found the period open goes on to commit whatever becomes of
the period. As long as the close commits while no such transaction is running
(`ClosesUnseen`), none that writes a row of the period commits after it.
-/

namespace RatelPlatform

/-! ## The first statements -/

section
variable {cont : FinancialPeriod → StoreTx Unit} {organizationId tie periodId expenseId : Id}
  {d : Store} {m : StoreTx Unit} {p p' : Store → Store}

theorem requireOpenPeriod_bind :
    (requireOpenPeriod organizationId tie >>= cont) =
      .read (fun d => (FinancialPeriodRepository.currentOpen d organizationId tie).bind fun id =>
          (d.financialPeriods.lookup id).map fun row => (id, row))
        fun row => (Tx.orFail (row.map fun r => FinancialPeriodRepository.toDomain r.1 r.2)
          (.domain (.noOpenPeriod organizationId)) : StoreTx FinancialPeriod).bind cont := rfl

/-- Looking for the open period. -/
theorem advance_requireOpenPeriod
    (h : Tx.Advance d (requireOpenPeriod organizationId tie >>= cont) p m p') :
    p' = p ∧ ((∃ e, m = .fail e) ∨ ∃ period : FinancialPeriod,
      FinancialPeriodRepository.currentOpen (p d) organizationId tie = some period.props.id ∧
      m = cont period) := by
  rw [requireOpenPeriod_bind] at h
  cases h
  refine ⟨rfl, ?_⟩
  rcases hfound : (FinancialPeriodRepository.currentOpen (p d) organizationId tie).bind fun id =>
    ((p d).financialPeriods.lookup id).map fun row => (id, row) with _ | ⟨id, row⟩
  · simp only [hfound]
    exact .inl ⟨_, rfl⟩
  · simp only [hfound]
    obtain ⟨id', hid', hrow⟩ := Option.bind_eq_some_iff.mp hfound
    obtain ⟨row', -, heq⟩ := Option.map_eq_some_iff.mp hrow
    obtain ⟨rfl, rfl⟩ := Prod.mk.inj heq
    exact .inr ⟨FinancialPeriodRepository.toDomain id' row', hid', rfl⟩

variable {cont : Expense → StoreTx Unit}

theorem findExpense_bind :
    (findExpense expenseId organizationId >>= cont) =
      .read (fun d => d.expenses.lookup expenseId)
        fun row => (Tx.orFail ((row.map (ExpenseRepository.toDomain expenseId)).filter fun e =>
          e.props.organizationId = organizationId) (.domain (.entityNotFound "Expense" expenseId)) :
            StoreTx Expense).bind cont := rfl

/-- Loading an expense. -/
theorem advance_findExpense (h : Tx.Advance d (findExpense expenseId organizationId >>= cont) p m p') :
    p' = p ∧ ((∃ e, m = .fail e) ∨ ∃ row, (p d).expenses.lookup expenseId = some row ∧
      m = cont (ExpenseRepository.toDomain expenseId row)) := by
  rw [findExpense_bind] at h
  cases h
  refine ⟨rfl, ?_⟩
  rcases hrow : (p d).expenses.lookup expenseId with _ | row
  · simp only [hrow]
    exact .inl ⟨_, rfl⟩
  · simp only [hrow, Option.map_some, Option.filter_some]
    split_ifs
    · exact .inr ⟨row, rfl, rfl⟩
    · exact .inl ⟨_, rfl⟩

variable {cont : Unit → StoreTx Unit}

theorem assertPeriodOpen_bind :
    (assertPeriodOpen organizationId periodId >>= cont) =
      .read (fun d => d.financialPeriods.lookup periodId) fun row =>
        ((match row.map (FinancialPeriodRepository.toDomain periodId) with
          | none => pure false
          | some period =>
            if period.props.organizationId ≠ organizationId then pure false
            else pure period.isOpen : StoreTx Bool).bind fun isOpen =>
          (Tx.require (isOpen = true) (.domain (.periodClosed periodId)) : StoreTx Unit)).bind
            cont := rfl

/-- Looking whether the period is open. -/
theorem advance_assertPeriodOpen
    (h : Tx.Advance d (assertPeriodOpen organizationId periodId >>= cont) p m p') :
    p' = p ∧ ((∃ e, m = .fail e) ∨ (p d).PeriodIsOpen organizationId periodId ∧ m = cont ()) := by
  rw [assertPeriodOpen_bind] at h
  cases h
  refine ⟨rfl, ?_⟩
  rcases hrow : (p d).financialPeriods.lookup periodId with _ | row
  · simp only [hrow]
    exact .inl ⟨_, rfl⟩
  · simp only [hrow, Option.map_some]
    split_ifs with horg
    · exact .inl ⟨_, rfl⟩
    · by_cases hopen : row.status ∈ PeriodStatus.openStatuses
      · refine .inr ⟨⟨row, hrow, not_not.mp horg, hopen⟩, ?_⟩
        have hisOpen : (FinancialPeriodRepository.toDomain periodId row).isOpen = true :=
          decide_eq_true hopen
        simp only [Tx.pure_eq, Tx.bind, Tx.require, hisOpen, if_true]
      · refine .inl ⟨.domain (.periodClosed periodId), ?_⟩
        have hisOpen : (FinancialPeriodRepository.toDomain periodId row).isOpen = false :=
          decide_eq_false hopen
        simp only [Tx.pure_eq, Tx.bind, Tx.require, hisOpen, Bool.false_eq_true, if_false]

end

/-! ## The transactions -/

/-- The closing of a period, and the expense transactions that run along with it. -/
structure Closing (d₀ : Store) where
  closeEnv : Env
  close : ClosePeriodCommand
  env : ℕ → Env
  command : ℕ → ExpenseCommand
  /-- a transaction draws an id that is not in use -/
  fresh : ∀ i, d₀.expenses.lookup (env i).uuid = none
  /-- nor drawn by another one -/
  distinct : ∀ i j, (env i).uuid = (env j).uuid → i = j

/-- The database and its sessions. How many statements each expense transaction has
run, and which period it has found open, is noted along: nothing reads it. -/
structure ClosingSystem where
  system : System Store RowLock Failure Unit
  executed : ℕ → ℕ
  found : ℕ → Option Id

namespace Closing

variable {d₀ : Store} (c : Closing d₀)

/-- Session 0 closes the period, the session behind `i` runs the `i`-th transaction. -/
def program : ℕ → StoreTx Unit
  | 0 => closePeriod c.closeEnv c.close
  | i + 1 => (c.command i).program (c.env i)

/-- The expense a transaction is about. -/
def subject (i : ℕ) : Id := (c.command i).subject (c.env i)

/-- How many statements a transaction runs before it looks for its period. -/
def statementsBefore (i : ℕ) : ℕ := if (c.command i).isCreating then 0 else 1

/-- The period a transaction finds open when it looks for it. -/
def foundOpen (i : ℕ) (d : Store) : Option Id :=
  if (c.command i).isCreating then
    FinancialPeriodRepository.currentOpen d (c.command i).organizationId (c.env i).tie
  else
    (d.expenses.lookup (c.subject i)).bind fun row =>
      if d.PeriodIsOpen (c.command i).organizationId row.periodId then some row.periodId else none

/-- Every transaction is about to begin. -/
def initial : ClosingSystem where
  system := System.init d₀ c.program
  executed := fun _ => 0
  found := fun _ => none

/-- One turn. -/
def next (s : ClosingSystem) (turn : Turn) : Option ClosingSystem :=
  (s.system.next turn).map fun system =>
    match turn with
    | .step (i + 1) =>
      { system
        executed := Function.update s.executed i (s.executed i + 1)
        found :=
          if s.executed i = c.statementsBefore i then
            Function.update s.found i (c.foundOpen i s.system.db)
          else s.found }
    | _ => { s with system }

/-- **Nobody writes to the period once it is closed**: of the transactions that commit
after the close, none wrote the row of an expense of the period. -/
def NoneAfterClose (s : ClosingSystem) : Prop :=
  ∀ before after i row, s.system.log = before ++ 0 :: after → i + 1 ∈ after →
    s.system.db.expenses.lookup (c.subject i) = some row → row.periodId ≠ c.close.periodId

/-- When the close commits, no running transaction has found the period open. -/
def ClosesUnseen (s : ClosingSystem) (turn : Turn) : Prop :=
  turn = .step 0 → (∃ a patch current, s.system.sessions 0 = .running (.ret a) patch current) →
    ∀ i rest patch current, s.system.sessions (i + 1) = .running rest patch current →
      s.found i ≠ some c.close.periodId

/-! ## Where a transaction stands -/

/-- Where the `i`-th transaction stands that has run `n` statements and has found the
period `found` open: what is left of it, and what it has written. -/
inductive Stage (i : ℕ) (d : Store) : ℕ → Option Id → StoreTx Unit → (Store → Store) → Prop
  | begun {found : Option Id} : Stage i d 0 found (c.program (i + 1)) id
  /-- the expense is loaded, and its period is looked for next -/
  | loaded {found : Option Id} {row : ExpenseRow} {cont : StoreTx Unit}
      (hchanging : (c.command i).isCreating = false)
      (hrow : d.expenses.lookup (c.subject i) = some row)
      (hcont : cont.Patches (fun _ => Touches (c.subject i) row.periodId) id) :
    Stage i d 1 found
      (assertPeriodOpen (c.command i).organizationId row.periodId >>= fun _ => cont) id
  | failed {n : ℕ} {found : Option Id} {e : Failure} {patch : Store → Store} :
    Stage i d n found (.fail e) patch
  /-- the period was found open, and the transaction writes its expense in it -/
  | checked {n : ℕ} {periodId : Id} {rest : StoreTx Unit} {patch : Store → Store}
      (hn : c.statementsBefore i < n)
      (hrest : rest.Patches (fun _ => Touches (c.subject i) periodId) patch)
      (hrow : (c.command i).isCreating = true ∨
        ∃ row, d.expenses.lookup (c.subject i) = some row ∧ row.periodId = periodId) :
    Stage i d n (some periodId) rest patch

variable {c} {i n : ℕ} {d d' : Store} {found : Option Id} {rest rest' : StoreTx Unit}
  {patch patch' : Store → Store}

/-- What is open is not shut. -/
theorem foundOpen_open {periodId : Id} (h : c.foundOpen i d = some periodId) :
    d.PeriodIsOpen (c.command i).organizationId periodId := by
  simp only [foundOpen] at h
  split_ifs at h
  · exact FinancialPeriodRepository.periodIsOpen_of_currentOpen h
  · obtain ⟨row, -, hrow⟩ := Option.bind_eq_some_iff.mp h
    split_ifs at hrow with hopen
    obtain rfl := Option.some.inj hrow
    exact hopen

/-- The rows that are there stay there, in their period. -/
def KeepsPeriods (d d' : Store) : Prop :=
  ∀ id row, d.expenses.lookup id = some row →
    ∃ row', d'.expenses.lookup id = some row' ∧ row'.periodId = row.periodId

/-- Where a transaction stands is left alone by whoever keeps the periods of the rows. -/
theorem Stage.of_keepsPeriods (h : c.Stage i d n found rest patch) (hkeeps : KeepsPeriods d d') :
    c.Stage i d' n found rest patch := by
  cases h with
  | begun => exact .begun
  | failed => exact .failed
  | loaded hchanging hrow hcont =>
    obtain ⟨row', hrow', hperiod⟩ := hkeeps _ _ hrow
    rw [← hperiod] at hcont ⊢
    exact .loaded hchanging hrow' hcont
  | checked hn hrest hrow =>
    refine .checked hn hrest ?_
    rcases hrow with hcreating | ⟨row, hrow, hperiod⟩
    · exact .inl hcreating
    · obtain ⟨row', hrow', hperiod'⟩ := hkeeps _ _ hrow
      exact .inr ⟨row', hrow', hperiod'.trans hperiod⟩

/-- **The next statement of a transaction.** -/
theorem Stage.advance (h : c.Stage i d n found rest patch)
    (hadvance : Tx.Advance d rest patch rest' patch') :
    c.Stage i d (n + 1) (if n = c.statementsBefore i then c.foundOpen i d else found)
      rest' patch' := by
  cases h with
  | failed => exact absurd hadvance Tx.not_advance_fail
  | checked hn hrest hrow =>
    rw [if_neg (Nat.ne_of_gt hn)]
    exact .checked (Nat.lt_succ_of_lt hn) (hrest.advance hadvance) hrow
  | begun =>
    rcases hcreating : (c.command i).isCreating with _ | _
    · obtain ⟨cont, hprogram, hcont⟩ := ExpenseCommand.changing_shape (c.env i) hcreating
      rw [program, hprogram] at hadvance
      obtain ⟨rfl, ⟨e, rfl⟩ | ⟨row, hrow, rfl⟩⟩ := advance_findExpense hadvance
      · exact .failed
      · exact .loaded hcreating hrow (hcont (ExpenseRepository.toDomain _ row))
    · obtain ⟨cont, hprogram, hcont⟩ := ExpenseCommand.creating_shape (c.env i) hcreating
      have hbefore : c.statementsBefore i = 0 := by rw [statementsBefore, if_pos hcreating]
      rw [program, hprogram] at hadvance
      obtain ⟨rfl, ⟨e, rfl⟩ | ⟨period, hperiod, rfl⟩⟩ := advance_requireOpenPeriod hadvance
      · exact .failed
      · have hfound : c.foundOpen i d = some period.props.id := by
          rw [foundOpen, if_pos hcreating]
          exact hperiod
        rw [hbefore, if_pos rfl, hfound]
        exact .checked (by rw [hbefore]; exact Nat.zero_lt_one) (hcont period) (.inl hcreating)
  | @loaded _ row cont hchanging hrow hcont =>
    have hbefore : c.statementsBefore i = 1 := by
      rw [statementsBefore, hchanging]
      rfl
    rw [hbefore, if_pos rfl]
    obtain ⟨rfl, ⟨e, rfl⟩ | ⟨hopen, rfl⟩⟩ := advance_assertPeriodOpen hadvance
    · exact .failed
    · have hfound : c.foundOpen i d = some row.periodId := by
        rw [foundOpen, hchanging, hrow]
        exact if_pos hopen
      rw [hfound]
      exact .checked (by rw [hbefore]; exact Nat.one_lt_two) hcont (.inr ⟨row, hrow, rfl⟩)

/-- A transaction that is about to commit has found a period open, and has written
its expense in it. -/
theorem Stage.commits {a : Unit} (h : c.Stage i d n found (.ret a) patch) :
    ∃ periodId, found = some periodId ∧ Touches (c.subject i) periodId patch ∧
      ((c.command i).isCreating = true ∨
        ∃ row, d.expenses.lookup (c.subject i) = some row ∧ row.periodId = periodId) := by
  generalize hret : (Tx.ret a : StoreTx Unit) = rest at h
  cases h with
  | failed => cases hret
  | loaded => rw [assertPeriodOpen_bind] at hret; cases hret
  | checked hn hrest hrow =>
    subst hret
    exact ⟨_, rfl, hrest, hrow⟩
  | begun =>
    rw [program] at hret
    rcases hcreating : (c.command i).isCreating with _ | _
    · obtain ⟨cont, hprogram, -⟩ := ExpenseCommand.changing_shape (c.env i) hcreating
      rw [hprogram, findExpense_bind] at hret
      cases hret
    · obtain ⟨cont, hprogram, -⟩ := ExpenseCommand.creating_shape (c.env i) hcreating
      rw [hprogram, requireOpenPeriod_bind] at hret
      cases hret

/-! ## The invariant -/

/-- Where everybody stands. -/
structure Inv (c : Closing d₀) (s : ClosingSystem) : Prop where
  /-- the close will have shut the period when it commits -/
  closing : ∀ rest patch current, s.system.sessions 0 = .running rest patch current →
    rest.Patches (fun _ => Shuts c.close.periodId) patch
  /-- the period is shut once it has -/
  shut : 0 ∈ s.system.log → ∀ row,
    s.system.db.financialPeriods.lookup c.close.periodId = some row →
    row.status ∉ PeriodStatus.openStatuses
  /-- an id that was drawn is not in use before its transaction commits -/
  fresh : ∀ i, i + 1 ∉ s.system.log → s.system.db.expenses.lookup (c.env i).uuid = none
  stage : ∀ i rest patch current, s.system.sessions (i + 1) = .running rest patch current →
    i + 1 ∉ s.system.log ∧ c.Stage i s.system.db (s.executed i) (s.found i) rest patch
  /-- nobody who runs on after the close has found the period open -/
  unseen : 0 ∈ s.system.log → ∀ i rest patch current,
    s.system.sessions (i + 1) = .running rest patch current → s.found i ≠ some c.close.periodId
  none : c.NoneAfterClose s

variable {s s' : ClosingSystem} {turn : Turn}

/-- A turn of the machine is a turn of the system, and counts for its transaction. -/
theorem next_system (hn : c.next s turn = some s') :
    s.system.next turn = some s'.system ∧
      (∀ i, turn ≠ .step (i + 1) → s'.executed i = s.executed i ∧ s'.found i = s.found i) ∧
      ∀ i, turn = .step (i + 1) → s'.executed i = s.executed i + 1 ∧
        s'.found i =
          if s.executed i = c.statementsBefore i then c.foundOpen i s.system.db else s.found i := by
  obtain ⟨system, hsystem, rfl⟩ := Option.map_eq_some_iff.mp hn
  rcases turn with (_ | j) | j
  · exact ⟨hsystem, fun _ _ => ⟨rfl, rfl⟩, nofun⟩
  · refine ⟨hsystem, fun i hi => ?_, fun i hi => ?_⟩
    · have hij : i ≠ j := by
        rintro rfl
        exact hi rfl
      refine ⟨Function.update_of_ne hij _ _, ?_⟩
      simp only
      split_ifs
      · exact Function.update_of_ne hij _ _
      · rfl
    · obtain rfl : j = i := by
        cases hi
        rfl
      refine ⟨Function.update_self _ _ _, ?_⟩
      simp only
      split_ifs
      · exact Function.update_self _ _ _
      · rfl
  · exact ⟨hsystem, fun _ _ => ⟨rfl, rfl⟩, nofun⟩

theorem inv_initial : c.Inv c.initial where
  closing := fun rest patch current h => by
    cases h
    exact closePeriod_patches
  shut := fun h => absurd h List.not_mem_nil
  fresh := fun i _ => c.fresh i
  stage := fun i rest patch current h => by
    cases h
    exact ⟨List.not_mem_nil, .begun⟩
  unseen := fun h => absurd h List.not_mem_nil
  none := fun before after i row h => 
    absurd h.symm (List.append_ne_nil_of_right_ne_nil before (List.cons_ne_nil 0 after))

/-- The sessions a turn is not about stay where they are, if the rows keep their
periods and nobody else's log entry appears. -/
theorem Inv.stage_of_same (h : c.Inv s) {k : ℕ} (hturn : turn = .step k ∨ turn = .kill k)
    (hn : c.next s turn = some s') (hkeeps : KeepsPeriods s.system.db s'.system.db)
    (hlog : ∀ j, j ≠ k → j ∉ s.system.log → j ∉ s'.system.log)
    (hsame : ∀ j, j ≠ k → s'.system.sessions j = s.system.sessions j) (hi : i + 1 ≠ k)
    {current : Store → Prop} (hrunning : s'.system.sessions (i + 1) = .running rest patch current) :
    s.system.sessions (i + 1) = .running rest patch current ∧ s'.found i = s.found i ∧
      i + 1 ∉ s'.system.log ∧ c.Stage i s'.system.db (s'.executed i) (s'.found i) rest patch := by
  rw [hsame _ hi] at hrunning
  have hnot : turn ≠ .step (i + 1) := by
    rintro rfl
    rcases hturn with hturn | hturn
    · exact hi (Turn.step.inj hturn)
    · cases hturn
  obtain ⟨hexecuted, hfound⟩ := (next_system hn).2.1 i hnot
  obtain ⟨hout, hstage⟩ := h.stage i _ _ _ hrunning
  refine ⟨hrunning, hfound, hlog _ hi hout, ?_⟩
  rw [hexecuted, hfound]
  exact hstage.of_keepsPeriods hkeeps

theorem KeepsPeriods.of_eq (h : d'.expenses = d.expenses) : KeepsPeriods d d' :=
  fun _ row hrow => ⟨row, by rw [h, hrow], rfl⟩

theorem KeepsPeriods.of_touches {id periodId : Id} (h : Touches id periodId patch)
    (hrow : ∀ row, d.expenses.lookup id = some row → row.periodId = periodId) :
    KeepsPeriods d (patch d) := by
  intro id' row hlookup
  by_cases hid : id' = id
  · subst hid
    obtain ⟨row', hrow', hperiod⟩ := h.kept _ row hlookup
    refine ⟨row', hrow', hperiod.elim (fun hperiod => hperiod) fun hperiod => ?_⟩
    rw [hperiod, hrow row hlookup]
  · exact ⟨row, by rw [h.others _ id' hid, hlookup], rfl⟩

/-- What is written when an expense transaction commits: its own expense, which is in the
period it has found open and has none of the ids that are still to be used. -/
theorem Inv.commits (h : c.Inv s) {a : Unit} {current : Store → Prop}
    (hi : s.system.sessions (i + 1) = .running (.ret a) patch current) :
    ∃ periodId, s.found i = some periodId ∧ Touches (c.subject i) periodId patch ∧
      (∀ row, s.system.db.expenses.lookup (c.subject i) = some row → row.periodId = periodId) ∧
      ∀ j, j ≠ i → j + 1 ∉ s.system.log → (c.env j).uuid ≠ c.subject i := by
  obtain ⟨hout, hstage⟩ := h.stage i _ _ _ hi
  obtain ⟨periodId, hfound, htouches, hsubject⟩ := hstage.commits
  refine ⟨periodId, hfound, htouches, fun row hrow => ?_, fun j hji hj hid => ?_⟩
  · rcases hsubject with hcreating | ⟨row', hrow', hperiod⟩
    · rw [subject, ExpenseCommand.subject_of_creating hcreating, h.fresh i hout] at hrow
      cases hrow
    · rw [← Option.some.inj (hrow'.symm.trans hrow)]
      exact hperiod
  · rcases hsubject with hcreating | ⟨row, hrow, -⟩
    · rw [subject, ExpenseCommand.subject_of_creating hcreating] at hid
      exact hji (c.distinct j i hid)
    · rw [← hid, h.fresh j hj] at hrow
      cases hrow

/-- A session that dies or fails takes nothing along. -/
theorem Inv.aborted (h : c.Inv s) (hn : c.next s turn = some s') {k : ℕ}
    (hturn : turn = .step k ∨ turn = .kill k) (hdb : s'.system.db = s.system.db)
    (hlog : s'.system.log = s.system.log)
    (hsessions : s'.system.sessions = Function.update s.system.sessions k .aborted) : c.Inv s' := by
  have hsame : ∀ j, j ≠ k → s'.system.sessions j = s.system.sessions j := fun j hj => by
    rw [hsessions, Function.update_of_ne hj]
  have hk : ∀ rest patch current, s'.system.sessions k ≠ .running rest patch current := by
    intro rest patch current
    rw [hsessions, Function.update_self]
    exact nofun
  have hothers := fun i rest patch current (hrunning : s'.system.sessions (i + 1) =
      .running rest patch current) => h.stage_of_same hturn hn (.of_eq (by rw [hdb]))
    (fun j _ hj => by rwa [hlog]) hsame (fun hi => hk _ _ _ (hi ▸ hrunning)) hrunning
  refine ⟨fun rest patch current h₀ => ?_, ?_, ?_, fun i rest patch current hi => ?_,
    fun hclosed i rest patch current hi => ?_, ?_⟩
  · have h0k : 0 ≠ k := by
      rintro rfl
      exact hk _ _ _ h₀
    rw [hsame 0 h0k] at h₀
    exact h.closing _ _ _ h₀
  · rw [hdb, hlog]
    exact h.shut
  · rw [hdb, hlog]
    exact h.fresh
  · exact (hothers i rest patch current hi).2.2
  · obtain ⟨hrunning, hfound, -⟩ := hothers i rest patch current hi
    rw [hlog] at hclosed
    rw [hfound]
    exact h.unseen hclosed i _ _ _ hrunning
  · simp only [NoneAfterClose]
    rw [hdb, hlog]
    exact h.none

/-- A session goes on by a statement. -/
theorem Inv.advanced (h : c.Inv s) (hn : c.next s turn = some s') {k : ℕ} (hturn : turn = .step k)
    {current : Store → Prop} (hk : s.system.sessions k = .running rest patch current)
    (hadvance : Tx.Advance s.system.db rest patch rest' patch')
    (hdb : s'.system.db = s.system.db) (hlog : s'.system.log = s.system.log)
    {current' : Store → Prop}
    (hsessions : s'.system.sessions =
      Function.update s.system.sessions k (.running rest' patch' current')) : c.Inv s' := by
  have hsame : ∀ j, j ≠ k → s'.system.sessions j = s.system.sessions j := fun j hj => by
    rw [hsessions, Function.update_of_ne hj]
  have hothers := fun i rest patch current (hi : i + 1 ≠ k) (hrunning : s'.system.sessions (i + 1) =
      .running rest patch current) => h.stage_of_same (.inl hturn) hn (.of_eq (by rw [hdb]))
    (fun j _ hj => by rwa [hlog]) hsame hi hrunning
  have hself : ∀ i, i + 1 = k → i + 1 ∉ s'.system.log ∧
      c.Stage i s'.system.db (s'.executed i) (s'.found i) rest' patch' := by
    rintro i rfl
    obtain ⟨hout, hstage⟩ := h.stage i _ _ _ hk
    obtain ⟨hexecuted, hfound⟩ := (next_system hn).2.2 i hturn
    rw [hlog, hdb, hexecuted, hfound]
    exact ⟨hout, hstage.advance hadvance⟩
  have hrest : ∀ {rest₁ patch₁ current₁}, s'.system.sessions k = .running rest₁ patch₁ current₁ →
      rest₁ = rest' ∧ patch₁ = patch' := by
    intro rest₁ patch₁ current₁ hrunning
    rw [hsessions, Function.update_self] at hrunning
    cases hrunning
    exact ⟨rfl, rfl⟩
  refine ⟨fun rest₁ patch₁ current₁ h₀ => ?_, ?_, ?_, fun i rest₁ patch₁ current₁ hi => ?_,
    fun hclosed i rest₁ patch₁ current₁ hi => ?_, ?_⟩
  · by_cases h0k : 0 = k
    · subst h0k
      obtain ⟨rfl, rfl⟩ := hrest h₀
      exact (h.closing _ _ _ hk).advance hadvance
    · rw [hsame 0 h0k] at h₀
      exact h.closing _ _ _ h₀
  · rw [hdb, hlog]
    exact h.shut
  · rw [hdb, hlog]
    exact h.fresh
  · by_cases hik : i + 1 = k
    · obtain ⟨rfl, rfl⟩ := hrest (hik ▸ hi)
      exact hself i hik
    · exact (hothers i _ _ _ hik hi).2.2
  · rw [hlog] at hclosed
    by_cases hik : i + 1 = k
    · subst hik
      obtain ⟨-, hfound⟩ := (next_system hn).2.2 i hturn
      rw [hfound]
      split_ifs
      · -- the period is shut, so it is not found open
        intro hopen
        obtain ⟨row, hrow, -, hstatus⟩ := foundOpen_open hopen
        exact h.shut hclosed row hrow hstatus
      · exact h.unseen hclosed i _ _ _ hk
    · obtain ⟨hrunning, hfound, -⟩ := hothers i _ _ _ hik hi
      rw [hfound]
      exact h.unseen hclosed i _ _ _ hrunning
  · simp only [NoneAfterClose]
    rw [hdb, hlog]
    exact h.none

/-- A commit other than the close's changes nothing for the close. -/
theorem Inv.closing_of_same (h : c.Inv s)
    (hsame : s'.system.sessions 0 = s.system.sessions 0 ∨
      ∃ a, s'.system.sessions 0 = .committed a) (rest : StoreTx Unit) (patch : Store → Store)
    (current : Store → Prop) (h₀ : s'.system.sessions 0 = .running rest patch current) :
    rest.Patches (fun _ => Shuts c.close.periodId) patch := by
  rcases hsame with hsame | ⟨a, ha⟩
  · rw [hsame] at h₀
    exact h.closing _ _ _ h₀
  · rw [ha] at h₀
    cases h₀

/-- The close commits, and nobody who is running has found the period open. -/
theorem Inv.closed (h : c.Inv s) (hn : c.next s (.step 0) = some s') {a : Unit}
    {current : Store → Prop} (h₀ : s.system.sessions 0 = .running (.ret a) patch current)
    (hunseen : c.ClosesUnseen s (.step 0)) (hdb : s'.system.db = patch s.system.db)
    (hlog : s'.system.log = s.system.log ++ [0])
    (hsessions : s'.system.sessions = Function.update s.system.sessions 0 (.committed a)) :
    c.Inv s' := by
  have hshuts : Shuts c.close.periodId patch := h.closing _ _ _ h₀
  have hexpenses : s'.system.db.expenses = s.system.db.expenses := by
    rw [hdb, hshuts.expenses]
  have hsame : ∀ j, j ≠ 0 → s'.system.sessions j = s.system.sessions j := fun j hj => by
    rw [hsessions, Function.update_of_ne hj]
  have hmem : ∀ j, j ≠ 0 → j ∉ s.system.log → j ∉ s'.system.log := by
    intro j hj hout
    rw [hlog, System.notMem_log_snoc]
    exact ⟨hout, hj⟩
  have hothers := fun i rest patch current (hrunning : s'.system.sessions (i + 1) =
      .running rest patch current) => h.stage_of_same (.inl rfl) hn (.of_eq hexpenses) hmem hsame
    (Nat.succ_ne_zero i) hrunning
  refine ⟨fun rest patch current => ?_, fun _ row hrow => ?_, fun i hi => ?_,
    fun i rest patch current hi => ?_, fun _ i rest patch current hi => ?_, ?_⟩
  · exact h.closing_of_same (.inr ⟨a, by rw [hsessions, Function.update_self]⟩) rest patch current
  · rw [hdb] at hrow
    exact hshuts.shut _ row hrow
  · rw [hlog, System.notMem_log_snoc] at hi
    rw [hexpenses]
    exact h.fresh i hi.1
  · exact (hothers i rest patch current hi).2.2
  · obtain ⟨hrunning, hfound, -⟩ := hothers i rest patch current hi
    rw [hfound]
    exact hunseen rfl ⟨a, _, _, h₀⟩ i _ _ _ hrunning
  · intro before after i row hsplit hafter hrow
    rw [hexpenses] at hrow
    rw [hlog] at hsplit
    rcases System.log_snoc hsplit hafter with ⟨after', hbefore, hin⟩ | ⟨-, hi⟩
    · exact h.none before after' i row hbefore hin hrow
    · exact absurd hi (Nat.succ_ne_zero i)

/-- An expense transaction commits. -/
theorem Inv.committed (h : c.Inv s) (hn : c.next s (.step (i + 1)) = some s') {a : Unit}
    {current : Store → Prop} (hi : s.system.sessions (i + 1) = .running (.ret a) patch current)
    (hdb : s'.system.db = patch s.system.db) (hlog : s'.system.log = s.system.log ++ [i + 1])
    (hsessions : s'.system.sessions = Function.update s.system.sessions (i + 1) (.committed a)) :
    c.Inv s' := by
  obtain ⟨periodId, hfound, htouches, hrow, hids⟩ := h.commits hi
  have hsame : ∀ j, j ≠ i + 1 → s'.system.sessions j = s.system.sessions j := fun j hj => by
    rw [hsessions, Function.update_of_ne hj]
  have hmem : ∀ j, j ≠ i + 1 → j ∉ s.system.log → j ∉ s'.system.log := by
    intro j hj hnot
    rw [hlog, System.notMem_log_snoc]
    exact ⟨hnot, hj⟩
  have hkeeps : KeepsPeriods s.system.db s'.system.db := by
    rw [hdb]
    exact .of_touches htouches hrow
  have hunseen : 0 ∈ s.system.log → periodId ≠ c.close.periodId := by
    rintro hclosed rfl
    exact h.unseen hclosed i _ _ _ hi hfound
  have hothers := fun j rest patch current (hrunning : s'.system.sessions (j + 1) =
      .running rest patch current) => h.stage_of_same (.inl rfl) hn hkeeps hmem hsame
    (fun hji => by
      rw [hji, hsessions, Function.update_self] at hrunning
      cases hrunning) hrunning
  have hclosedBefore : 0 ∈ s'.system.log → 0 ∈ s.system.log := by
    intro hclosed
    rw [hlog, List.mem_append, List.mem_singleton] at hclosed
    exact hclosed.resolve_right (Nat.succ_ne_zero i).symm
  refine ⟨fun rest patch current => ?_, fun hclosed row => ?_, fun j hj => ?_,
    fun j rest patch current hj => ?_, fun hclosed j rest patch current hj => ?_, ?_⟩
  · exact h.closing_of_same (.inl (hsame 0 (Nat.succ_ne_zero i).symm)) rest patch current
  · rw [hdb, htouches.periods]
    exact h.shut (hclosedBefore hclosed) row
  · rw [hlog, System.notMem_log_snoc] at hj
    have hji : j ≠ i := fun hji => hj.2 (congrArg Nat.succ hji)
    rw [hdb, htouches.others _ _ (hids j hji hj.1)]
    exact h.fresh j hj.1
  · exact (hothers j rest patch current hj).2.2
  · obtain ⟨hrunning, hfound', -⟩ := hothers j rest patch current hj
    rw [hfound']
    exact h.unseen (hclosedBefore hclosed) j _ _ _ hrunning
  · intro before after j row hsplit hafter hlast
    rw [hlog] at hsplit
    rw [hdb] at hlast
    rcases System.log_snoc hsplit hafter with ⟨after', hbefore, hin⟩ | ⟨hclosed, hj⟩
    · rcases htouches.row hlast with ⟨row₀, hrow₀, hperiod⟩ | ⟨-, hperiod⟩
      · rw [hperiod]
        exact h.none before after' j row₀ hbefore hin hrow₀
      · rw [hperiod]
        exact hunseen (by rw [hbefore]; exact List.mem_append_right _ List.mem_cons_self)
    · rcases htouches.row hlast with ⟨row₀, hrow₀, hperiod⟩ | ⟨-, hperiod⟩
      · rw [Nat.succ_injective hj] at hrow₀
        rw [hperiod, hrow row₀ hrow₀]
        exact hunseen hclosed
      · rw [hperiod]
        exact hunseen hclosed

/-- **Every turn keeps the invariant**, if the close commits unseen. -/
theorem Inv.next (h : c.Inv s) (hunseen : c.ClosesUnseen s turn) (hn : c.next s turn = some s') :
    c.Inv s' := by
  obtain ⟨k, rest, patch, current, hk, hturn, hcases⟩ := System.next_advance (next_system hn).1
  rcases hcases with ⟨hdb, hlog, hsessions⟩ | ⟨a, rfl, rfl, hdb, hlog, hsessions⟩ |
    ⟨rfl, rest', patch', current', hadvance, hdb, hlog, hsessions⟩
  · exact h.aborted hn hturn hdb hlog hsessions
  · cases k with
    | zero => exact h.closed hn hk hunseen hdb hlog hsessions
    | succ i => exact h.committed hn hk hdb hlog hsessions
  · exact h.advanced hn rfl hk hadvance hdb hlog hsessions

/-- **Nothing of a closed period changes**: however a close and any number of expense
transactions are interleaved, as long as the close commits while nobody is running who
has found its period open, no transaction that writes a row of the period commits
after it. -/
theorem none_after_close {turns : List Turn}
    (hr : Reaches c.next c.ClosesUnseen c.initial turns s) : c.NoneAfterClose s := by
  have hinv : c.Inv s := hr.invariant inv_initial fun _ _ _ h hunseen hn => h.next hunseen hn
  exact hinv.none

/-! ## A close that is not noticed -/

/-- The session is in progress. -/
def isRunning : Session Store RowLock Failure Unit → Bool
  | .running _ _ _ => true
  | _ => false

/-- `ClosesUnseen` among the first `n` transactions, as a test; the others stand still. -/
def closesUnseenAmong (c : Closing d₀) (n : ℕ) (s : ClosingSystem) : Turn → Bool
  | .step 0 => decide (∀ i < n, s.found i = some c.close.periodId →
      isRunning (s.system.sessions (i + 1)) = false)
  | .step (i + 1) => decide (i < n)
  | .kill _ => true

/-- A schedule of the first `n` transactions that passes the test closes unseen. -/
theorem reaches_unseen (n : ℕ) {turns : List Turn}
    (h : runLabels (fun s turn => if c.closesUnseenAmong n s turn then c.next s turn else none)
      c.initial turns = some s) : Reaches c.next c.ClosesUnseen c.initial turns s := by
  refine reaches_of_checked_inv (I := fun s => ∀ i, n ≤ i → s.found i = .none)
    (fun _ _ => rfl) ?_ ?_ h
  · intro s turn s' hnone hcheck hn i hi
    rw [((next_system hn).2.1 i ?_).2]
    · exact hnone i hi
    · rintro rfl
      exact absurd hi (Nat.not_le_of_lt (of_decide_eq_true hcheck))
  · rintro s turn hnone hcheck rfl - i rest patch current hi hfound
    by_cases hin : i < n
    · have hstopped := of_decide_eq_true hcheck i hin hfound
      rw [hi] at hstopped
      cases hstopped
    · rw [hnone i (Nat.le_of_not_lt hin)] at hfound
      cases hfound

end Closing

namespace Sample

/-- January is open. -/
def januaryStore : Store := store [openJanuary]

/-- January is closed while user 10 enters expenses of 50000. -/
def closing : Closing januaryStore where
  closeEnv := ⟨noon, 0, 0⟩
  close := ⟨1, 100, 14⟩
  env := fun i => ⟨noon, 101 + i, 0⟩
  command := fun _ => .create
    ⟨1, ⟨.employee, 10, none⟩, 50000, "NGN", 3, 2, noon, none, none, none⟩
  fresh := by
    have hempty : januaryStore.expenses = ∅ := by decide +kernel
    intro i
    rw [hempty]
    rfl
  distinct := fun i j h => Nat.add_left_cancel h

/-- The first expense is committed, the period closed, and the second expense refused. -/
def closedInTurn : List Turn :=
  List.replicate 7 (.step 1) ++ List.replicate 4 (.step 0) ++ List.replicate 2 (.step 2)

/-- The expense is created in a period that is closed once it was found open. -/
def closedUnnoticed : List Turn :=
  .step 1 :: (List.replicate 4 (.step 0) ++ List.replicate 6 (.step 1))

end Sample

namespace Closing

/-- Transactions that take turns. -/
theorem none_after_close_sample :
    ∃ s, Reaches Sample.closing.next Sample.closing.ClosesUnseen Sample.closing.initial
        Sample.closedInTurn s ∧
      s.system.log = [1, 0] ∧ Sample.closing.NoneAfterClose s := by
  have hrun : (runLabels (fun s turn =>
      if Sample.closing.closesUnseenAmong 2 s turn then Sample.closing.next s turn else none)
      Sample.closing.initial Sample.closedInTurn).map (fun s => s.system.log) = some [1, 0] := by
    decide +kernel
  obtain ⟨s, hs, hlog⟩ := Option.map_eq_some_iff.mp hrun
  have hr := reaches_unseen 2 hs
  exact ⟨s, hr, hlog, none_after_close hr⟩

/-- **An expense in a closed period**: its transaction found the period open, and commits
after the close. -/
theorem commit_after_close :
    Runs Sample.administration [Sample.openJanuary] Sample.januaryStore ∧
    ∃ s, Reaches Sample.closing.next (fun _ _ => True) Sample.closing.initial
        Sample.closedUnnoticed s ∧
      s.system.log = [0, 1] ∧
      (s.system.db.financialPeriods.lookup 100).map FinancialPeriodRow.status = some .closed ∧
      s.system.db.expenses.lookup 101 = some (Sample.expenseRow .draft 50000) ∧
      ¬ Sample.closing.NoneAfterClose s := by
  have hrun : (runLabels Sample.closing.next Sample.closing.initial Sample.closedUnnoticed).map
      (fun s => (s.system.log,
        (s.system.db.financialPeriods.lookup 100).map FinancialPeriodRow.status,
        s.system.db.expenses.lookup 101)) =
      some ([0, 1], some .closed, some (Sample.expenseRow .draft 50000)) := by
    decide +kernel
  obtain ⟨s, hs, hfacts⟩ := Option.map_eq_some_iff.mp hrun
  simp only [Prod.mk.injEq] at hfacts
  obtain ⟨hlog, hclosed, hrow⟩ := hfacts
  refine ⟨Sample.runs (by decide +kernel), s, reaches_of_runLabels hs, hlog, hclosed, hrow,
    fun h => ?_⟩
  exact h [] [1] 0 _ hlog (List.mem_singleton_self 1) hrow rfl

end Closing

end RatelPlatform
