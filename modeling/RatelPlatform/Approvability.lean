import RatelPlatform.Decisions

/-!
# Pending expenses can be approved

A pending expense has a step left to decide on, and as long as its period is open
anybody but its source and its earlier approvers may decide on it once they are
given the role of that step. So every pending expense can be brought to its
approval, and the approvers can be chosen.
-/

namespace RatelPlatform

variable {administration : Administration} {rs : List Request} {d d' : Store} {id userId : Id}
  {row : ExpenseRow} {prow : ApprovalProgressRow}

/-! ## A pending expense has a step left -/

/-- The progress of a pending expense does not cover its chain yet. -/
def Store.PendingIncomplete (d : Store) : Prop :=
  ∀ id row prow, d.expenses.lookup id = some row → row.status = .pendingApproval →
    d.approvalProgress.lookup id = some prow → prow.records.length < prow.chain.length

theorem ExpenseRow.chain_length_pos (row : ExpenseRow) (id : Id) :
    0 < (row.chain id).steps.length :=
  List.length_pos_iff.mpr (ExpenseApprovalPolicy.resolveChain_numbered _).2

/-- The expense a command is about. -/
theorem pendingIncomplete_own {env : Env} {cmd : ExpenseCommand}
    (hr : Runs administration rs d) (hfresh : d.Fresh env.uuid)
    (hok : (cmd.program env).solo d = .ok ((), d'))
    (hrow : d'.expenses.lookup (cmd.subject env) = some row)
    (hpending : row.status = .pendingApproval)
    (hprow : d'.approvalProgress.lookup (cmd.subject env) = some prow) :
    prow.records.length < prow.chain.length := by
  have hal := (Runs.wellFormed hr).aligned
  have hnew := Finmap.lookup_eq_none.mpr hfresh.2.1
  cases cmd with
  | create cmd =>
    obtain ⟨_, hok⟩ := Tx.solo_discard_ok.mp hok
    obtain ⟨row₁, _, -, -, hdraft, -, -, -, rfl⟩ := createExpense_ok hnew hok
    obtain rfl := Option.some.inj ((Finmap.lookup_insert _).symm.trans hrow)
    cases hdraft.symm.trans hpending
  | submit cmd =>
    obtain ⟨row₁, -, -, -, -, -, rfl⟩ := submitExpense_ok hok
    obtain rfl := Option.some.inj ((Finmap.lookup_insert _).symm.trans hprow)
    exact row₁.chain_length_pos _
  | approve cmd =>
    obtain ⟨row₁, prow₁, step, hrow₁, -, -, hprow₁, -, -, hstep, -, hlast, rfl⟩ :=
      approveExpense_ok hal hok
    obtain rfl := Option.some.inj ((Finmap.lookup_insert _).symm.trans hprow)
    have hrow' := Option.some.inj ((Finmap.lookup_insert _).symm.trans hrow)
    split_ifs at hrow' with hfinal
    · rw [← hrow'] at hpending
      cases hpending
    · subst hrow'
      obtain ⟨prow₂, hprow₂, hend⟩ := (Runs.expenseInvariant hr _ row₁ hrow₁).pending hpending
      obtain rfl := Option.some.inj (hprow₁.symm.trans hprow₂)
      rw [row₁.stepAt_chain hend.chain] at hstep
      have hlt := (List.getElem?_eq_some_iff.mp hstep).1
      have hne : prow₁.records.length + 1 ≠ prow₁.chain.length :=
        fun heq => hfinal ((row₁.isLastStep_chain hend.chain _).mpr heq)
      rw [List.length_append, List.length_singleton]
      exact lt_of_le_of_ne hlt hne
  | reject cmd =>
    obtain ⟨row₁, _, -, -, -, -, -, -, -, rfl⟩ := rejectExpense_ok hal hok
    obtain rfl := Option.some.inj ((Finmap.lookup_insert _).symm.trans hrow)
    cases hpending
  | cancel cmd =>
    obtain ⟨row₁, -, -, -, -, rfl⟩ := cancelExpense_ok hok
    obtain rfl := Option.some.inj ((Finmap.lookup_insert _).symm.trans hrow)
    cases hpending
  | createAdjustment cmd =>
    obtain ⟨_, hok⟩ := Tx.solo_discard_ok.mp hok
    obtain ⟨_, _, _, _, -, -, -, -, -, -, -, rfl⟩ := createAdjustment_ok hnew hok
    simp only at hprow
    split_ifs at hprow
    · obtain rfl := Option.some.inj ((Finmap.lookup_insert _).symm.trans hprow)
      exact ExpenseRow.chain_length_pos _ _
    · cases (Finmap.lookup_eq_none.mpr hfresh.2.2.1).symm.trans hprow

theorem Store.PendingIncomplete.next {request : Request} (hr : Runs administration rs d)
    (h : d.PendingIncomplete) (hn : next d request = some d') : d'.PendingIncomplete := by
  obtain ⟨hfresh, ⟨-, rfl⟩ | hok⟩ := next_cases hn
  · exact h
  intro id row prow hrow hpending hprow
  obtain ⟨env, command⟩ := request
  cases command with
  | administer a =>
    obtain ⟨_, hp, rfl⟩ := Tx.solo_exec_ok.mp hok
    cases hp
    exact h id row prow hrow hpending hprow
  | period cmd =>
    obtain ⟨_, _, rfl⟩ := PeriodCommand.frame hok
    exact h id row prow hrow hpending hprow
  | expense cmd =>
    obtain ⟨-, -, -, ⟨row₁, hrows⟩, -, hprogress⟩ :=
      ExpenseCommand.frame (Runs.wellFormed hr).aligned hfresh hok
    by_cases hid : id = cmd.subject env
    · subst hid
      exact pendingIncomplete_own hr hfresh hok hrow hpending hprow
    · rw [hrows, Finmap.lookup_insert_of_ne _ hid] at hrow
      rw [hprogress.lookup_ne hid] at hprow
      exact h id row prow hrow hpending hprow
  | payroll cmd =>
    obtain ⟨-, -, hrows, -, -, hprogress⟩ := PayrollCommand.frame
      (Runs.wellFormed hr).aligned (fun _ => Finmap.lookup_eq_none.mpr hfresh.2.2.2) hok
    rw [hrows] at hrow
    have hmem : id ∈ d.expenses := Finmap.mem_of_lookup_eq_some hrow
    have hid := PayrollCommand.subject_ne (Runs.wellFormed hr) hfresh hok hmem
    rw [hprogress.lookup_ne hid] at hprow
    exact h id row prow hrow hpending hprow

theorem Runs.pendingIncomplete (hr : Runs administration rs d) : d.PendingIncomplete := by
  refine hr.invariant_along (P := fun _ d => d.PendingIncomplete) ?_ ?_
  · intro id row prow hrow
    cases hrow
  · intro rs d request d' hr h _ hn
    exact h.next hr hn

/-! ## Taking the next step -/

/-- Some id is not in use. -/
theorem Store.exists_fresh (d : Store) : ∃ uuid, d.Fresh uuid := by
  obtain ⟨uuid, hfresh⟩ := Infinite.exists_notMem_finset
    (d.financialPeriods.keys ∪ d.expenses.keys ∪ d.approvalProgress.keys ∪ d.payrollRuns.keys)
  simp only [Finset.mem_union, Finmap.mem_keys, not_or] at hfresh
  obtain ⟨⟨⟨hperiod, hexpense⟩, hprogress⟩, hrun⟩ := hfresh
  exact ⟨uuid, hperiod, hexpense, hprogress, hrun⟩

/-- Giving a user a role in a department. -/
def Administration.assign (a : Administration) (assignment : DepartmentRoleAssignment) :
    Administration :=
  { a with departmentRoleAssignments := assignment :: a.departmentRoleAssignments }

theorem Administration.mem_rolesOf_assign (a : Administration)
    (assignment : DepartmentRoleAssignment) :
    ⟨assignment.role, some assignment.departmentId, assignment.organizationId⟩ ∈
      (a.assign assignment).rolesOf assignment.userId := by
  refine List.mem_append_left _ (List.mem_map_of_mem (a := assignment) ?_)
  exact List.mem_filter.mpr ⟨List.mem_cons_self, decide_eq_true rfl⟩

/-- The next decision on a pending expense by a user who may take it: the request
that gives them the role, and their approval. -/
structure NextApproval (d d' : Store) (id : Id) (row : ExpenseRow) (userId : Id) : Prop where
  /-- the decision is recorded -/
  recorded : ∃ r, r.approverId = userId ∧ d'.recordsOf id = d.recordsOf id ++ [r]
  /-- the periods are as they were -/
  periods : d'.financialPeriods = d.financialPeriods
  /-- so are the other expenses -/
  others : ∀ id', id' ≠ id → d'.expenses.lookup id' = d.expenses.lookup id'
  /-- and the expense, unless this was the last step -/
  expense : ∃ row', d'.expenses.lookup id = some row' ∧ row.SameBut row' ∧
    (row'.status = .approved ∨ row'.status = .pendingApproval)

/-- Anybody but its source and its earlier approvers may be the next to approve a
pending expense. -/
theorem approve_next (hr : Runs administration rs d) (hrow : d.expenses.lookup id = some row)
    (hpending : row.status = .pendingApproval)
    (hopen : d.PeriodIsOpen row.organizationId row.periodId)
    (hother : row.source.actorId ≠ userId) (hunused : ∀ r ∈ d.recordsOf id, r.approverId ≠ userId) :
    ∃ rs' d', Reaches next (fun _ _ => True) d rs' d' ∧ NextApproval d d' id row userId := by
  obtain ⟨prow, hprow, hend⟩ := (Runs.expenseInvariant hr id row hrow).pending hpending
  have hrecords := recordsOf_eq hprow
  have hlt := Runs.pendingIncomplete hr id row prow hrow hpending hprow
  obtain ⟨step, hstep⟩ : ∃ step, prow.chain[prow.records.length]? = some step :=
    ⟨_, List.getElem?_eq_getElem hlt⟩
  -- the user is given the role of the step, in the department of the expense
  obtain ⟨env, hfresh⟩ : ∃ env : Env, d.Fresh env.uuid := by
    obtain ⟨uuid, hfresh⟩ := d.exists_fresh
    exact ⟨⟨⟨0, by decide⟩, uuid, 0⟩, hfresh⟩
  obtain ⟨assigned, hassign⟩ : ∃ assigned, assigned = d.administration.assign
    ⟨userId, row.organizationId, step.requiredRole, row.departmentId⟩ := ⟨_, rfl⟩
  obtain ⟨d₁, hd₁⟩ : ∃ d₁ : Store, d₁ = { d with administration := assigned } := ⟨_, rfl⟩
  have hassigned : next d ⟨env, .administer assigned⟩ = some d₁ := by
    rw [next, if_pos hfresh, hd₁]
    rfl
  have hr₁ := hr.snoc trivial hassigned
  have hrole : HoldsRequiredRole step (some row.departmentId) (d₁.administration.rolesOf userId) := by
    rw [hd₁, hassign]
    exact ⟨_, d.administration.mem_rolesOf_assign _, rfl, .inr rfl⟩
  have hcurrent := row.stepAt_chain hend.chain prow.records.length
  rw [hstep] at hcurrent
  have honce : ¬ ∃ r ∈ prow.records, r.decision = .approved ∧ r.approverId = userId := by
    rintro ⟨r, hmem, -, hby⟩
    exact hunused r (hrecords ▸ hmem) hby
  -- and approves it
  obtain ⟨d₂, hok⟩ : ∃ d₂, (approveExpense env ⟨id, row.organizationId, userId⟩).solo d₁ =
      .ok ((), d₂) := by
    refine approveExpense_solo (Runs.wellFormed hr₁).aligned ?_ (Runs.amountsStorable hr id row hrow)
      rfl ?_ ?_ hother honce hcurrent hrole (fun _ => hpending)
    · rw [hd₁]
      exact hrow
    · rw [hd₁]
      exact hopen
    · rw [hd₁]
      exact hprow
  have happroved : next d₁ ⟨env, .expense (.approve ⟨id, row.organizationId, userId⟩)⟩ =
      some d₂ := by
    have hfresh₁ : d₁.Fresh env.uuid := by
      rw [hd₁]
      exact hfresh
    rw [next, if_pos hfresh₁]
    simp only [Command.program, ExpenseCommand.program, hok]
  refine ⟨_, d₂, (Reaches.nil.snoc trivial hassigned).snoc trivial happroved, ?_⟩
  obtain ⟨row₁, prow₁, _, hrow₁, -, -, hprow₁, -, -, -, -, -, hd₂⟩ :=
    approveExpense_ok (Runs.wellFormed hr₁).aligned hok
  have hrow₁' : d.expenses.lookup id = some row₁ := by
    rw [hd₁] at hrow₁
    exact hrow₁
  obtain rfl := Option.some.inj (hrow.symm.trans hrow₁')
  refine ⟨⟨approvalOf env ⟨id, row.organizationId, userId⟩ prow₁, rfl, ?_⟩, ?_, ?_, ?_⟩
  · rw [recordsOf_decided hprow₁ (congrArg Store.approvalProgress hd₂), hd₁]
    rfl
  · rw [hd₂, hd₁]
  · intro id' hid
    rw [hd₂, hd₁]
    exact Finmap.lookup_insert_of_ne _ hid
  · have hlookup := congrArg (fun d => d.expenses.lookup id) hd₂
    simp only [Finmap.lookup_insert] at hlookup
    refine ⟨_, hlookup, ?_, ?_⟩
    · split_ifs
      · exact ⟨_, _, rfl⟩
      · exact .refl row
    · split_ifs
      · exact .inl rfl
      · exact .inr hpending

/-! ## Taking them all -/

/-- **A pending expense can be approved**: while its period is open, some requests
bring it to its approval, and leave the other expenses alone. -/
theorem can_be_approved (hr : Runs administration rs d) (hrow : d.expenses.lookup id = some row)
    (hpending : row.status = .pendingApproval)
    (hopen : d.PeriodIsOpen row.organizationId row.periodId) :
    ∃ rs' d' row', Reaches next (fun _ _ => True) d rs' d' ∧
      d'.expenses.lookup id = some row' ∧ row.SameBut row' ∧ row'.status = .approved ∧
      ∀ id', id' ≠ id → d'.expenses.lookup id' = d.expenses.lookup id' := by
  -- induction on the number of steps left
  obtain ⟨n, hn⟩ : ∃ n, (row.chain id).steps.length ≤ (d.recordsOf id).length + n :=
    ⟨_, Nat.le_add_left _ _⟩
  induction n generalizing rs d row with
  | zero =>
    obtain ⟨prow, hprow, hend⟩ := (Runs.expenseInvariant hr id row hrow).pending hpending
    have hlt := Runs.pendingIncomplete hr id row prow hrow hpending hprow
    rw [recordsOf_eq hprow, ← hend.chain] at hn
    exact absurd hlt (not_lt.mpr hn)
  | succ n ih =>
    obtain ⟨userId, hunused⟩ := Infinite.exists_notMem_finset
      (insert row.source.actorId ((d.recordsOf id).map ApprovalRecord.approverId).toFinset)
    simp only [Finset.mem_insert, List.mem_toFinset, List.mem_map, not_or, not_exists,
      not_and] at hunused
    obtain ⟨rs₁, d₁, hreach, hnext⟩ := approve_next hr hrow hpending hopen (Ne.symm hunused.1)
      hunused.2
    obtain ⟨r, -, hrecords⟩ := hnext.recorded
    obtain ⟨row₁, hrow₁, hsame, happroved | hstill⟩ := hnext.expense
    · exact ⟨rs₁, d₁, row₁, hreach, hrow₁, hsame, happroved, hnext.others⟩
    · have hopen₁ : d₁.PeriodIsOpen row₁.organizationId row₁.periodId := by
        obtain ⟨_, _, rfl⟩ := hsame
        rw [Store.PeriodIsOpen, hnext.periods]
        exact hopen
      have hfewer : (row₁.chain id).steps.length ≤ (d₁.recordsOf id).length + n := by
        obtain ⟨_, _, rfl⟩ := hsame
        rw [hrecords, List.length_append, List.length_singleton, Nat.add_assoc, Nat.add_comm 1]
        exact hn
      obtain ⟨rs₂, d₂, row₂, hreach₂, hrow₂, hsame₂, happroved, hothers⟩ :=
        ih (hr.append hreach) hrow₁ hstill hopen₁ hfewer
      refine ⟨rs₁ ++ rs₂, d₂, row₂, hreach.append hreach₂, hrow₂, hsame.trans hsame₂, happroved, ?_⟩
      intro id' hid
      rw [hothers id' hid, hnext.others id' hid]

end RatelPlatform
