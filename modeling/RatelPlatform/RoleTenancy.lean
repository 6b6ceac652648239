import RatelPlatform.Approvability
import RatelPlatform.Authorization
import RatelPlatform.ApprovedRuns

/-!
# Whose roles count

A user may hold roles in several organizations. A decision is checked against all
of them: the engine asks for a role that fits the step, and not for one that was
given in the organization of the item. The organization a user acts for is that of
their first role, so a role that another organization gave them counts in it as
well.

In a run in which every fitting role comes with one of the item's organization,
each decision was made through such a role.
-/

namespace RatelPlatform

variable {administration : Administration} {rs : List Request} {d d' : Store} {id : Id}
  {item : Item} {request : Request} {r : ApprovalRecord}

/-- The roles an organization gave a user. -/
def Administration.rolesWithin (a : Administration) (userId organizationId : Id) :
    List RoleAssignment :=
  (a.rolesOf userId).filter fun r => r.organizationId = organizationId

/-- The step records the decision on the item, of a user who then held the role of
the decided step through an assignment of the item's organization. -/
structure RecordedWithin (id : Id) (item : Item) (r : ApprovalRecord) (d : Store)
    (request : Request) (d' : Store) : Prop where
  /-- the request decides on the item -/
  decides : request.command.Decides id item.organizationId r.approverId
  /-- the decision is recorded -/
  recorded : d'.recordsOf id = d.recordsOf id ++ [r]
  /-- the user holds the role within the organization -/
  role : ∃ prow step, d.approvalProgress.lookup id = some prow ∧
    (ApprovalChain.of prow.chain).stepAt r.stepOrder = some step ∧
    HoldsRequiredRole step item.departmentId
      (d.administration.rolesWithin r.approverId item.organizationId)

/-- A decision on an item is by someone whose role for the current step, if they
hold it at all, is one of the item's organization. -/
def DecidesWithin (d : Store) (request : Request) : Prop :=
  ∀ id item approverId prow step, request.command.Decides id item.organizationId approverId →
    d.HasItem id item → d.approvalProgress.lookup id = some prow →
    (ApprovalChain.of prow.chain).stepAt (prow.records.length + 1) = some step →
    HoldsRequiredRole step item.departmentId (d.administration.rolesOf approverId) →
    HoldsRequiredRole step item.departmentId
      (d.administration.rolesWithin approverId item.organizationId)

/-! ## Items do not change -/

theorem Store.HasItem.unique {item' : Item} (h : d.HasItem id item) (h' : d.HasItem id item')
    (hwf : d.WellFormed) : item' = item := by
  have hapart : ∀ {row : ExpenseRow} {run : PayrollRunRow}, d.expenses.lookup id = some row →
      d.payrollRuns.lookup id = some run → False := fun hrow hrun =>
    hwf.disjoint id (Finmap.mem_of_lookup_eq_some hrow) (Finmap.mem_of_lookup_eq_some hrun)
  rcases h with ⟨row, hrow, rfl⟩ | ⟨run, hrun, rfl⟩ <;>
    rcases h' with ⟨row', hrow', rfl⟩ | ⟨run', hrun', rfl⟩
  · rw [Option.some.inj (hrow.symm.trans hrow')]
  · exact (hapart hrow hrun').elim
  · exact (hapart hrow' hrun).elim
  · rw [Option.some.inj (hrun.symm.trans hrun')]

/-- A payroll command leaves the organization and the creator of a run as they are. -/
theorem PayrollCommand.item_kept {env : Env} {cmd : PayrollCommand} {a : Unit}
    {row : PayrollRunRow} (hal : d.RecordsAligned) (hfresh : d.Fresh env.uuid)
    (h : (cmd.program env).solo d = .ok (a, d')) (hrow : d.payrollRuns.lookup id = some row) :
    ∃ row', d'.payrollRuns.lookup id = some row' ∧ row.item = row'.item := by
  have hnew := Finmap.lookup_eq_none.mpr hfresh.2.2.2
  obtain ⟨-, -, -, ⟨row₁, hruns⟩, -⟩ := PayrollCommand.frame hal (fun _ => hnew) h
  by_cases hid : id = cmd.subject env
  · subst hid
    cases cmd with
    | create cmd => cases hnew.symm.trans hrow
    | addPayslip cmd =>
      obtain ⟨_, h⟩ := Tx.solo_discard_ok.mp h
      obtain ⟨row₂, _, hrow₂, -, -, -, -, -, rfl⟩ := addPayslip_ok h
      obtain rfl := Option.some.inj (hrow.symm.trans hrow₂)
      exact ⟨_, Finmap.lookup_insert _, rfl⟩
    | submit cmd =>
      obtain ⟨row₂, hrow₂, -, -, -, -, -, -, rfl⟩ := (@submitPayrollRun_ok env _ _ _ _).mp h
      obtain rfl := Option.some.inj (hrow.symm.trans hrow₂)
      exact ⟨_, Finmap.lookup_insert _, rfl⟩
    | approve cmd =>
      obtain ⟨row₂, _, _, hrow₂, -, -, -, -, -, -, -, -, -, rfl⟩ := (approvePayrollRun_ok hal).mp h
      obtain rfl := Option.some.inj (hrow.symm.trans hrow₂)
      refine ⟨_, Finmap.lookup_insert _, ?_⟩
      split_ifs
      · rfl
      · rfl
    | reject cmd =>
      obtain ⟨row₂, _, hrow₂, -, -, -, -, -, -, rfl⟩ := rejectPayrollRun_ok hal h
      obtain rfl := Option.some.inj (hrow.symm.trans hrow₂)
      exact ⟨_, Finmap.lookup_insert _, rfl⟩
    | cancel cmd =>
      obtain ⟨row₂, hrow₂, -, -, rfl⟩ := (@cancelPayrollRun_ok env _ _ _ _).mp h
      obtain rfl := Option.some.inj (hrow.symm.trans hrow₂)
      exact ⟨_, Finmap.lookup_insert _, rfl⟩
    | process cmd =>
      obtain ⟨row₂, hrow₂, -, -, rfl⟩ := (@processPayrollRun_ok env _ _ _ _).mp h
      obtain rfl := Option.some.inj (hrow.symm.trans hrow₂)
      exact ⟨_, Finmap.lookup_insert _, rfl⟩
  · refine ⟨row, ?_, rfl⟩
    rw [hruns, Finmap.lookup_insert_of_ne _ hid]
    exact hrow

/-- **An item is what it was when it was created.** -/
theorem Store.HasItem.next (h : d.HasItem id item) (hwf : d.WellFormed)
    (hn : next d request = some d') : d'.HasItem id item := by
  rcases h with ⟨row, hrow, rfl⟩ | ⟨run, hrun, rfl⟩
  · obtain ⟨row', hrow', _, _, rfl⟩ := (expenses_next hwf hn).1 id row hrow
    exact .inl ⟨_, hrow', rfl⟩
  · obtain ⟨hfresh, ⟨-, rfl⟩ | hok⟩ := next_cases hn
    · exact .inr ⟨run, hrun, rfl⟩
    obtain ⟨env, command⟩ := request
    cases command with
    | administer a =>
      obtain ⟨_, hp, rfl⟩ := Tx.solo_exec_ok.mp hok
      cases hp
      exact .inr ⟨run, hrun, rfl⟩
    | period cmd =>
      obtain ⟨_, _, rfl⟩ := PeriodCommand.frame hok
      exact .inr ⟨run, hrun, rfl⟩
    | expense cmd =>
      obtain ⟨-, -, hruns, -⟩ := ExpenseCommand.frame hwf.aligned hfresh hok
      exact .inr ⟨run, by rw [hruns]; exact hrun, rfl⟩
    | payroll cmd => exact .inr (PayrollCommand.item_kept hwf.aligned hfresh hok hrun)

/-! ## A decision decides a step -/

/-- The decision that is recorded is on a step of the chain. -/
theorem Admits.current {prow : ApprovalProgressRow} (h : Admits d request id item prow r)
    (hr : Runs administration rs d) (hn : next d request = some d')
    (hmore : d'.recordsOf id = d.recordsOf id ++ [r]) :
    ∃ step, (ApprovalChain.of prow.chain).stepAt r.stepOrder = some step := by
  have hal := (Runs.wellFormed hr).aligned
  have hprow := h.progress
  rw [h.order]
  obtain ⟨-, ⟨-, rfl⟩ | hok⟩ := next_cases hn
  · exact absurd (List.self_eq_append_right.mp hmore) (List.cons_ne_nil _ _)
  obtain ⟨env, command⟩ := request
  cases h.command with
  | approveExpense =>
    obtain ⟨_, prow₁, step, -, -, -, hprow₁, -, -, hstep, -⟩ := approveExpense_ok hal hok
    obtain rfl := Option.some.inj (hprow.symm.trans hprow₁)
    exact ⟨step, hstep⟩
  | rejectExpense reason =>
    obtain ⟨row, prow₁, hrow, -, -, -, -, hpending, -⟩ := rejectExpense_ok hal hok
    have hlt := Runs.pendingIncomplete hr id row prow hrow hpending hprow
    obtain ⟨prow₂, hprow₂, hend⟩ := (Runs.expenseInvariant hr id row hrow).pending hpending
    obtain rfl := Option.some.inj (hprow.symm.trans hprow₂)
    rw [row.stepAt_chain hend.chain]
    exact ⟨_, List.getElem?_eq_getElem hlt⟩
  | approveRun =>
    obtain ⟨_, prow₁, step, -, -, -, hprow₁, -, -, -, hstep, -⟩ := (approvePayrollRun_ok hal).mp hok
    obtain rfl := Option.some.inj (hprow.symm.trans hprow₁)
    exact ⟨step, hstep⟩
  | rejectRun reason =>
    obtain ⟨row, prow₁, hrow, -, -, -, -, hpending, -⟩ := rejectPayrollRun_ok hal hok
    have hinv := Runs.runInvariant hr id row hrow
    obtain ⟨⟨prow₂, hprow₂, hnone⟩, -⟩ := hinv.pending hpending
    obtain rfl := Option.some.inj (hprow.symm.trans hprow₂)
    rw [hinv.chain prow hprow, hnone]
    exact ⟨_, rfl⟩

/-! ## The result -/

/-- A step that records a decision, where the condition holds. -/
theorem recordedWithin_of_records (hr : Runs administration rs d) (hwithin : DecidesWithin d request)
    (hn : next d request = some d') {prow : ApprovalProgressRow}
    (h : Admits d request id item prow r) (hmore : d'.recordsOf id = d.recordsOf id ++ [r]) :
    RecordedWithin id item r d request d' := by
  obtain ⟨step, hstep⟩ := h.current hr hn hmore
  refine ⟨h.command, hmore, prow, step, h.progress, hstep, ?_⟩
  have hrole := h.role step hstep
  rw [h.order] at hstep
  exact hwithin id item r.approverId prow step h.command h.stored h.progress hstep hrole

/-- A command decides on one item, on behalf of one user. -/
theorem Command.Decides.unique {c : Command} {id' organizationId organizationId' userId userId' : Id}
    (h : c.Decides id organizationId userId) (h' : c.Decides id' organizationId' userId') :
    id' = id ∧ userId' = userId := by
  cases h <;> cases h' <;> exact ⟨rfl, rfl⟩

/-- **When a single decision is made within the organization**: exactly when the
condition holds of the step that records it. -/
theorem recordedWithin_iff (hr : Runs administration rs d) (hn : next d request = some d')
    {prow : ApprovalProgressRow} (h : Admits d request id item prow r)
    (hmore : d'.recordsOf id = d.recordsOf id ++ [r]) :
    RecordedWithin id item r d request d' ↔ DecidesWithin d request := by
  refine ⟨?_, ?_⟩
  · rintro ⟨-, -, prow₁, step₁, hprow₁, hstep₁, hrole₁⟩ id' item' userId prow₂ step₂ hdecides
      hitem hprow₂ hstep₂ -
    obtain ⟨rfl, rfl⟩ := h.command.unique hdecides
    obtain rfl := h.stored.unique hitem (Runs.wellFormed hr)
    obtain rfl := Option.some.inj (hprow₁.symm.trans hprow₂)
    obtain rfl := Option.some.inj (hprow₁.symm.trans h.progress)
    rw [h.order] at hstep₁
    obtain rfl := Option.some.inj (hstep₁.symm.trans hstep₂)
    exact hrole₁
  · exact fun hwithin => recordedWithin_of_records hr hwithin hn h hmore

/-- **Decisions are made within the organization**, in a run in which every role
that fits a decided step comes with one of the item's organization. -/
theorem decisions_within (hr : Reaches next DecidesWithin (.initial administration) rs d)
    (hitem : d.HasItem id item) (hmem : r ∈ d.recordsOf id) :
    HappenedIn administration rs (RecordedWithin id item r) := by
  have hinv : ∀ id r, r ∈ d.recordsOf id → ∃ item, d.HasItem id item ∧
      HappenedIn administration rs (RecordedWithin id item r) := by
    refine hr.invariant_along (P := fun rs d => ∀ id r, r ∈ d.recordsOf id →
      ∃ item, d.HasItem id item ∧ HappenedIn administration rs (RecordedWithin id item r)) ?_ ?_
    · intro id r hmem
      cases hmem
    · intro rs d request d' hr ih hwithin hn id r hmem
      have hruns : Runs administration rs d := hr.mono fun _ _ _ => trivial
      have hwf := Runs.wellFormed hruns
      have hbefore : r ∈ d.recordsOf id → ∃ item, d'.HasItem id item ∧
          HappenedIn administration (rs ++ [request]) (RecordedWithin id item r) := by
        intro hmem
        obtain ⟨item, hitem, hhappened⟩ := ih id r hmem
        exact ⟨item, hitem.next hwf hn, (happened_snoc_iff hr hn).mpr (.inl hhappened)⟩
      rcases records_next hwf hn id with hsame | ⟨item, prow, r₁, hadmits, hmore⟩
      · rw [hsame] at hmem
        exact hbefore hmem
      · rw [hmore, List.mem_append, List.mem_singleton] at hmem
        rcases hmem with hold | rfl
        · exact hbefore hold
        · refine ⟨item, hadmits.stored.next hwf hn, (happened_snoc_iff hr hn).mpr (.inr ?_)⟩
          exact recordedWithin_of_records hruns hwithin hn hadmits hmore
  obtain ⟨item', hitem', hhappened⟩ := hinv id r hmem
  obtain rfl := hitem'.unique hitem (Runs.wellFormed (hr.mono fun _ _ _ => trivial))
  exact hhappened

/-- A decision that was recorded is among the records. -/
theorem mem_recordsOf_of_happened (hr : Runs administration rs d)
    (h : HappenedIn administration rs (RecordedWithin id item r)) : r ∈ d.recordsOf id := by
  revert h
  refine hr.invariant_along (P := fun rs d => HappenedIn administration rs
    (RecordedWithin id item r) → r ∈ d.recordsOf id) ?_ ?_
  · exact fun h => absurd h not_happened_nil
  · intro rs d request d' hr ih _ hn h
    rcases (happened_snoc_iff hr hn).mp h with hbefore | hnow
    · rcases records_next (Runs.wellFormed hr) hn id with hsame | ⟨_, _, _, -, hmore⟩
      · rw [hsame]
        exact ih hbefore
      · rw [hmore]
        exact List.mem_append_left _ (ih hbefore)
    · rw [hnow.recorded]
      exact List.mem_append_right _ List.mem_cons_self

/-! ## Two organizations -/

namespace Sample

/-- User 16 is an employee of organization 1, and directs the finances of
organization 2. -/
def twoOrganizations : Administration :=
  { Sample.administration with
    departmentRoleAssignments :=
      ⟨16, 1, .employee, 2⟩ :: Sample.administration.departmentRoleAssignments
    organizationRoleAssignments :=
      ⟨16, 2, .financeDirector⟩ :: Sample.administration.organizationRoleAssignments }

/-- User 16 acts for organization 1, with both roles. -/
example : (AuthService.buildPrincipal 16 none (twoOrganizations.rolesOf 16)).map
    (fun user => (user.organizationId, user.roles)) =
      some (1, [⟨.employee, some 2⟩, ⟨.financeDirector, none⟩]) := by
  decide +kernel

/-- The payroll run of organization 1 is submitted. -/
def submittedRun : List Request :=
  [openJanuary, createRun 201, payslipFor 301 201 20, submitRun 201]

/-- The store after some requests, where user 16 has both roles. -/
def storeOfTwo (requests : List Request) : Store :=
  (runLabels next (.initial twoOrganizations) requests).getD (.initial twoOrganizations)

theorem runsOfTwo {requests : List Request}
    (h : (runLabels next (.initial twoOrganizations) requests).isSome) :
    Runs twoOrganizations requests (storeOfTwo requests) := by
  obtain ⟨d, hd⟩ := Option.isSome_iff_exists.mp h
  rw [storeOfTwo, hd]
  exact reaches_of_runLabels hd

/-- The request decides nothing, or by someone with roles of organization 1 only. -/
def decidesWithin (d : Store) (request : Request) : Bool :=
  match request.command with
  | .expense (.approve ⟨_, organizationId, approverId⟩)
  | .expense (.reject ⟨_, organizationId, approverId, _⟩)
  | .payroll (.approve ⟨_, organizationId, approverId⟩)
  | .payroll (.reject ⟨_, organizationId, approverId, _⟩) =>
    (d.administration.rolesOf approverId).all fun r => r.organizationId = organizationId
  | _ => true

theorem decidesWithin_of_check (d : Store) (request : Request) (h : decidesWithin d request) :
    DecidesWithin d request := by
  intro id item approverId prow step hdecides _ _ _ hrole
  have hall : ∀ r ∈ d.administration.rolesOf approverId, r.organizationId = item.organizationId := by
    obtain ⟨env, command⟩ := request
    cases hdecides <;> exact fun r hr => of_decide_eq_true (List.all_eq_true.mp h r hr)
  rw [Administration.rolesWithin, List.filter_eq_self.mpr fun r hr => decide_eq_true (hall r hr)]
  exact hrole

end Sample

theorem decisions_within_sample : ∃ r,
    r ∈ (Sample.storeOfTwo (Sample.submittedRun ++ [Sample.approveRun 201 14])).recordsOf 201 ∧
      HappenedIn Sample.twoOrganizations (Sample.submittedRun ++ [Sample.approveRun 201 14])
        (RecordedWithin 201 ⟨1, none, 15⟩ r) := by
  obtain ⟨d, hr⟩ : ∃ d, Reaches next DecidesWithin (.initial Sample.twoOrganizations)
      (Sample.submittedRun ++ [Sample.approveRun 201 14]) d :=
    exists_reaches_of_checked Sample.decidesWithin_of_check (by decide +kernel)
  have hstore : Sample.storeOfTwo (Sample.submittedRun ++ [Sample.approveRun 201 14]) = d := by
    rw [Sample.storeOfTwo, hr.runLabels_eq]
    rfl
  have hitem : (d.payrollRuns.lookup 201).map PayrollRunRow.item = some ⟨1, none, 15⟩ := by
    rw [← hstore]
    decide +kernel
  obtain ⟨row, hrow, hitem⟩ := Option.map_eq_some_iff.mp hitem
  obtain ⟨r, hmem⟩ : ∃ r, r ∈ d.recordsOf 201 := by
    refine List.exists_mem_of_ne_nil _ ?_
    rw [← hstore]
    decide +kernel
  rw [hstore]
  exact ⟨r, hmem, decisions_within hr (.inr ⟨row, hrow, hitem.symm⟩) hmem⟩

/-- **A director of another organization approves the payroll**: user 16, an employee
here, signs the run of organization 1 as the finance director of organization 2. -/
theorem foreign_director_approves : ∃ d r,
    Runs Sample.twoOrganizations (Sample.submittedRun ++ [Sample.approveRun 201 16]) d ∧
      d.HasItem 201 ⟨1, none, 15⟩ ∧ r ∈ d.recordsOf 201 ∧ r.approverId = 16 ∧
      ¬ HappenedIn Sample.twoOrganizations (Sample.submittedRun ++ [Sample.approveRun 201 16])
        (RecordedWithin 201 ⟨1, none, 15⟩ r) := by
  have hruns : Runs Sample.twoOrganizations (Sample.submittedRun ++ [Sample.approveRun 201 16]) _ :=
    Sample.runsOfTwo (by decide +kernel)
  obtain ⟨t, ht, -, hn⟩ := hruns.of_snoc
  obtain rfl : Sample.storeOfTwo Sample.submittedRun = t := by
    rw [Sample.storeOfTwo, ht.runLabels_eq]
    rfl
  have hitem : ((Sample.storeOfTwo
      (Sample.submittedRun ++ [Sample.approveRun 201 16])).payrollRuns.lookup 201).map
        PayrollRunRow.item = some ⟨1, none, 15⟩ := by
    decide +kernel
  obtain ⟨row, hrow, hitem⟩ := Option.map_eq_some_iff.mp hitem
  have hrecords : ((Sample.storeOfTwo (Sample.submittedRun ++ [Sample.approveRun 201 16])).recordsOf
      201).map (fun r => (r.stepOrder, r.approverId)) = [(1, 16)] := by
    decide +kernel
  obtain ⟨r, hr, hfacts⟩ := List.map_eq_singleton_iff.mp hrecords
  obtain ⟨horder, hby⟩ := Prod.mk.inj hfacts
  refine ⟨_, r, hruns, .inr ⟨row, hrow, hitem.symm⟩, by rw [hr]; exact List.mem_cons_self, hby, ?_⟩
  intro h
  rcases (happened_snoc_iff ht hn).mp h with hbefore | ⟨-, -, prow, step, hprow, hstep, hrole⟩
  · -- nothing was decided before
    have hmem := mem_recordsOf_of_happened ht hbefore
    rw [show (Sample.storeOfTwo Sample.submittedRun).recordsOf 201 = [] by decide +kernel] at hmem
    cases hmem
  · rw [show (Sample.storeOfTwo Sample.submittedRun).approvalProgress.lookup 201 =
      some ⟨"PayrollRun", payrollChain, []⟩ by decide +kernel] at hprow
    obtain rfl := Option.some.inj hprow
    rw [horder] at hstep
    obtain rfl : (⟨1, .financeDirector, .organization⟩ : ApprovalStep) = step :=
      Option.some.inj ((show _ = some _ by decide).symm.trans hstep)
    rw [hby] at hrole
    revert hrole
    decide +kernel

end RatelPlatform
