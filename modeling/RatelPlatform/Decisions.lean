import RatelPlatform.ExpenseRows

/-!
# What a step decides

Expenses and payroll runs share one table of decisions. Whatever a request does,
the decisions on an item stay as they are, or the request is an approval or a
rejection of that item and adds one: admitted by the engine, so by someone who did
not ask for the item and who holds the role of the current step (`records_next`).
-/

namespace RatelPlatform

/-- What the engine knows of an item. -/
structure Item where
  organizationId : Id
  departmentId : Option Id
  requesterId : Id
  deriving DecidableEq

/-- An expense as an item. -/
def ExpenseRow.item (row : ExpenseRow) : Item :=
  ⟨row.organizationId, some row.departmentId, row.source.actorId⟩

/-- A payroll run as an item. -/
def PayrollRunRow.item (row : PayrollRunRow) : Item :=
  ⟨row.columns.organizationId, none, row.columns.createdById⟩

/-- The item with an id, whichever table it is in. -/
def Store.HasItem (d : Store) (id : Id) (item : Item) : Prop :=
  (∃ row, d.expenses.lookup id = some row ∧ item = row.item) ∨
    ∃ row, d.payrollRuns.lookup id = some row ∧ item = row.item

/-- The command approves or rejects an item. -/
inductive Command.Decides (id organizationId approverId : Id) : Command → Prop
  | approveExpense : Decides id organizationId approverId
      (.expense (.approve ⟨id, organizationId, approverId⟩))
  | rejectExpense (reason : String) : Decides id organizationId approverId
      (.expense (.reject ⟨id, organizationId, approverId, reason⟩))
  | approveRun : Decides id organizationId approverId
      (.payroll (.approve ⟨id, organizationId, approverId⟩))
  | rejectRun (reason : String) : Decides id organizationId approverId
      (.payroll (.reject ⟨id, organizationId, approverId, reason⟩))

/-- The request may record the decision on an item. -/
structure Admits (d : Store) (request : Request) (id : Id) (item : Item)
    (prow : ApprovalProgressRow) (r : ApprovalRecord) : Prop where
  command : request.command.Decides id item.organizationId r.approverId
  stored : d.HasItem id item
  progress : d.approvalProgress.lookup id = some prow
  order : r.stepOrder = prow.records.length + 1
  other : item.requesterId ≠ r.approverId
  role : ∀ step, (ApprovalChain.of prow.chain).stepAt r.stepOrder = some step →
    HoldsRequiredRole step item.departmentId (d.administration.rolesOf r.approverId)

variable {administration : Administration} {rs : List Request} {d d' : Store} {id : Id}
  {request : Request}

theorem recordsOf_congr (h : d'.approvalProgress.lookup id = d.approvalProgress.lookup id) :
    d'.recordsOf id = d.recordsOf id := by
  rw [Store.recordsOf, h, Store.recordsOf]

theorem recordsOf_eq {prow : ApprovalProgressRow} (h : d.approvalProgress.lookup id = some prow) :
    d.recordsOf id = prow.records := by
  rw [Store.recordsOf, h]
  rfl

/-- A progress that is started has no decisions, and had none before. -/
theorem recordsOf_started {prow : ApprovalProgressRow} (hnone : d.approvalProgress.lookup id = none)
    (hrecords : prow.records = [])
    (h : d'.approvalProgress = d.approvalProgress.insert id prow) :
    d'.recordsOf id = d.recordsOf id := by
  rw [Store.recordsOf, h, Finmap.lookup_insert, Store.recordsOf, hnone]
  exact hrecords

/-- A decision more. -/
theorem recordsOf_decided {prow : ApprovalProgressRow} {r : ApprovalRecord}
    (hprow : d.approvalProgress.lookup id = some prow)
    (h : d'.approvalProgress = d.decided id prow r) : d'.recordsOf id = d.recordsOf id ++ [r] := by
  rw [Store.recordsOf, h, Store.decided, Finmap.lookup_insert, recordsOf_eq hprow]
  rfl

/-- What a request does to the decisions on an item. -/
def Records (d : Store) (request : Request) (d' : Store) (id : Id) : Prop :=
  d'.recordsOf id = d.recordsOf id ∨
    ∃ item prow r, Admits d request id item prow r ∧ d'.recordsOf id = d.recordsOf id ++ [r]

/-- The expense commands. -/
theorem ExpenseCommand.records {env : Env} {cmd : ExpenseCommand} {a : Unit}
    (hal : d.RecordsAligned) (hfresh : d.Fresh env.uuid)
    (h : (cmd.program env).solo d = .ok (a, d')) :
    Records d ⟨env, .expense cmd⟩ d' (cmd.subject env) := by
  have hnew := Finmap.lookup_eq_none.mpr hfresh.2.1
  cases cmd with
  | create cmd =>
    obtain ⟨_, h⟩ := Tx.solo_discard_ok.mp h
    obtain ⟨_, _, -, -, -, -, -, -, rfl⟩ := createExpense_ok hnew h
    exact .inl rfl
  | submit cmd =>
    obtain ⟨_, -, -, -, -, hnone, hd'⟩ := submitExpense_ok h
    exact .inl (recordsOf_started hnone rfl (congrArg Store.approvalProgress hd'))
  | approve cmd =>
    obtain ⟨row, prow, step, hrow, horg, -, hprow, hself, -, hstep, hrole, -, hd'⟩ :=
      approveExpense_ok hal h
    refine .inr ⟨row.item, prow, approvalOf env cmd prow, ⟨?_, .inl ⟨row, hrow, rfl⟩, hprow, rfl,
      hself, fun s hs => ?_⟩, recordsOf_decided hprow (congrArg Store.approvalProgress hd')⟩
    · rw [ExpenseRow.item, horg]
      exact .approveExpense
    · obtain rfl := Option.some.inj (hstep.symm.trans hs)
      exact hrole
  | reject cmd =>
    obtain ⟨row, prow, hrow, horg, -, hprow, hself, -, hrole, hd'⟩ := rejectExpense_ok hal h
    refine .inr ⟨row.item, prow, rejectionOf env cmd prow, ⟨?_, .inl ⟨row, hrow, rfl⟩, hprow, rfl,
      hself, hrole⟩, recordsOf_decided hprow (congrArg Store.approvalProgress hd')⟩
    rw [ExpenseRow.item, horg]
    exact .rejectExpense _
  | cancel cmd =>
    obtain ⟨_, -, -, -, -, rfl⟩ := cancelExpense_ok h
    exact .inl rfl
  | createAdjustment cmd =>
    obtain ⟨_, h⟩ := Tx.solo_discard_ok.mp h
    obtain ⟨_, _, _, _, -, -, -, -, -, -, -, hd'⟩ := createAdjustment_ok hnew h
    have hprogress := congrArg Store.approvalProgress hd'
    simp only at hprogress
    split_ifs at hprogress
    · exact .inl (recordsOf_started (Finmap.lookup_eq_none.mpr hfresh.2.2.1) rfl hprogress)
    · refine .inl (recordsOf_congr ?_)
      rw [hprogress]

/-- The payroll commands. -/
theorem PayrollCommand.records {env : Env} {cmd : PayrollCommand} {a : Unit}
    (hal : d.RecordsAligned) (hfresh : d.Fresh env.uuid)
    (h : (cmd.program env).solo d = .ok (a, d')) :
    Records d ⟨env, .payroll cmd⟩ d' (cmd.subject env) := by
  cases cmd with
  | create cmd =>
    obtain ⟨_, h⟩ := Tx.solo_discard_ok.mp h
    obtain ⟨_, -, rfl⟩ := createPayrollRun_ok (Finmap.lookup_eq_none.mpr hfresh.2.2.2) h
    exact .inl rfl
  | addPayslip cmd =>
    obtain ⟨_, h⟩ := Tx.solo_discard_ok.mp h
    obtain ⟨_, _, -, -, -, -, -, -, rfl⟩ := addPayslip_ok h
    exact .inl rfl
  | submit cmd =>
    obtain ⟨_, -, -, -, -, -, -, hnone, hd'⟩ := (@submitPayrollRun_ok env _ _ _ _).mp h
    exact .inl (recordsOf_started hnone rfl (congrArg Store.approvalProgress hd'))
  | approve cmd =>
    obtain ⟨row, prow, step, hrow, horg, -, hprow, -, hself, -, hstep, hrole, -, hd'⟩ :=
      (approvePayrollRun_ok hal).mp h
    refine .inr ⟨row.item, prow, payrollApprovalOf env cmd prow, ⟨?_, .inr ⟨row, hrow, rfl⟩, hprow,
      rfl, hself, fun s hs => ?_⟩, recordsOf_decided hprow (congrArg Store.approvalProgress hd')⟩
    · rw [PayrollRunRow.item, horg]
      exact .approveRun
    · obtain rfl := Option.some.inj (hstep.symm.trans hs)
      exact hrole
  | reject cmd =>
    obtain ⟨row, prow, hrow, horg, -, hprow, hself, -, hrole, hd'⟩ := rejectPayrollRun_ok hal h
    refine .inr ⟨row.item, prow, payrollRejectionOf env cmd prow, ⟨?_, .inr ⟨row, hrow, rfl⟩, hprow,
      rfl, hself, hrole⟩, recordsOf_decided hprow (congrArg Store.approvalProgress hd')⟩
    rw [PayrollRunRow.item, horg]
    exact .rejectRun _
  | cancel cmd =>
    obtain ⟨_, -, -, -, rfl⟩ := (@cancelPayrollRun_ok env _ _ _ _).mp h
    exact .inl rfl
  | process cmd =>
    obtain ⟨_, -, -, -, rfl⟩ := (@processPayrollRun_ok env _ _ _ _).mp h
    exact .inl rfl

/-- **A step leaves the decisions on an item alone, or adds one that the engine
admits.** -/
theorem records_next (hwf : d.WellFormed) (hn : next d request = some d') (id : Id) :
    Records d request d' id := by
  obtain ⟨hfresh, ⟨-, rfl⟩ | h⟩ := next_cases hn
  · exact .inl rfl
  obtain ⟨env, command⟩ := request
  cases command with
  | administer a =>
    obtain ⟨_, hp, rfl⟩ := Tx.solo_exec_ok.mp h
    cases hp
    exact .inl rfl
  | period cmd =>
    obtain ⟨_, _, rfl⟩ := PeriodCommand.frame h
    exact .inl rfl
  | expense cmd =>
    obtain ⟨-, -, -, -, -, hprogress⟩ := ExpenseCommand.frame hwf.aligned hfresh h
    by_cases hid : id = cmd.subject env
    · rw [hid]
      exact ExpenseCommand.records hwf.aligned hfresh h
    · exact .inl (recordsOf_congr (hprogress.lookup_ne hid))
  | payroll cmd =>
    obtain ⟨-, -, -, -, -, hprogress⟩ :=
      PayrollCommand.frame hwf.aligned (fun _ => Finmap.lookup_eq_none.mpr hfresh.2.2.2) h
    by_cases hid : id = cmd.subject env
    · rw [hid]
      exact PayrollCommand.records hwf.aligned hfresh h
    · exact .inl (recordsOf_congr (hprogress.lookup_ne hid))

end RatelPlatform
