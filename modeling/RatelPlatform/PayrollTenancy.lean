import RatelPlatform.Employees
import RatelPlatform.PeriodLifecycle
import RatelPlatform.WrittenRows

/-!
# Whose employees a payroll pays

Employees, salary structures and payroll runs each carry their organization, and are
joined by an employee id that the client supplies. A new version of a structure is only
made where the version before is one of the user's organization; a first version, and a
payslip, are made for any employee.

As long as first versions and payslips are only made for employees of the user's own
organization, structures and payslips stay within it, and what one organization does makes
no difference to what another can create (`tenants_apart`). The proof compares two stores
in which an organization sees the same (`view`): its commands do the same in both.
-/

namespace RatelPlatform

/-- The organization of the user who gives the command. -/
def PeriodCommand.organizationId : PeriodCommand → Id
  | .open cmd => cmd.organizationId
  | .close cmd => cmd.organizationId
  | .reopen cmd => cmd.organizationId

/-- The organization of the user who gives the command. -/
def PayrollCommand.organizationId : PayrollCommand → Id
  | .create cmd => cmd.organizationId
  | .addPayslip cmd => cmd.organizationId
  | .submit cmd => cmd.organizationId
  | .approve cmd => cmd.organizationId
  | .reject cmd => cmd.organizationId
  | .cancel cmd => cmd.organizationId
  | .process cmd => cmd.organizationId

/-- The organization of the user who gives the command; administrators have none. -/
def Command.organizationId : Command → Option Id
  | .administer _ => none
  | .period cmd => some cmd.organizationId
  | .expense cmd => some cmd.organizationId
  | .payroll cmd => some cmd.organizationId

/-- The organization of a payroll run. -/
def PayrollRunRow.organizationId (row : PayrollRunRow) : Id := row.columns.organizationId

namespace PayrollStore

/-- The organization of the user who gives the command. -/
def Command.organizationId : Command → Option Id
  | .employee cmd => some cmd.organizationId
  | .salaryStructure cmd => some cmd.organizationId
  | .other command => command.organizationId

/-- The command creates an employee, a salary structure, a payroll run or a payslip. -/
def Command.creates : Command → Bool
  | .employee (.create _) => true
  | .salaryStructure _ => true
  | .other (.payroll (.create _)) => true
  | .other (.payroll (.addPayslip _)) => true
  | _ => false

/-- Every salary structure is one of an employee of its organization. -/
def StructuresOwned (d : PayrollStore) : Prop :=
  ∀ s ∈ d.salaryStructures, ∃ employee ∈ d.employees.lookup s.employeeId,
    employee.organizationId = s.organizationId

/-- Every payslip is one of an employee of the organization of its run, and holds a snapshot of
a salary structure of that employee and organization. -/
def PayslipsOwned (d : PayrollStore) : Prop :=
  ∀ id row, d.store.payrollRuns.lookup id = some row → ∀ p ∈ row.payslips,
    (∃ employee ∈ d.employees.lookup p.employeeId,
      employee.organizationId = row.organizationId) ∧
    ∃ s ∈ d.salaryStructures, s.toSnapshot = p.salaryStructureSnapshot ∧
      s.employeeId = p.employeeId ∧ s.organizationId = row.organizationId

/-- What an organization has. -/
structure View where
  employees : Id → Option EmployeeRow
  salaryStructures : List SalaryStructureProps
  financialPeriods : Id → Option FinancialPeriodRow
  payrollRuns : Id → Option PayrollRunRow

/-- What an organization has in a store. -/
def view (d : PayrollStore) (organizationId : Id) : View where
  employees := Table.ofOwner EmployeeRow.organizationId organizationId d.employees
  salaryStructures := d.salaryStructures.filter fun s => s.organizationId = organizationId
  financialPeriods :=
    Table.ofOwner FinancialPeriodRow.organizationId organizationId d.store.financialPeriods
  payrollRuns := Table.ofOwner PayrollRunRow.organizationId organizationId d.store.payrollRuns

/-- What the organization has once the request has created something, unless it fails. -/
def created (d : PayrollStore) (organizationId : Id) (r : Request) : Option View :=
  (d.run r).toOption.map fun d' => d'.view organizationId

/-- No command of one organization changes what another one's payroll can create; `ok` are
the requests that are considered. -/
def Apart (ok : PayrollStore → Request → Prop) (d : PayrollStore) : Prop :=
  ∀ (r r' : Request) (d' : PayrollStore) (organizationId organizationId' : Id),
    next d r = some d' → ok d r → r.command.organizationId = some organizationId →
    r'.command.organizationId = some organizationId' → organizationId ≠ organizationId' →
    r'.command.creates = true → d.Fresh r'.env.uuid → d'.Fresh r'.env.uuid → ok d r' → ok d' r' →
    d'.created organizationId' r' = d.created organizationId' r'

/-- The employee that a first version or a payslip is made for is one of the user's
organization. It does not matter where the request fails in any case: a first version for an
employee who has a structure, a payslip for one who has none. -/
def OwnEmployees (d : PayrollStore) (r : Request) : Prop :=
  match r.command with
  | .salaryStructure (.create cmd) => d.activeStructure cmd.employeeId = none →
      ∀ employee ∈ d.employees.lookup cmd.employeeId,
        employee.organizationId = cmd.organizationId
  | .other (.payroll (.addPayslip cmd)) => d.activeStructure cmd.employeeId ≠ none →
      ∀ employee ∈ d.employees.lookup cmd.employeeId,
        employee.organizationId = cmd.organizationId
  | _ => True

instance (d : PayrollStore) (r : Request) : Decidable (OwnEmployees d r) :=
  match r with
  | ⟨_, .salaryStructure (.create _)⟩ => inferInstanceAs (Decidable (_ → _))
  | ⟨_, .other (.payroll (.addPayslip _))⟩ => inferInstanceAs (Decidable (_ → _))
  | ⟨_, .employee _⟩ | ⟨_, .salaryStructure (.createVersion _)⟩ => isTrue trivial
  | ⟨_, .other (.administer _)⟩ | ⟨_, .other (.period _)⟩ | ⟨_, .other (.expense _)⟩ =>
    isTrue trivial
  | ⟨_, .other (.payroll (.create _))⟩ | ⟨_, .other (.payroll (.submit _))⟩
  | ⟨_, .other (.payroll (.approve _))⟩ | ⟨_, .other (.payroll (.reject _))⟩
  | ⟨_, .other (.payroll (.cancel _))⟩ | ⟨_, .other (.payroll (.process _))⟩ => isTrue trivial

end PayrollStore

/-! ## What a command writes -/

section

variable {env : Env} {d d' : Store} {a : Unit}

/-- A period command writes a period of its organization. -/
theorem PeriodCommand.writes {cmd : PeriodCommand} (hfresh : d.Fresh env.uuid)
    (h : (cmd.program env).solo d = .ok (a, d')) :
    Table.OwnInsert FinancialPeriodRow.organizationId cmd.organizationId d.financialPeriods
      d'.financialPeriods := by
  have hown : ∀ {id : Id} {row row' : FinancialPeriodRow} {organizationId : Id},
      d.financialPeriods.lookup id = some row → row.organizationId = organizationId →
      row'.organizationId = row.organizationId →
      Table.OwnInsert FinancialPeriodRow.organizationId organizationId d.financialPeriods
        (d.financialPeriods.insert id row') := by
    rintro id row row' _ hrow rfl hrow'
    refine ⟨id, row', rfl, hrow', fun old hold => ?_⟩
    obtain rfl := Option.some.inj (hrow.symm.trans hold)
    rfl
  cases cmd with
  | «open» cmd =>
    obtain ⟨_, h⟩ := Tx.solo_discard_ok.mp h
    have hnew := Finmap.lookup_eq_none.mpr hfresh.1
    obtain rfl := openPeriod_ok hnew h
    refine ⟨env.uuid, openedRow env cmd, rfl, rfl, fun old hold => ?_⟩
    cases hnew.symm.trans hold
  | close cmd =>
    obtain ⟨row, hrow, horg, -, rfl⟩ := closePeriod_ok.mp h
    exact hown hrow horg rfl
  | reopen cmd =>
    obtain ⟨row, hrow, horg, -, -, rfl⟩ := (@reopenPeriod_ok env _ _ _ cmd).mp h
    exact hown hrow horg rfl

/-- A payslip that a payroll command adds: it is computed from the salary structure in effect
of the employee that is named. -/
def AddsPayslip (d : Store) (cmd : PayrollCommand) (id : Id) (p : PayslipProps) : Prop :=
  ∃ add s, cmd = .addPayslip add ∧ add.payrollRunId = id ∧
    d.administration.activeStructure add.employeeId = some s ∧ p.employeeId = add.employeeId ∧
    p.salaryStructureSnapshot = s.toSnapshot

/-- A payroll command writes a run of its organization, with the payslips it had and at most
one that is added. -/
theorem PayrollCommand.writes {cmd : PayrollCommand} (hal : d.RecordsAligned)
    (hfresh : d.Fresh env.uuid) (h : (cmd.program env).solo d = .ok (a, d')) :
    ∃ row, d'.payrollRuns = d.payrollRuns.insert (cmd.subject env) row ∧
      row.organizationId = cmd.organizationId ∧
      (∀ old ∈ d.payrollRuns.lookup (cmd.subject env), old.organizationId = cmd.organizationId) ∧
      ∀ p ∈ row.payslips, (∃ old, d.payrollRuns.lookup (cmd.subject env) = some old ∧
        p ∈ old.payslips) ∨ AddsPayslip d cmd (cmd.subject env) p := by
  have hold : ∀ {id : Id} {row : PayrollRunRow} {organizationId : Id},
      d.payrollRuns.lookup id = some row → row.columns.organizationId = organizationId →
      ∀ old ∈ d.payrollRuns.lookup id, old.organizationId = organizationId := by
    rintro id row _ hrow rfl old hold
    obtain rfl := Option.some.inj (hrow.symm.trans hold)
    rfl
  cases cmd with
  | create cmd =>
    obtain ⟨_, h⟩ := Tx.solo_discard_ok.mp h
    have hnew := Finmap.lookup_eq_none.mpr hfresh.2.2.2
    obtain ⟨_, -, rfl⟩ := createPayrollRun_ok hnew h
    refine ⟨_, rfl, rfl, fun old hmem => ?_, by simp⟩
    cases hnew.symm.trans hmem
  | addPayslip cmd =>
    obtain ⟨_, h⟩ := Tx.solo_discard_ok.mp h
    obtain ⟨row, s, payslip, hrow, horg, -, hactive, hgen, -, -, -, -, rfl⟩ :=
      addPayslip_ok_iff.mp h
    refine ⟨_, rfl, horg, hold hrow horg, fun p hp => ?_⟩
    rcases List.mem_append.mp hp with hp | hp
    · exact .inl ⟨row, hrow, hp⟩
    · obtain rfl := List.mem_singleton.mp hp
      exact .inr ⟨cmd, s, rfl, rfl, hactive, (Payslip.generate_ok hgen).1,
        Payslip.generate_snapshot hgen⟩
  | submit cmd =>
    obtain ⟨row, hrow, horg, -, -, -, -, -, rfl⟩ := (@submitPayrollRun_ok env _ _ _ _).mp h
    exact ⟨_, rfl, horg, hold hrow horg, fun p hp => .inl ⟨row, hrow, hp⟩⟩
  | approve cmd =>
    obtain ⟨row, _, _, hrow, horg, -, -, -, -, -, -, -, -, rfl⟩ := (approvePayrollRun_ok hal).mp h
    refine ⟨_, rfl, ?_, hold hrow horg, fun p hp => .inl ⟨row, hrow, ?_⟩⟩
    · split_ifs
      · exact horg
      · exact horg
    · split_ifs at hp
      · exact hp
      · exact hp
  | reject cmd =>
    obtain ⟨row, _, hrow, horg, -, -, -, -, -, rfl⟩ := rejectPayrollRun_ok hal h
    exact ⟨_, rfl, horg, hold hrow horg, fun p hp => .inl ⟨row, hrow, hp⟩⟩
  | cancel cmd =>
    obtain ⟨row, hrow, horg, -, rfl⟩ := (@cancelPayrollRun_ok env _ _ _ _).mp h
    exact ⟨_, rfl, horg, hold hrow horg, fun p hp => .inl ⟨row, hrow, hp⟩⟩
  | process cmd =>
    obtain ⟨row, hrow, horg, -, rfl⟩ := (@processPayrollRun_ok env _ _ _ _).mp h
    exact ⟨_, rfl, horg, hold hrow horg, fun p hp => .inl ⟨row, hrow, hp⟩⟩

end

namespace PayrollStore

variable {env : Env} {d d' : PayrollStore}

@[simp] theorem employees_withEvents (events : List DomainEvent) :
    (d.withEvents events).employees = d.employees := rfl

@[simp] theorem salaryStructures_withEvents (events : List DomainEvent) :
    (d.withEvents events).salaryStructures = d.salaryStructures := rfl

@[simp] theorem payrollRuns_withEvents (events : List DomainEvent) :
    (d.withEvents events).store.payrollRuns = d.store.payrollRuns := rfl

@[simp] theorem employees_withStructures (rows : List SalaryStructureProps) :
    (d.withStructures rows).employees = d.employees := rfl

@[simp] theorem salaryStructures_withStructures (rows : List SalaryStructureProps) :
    (d.withStructures rows).salaryStructures = rows := rfl

@[simp] theorem payrollRuns_withStructures (rows : List SalaryStructureProps) :
    (d.withStructures rows).store.payrollRuns = d.store.payrollRuns := rfl

@[simp] theorem view_withEvents (events : List DomainEvent) (organizationId : Id) :
    (d.withEvents events).view organizationId = d.view organizationId := rfl

@[simp] theorem view_withStructures (rows : List SalaryStructureProps) (organizationId : Id) :
    (d.withStructures rows).view organizationId = { d.view organizationId with
      salaryStructures := rows.filter fun s => s.organizationId = organizationId } := rfl

/-- What a command of another context leaves of the payroll store. -/
structure OtherStep (d : PayrollStore) (env : Env) (command : RatelPlatform.Command)
    (d' : PayrollStore) : Prop where
  employees : d'.employees = d.employees
  salaryStructures : d'.salaryStructures = d.salaryStructures
  periods : d'.store.financialPeriods = d.store.financialPeriods ∨
    ∃ organizationId, command.organizationId = some organizationId ∧
      Table.OwnInsert FinancialPeriodRow.organizationId organizationId d.store.financialPeriods
        d'.store.financialPeriods
  runs : d'.store.payrollRuns = d.store.payrollRuns ∨ ∃ cmd row, command = .payroll cmd ∧
    d'.store.payrollRuns = d.store.payrollRuns.insert (cmd.subject env) row ∧
    row.organizationId = cmd.organizationId ∧
    (∀ old ∈ d.store.payrollRuns.lookup (cmd.subject env),
      old.organizationId = cmd.organizationId) ∧
    ∀ p ∈ row.payslips, (∃ old, d.store.payrollRuns.lookup (cmd.subject env) = some old ∧
      p ∈ old.payslips) ∨ AddsPayslip d.store cmd (cmd.subject env) p

/-- **The commands of the other contexts** leave the employees and the salary structures alone,
and write periods and runs of their own organization. -/
theorem otherStep_of_run {command : RatelPlatform.Command} (hwf : d.store.WellFormed)
    (hfresh : d.store.Fresh env.uuid) (h : d.run ⟨env, .other command⟩ = .ok d') :
    OtherStep d env command d' := by
  obtain ⟨store, hsolo, rfl⟩ := run_other_ok.mp h
  cases command with
  | administer administration =>
    obtain ⟨_, hp, rfl⟩ := Tx.solo_exec_ok.mp hsolo
    cases hp
    exact ⟨rfl, rfl, .inl rfl, .inl rfl⟩
  | period cmd =>
    have hwrites := PeriodCommand.writes hfresh hsolo
    obtain ⟨periods, events, rfl⟩ := PeriodCommand.frame hsolo
    exact ⟨rfl, rfl, .inr ⟨_, rfl, hwrites⟩, .inl rfl⟩
  | expense cmd =>
    obtain ⟨hadministration, hperiods, hruns, -⟩ :=
      ExpenseCommand.frame hwf.aligned hfresh hsolo
    exact ⟨rfl, congrArg Administration.salaryStructures hadministration, .inl hperiods,
      .inl hruns⟩
  | payroll cmd =>
    obtain ⟨hadministration, hperiods, -⟩ := PayrollCommand.frame hwf.aligned
      (fun _ => Finmap.lookup_eq_none.mpr hfresh.2.2.2) hsolo
    obtain ⟨row, hruns⟩ := PayrollCommand.writes hwf.aligned hfresh hsolo
    exact ⟨rfl, congrArg Administration.salaryStructures hadministration, .inl hperiods,
      .inr ⟨cmd, row, rfl, hruns⟩⟩

/-- The store stays well formed. -/
theorem wellFormed_of_run {r : Request} (hwf : d.store.WellFormed)
    (hfresh : d.store.Fresh r.env.uuid) (h : d.run r = .ok d') : d'.store.WellFormed := by
  obtain ⟨env, command⟩ := r
  cases command with
  | employee cmd =>
    obtain ⟨_, _, rfl, -⟩ := EmployeeCommand.frame (run_employee_ok.mp h)
    exact ⟨hwf.aligned, hwf.disjoint⟩
  | salaryStructure cmd =>
    have h := run_salaryStructure_ok.mp h
    cases cmd with
    | create cmd =>
      obtain ⟨_, h⟩ := Tx.solo_discard_ok.mp h
      obtain ⟨-, -, -, -, -, rfl⟩ := createSalaryStructure_ok.mp h
      exact ⟨hwf.aligned, hwf.disjoint⟩
    | createVersion cmd =>
      obtain ⟨_, h⟩ := Tx.solo_discard_ok.mp h
      obtain ⟨_, -, -, -, -, -, -, rfl⟩ := createSalaryStructureVersion_ok.mp h
      exact ⟨hwf.aligned, hwf.disjoint⟩
  | other command =>
    obtain ⟨store, hsolo, rfl⟩ := run_other_ok.mp h
    apply hwf.next (r := ⟨env, command.keeping d.salaryStructures⟩)
    simp only [RatelPlatform.next, if_pos hfresh, hsolo]

/-! ## Structures and payslips stay within an organization -/

/-- What every run in which structures and payslips are made for own employees keeps. -/
structure Owned (d : PayrollStore) : Prop where
  wellFormed : d.store.WellFormed
  ids : (d.salaryStructures.map SalaryStructureProps.id).Nodup
  structures : d.StructuresOwned
  payslips : d.PayslipsOwned

theorem owned_initial (administration : Administration) (users : List Id) :
    (initial administration users).Owned where
  wellFormed := Store.wellFormed_initial _
  ids := List.nodup_nil
  structures := fun _ hs => absurd hs List.not_mem_nil
  payslips := fun _ _ hrow => nomatch hrow

/-- No employee goes away or changes its organization. -/
def KeepsEmployees (d d' : PayrollStore) : Prop :=
  ∀ id row, d.employees.lookup id = some row →
    ∃ row', d'.employees.lookup id = some row' ∧ row'.organizationId = row.organizationId

/-- No salary structure goes away; all that changes is until when it is in effect. -/
def KeepsStructures (d d' : PayrollStore) : Prop :=
  ∀ s ∈ d.salaryStructures, ∃ s' ∈ d'.salaryStructures, s'.toSnapshot = s.toSnapshot ∧
    s'.employeeId = s.employeeId ∧ s'.organizationId = s.organizationId

theorem StructuresOwned.mono (h : d.StructuresOwned) (hemployees : KeepsEmployees d d')
    (hstructures : d'.salaryStructures = d.salaryStructures) : d'.StructuresOwned := by
  intro s hs
  rw [hstructures] at hs
  obtain ⟨employee, hemployee, horg⟩ := h s hs
  obtain ⟨employee', hemployee', horg'⟩ := hemployees _ _ hemployee
  exact ⟨employee', hemployee', horg'.trans horg⟩

theorem PayslipsOwned.mono (h : d.PayslipsOwned) (hemployees : KeepsEmployees d d')
    (hstructures : KeepsStructures d d')
    (hruns : d'.store.payrollRuns = d.store.payrollRuns) : d'.PayslipsOwned := by
  intro id row hrow p hp
  rw [hruns] at hrow
  obtain ⟨⟨employee, hemployee, horg⟩, s, hs, hsnapshot, hof, hsorg⟩ := h id row hrow p hp
  obtain ⟨employee', hemployee', horg'⟩ := hemployees _ _ hemployee
  obtain ⟨s', hs', hsnapshot', hof', hsorg'⟩ := hstructures s hs
  exact ⟨⟨employee', hemployee', horg'.trans horg⟩, s', hs', hsnapshot'.trans hsnapshot,
    hof'.trans hof, hsorg'.trans hsorg⟩

theorem KeepsEmployees.refl (d : PayrollStore) : KeepsEmployees d d :=
  fun _ row hrow => ⟨row, hrow, rfl⟩

theorem KeepsEmployees.of_ownInsert {organizationId : Id}
    (h : Table.OwnInsert EmployeeRow.organizationId organizationId d.employees d'.employees) :
    KeepsEmployees d d' :=
  fun _ _ hrow => h.keeps hrow

theorem KeepsStructures.of_append {s : SalaryStructureProps}
    (h : d'.salaryStructures = d.salaryStructures ++ [s]) : KeepsStructures d d' := by
  intro s' hs'
  exact ⟨s', by simp [h, hs'], rfl, rfl, rfl⟩

theorem KeepsStructures.of_closed {previous s : SalaryStructureProps} {effectiveTo : JsDate}
    (h : d'.salaryStructures = closedRows d previous effectiveTo ++ [s]) :
    KeepsStructures d d' := by
  intro s' hs'
  have hmem : _ ∈ closedRows d previous effectiveTo := List.mem_map_of_mem hs'
  refine ⟨_, by rw [h]; exact List.mem_append_left _ hmem, ?_⟩
  split_ifs
  · exact ⟨rfl, rfl, rfl⟩
  · exact ⟨rfl, rfl, rfl⟩

/-- A first version, for an own employee. -/
theorem Owned.create (h : d.Owned) {cmd : CreateSalaryStructureCommand} {a : Id}
    (hown : d.activeStructure cmd.employeeId = none →
      ∀ employee ∈ d.employees.lookup cmd.employeeId,
        employee.organizationId = cmd.organizationId)
    (hok : (createSalaryStructure env cmd).solo d = .ok (a, d')) : d'.Owned := by
  obtain ⟨hnone, hid, -, hemployee, -, rfl⟩ := createSalaryStructure_ok.mp hok
  refine ⟨⟨h.wellFormed.aligned, h.wellFormed.disjoint⟩, ?_, ?_,
    h.payslips.mono (.refl d) (.of_append rfl) rfl⟩
  · simp only [salaryStructures_withEvents, salaryStructures_withStructures, List.map_append,
      List.map_singleton]
    refine h.ids.append (List.nodup_singleton _) ?_
    rw [List.disjoint_singleton]
    rintro hmem
    obtain ⟨s, hs, heq⟩ := List.mem_map.mp hmem
    exact hid s hs heq
  · intro s hs
    rcases List.mem_append.mp hs with hs | hs
    · exact h.structures s hs
    · obtain rfl := List.mem_singleton.mp hs
      obtain ⟨employee, hrow⟩ := Option.isSome_iff_exists.mp (Finmap.lookup_isSome.mpr hemployee)
      exact ⟨employee, hrow, hown hnone employee hrow⟩

/-- The next version is one of the organization and the employee of the version before. -/
theorem Owned.createVersion (h : d.Owned) {cmd : CreateSalaryStructureVersionCommand} {a : Id}
    (hok : (createSalaryStructureVersion env cmd).solo d = .ok (a, d')) : d'.Owned := by
  obtain ⟨previous, hactive, -, hid, -, -, -, rfl⟩ := createSalaryStructureVersion_ok.mp hok
  refine ⟨⟨h.wellFormed.aligned, h.wellFormed.disjoint⟩, ?_, ?_,
    h.payslips.mono (.refl d) (.of_closed rfl) rfl⟩
  · simp only [salaryStructures_withEvents, salaryStructures_withStructures, List.map_append,
      List.map_singleton, closedRows, SalaryStructureRepository.map_id_writeEffectiveTo]
    refine h.ids.append (List.nodup_singleton _) ?_
    rw [List.disjoint_singleton]
    rintro hmem
    obtain ⟨s, hs, heq⟩ := List.mem_map.mp hmem
    exact hid s hs heq
  · intro s hs
    rcases List.mem_append.mp hs with hs | hs
    · obtain ⟨s₀, hs₀, rfl | ⟨-, rfl⟩⟩ := SalaryStructureRepository.mem_writeEffectiveTo hs
      · exact h.structures s hs₀
      · exact h.structures s₀ hs₀
    · obtain rfl := List.mem_singleton.mp hs
      exact h.structures previous (mem_of_activeStructure hactive).1

/-- A command of another context; a payslip, for an own employee. -/
theorem Owned.other (h : d.Owned) {command : RatelPlatform.Command}
    (hown : OwnEmployees d ⟨env, .other command⟩) (hwf : d'.store.WellFormed)
    (hstep : OtherStep d env command d') : d'.Owned := by
  obtain ⟨hemployees, hstructures, -, hruns⟩ := hstep
  have hkeeps : KeepsEmployees d d' := by
    intro id row hrow
    exact ⟨row, by rw [hemployees, hrow], rfl⟩
  have hkept : KeepsStructures d d' := by
    intro s hs
    exact ⟨s, by rw [hstructures]; exact hs, rfl, rfl, rfl⟩
  refine ⟨hwf, by rw [hstructures]; exact h.ids, h.structures.mono hkeeps hstructures, ?_⟩
  rcases hruns with hruns | ⟨cmd, row, rfl, hruns, horg, hold, hpayslips⟩
  · exact h.payslips.mono hkeeps hkept hruns
  · intro id row' hrow' p hp
    rw [hruns, Table.lookup_insert_ite] at hrow'
    rw [hemployees, hstructures]
    split_ifs at hrow' with hid
    · cases hrow'
      subst hid
      rw [horg]
      rcases hpayslips p hp with ⟨old, hrow, hmem⟩ | ⟨add, s, rfl, -, hactive, hof, hsnapshot⟩
      · rw [← hold old hrow]
        exact h.payslips _ old hrow p hmem
      · obtain ⟨hs, hsof, -⟩ := mem_of_activeStructure (d := d) hactive
        obtain ⟨employee, hemployee, hsorg⟩ := h.structures s hs
        rw [hsof] at hemployee
        have hmine : employee.organizationId = add.organizationId := by
          apply hown _ employee hemployee
          exact fun hnone => nomatch hnone.symm.trans hactive
        rw [hof]
        exact ⟨⟨employee, hemployee, hmine⟩, s, hs, hsnapshot.symm, hsof, hsorg.symm.trans hmine⟩
    · exact h.payslips id row' hrow' p hp

/-- **Every step** in which structures and payslips are made for own employees. -/
theorem Owned.next (h : d.Owned) {r : Request} (hown : OwnEmployees d r)
    (hn : next d r = some d') : d'.Owned := by
  obtain ⟨hfresh, rfl | hrun⟩ := next_cases hn
  · exact h
  have hwf := wellFormed_of_run h.wellFormed hfresh.2.2 hrun
  obtain ⟨env, command⟩ := r
  cases command with
  | employee cmd =>
    obtain ⟨employees, events, rfl, hinsert⟩ := EmployeeCommand.frame (run_employee_ok.mp hrun)
    have hkeeps : KeepsEmployees d (({ d with employees } : PayrollStore).withEvents events) :=
      .of_ownInsert hinsert
    exact ⟨hwf, h.ids, h.structures.mono hkeeps rfl,
      h.payslips.mono hkeeps (fun s hs => ⟨s, hs, rfl, rfl, rfl⟩) rfl⟩
  | salaryStructure cmd =>
    have hok := run_salaryStructure_ok.mp hrun
    cases cmd with
    | create cmd =>
      obtain ⟨_, hok⟩ := Tx.solo_discard_ok.mp hok
      exact h.create hown hok
    | createVersion cmd =>
      obtain ⟨_, hok⟩ := Tx.solo_discard_ok.mp hok
      exact h.createVersion hok
  | other command => exact h.other hown hwf (otherStep_of_run h.wellFormed hfresh.2.2 hrun)

/-! ## What the others see -/

variable {organizationId organizationId' : Id}

/-- Closing a version moves no row to another organization. -/
theorem filter_organization_writeEffectiveTo (props : SalaryStructureProps)
    (rows : List SalaryStructureProps) :
    (SalaryStructureRepository.writeEffectiveTo props rows).filter
      (fun s => s.organizationId = organizationId) =
    SalaryStructureRepository.writeEffectiveTo props
      (rows.filter fun s => s.organizationId = organizationId) :=
  SalaryStructureRepository.filter_writeEffectiveTo (fun _ _ => rfl) props rows

/-- **A request of one organization** leaves what another one has. -/
theorem view_of_run (h : d.Owned) {r : Request} (hfresh : d.Fresh r.env.uuid)
    (hrun : d.run r = .ok d') (horg : r.command.organizationId = some organizationId)
    (hne : organizationId' ≠ organizationId) :
    d'.view organizationId' = d.view organizationId' := by
  obtain ⟨env, command⟩ := r
  cases command with
  | employee cmd =>
    cases horg
    obtain ⟨employees, events, rfl, hinsert⟩ := EmployeeCommand.frame (run_employee_ok.mp hrun)
    simp only [view_withEvents]
    simp only [view, hinsert.ofOwner_ne hne]
    rfl
  | salaryStructure cmd =>
    have hok := run_salaryStructure_ok.mp hrun
    cases cmd with
    | create cmd =>
      cases horg
      obtain ⟨_, hok⟩ := Tx.solo_discard_ok.mp hok
      obtain ⟨-, -, -, -, -, rfl⟩ := createSalaryStructure_ok.mp hok
      have hforeign : (initialVersion env cmd).organizationId ≠ organizationId' := hne.symm
      simp only [view_withEvents, view_withStructures, List.filter_append]
      simp [view, hforeign]
    | createVersion cmd =>
      cases horg
      obtain ⟨_, hok⟩ := Tx.solo_discard_ok.mp hok
      obtain ⟨previous, hactive, horg, -, -, -, -, rfl⟩ := createSalaryStructureVersion_ok.mp hok
      have hforeign : (nextVersion env previous cmd).organizationId ≠ organizationId' := by
        change previous.organizationId ≠ organizationId'
        rw [horg]
        exact hne.symm
      have hclosed : ∀ s ∈ d.salaryStructures.filter fun s => s.organizationId = organizationId',
          s.id ≠ previous.id := by
        intro s hs hid
        obtain ⟨hs, hmine⟩ := List.mem_filter.mp hs
        obtain rfl := List.inj_on_of_nodup_map h.ids hs (mem_of_activeStructure hactive).1 hid
        exact hforeign (of_decide_eq_true hmine)
      simp only [view_withEvents, view_withStructures, List.filter_append, closedRows,
        filter_organization_writeEffectiveTo]
      rw [SalaryStructureRepository.writeEffectiveTo_of_ne (by exact hclosed)]
      simp [view, hforeign]
  | other command =>
    obtain ⟨hemployees, hstructures, hperiods, hruns⟩ :=
      otherStep_of_run h.wellFormed hfresh.2.2 hrun
    have hperiods : Table.ofOwner FinancialPeriodRow.organizationId organizationId'
        d'.store.financialPeriods = Table.ofOwner FinancialPeriodRow.organizationId organizationId'
          d.store.financialPeriods := by
      rcases hperiods with hperiods | ⟨o, ho, hinsert⟩
      · rw [hperiods]
      · cases ho.symm.trans horg
        exact hinsert.ofOwner_ne hne
    have hruns : Table.ofOwner PayrollRunRow.organizationId organizationId' d'.store.payrollRuns =
        Table.ofOwner PayrollRunRow.organizationId organizationId' d.store.payrollRuns := by
      rcases hruns with hruns | ⟨cmd, row, rfl, hruns, hrow, hold, -⟩
      · rw [hruns]
      · cases horg
        apply Table.OwnInsert.ofOwner_ne _ hne
        exact ⟨_, row, hruns, hrow, hold⟩
    simp only [view, hemployees, hstructures, hperiods, hruns]

/-! ## What an organization can create depends on what it sees -/

/-- The version in effect among some rows. -/
def activeAmong (rows : List SalaryStructureProps) (employeeId : Id) :
    Option SalaryStructureProps :=
  ((rows.filter fun s => s.employeeId = employeeId ∧ s.effectiveTo = none).insertionSort
    fun s t => t.version ≤ s.version).head?

/-- The salary structures of an own employee are own ones. -/
theorem Owned.mine (h : d.Owned) {employeeId : Id} {employee : EmployeeRow}
    (hemployee : (d.view organizationId).employees employeeId = some employee)
    {s : SalaryStructureProps} (hs : s ∈ d.salaryStructures) (hof : s.employeeId = employeeId) :
    s.organizationId = organizationId := by
  subst hof
  obtain ⟨hrow, rfl⟩ := Table.ofOwner_eq_some.mp hemployee
  obtain ⟨employee', hrow', horg⟩ := h.structures s hs
  obtain rfl := Option.some.inj (hrow.symm.trans hrow')
  exact horg.symm

theorem activeStructure_view (h : d.Owned) {employeeId : Id} {employee : EmployeeRow}
    (hemployee : (d.view organizationId).employees employeeId = some employee) :
    d.activeStructure employeeId =
      activeAmong (d.view organizationId).salaryStructures employeeId := by
  change activeAmong d.salaryStructures employeeId = _
  simp only [activeAmong, view, List.filter_filter]
  congr 2
  refine List.filter_congr fun s hs => ?_
  by_cases hof : s.employeeId = employeeId
  · simp [hof, h.mine hemployee hs hof]
  · simp [hof]

theorem versionTaken_view (h : d.Owned) {employeeId : Id} {employee : EmployeeRow} {version : ℕ}
    (hemployee : (d.view organizationId).employees employeeId = some employee) :
    SalaryStructureRepository.VersionTaken d employeeId version ↔
      ∃ s ∈ (d.view organizationId).salaryStructures,
        s.employeeId = employeeId ∧ s.version = version := by
  refine ⟨?_, ?_⟩
  · rintro ⟨s, hs, hof, hversion⟩
    exact ⟨s, List.mem_filter.mpr ⟨hs, decide_eq_true (h.mine hemployee hs hof)⟩, hof, hversion⟩
  · rintro ⟨s, hs, hof, hversion⟩
    exact ⟨s, (List.mem_filter.mp hs).1, hof, hversion⟩

theorem openStart_view (id : Id) :
    FinancialPeriodRepository.openStart d.store organizationId id =
      (((d.view organizationId).financialPeriods id).filter fun row =>
        row.status ∈ PeriodStatus.openStatuses).map fun row => row.startDate.ms := by
  simp only [FinancialPeriodRepository.openStart, view, Table.ofOwner]
  rcases d.store.financialPeriods.lookup id with _ | row
  · rfl
  · simp

/-- The periods an organization sees decide which of them is current. -/
theorem currentOpen_view
    (hview : (d'.view organizationId).financialPeriods = (d.view organizationId).financialPeriods)
    (tie : Id) : FinancialPeriodRepository.currentOpen d'.store organizationId tie =
      FinancialPeriodRepository.currentOpen d.store organizationId tie := by
  have hstart : ∀ id, FinancialPeriodRepository.openStart d'.store organizationId id =
      FinancialPeriodRepository.openStart d.store organizationId id := by
    intro id
    rw [openStart_view, openStart_view, hview]
  have hlatest : FinancialPeriodRepository.latestOpen d'.store organizationId =
      FinancialPeriodRepository.latestOpen d.store organizationId := by
    ext id
    simp only [FinancialPeriodRepository.mem_latestOpen_iff, hstart]
  simp only [FinancialPeriodRepository.currentOpen, hlatest]

theorem periodIsOpen_view {periodId : Id} : d.store.PeriodIsOpen organizationId periodId ↔
    ∃ row, (d.view organizationId).financialPeriods periodId = some row ∧
      row.status ∈ PeriodStatus.openStatuses := by
  simp only [view, Table.ofOwner_eq_some]
  refine ⟨?_, ?_⟩
  · rintro ⟨row, hrow, horg, hopen⟩
    exact ⟨row, ⟨hrow, horg⟩, hopen⟩
  · rintro ⟨row, ⟨hrow, horg⟩, hopen⟩
    exact ⟨row, hrow, horg, hopen⟩

theorem monthTaken_view {runMonth : JsDate} :
    PayrollRunRepository.MonthTaken d.store organizationId runMonth ↔
      ∃ id row, (d.view organizationId).payrollRuns id = some row ∧
        row.columns.runMonth = runMonth := by
  simp only [PayrollRunRepository.MonthTaken, Table.mem_keys_iff, Option.any_eq_true,
    decide_eq_true_eq, view, Table.ofOwner_eq_some]
  refine ⟨?_, ?_⟩
  · rintro ⟨id, -, row, hrow, horg, hmonth⟩
    exact ⟨id, row, ⟨hrow, horg⟩, hmonth⟩
  · rintro ⟨id, row, ⟨hrow, horg⟩, hmonth⟩
    exact ⟨id, ⟨row, hrow⟩, row, hrow, horg, hmonth⟩

/-- A run of the organization, as it is stored in every store in which it sees the same. -/
theorem lookup_run_of_view (hview : d'.view organizationId = d.view organizationId) {id : Id}
    {row : PayrollRunRow} (hrow : d.store.payrollRuns.lookup id = some row)
    (horg : row.organizationId = organizationId) : d'.store.payrollRuns.lookup id = some row :=
  Table.lookup_eq_of_ofOwner_eq (congrFun (congrArg View.payrollRuns hview.symm) id) hrow horg

@[simp] theorem view_withEmployees (employees : Table Id EmployeeRow) :
    ({ d with employees } : PayrollStore).view organizationId = { d.view organizationId with
      employees := Table.ofOwner EmployeeRow.organizationId organizationId employees } := rfl

/-- What the request does in one store it does in the other, as far as its organization
sees. -/
def Follows (d d' : PayrollStore) (organizationId : Id) (r : Request) : Prop :=
  ∀ d₁, d.run r = .ok d₁ →
    ∃ d₁', d'.run r = .ok d₁' ∧ d₁'.view organizationId = d₁.view organizationId

theorem follows_createEmployee {cmd : CreateEmployeeCommand}
    (hview : d'.view cmd.organizationId = d.view cmd.organizationId)
    (hfresh : d'.Fresh env.uuid) :
    Follows d d' cmd.organizationId ⟨env, .employee (.create cmd)⟩ := by
  intro d₁ hrun
  obtain ⟨_, hok⟩ := Tx.solo_discard_ok.mp (run_employee_ok.mp hrun)
  obtain ⟨-, -, rfl⟩ := createEmployee_ok.mp hok
  refine ⟨_, run_employee_ok.mpr (Tx.solo_discard_ok.mpr
    ⟨_, createEmployee_ok.mpr ⟨hfresh.1, rfl, rfl⟩⟩), ?_⟩
  have howner : (createdEmployee env cmd).organizationId = cmd.organizationId := rfl
  have hemployees := congrArg View.employees hview
  simp only [view_withEvents, view_withEmployees, Table.ofOwner_insert howner, hview]
  simp only [view] at hemployees
  rw [hemployees]

/-- A first version, for an own employee. -/
theorem follows_createStructure (h : d.Owned) (h' : d'.Owned) {cmd : CreateSalaryStructureCommand}
    (hview : d'.view cmd.organizationId = d.view cmd.organizationId) (hfresh : d'.Fresh env.uuid)
    (hown : OwnEmployees d ⟨env, .salaryStructure (.create cmd)⟩) :
    Follows d d' cmd.organizationId ⟨env, .salaryStructure (.create cmd)⟩ := by
  intro d₁ hrun
  obtain ⟨_, hok⟩ := Tx.solo_discard_ok.mp (run_salaryStructure_ok.mp hrun)
  obtain ⟨hnone, -, hversion, hemployee, -, rfl⟩ := createSalaryStructure_ok.mp hok
  obtain ⟨employee, hrow⟩ := Option.isSome_iff_exists.mp (Finmap.lookup_isSome.mpr hemployee)
  have hmine : (d.view cmd.organizationId).employees cmd.employeeId = some employee :=
    Table.ofOwner_eq_some.mpr ⟨hrow, hown hnone employee hrow⟩
  have hmine' := hmine
  rw [← hview] at hmine'
  have hemployee' : cmd.employeeId ∈ d'.employees :=
    Finmap.mem_of_lookup_eq_some (Table.ofOwner_eq_some.mp hmine').1
  rw [activeStructure_view h hmine, ← hview, ← activeStructure_view h' hmine'] at hnone
  rw [versionTaken_view h hmine, ← hview, ← versionTaken_view h' hmine'] at hversion
  refine ⟨_, run_salaryStructure_ok.mpr (Tx.solo_discard_ok.mpr ⟨_, createSalaryStructure_ok.mpr
    ⟨hnone, hfresh.2.1, hversion, hemployee', rfl, rfl⟩⟩), ?_⟩
  have hstructures := congrArg View.salaryStructures hview
  simp only [view_withEvents, view_withStructures, List.filter_append, hview]
  simp only [view] at hstructures
  rw [hstructures]

theorem follows_createVersion (h : d.Owned) (h' : d'.Owned)
    {cmd : CreateSalaryStructureVersionCommand}
    (hview : d'.view cmd.organizationId = d.view cmd.organizationId) (hfresh : d'.Fresh env.uuid) :
    Follows d d' cmd.organizationId ⟨env, .salaryStructure (.createVersion cmd)⟩ := by
  intro d₁ hrun
  obtain ⟨_, hok⟩ := Tx.solo_discard_ok.mp (run_salaryStructure_ok.mp hrun)
  obtain ⟨previous, hactive, horg, -, hversion, -, -, rfl⟩ :=
    createSalaryStructureVersion_ok.mp hok
  -- the version before is one of the organization, and so is its employee
  obtain ⟨hmem, hof, -⟩ := mem_of_activeStructure hactive
  obtain ⟨employee, hrow, hemployee⟩ := h.structures previous hmem
  have hmine : (d.view cmd.organizationId).employees cmd.employeeId = some employee := by
    rw [← hof]
    exact Table.ofOwner_eq_some.mpr ⟨hrow, hemployee.trans horg⟩
  have hmine' := hmine
  rw [← hview] at hmine'
  have hemployee' : cmd.employeeId ∈ d'.employees :=
    Finmap.mem_of_lookup_eq_some (Table.ofOwner_eq_some.mp hmine').1
  rw [activeStructure_view h hmine, ← hview, ← activeStructure_view h' hmine'] at hactive
  rw [hof, versionTaken_view h hmine, ← hview, ← versionTaken_view h' hmine'] at hversion
  refine ⟨_, run_salaryStructure_ok.mpr (Tx.solo_discard_ok.mpr
    ⟨_, createSalaryStructureVersion_ok.mpr ⟨previous, hactive, horg, hfresh.2.1, ?_, ?_, rfl,
      rfl⟩⟩), ?_⟩
  · rw [hof]
    exact hversion
  · rw [hof]
    exact hemployee'
  · have hstructures := congrArg View.salaryStructures hview
    simp only [view_withEvents, view_withStructures, List.filter_append, closedRows,
      filter_organization_writeEffectiveTo, hview]
    simp only [view] at hstructures
    rw [hstructures]

@[simp] theorem view_withRuns (payrollRuns : Table Id PayrollRunRow) (outbox : List DomainEvent) :
    ({ d with store := { d.store with payrollRuns, outbox } } : PayrollStore).view organizationId =
      { d.view organizationId with
        payrollRuns :=
          Table.ofOwner PayrollRunRow.organizationId organizationId payrollRuns } := rfl

theorem follows_createRun {cmd : CreatePayrollRunCommand}
    (hview : d'.view cmd.organizationId = d.view cmd.organizationId) (hfresh : d.Fresh env.uuid)
    (hfresh' : d'.Fresh env.uuid) :
    Follows d d' cmd.organizationId ⟨env, .other (.payroll (.create cmd))⟩ := by
  intro d₁ hrun
  obtain ⟨store, hsolo, rfl⟩ := run_other_ok.mp hrun
  obtain ⟨_, hok⟩ := Tx.solo_discard_ok.mp hsolo
  have hnone := Finmap.lookup_eq_none.mpr hfresh.2.2.2.2.2
  have hnone' := Finmap.lookup_eq_none.mpr hfresh'.2.2.2.2.2
  obtain ⟨periodId, hopen, hmonth, -, rfl⟩ := (createPayrollRun_ok_iff hnone).mp hok
  rw [← currentOpen_view (congrArg View.financialPeriods hview)] at hopen
  rw [monthTaken_view, ← hview, ← monthTaken_view] at hmonth
  refine ⟨_, run_other_ok.mpr ⟨_, Tx.solo_discard_ok.mpr
    ⟨_, (createPayrollRun_ok_iff hnone').mpr ⟨periodId, hopen, hmonth, rfl, rfl⟩⟩, rfl⟩, ?_⟩
  have howner : (createdRun env cmd periodId).organizationId = cmd.organizationId := rfl
  have hruns := congrArg View.payrollRuns hview
  simp only [view_withRuns, Table.ofOwner_insert howner, hview]
  simp only [view] at hruns
  rw [hruns]

/-- A payslip, for an own employee. -/
theorem follows_addPayslip (h : d.Owned) (h' : d'.Owned) {cmd : AddPayslipCommand}
    (hview : d'.view cmd.organizationId = d.view cmd.organizationId)
    (hown : OwnEmployees d ⟨env, .other (.payroll (.addPayslip cmd))⟩) :
    Follows d d' cmd.organizationId ⟨env, .other (.payroll (.addPayslip cmd))⟩ := by
  intro d₁ hrun
  obtain ⟨store, hsolo, rfl⟩ := run_other_ok.mp hrun
  obtain ⟨_, hok⟩ := Tx.solo_discard_ok.mp hsolo
  obtain ⟨row, s, payslip, hrow, horg, hopen, hactive, hgen, hdraft, hnew, hinsertable, -, rfl⟩ :=
    addPayslip_ok_iff.mp hok
  have hactive : d.activeStructure cmd.employeeId = some s := hactive
  obtain ⟨hmem, hof, -⟩ := mem_of_activeStructure hactive
  obtain ⟨employee, hemployee, -⟩ := h.structures s hmem
  rw [hof] at hemployee
  have hsome : d.activeStructure cmd.employeeId ≠ none := by simp [hactive]
  have hmine : (d.view cmd.organizationId).employees cmd.employeeId = some employee :=
    Table.ofOwner_eq_some.mpr ⟨hemployee, hown hsome employee hemployee⟩
  have hmine' := hmine
  rw [← hview] at hmine'
  rw [activeStructure_view h hmine, ← hview, ← activeStructure_view h' hmine'] at hactive
  rw [periodIsOpen_view, ← hview, ← periodIsOpen_view] at hopen
  have hrow' := lookup_run_of_view hview hrow horg
  refine ⟨_, run_other_ok.mpr ⟨_, Tx.solo_discard_ok.mpr ⟨_, addPayslip_ok_iff.mpr
    ⟨row, s, payslip, hrow', horg, hopen, hactive, hgen, hdraft, hnew, hinsertable, rfl, rfl⟩⟩,
    rfl⟩, ?_⟩
  have howner : ({ row with
      payslips := row.payslips ++ [payslip] } : PayrollRunRow).organizationId =
      cmd.organizationId := horg
  have hruns := congrArg View.payrollRuns hview
  simp only [view_withRuns, Table.ofOwner_insert howner, hview]
  simp only [view] at hruns
  rw [hruns]

/-- **What an organization can create** depends on what it sees. -/
theorem follows_of_creates (h : d.Owned) (h' : d'.Owned) {r : Request}
    (horg : r.command.organizationId = some organizationId) (hcreates : r.command.creates = true)
    (hview : d'.view organizationId = d.view organizationId) (hfresh : d.Fresh r.env.uuid)
    (hfresh' : d'.Fresh r.env.uuid) (hown : OwnEmployees d r) : Follows d d' organizationId r := by
  obtain ⟨env, command⟩ := r
  cases command with
  | employee cmd =>
    cases cmd with
    | create cmd =>
      cases horg
      exact follows_createEmployee hview hfresh'
    | link | unlink | deactivate => cases hcreates
  | salaryStructure cmd =>
    cases cmd with
    | create cmd =>
      cases horg
      exact follows_createStructure h h' hview hfresh' hown
    | createVersion cmd =>
      cases horg
      exact follows_createVersion h h' hview hfresh'
  | other command =>
    cases command with
    | administer | period | expense => cases hcreates
    | payroll cmd =>
      cases cmd with
      | create cmd =>
        cases horg
        exact follows_createRun hview hfresh hfresh'
      | addPayslip cmd =>
        cases horg
        exact follows_addPayslip h h' hview hown
      | submit | approve | reject | cancel | process => cases hcreates

theorem created_eq_some {r : Request} {v : View} : d.created organizationId r = some v ↔
    ∃ d', d.run r = .ok d' ∧ d'.view organizationId = v := by
  simp only [created]
  rcases d.run r with e | d'
  · simp [Except.toOption]
  · simp [Except.toOption]

theorem Owned.apart (h : d.Owned) : d.Apart OwnEmployees := by
  intro r r' d' organizationId organizationId' hn hown horg horg' hne hcreates hfresh hfresh' hok
    hok'
  obtain ⟨hfresh₀, rfl | hrun⟩ := next_cases hn
  · rfl
  have h' := h.next hown hn
  have hview := view_of_run h hfresh₀ hrun horg hne.symm
  ext v
  simp only [created_eq_some]
  refine ⟨?_, ?_⟩
  · rintro ⟨d₁, hrun₁, rfl⟩
    exact follows_of_creates h' h horg' hcreates hview.symm hfresh' hfresh hok' d₁ hrun₁
  · rintro ⟨d₁, hrun₁, rfl⟩
    exact follows_of_creates h h' horg' hcreates hview hfresh hfresh' hok d₁ hrun₁

/-- **Organizations are apart**: in every run in which first versions and payslips are made for
employees of the user's own organization, structures and payslips stay within it, and no
command of one organization changes what another can create. -/
theorem tenants_apart {administration : Administration} {users : List Id} {rs : List Request}
    (hr : Reaches next OwnEmployees (initial administration users) rs d) :
    d.StructuresOwned ∧ d.PayslipsOwned ∧ d.Apart OwnEmployees := by
  have h : d.Owned := hr.invariant (owned_initial administration users)
    fun _ _ _ h hown hn => h.next hown hn
  exact ⟨h.structures, h.payslips, h.apart⟩

end PayrollStore

namespace Sample

/-- A request at noon that draws the id `uuid`. -/
def payrollRequest (uuid : Id) (command : PayrollStore.Command) : PayrollStore.Request :=
  ⟨⟨noon, uuid, 0⟩, command⟩

/-- The organization 1 hires the employee 40. -/
def hire : PayrollStore.Request := payrollRequest 40 (.employee (.create ⟨1, "Ada"⟩))

/-- The organization makes a first version of the salary structure of 40. -/
def firstVersion (uuid organizationId : Id) : PayrollStore.Request :=
  payrollRequest uuid (.salaryStructure (.create
    ⟨organizationId, 40, noon, [⟨.allowance, "Basic", ⟨500000, .NGN⟩⟩]⟩))

/-- The organization opens the period of January, creates its run and adds a payslip of 40. -/
def paysJanuary (organizationId : Id) : List PayrollStore.Request :=
  [payrollRequest 200 (.other (.period (.open
      ⟨organizationId, noon.day, ⟨2246400000, by decide⟩⟩))),
    payrollRequest 201 (.other (.payroll (.create ⟨organizationId, noon, 15⟩))),
    payrollRequest 202 (.other (.payroll (.addPayslip ⟨201, organizationId, 40, []⟩)))]

/-- The organization 2 hires the employee 50, makes a first version of the salary structure, opens
the period of January, creates its run and adds a payslip of 50. -/
def secondPayroll : List PayrollStore.Request :=
  [payrollRequest 50 (.employee (.create ⟨2, "Grace"⟩)),
    payrollRequest 51 (.salaryStructure (.create
      ⟨2, 50, noon, [⟨.allowance, "Basic", ⟨400000, .NGN⟩⟩]⟩)),
    payrollRequest 210 (.other (.period (.open ⟨2, noon.day, nextMonth⟩))),
    payrollRequest 211 (.other (.payroll (.create ⟨2, noon, 16⟩))),
    payrollRequest 212 (.other (.payroll (.addPayslip ⟨211, 2, 50, []⟩)))]

/-- Two organizations pay an employee each. -/
def twoPayrolls : List PayrollStore.Request :=
  hire :: firstVersion 41 1 :: (secondPayroll ++ paysJanuary 1)

end Sample

namespace PayrollStore

/-- The runs of the two organizations have a payslip each, of their own employee. -/
theorem tenants_apart_sample : ∃ d, Reaches next OwnEmployees (initial Sample.administration [])
    Sample.twoPayrolls d ∧
      ([201, 211].map fun id => (d.store.payrollRuns.lookup id).map fun row =>
        (row.columns.organizationId, row.payslips.map PayslipProps.employeeId)) =
        [some (1, [40]), some (2, [50])] ∧
      d.StructuresOwned ∧ d.PayslipsOwned ∧ d.Apart OwnEmployees := by
  have hrun : (runLabels (fun d r => if decide (OwnEmployees d r) = true then next d r else none)
      (initial Sample.administration []) Sample.twoPayrolls).map
        (fun d => [201, 211].map fun id => (d.store.payrollRuns.lookup id).map fun row =>
          (row.columns.organizationId, row.payslips.map PayslipProps.employeeId)) =
          some [some (1, [40]), some (2, [50])] := by
    decide +kernel
  obtain ⟨d, hd, hpaid⟩ := Option.map_eq_some_iff.mp hrun
  have hr := reaches_of_checked_inv (I := fun _ => True) trivial (fun _ _ _ _ _ _ => trivial)
    (fun _ _ _ => of_decide_eq_true) hd
  exact ⟨d, hr, hpaid, tenants_apart hr⟩

/-- **Organizations are mixed**: a salary structure, and a payslip, is made for an employee of
another organization; and the structure keeps the employee's own organization from making
one. -/
theorem tenants_mixed :
    (¬ ∀ (administration : Administration) (users : List Id) (rs : List Request) (d : PayrollStore),
      Reaches next (fun _ _ => True) (initial administration users) rs d → d.StructuresOwned) ∧
    (¬ ∀ (administration : Administration) (users : List Id) (rs : List Request) (d : PayrollStore),
      Reaches next (fun _ _ => True) (initial administration users) rs d → d.PayslipsOwned) ∧
    ¬ ∀ (administration : Administration) (users : List Id) (rs : List Request) (d : PayrollStore),
      Reaches next (fun _ _ => True) (initial administration users) rs d →
        d.Apart fun _ _ => True := by
  refine ⟨fun hall => ?_, fun hall => ?_, fun hall => ?_⟩
  · -- the organization 2 makes a structure for the employee of 1
    have hrun : (runLabels next (initial Sample.administration [])
        [Sample.hire, Sample.firstVersion 41 2]).map (fun d => d.salaryStructures.any fun s =>
          (d.employees.lookup s.employeeId).any fun employee =>
            employee.organizationId ≠ s.organizationId) = some true := by
      decide +kernel
    obtain ⟨d, hd, hforeign⟩ := Option.map_eq_some_iff.mp hrun
    obtain ⟨s, hs, hforeign⟩ := List.any_eq_true.mp hforeign
    obtain ⟨employee, hrow, hne⟩ := (Option.any_eq_true _ _).mp hforeign
    obtain ⟨employee', hrow', heq⟩ := hall _ _ _ d (reaches_of_runLabels hd) s hs
    obtain rfl := Option.some.inj (hrow.symm.trans hrow')
    exact of_decide_eq_true hne heq
  · -- the organization 2 pays the employee of 1
    have hrun : (runLabels next (initial Sample.administration [])
        (Sample.hire :: Sample.firstVersion 41 1 :: Sample.paysJanuary 2)).map (fun d =>
          (d.store.payrollRuns.lookup 201).any fun row => row.payslips.any fun p =>
            (d.employees.lookup p.employeeId).any fun employee =>
              employee.organizationId ≠ row.organizationId) = some true := by
      decide +kernel
    obtain ⟨d, hd, hforeign⟩ := Option.map_eq_some_iff.mp hrun
    obtain ⟨row, hrow, hforeign⟩ := (Option.any_eq_true _ _).mp hforeign
    obtain ⟨p, hp, hforeign⟩ := List.any_eq_true.mp hforeign
    obtain ⟨employee, hemployee, hne⟩ := (Option.any_eq_true _ _).mp hforeign
    obtain ⟨⟨employee', hemployee', heq⟩, -⟩ :=
      hall _ _ _ d (reaches_of_runLabels hd) 201 row hrow p hp
    obtain rfl := Option.some.inj (hemployee.symm.trans hemployee')
    exact of_decide_eq_true hne heq
  · -- 1 can make a structure for its employee until 2 makes one
    have hrun : (runLabels next (initial Sample.administration []) [Sample.hire]).map (fun d =>
        ((next d (Sample.firstVersion 41 2)).map fun d' =>
          (d.created 1 (Sample.firstVersion 42 1)).isSome &&
            (d'.created 1 (Sample.firstVersion 42 1)).isNone && decide (d.Fresh 42) &&
            decide (d'.Fresh 42))) = some (some true) := by
      decide +kernel
    obtain ⟨d, hd, hnext⟩ := Option.map_eq_some_iff.mp hrun
    obtain ⟨d', hd', hfacts⟩ := Option.map_eq_some_iff.mp hnext
    simp only [Bool.and_eq_true, decide_eq_true_eq] at hfacts
    obtain ⟨⟨⟨hsome, hnone⟩, hfresh⟩, hfresh'⟩ := hfacts
    have hsame := hall _ _ _ d (reaches_of_runLabels hd) (Sample.firstVersion 41 2)
      (Sample.firstVersion 42 1) d' 2 1 hd' trivial rfl rfl (by decide) rfl hfresh hfresh' trivial
      trivial
    rw [← hsame, Option.isSome_iff_ne_none] at hsome
    exact hsome (Option.isNone_iff_eq_none.mp hnone)

end PayrollStore

end RatelPlatform
