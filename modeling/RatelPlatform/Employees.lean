import RatelPlatform.Commands
import RatelPlatform.Ownership

/-!
# Employees and their salary structures

The employees of the organizations, the versions of their salary structures, and the
commands that maintain them. A salary structure and a payslip refer to their employee by
id alone, and the structure a payslip is computed from is looked up by that id alone.

With the commands of the other contexts they make one machine on the payroll store.
-/

namespace RatelPlatform

/-! ## Rows -/

/-- The store with the employees, and the users they may be linked to. -/
structure PayrollStore where
  users : List Id
  employees : Table Id EmployeeRow
  store : Store

/-- A row, or the key of a unique index, that a statement locks. -/
inductive PayrollLock where
  | employee (id : Id)
  | employeeUser (userId : Id)
  | salaryStructure (id : Id)
  | salaryStructureVersion (employeeId : Id) (version : ℕ)
  deriving DecidableEq

/-- Transactions on the payroll store. -/
abbrev PayrollTx := Tx PayrollStore PayrollLock Failure

namespace PayrollStore

/-- The versions of all salary structures. -/
def salaryStructures (d : PayrollStore) : List SalaryStructureProps :=
  d.store.administration.salaryStructures

/-- The versions of the employee's salary structure. -/
def structuresOf (d : PayrollStore) (employeeId : Id) : List SalaryStructureProps :=
  d.salaryStructures.filter fun s => s.employeeId = employeeId

/-- The version of the employee's salary structure that is in effect. -/
def activeStructure (d : PayrollStore) (employeeId : Id) : Option SalaryStructureProps :=
  d.store.administration.activeStructure employeeId

/-- The version in effect is one of the employee, and not closed. -/
theorem mem_of_activeStructure {d : PayrollStore} {employeeId : Id} {s : SalaryStructureProps}
    (h : d.activeStructure employeeId = some s) :
    s ∈ d.salaryStructures ∧ s.employeeId = employeeId ∧ s.effectiveTo = none := by
  have hmem := (List.mem_insertionSort _).mp (List.mem_of_head? h)
  obtain ⟨hmem, hactive⟩ := List.mem_filter.mp hmem
  exact ⟨hmem, of_decide_eq_true hactive⟩

/-- The store with other salary structures. -/
def withStructures (d : PayrollStore) (salaryStructures : List SalaryStructureProps) :
    PayrollStore :=
  { d with store := { d.store with
    administration := { d.store.administration with salaryStructures } } }

/-- The store with more events in the outbox. -/
def withEvents (d : PayrollStore) (events : List DomainEvent) : PayrollStore :=
  { d with store := { d.store with outbox := d.store.outbox ++ events } }

/-- `OutboxService.enqueue` -/
def enqueueEvents (events : List DomainEvent) : PayrollTx Unit :=
  if events = [] then pure ()
  else .exec (fun _ => []) fun _ => pure fun d => d.withEvents events

theorem enqueueEvents_ok {events : List DomainEvent} {d d' : PayrollStore} {a : Unit} :
    (enqueueEvents events).solo d = .ok (a, d') ↔ d' = d.withEvents events := by
  simp only [enqueueEvents]
  split_ifs with h
  · have hsame : d.withEvents events = d := by simp [h, withEvents]
    simp [hsame, eq_comm]
  · simp only [Tx.solo_exec_ok, except_pure_ok, exists_eq_left]

/-! ## Employees -/

/-- An employee of the organization. -/
def findEmployee (employeeId organizationId : Id) : PayrollTx EmployeeRow := do
  let employee ← .select fun d =>
    (d.employees.lookup employeeId).filter fun row => row.organizationId = organizationId
  .orFail employee (.domain (.entityNotFound "Employee" employeeId))

theorem findEmployee_ok {employeeId organizationId : Id} {d d' : PayrollStore}
    {row : EmployeeRow} :
    (findEmployee employeeId organizationId).solo d = .ok (row, d') ↔
      (d.employees.lookup employeeId = some row ∧ row.organizationId = organizationId) ∧
        d' = d := by
  simp [findEmployee, Tx.solo_orFail_ok, Option.filter_eq_some_iff]

/-- Another employee is linked to the user. -/
def LinkedElsewhere (d : PayrollStore) (userId employeeId : Id) : Prop :=
  ∃ id ∈ d.employees.keys, id ≠ employeeId ∧
    (d.employees.lookup id).any fun row => row.userId = some userId

instance (d : PayrollStore) (userId employeeId : Id) :
    Decidable (d.LinkedElsewhere userId employeeId) :=
  inferInstanceAs (Decidable (∃ id ∈ d.employees.keys, _))

/-- `employee.create` -/
def insertEmployee (id : Id) (row : EmployeeRow) : PayrollTx Unit :=
  .exec (fun _ => [.employee id]) fun d => do
    ensure (id ∉ d.employees) (.database "employees_pkey")
    pure fun d => { d with employees := d.employees.insert id row }

/-- `employee.update` -/
def updateEmployee (id : Id) (data : EmployeeRow → EmployeeRow) : PayrollTx Unit :=
  .exec (fun _ => [.employee id]) fun _ =>
    pure fun d => { d with employees := Table.update d.employees id data }

/-- `employee.update`, of the user: unique, and a foreign key. -/
def linkEmployee (id userId : Id) : PayrollTx Unit :=
  .exec (fun _ => [.employee id, .employeeUser userId]) fun d => do
    ensure (¬ d.LinkedElsewhere userId id) (.database "employees_user_id_key")
    ensure (userId ∈ d.users) (.database "employees_user_id_fkey")
    pure fun d => { d with
      employees := Table.update d.employees id fun row => { row with userId := some userId } }

end PayrollStore

/-- `referenceDataCreated` -/
def referenceDataCreated (type : String) (id organizationId : Id) (name : String) : DomainEvent :=
  ⟨type ++ "Created", type, id, [("organizationId", .id organizationId), ("name", .text name)]⟩

/-- `referenceDataUpdated` -/
def referenceDataUpdated (type : String) (id organizationId : Id) (name : String) : DomainEvent :=
  ⟨type ++ "Updated", type, id, [("organizationId", .id organizationId), ("name", .text name)]⟩

/-- `referenceDataDeactivated` -/
def referenceDataDeactivated (type : String) (id organizationId deactivatedById : Id) :
    DomainEvent :=
  ⟨type ++ "Deactivated", type, id,
    [("organizationId", .id organizationId), ("actorId", .id deactivatedById)]⟩

/-- Somebody is employed, without an account. -/
structure CreateEmployeeCommand where
  organizationId : Id
  fullName : String

/-- An employee gets an account: no two have the same. -/
structure LinkEmployeeToUserCommand where
  employeeId : Id
  organizationId : Id
  userId : Id

/-- The account is taken from an employee. -/
structure UnlinkEmployeeFromUserCommand where
  employeeId : Id
  organizationId : Id

/-- An employee leaves. -/
structure DeactivateEmployeeCommand where
  employeeId : Id
  organizationId : Id
  actorId : Id

section

open PayrollStore

/-- `CreateEmployeeHandler` -/
def createEmployee (env : Env) (cmd : CreateEmployeeCommand) : PayrollTx Id := do
  insertEmployee env.uuid ⟨cmd.organizationId, cmd.fullName, none, true, env.now⟩
  enqueueEvents [referenceDataCreated "Employee" env.uuid cmd.organizationId cmd.fullName]
  pure env.uuid

/-- `LinkEmployeeToUserHandler` -/
def linkEmployeeToUser (_env : Env) (cmd : LinkEmployeeToUserCommand) : PayrollTx Unit := do
  let employee ← findEmployee cmd.employeeId cmd.organizationId
  let collision ← .select fun d => decide (d.LinkedElsewhere cmd.userId cmd.employeeId)
  .require (collision = false) (.domain (.userAlreadyLinked cmd.userId))
  let existingUser ← .select fun d => decide (cmd.userId ∈ d.users)
  .require (existingUser = true) (.domain (.entityNotFound "User" cmd.userId))
  linkEmployee cmd.employeeId cmd.userId
  enqueueEvents
    [referenceDataUpdated "Employee" cmd.employeeId cmd.organizationId employee.fullName]

/-- `UnlinkEmployeeFromUserHandler` -/
def unlinkEmployeeFromUser (_env : Env) (cmd : UnlinkEmployeeFromUserCommand) :
    PayrollTx Unit := do
  let employee ← findEmployee cmd.employeeId cmd.organizationId
  updateEmployee cmd.employeeId fun row => { row with userId := none }
  enqueueEvents
    [referenceDataUpdated "Employee" cmd.employeeId cmd.organizationId employee.fullName]

/-- `DeactivateEmployeeHandler`: salary structures and payslips stay as they are. -/
def deactivateEmployee (_env : Env) (cmd : DeactivateEmployeeCommand) : PayrollTx Unit := do
  let _ ← findEmployee cmd.employeeId cmd.organizationId
  updateEmployee cmd.employeeId fun row => { row with isActive := false }
  enqueueEvents [referenceDataDeactivated "Employee" cmd.employeeId cmd.organizationId cmd.actorId]

end

/-- The commands on employees. -/
inductive EmployeeCommand where
  | create (cmd : CreateEmployeeCommand)
  | link (cmd : LinkEmployeeToUserCommand)
  | unlink (cmd : UnlinkEmployeeFromUserCommand)
  | deactivate (cmd : DeactivateEmployeeCommand)

namespace EmployeeCommand

/-- The transaction a command runs. -/
def program (env : Env) : EmployeeCommand → PayrollTx Unit
  | create cmd => (createEmployee env cmd).discard
  | link cmd => linkEmployeeToUser env cmd
  | unlink cmd => unlinkEmployeeFromUser env cmd
  | deactivate cmd => deactivateEmployee env cmd

/-- The organization of the user who gives the command. -/
def organizationId : EmployeeCommand → Id
  | create cmd => cmd.organizationId
  | link cmd => cmd.organizationId
  | unlink cmd => cmd.organizationId
  | deactivate cmd => cmd.organizationId

end EmployeeCommand

section

variable {env : Env} {d d' : PayrollStore}

/-- The row of a new employee. -/
def createdEmployee (env : Env) (cmd : CreateEmployeeCommand) : EmployeeRow :=
  ⟨cmd.organizationId, cmd.fullName, none, true, env.now⟩

/-- **When an employee is created**: whenever the id is not in use. -/
theorem createEmployee_ok {cmd : CreateEmployeeCommand} {a : Id} :
    (createEmployee env cmd).solo d = .ok (a, d') ↔
      env.uuid ∉ d.employees ∧ a = env.uuid ∧
        d' = ({ d with employees := d.employees.insert env.uuid (createdEmployee env cmd) }
          : PayrollStore).withEvents
            [referenceDataCreated "Employee" env.uuid cmd.organizationId cmd.fullName] := by
  simp only [createEmployee, PayrollStore.insertEmployee, Tx.solo_bind_ok, Tx.solo_exec_ok,
    except_bind_ok, ensure_ok, except_pure_ok, PayrollStore.enqueueEvents_ok, Tx.pure_eq,
    Tx.solo_ret, Except.ok.injEq, Prod.mk.injEq]
  refine ⟨?_, ?_⟩
  · rintro ⟨_, _, ⟨_, ⟨_, hnew, rfl⟩, rfl⟩, _, _, rfl, rfl, rfl⟩
    exact ⟨hnew, rfl, rfl⟩
  · rintro ⟨hnew, rfl, rfl⟩
    exact ⟨(), _, ⟨_, ⟨(), hnew, rfl⟩, rfl⟩, (), _, rfl, rfl, rfl⟩

/-- **The frame of the employee commands**: one employee of the organization, and the
outbox. -/
theorem EmployeeCommand.frame {cmd : EmployeeCommand} {a : Unit}
    (h : (cmd.program env).solo d = .ok (a, d')) :
    ∃ employees events, d' = ({ d with employees } : PayrollStore).withEvents events ∧
      Table.OwnInsert EmployeeRow.organizationId cmd.organizationId d.employees employees := by
  -- an employee of the organization is updated, and stays its own
  have hupdated : ∀ {id organizationId : Id} {row : EmployeeRow} (data : EmployeeRow → EmployeeRow),
      d.employees.lookup id = some row ∧ row.organizationId = organizationId →
      (data row).organizationId = row.organizationId →
      Table.OwnInsert EmployeeRow.organizationId organizationId d.employees
        (Table.update d.employees id data) := by
    rintro id _ row data ⟨hrow, rfl⟩ hdata
    rw [Table.update_of_lookup hrow]
    refine ⟨id, data row, rfl, hdata, fun old hold => ?_⟩
    obtain rfl := Option.some.inj (hrow.symm.trans hold)
    rfl
  cases cmd with
  | create cmd =>
    obtain ⟨_, h⟩ := Tx.solo_discard_ok.mp h
    obtain ⟨hnew, -, rfl⟩ := createEmployee_ok.mp h
    refine ⟨_, _, rfl, env.uuid, createdEmployee env cmd, rfl, rfl, fun old hold => ?_⟩
    cases (Finmap.lookup_eq_none.mpr hnew).symm.trans hold
  | link cmd =>
    simp only [program, linkEmployeeToUser, Tx.solo_bind_ok, PayrollStore.findEmployee_ok,
      Tx.solo_select, Tx.solo_require_ok, PayrollStore.linkEmployee, Tx.solo_exec_ok,
      except_bind_ok, except_pure_ok, PayrollStore.enqueueEvents_ok] at h
    obtain ⟨_, _, ⟨hown, rfl⟩, _, _, hcollision, _, _, ⟨-, rfl⟩, _, _, huser, _, _, ⟨-, rfl⟩, _, _,
      ⟨_, ⟨-, -, -, -, rfl⟩, rfl⟩, rfl⟩ := h
    cases hcollision
    cases huser
    exact ⟨_, _, rfl, hupdated _ hown rfl⟩
  | unlink cmd =>
    simp only [program, unlinkEmployeeFromUser, Tx.solo_bind_ok, PayrollStore.findEmployee_ok,
      PayrollStore.updateEmployee, Tx.solo_exec_ok, except_pure_ok,
      PayrollStore.enqueueEvents_ok] at h
    obtain ⟨_, _, ⟨hown, rfl⟩, _, _, ⟨_, rfl, rfl⟩, rfl⟩ := h
    exact ⟨_, _, rfl, hupdated _ hown rfl⟩
  | deactivate cmd =>
    simp only [program, deactivateEmployee, Tx.solo_bind_ok, PayrollStore.findEmployee_ok,
      PayrollStore.updateEmployee, Tx.solo_exec_ok, except_pure_ok,
      PayrollStore.enqueueEvents_ok] at h
    obtain ⟨_, _, ⟨hown, rfl⟩, _, _, ⟨_, rfl, rfl⟩, rfl⟩ := h
    exact ⟨_, _, rfl, hupdated _ hown rfl⟩

end

/-! ## Salary structures -/

/-- A version of a salary structure with the events recorded on it. -/
structure SalaryStructure where
  props : SalaryStructureProps
  domainEvents : List DomainEvent

/-- An event of a version of a salary structure. -/
def salaryStructureEvent (type : String) (structureId organizationId employeeId : Id)
    (version : ℕ) (payload : List (String × PayloadValue)) : DomainEvent :=
  ⟨type, "SalaryStructure", structureId, ("organizationId", .id organizationId) ::
    ("employeeId", .id employeeId) :: ("version", .number version) :: payload⟩

/-- `salaryStructureCreated` -/
def salaryStructureCreated (structureId organizationId employeeId : Id) (version : ℕ)
    (effectiveFrom : JsDate) : DomainEvent :=
  salaryStructureEvent "SalaryStructureCreated" structureId organizationId employeeId version
    [("effectiveFrom", .date effectiveFrom)]

/-- `salaryStructureVersionCreated` -/
def salaryStructureVersionCreated (structureId organizationId employeeId : Id) (version : ℕ)
    (effectiveFrom : JsDate) (previousVersionId : Id) (previousVersion : ℕ) : DomainEvent :=
  salaryStructureEvent "SalaryStructureVersionCreated" structureId organizationId employeeId version
    [("effectiveFrom", .date effectiveFrom), ("previousVersionId", .id previousVersionId),
      ("previousVersion", .number previousVersion)]

/-- `salaryStructureClosed` -/
def salaryStructureClosed (structureId organizationId employeeId : Id) (version : ℕ)
    (effectiveTo : JsDate) : DomainEvent :=
  salaryStructureEvent "SalaryStructureClosed" structureId organizationId employeeId version
    [("effectiveTo", .date effectiveTo)]

/-- An employee gets a first salary structure. -/
structure CreateSalaryStructureCommand where
  organizationId : Id
  employeeId : Id
  effectiveFrom : JsDate
  baseSalaryLineItems : List SalaryLineItem

/-- The salary structure of an employee gets a new version, which ends the one in effect. -/
structure CreateSalaryStructureVersionCommand where
  organizationId : Id
  employeeId : Id
  effectiveFrom : JsDate
  baseSalaryLineItems : List SalaryLineItem

namespace SalaryStructure

/-- The first version of an employee's salary structure. -/
def createInitialVersion (env : Env) (cmd : CreateSalaryStructureCommand) : SalaryStructure where
  props :=
    { id := env.uuid
      organizationId := cmd.organizationId
      employeeId := cmd.employeeId
      version := 1
      effectiveFrom := cmd.effectiveFrom
      effectiveTo := none
      baseSalaryLineItems := cmd.baseSalaryLineItems
      createdAt := env.now }
  domainEvents :=
    [salaryStructureCreated env.uuid cmd.organizationId cmd.employeeId 1 cmd.effectiveFrom]

/-- The version after another, of the same organization and employee. -/
def createNextVersion (env : Env) (previous : SalaryStructure)
    (cmd : CreateSalaryStructureVersionCommand) : SalaryStructure where
  props :=
    { id := env.uuid
      organizationId := previous.props.organizationId
      employeeId := previous.props.employeeId
      version := previous.props.version + 1
      effectiveFrom := cmd.effectiveFrom
      effectiveTo := none
      baseSalaryLineItems := cmd.baseSalaryLineItems
      createdAt := env.now }
  domainEvents :=
    [salaryStructureVersionCreated env.uuid previous.props.organizationId
      previous.props.employeeId (previous.props.version + 1) cmd.effectiveFrom previous.props.id
      previous.props.version]

/-- Ends the period a version is in effect. -/
def close (s : SalaryStructure) (effectiveTo : JsDate) : SalaryStructure where
  props := { s.props with effectiveTo := some effectiveTo }
  domainEvents := s.domainEvents ++ [salaryStructureClosed s.props.id s.props.organizationId
    s.props.employeeId s.props.version effectiveTo]

/-- A version as loaded from its row. -/
def reconstitute (props : SalaryStructureProps) : SalaryStructure := ⟨props, []⟩

end SalaryStructure

namespace SalaryStructureRepository

/-- `findActiveForEmployee` -/
def findActiveForEmployee (employeeId : Id) : PayrollTx (Option SalaryStructure) := do
  let row ← .select fun d => d.activeStructure employeeId
  pure (row.map .reconstitute)

/-- The employee has this version. -/
def VersionTaken (d : PayrollStore) (employeeId : Id) (version : ℕ) : Prop :=
  ∃ s ∈ d.salaryStructures, s.employeeId = employeeId ∧ s.version = version

instance (d : PayrollStore) (employeeId : Id) (version : ℕ) :
    Decidable (VersionTaken d employeeId version) :=
  inferInstanceAs (Decidable (∃ s ∈ d.salaryStructures, _))

/-- The row of a version: a `DATE` column keeps the day. -/
def toRow (props : SalaryStructureProps) : SalaryStructureProps :=
  { props with
    effectiveFrom := props.effectiveFrom.day, effectiveTo := props.effectiveTo.map .day }

/-- `save`: a version is inserted, and its employee has to be there. -/
def save (version : SalaryStructure) : PayrollTx Unit :=
  let props := version.props
  .exec (fun _ => [.salaryStructure props.id,
      .salaryStructureVersion props.employeeId props.version]) fun d => do
    ensure (∀ s ∈ d.salaryStructures, s.id ≠ props.id) (.database "salary_structures_pkey")
    ensure (¬ VersionTaken d props.employeeId props.version)
      (.database "salary_structures_employee_id_version_key")
    ensure (props.employeeId ∈ d.employees) (.database "salary_structures_employee_id_fkey")
    pure fun d => d.withStructures (d.salaryStructures ++ [toRow props])

/-- The rows after the `effectiveTo` of one is written. -/
def writeEffectiveTo (props : SalaryStructureProps) (rows : List SalaryStructureProps) :
    List SalaryStructureProps :=
  rows.map fun s =>
    if s.id = props.id then { s with effectiveTo := props.effectiveTo.map .day } else s

/-- `saveNextVersion`: the previous version is found by its id alone. -/
def saveNextVersion (previous next : SalaryStructure) : PayrollTx Unit := do
  .exec (fun _ => [.salaryStructure previous.props.id]) fun d => do
    ensure (∃ s ∈ d.salaryStructures, s.id = previous.props.id)
      (.database "record to update not found")
    pure fun d => d.withStructures (writeEffectiveTo previous.props d.salaryStructures)
  save next

end SalaryStructureRepository

section

open PayrollStore

/-- `CreateSalaryStructureHandler`: whose employee it is goes unasked. -/
def createSalaryStructure (env : Env) (cmd : CreateSalaryStructureCommand) : PayrollTx Id := do
  let existing ← SalaryStructureRepository.findActiveForEmployee cmd.employeeId
  .require (existing.isNone = true) (.domain (.salaryStructureAlreadyExists cmd.employeeId))
  let created := SalaryStructure.createInitialVersion env cmd
  SalaryStructureRepository.save created
  enqueueEvents created.domainEvents
  pure created.props.id

/-- `CreateSalaryStructureVersionHandler`: the previous version has to be one of the
organization. -/
def createSalaryStructureVersion (env : Env) (cmd : CreateSalaryStructureVersionCommand) :
    PayrollTx Id := do
  let previous ← SalaryStructureRepository.findActiveForEmployee cmd.employeeId
  let previous ← .orFail
    (previous.filter fun s => s.props.organizationId = cmd.organizationId)
    (.domain (.entityNotFound "SalaryStructure" cmd.employeeId))
  let next := SalaryStructure.createNextVersion env previous cmd
  let previous := previous.close next.props.effectiveFrom
  SalaryStructureRepository.saveNextVersion previous next
  enqueueEvents (previous.domainEvents ++ next.domainEvents)
  pure next.props.id

end

/-- The commands on salary structures. -/
inductive SalaryStructureCommand where
  | create (cmd : CreateSalaryStructureCommand)
  | createVersion (cmd : CreateSalaryStructureVersionCommand)

namespace SalaryStructureCommand

/-- The transaction a command runs. -/
def program (env : Env) : SalaryStructureCommand → PayrollTx Unit
  | create cmd => (createSalaryStructure env cmd).discard
  | createVersion cmd => (createSalaryStructureVersion env cmd).discard

/-- The organization of the user who gives the command. -/
def organizationId : SalaryStructureCommand → Id
  | create cmd => cmd.organizationId
  | createVersion cmd => cmd.organizationId

end SalaryStructureCommand

namespace SalaryStructureRepository

variable {d d' : PayrollStore}

theorem findActiveForEmployee_solo (employeeId : Id) (d : PayrollStore) :
    (findActiveForEmployee employeeId).solo d =
      .ok ((d.activeStructure employeeId).map .reconstitute, d) := rfl

theorem save_ok {version : SalaryStructure} {a : Unit} :
    (save version).solo d = .ok (a, d') ↔
      (∀ s ∈ d.salaryStructures, s.id ≠ version.props.id) ∧
      ¬ VersionTaken d version.props.employeeId version.props.version ∧
      version.props.employeeId ∈ d.employees ∧
      d' = d.withStructures (d.salaryStructures ++ [toRow version.props]) := by
  simp only [save, Tx.solo_exec_ok, except_bind_ok, ensure_ok, except_pure_ok]
  refine ⟨?_, ?_⟩
  · rintro ⟨_, ⟨_, hid, _, hversion, _, hemployee, rfl⟩, rfl⟩
    exact ⟨hid, hversion, hemployee, rfl⟩
  · rintro ⟨hid, hversion, hemployee, rfl⟩
    exact ⟨_, ⟨(), hid, (), hversion, (), hemployee, rfl⟩, rfl⟩

@[simp] theorem map_id_writeEffectiveTo (props : SalaryStructureProps)
    (rows : List SalaryStructureProps) :
    (writeEffectiveTo props rows).map SalaryStructureProps.id =
      rows.map SalaryStructureProps.id := by
  simp only [writeEffectiveTo, List.map_map]
  refine List.map_congr_left fun s _ => ?_
  simp only [Function.comp_apply]
  split_ifs
  · rfl
  · rfl

/-- Closing a version frees none. -/
theorem versionTaken_writeEffectiveTo {props : SalaryStructureProps} {employeeId : Id}
    {version : ℕ} :
    VersionTaken (d.withStructures (writeEffectiveTo props d.salaryStructures)) employeeId
      version ↔ VersionTaken d employeeId version := by
  have hsame : ∀ s : SalaryStructureProps, (if s.id = props.id then
      { s with effectiveTo := props.effectiveTo.map .day } else s).employeeId = s.employeeId ∧
      (if s.id = props.id then
        { s with effectiveTo := props.effectiveTo.map .day } else s).version = s.version := by
    intro s
    split_ifs
    · exact ⟨rfl, rfl⟩
    · exact ⟨rfl, rfl⟩
  simp only [VersionTaken]
  refine ⟨?_, ?_⟩
  · rintro ⟨_, hmem, hemployee, hversion⟩
    obtain ⟨s, hs, rfl⟩ := List.mem_map.mp hmem
    exact ⟨s, hs, (hsame s).1.symm.trans hemployee, (hsame s).2.symm.trans hversion⟩
  · rintro ⟨s, hs, hemployee, hversion⟩
    exact ⟨_, List.mem_map_of_mem hs, (hsame s).1.trans hemployee, (hsame s).2.trans hversion⟩

/-- A row after the write is a row before it, but for its `effectiveTo`. -/
theorem mem_writeEffectiveTo {props s : SalaryStructureProps} {rows : List SalaryStructureProps}
    (h : s ∈ writeEffectiveTo props rows) :
    ∃ s₀ ∈ rows, s = s₀ ∨ (s₀.id = props.id ∧
      s = { s₀ with effectiveTo := props.effectiveTo.map .day }) := by
  obtain ⟨s₀, hmem, rfl⟩ := List.mem_map.mp h
  refine ⟨s₀, hmem, ?_⟩
  split_ifs with hid
  · exact .inr ⟨hid, rfl⟩
  · exact .inl rfl

/-- Closing a version moves no row elsewhere. -/
theorem filter_writeEffectiveTo {q : SalaryStructureProps → Bool}
    (hq : ∀ s effectiveTo, q { s with effectiveTo } = q s) (props : SalaryStructureProps)
    (rows : List SalaryStructureProps) :
    (writeEffectiveTo props rows).filter q = writeEffectiveTo props (rows.filter q) := by
  simp only [writeEffectiveTo, List.filter_map]
  congr 1
  refine List.filter_congr fun s _ => ?_
  simp only [Function.comp_apply]
  split_ifs
  · exact hq s _
  · rfl

/-- A version that is not among the rows. -/
theorem writeEffectiveTo_of_ne {props : SalaryStructureProps} {rows : List SalaryStructureProps}
    (h : ∀ s ∈ rows, s.id ≠ props.id) : writeEffectiveTo props rows = rows := by
  refine (List.map_congr_left fun s hs => ?_).trans rows.map_id
  exact if_neg (h s hs)

end SalaryStructureRepository

section

open SalaryStructureRepository

variable {env : Env} {d d' : PayrollStore} {a : Id}

/-- The row of a first version. -/
def initialVersion (env : Env) (cmd : CreateSalaryStructureCommand) : SalaryStructureProps :=
  toRow (SalaryStructure.createInitialVersion env cmd).props

/-- The row of the version after another. -/
def nextVersion (env : Env) (previous : SalaryStructureProps)
    (cmd : CreateSalaryStructureVersionCommand) : SalaryStructureProps :=
  toRow (SalaryStructure.createNextVersion env (.reconstitute previous) cmd).props

/-- **When a salary structure is created**: the employee is there, and has none. -/
theorem createSalaryStructure_ok {cmd : CreateSalaryStructureCommand} :
    (createSalaryStructure env cmd).solo d = .ok (a, d') ↔
      d.activeStructure cmd.employeeId = none ∧ (∀ s ∈ d.salaryStructures, s.id ≠ env.uuid) ∧
        ¬ VersionTaken d cmd.employeeId 1 ∧ cmd.employeeId ∈ d.employees ∧ a = env.uuid ∧
        d' = (d.withStructures (d.salaryStructures ++ [initialVersion env cmd])).withEvents
          (SalaryStructure.createInitialVersion env cmd).domainEvents := by
  simp only [createSalaryStructure]
  rw [Tx.solo_bind_of_ok (findActiveForEmployee_solo cmd.employeeId d)]
  simp only [Tx.solo_bind_ok, Tx.solo_require_ok, save_ok, PayrollStore.enqueueEvents_ok,
    Tx.pure_eq, Tx.solo_ret, Except.ok.injEq, Prod.mk.injEq, Option.isNone_map,
    Option.isNone_iff_eq_none]
  refine ⟨?_, ?_⟩
  · rintro ⟨_, _, ⟨hnone, rfl⟩, _, _, ⟨hid, hversion, hemployee, rfl⟩, _, _, rfl, rfl, rfl⟩
    exact ⟨hnone, hid, hversion, hemployee, rfl, rfl⟩
  · rintro ⟨hnone, hid, hversion, hemployee, rfl, rfl⟩
    exact ⟨(), _, ⟨hnone, rfl⟩, (), _, ⟨hid, hversion, hemployee, rfl⟩, (), _, rfl, rfl, rfl⟩

/-- The rows once a version is closed. -/
def closedRows (d : PayrollStore) (version : SalaryStructureProps) (effectiveTo : JsDate) :
    List SalaryStructureProps :=
  writeEffectiveTo { version with effectiveTo := some effectiveTo } d.salaryStructures

/-- **When the next version is created**: the version in effect is one of the
organization. -/
theorem createSalaryStructureVersion_ok {cmd : CreateSalaryStructureVersionCommand} :
    (createSalaryStructureVersion env cmd).solo d = .ok (a, d') ↔
      ∃ previous, d.activeStructure cmd.employeeId = some previous ∧
        previous.organizationId = cmd.organizationId ∧
        (∀ s ∈ d.salaryStructures, s.id ≠ env.uuid) ∧
        ¬ VersionTaken d previous.employeeId (previous.version + 1) ∧
        previous.employeeId ∈ d.employees ∧ a = env.uuid ∧
        d' = (d.withStructures (closedRows d previous cmd.effectiveFrom ++
          [nextVersion env previous cmd])).withEvents
            (salaryStructureClosed previous.id previous.organizationId previous.employeeId
                previous.version cmd.effectiveFrom ::
              (SalaryStructure.createNextVersion env (.reconstitute previous)
                cmd).domainEvents) := by
  have hids : ∀ previous : SalaryStructureProps,
      (∀ s ∈ closedRows d previous cmd.effectiveFrom, s.id ≠ env.uuid) ↔
        ∀ s ∈ d.salaryStructures, s.id ≠ env.uuid := by
    intro previous
    have hmap : (closedRows d previous cmd.effectiveFrom).map SalaryStructureProps.id =
        d.salaryStructures.map SalaryStructureProps.id := map_id_writeEffectiveTo _ _
    have hmem : env.uuid ∉ (closedRows d previous cmd.effectiveFrom).map SalaryStructureProps.id ↔
        env.uuid ∉ d.salaryStructures.map SalaryStructureProps.id := by rw [hmap]
    simpa using hmem
  simp only [createSalaryStructureVersion]
  rw [Tx.solo_bind_of_ok (findActiveForEmployee_solo cmd.employeeId d)]
  simp only [Tx.solo_bind_ok, Tx.solo_orFail_ok, saveNextVersion, Tx.solo_exec_ok, except_bind_ok,
    ensure_ok, except_pure_ok, save_ok, PayrollStore.enqueueEvents_ok, Tx.pure_eq, Tx.solo_ret,
    Except.ok.injEq, Prod.mk.injEq, Option.filter_eq_some_iff, Option.map_eq_some_iff]
  refine ⟨?_, ?_⟩
  · rintro ⟨_, _, ⟨⟨⟨previous, hactive, rfl⟩, horg⟩, rfl⟩, _, _, ⟨_, _, ⟨_, ⟨_, -, rfl⟩, rfl⟩, hid,
      hversion, hemployee, rfl⟩, _, _, rfl, rfl, rfl⟩
    refine ⟨previous, hactive, of_decide_eq_true horg, (hids previous).mp hid, ?_, hemployee, rfl,
      rfl⟩
    rwa [versionTaken_writeEffectiveTo] at hversion
  · rintro ⟨previous, hactive, horg, hid, hversion, hemployee, rfl, rfl⟩
    obtain ⟨hmem, -, -⟩ := PayrollStore.mem_of_activeStructure hactive
    refine ⟨_, _, ⟨⟨⟨previous, hactive, rfl⟩, decide_eq_true horg⟩, rfl⟩, (), _, ⟨(), _, ⟨_,
      ⟨(), ⟨previous, hmem, rfl⟩, rfl⟩, rfl⟩, (hids previous).mpr hid, ?_, hemployee, rfl⟩, (), _,
      rfl, rfl, rfl⟩
    rwa [versionTaken_writeEffectiveTo]

end

/-! ## The machine -/

/-- Administrators do not maintain salary structures: what they change keeps those. -/
def Command.keeping (salaryStructures : List SalaryStructureProps) : Command → Command
  | .administer administration => .administer { administration with salaryStructures }
  | command => command

namespace PayrollStore

/-- Everything that can happen to the payroll store: a command on employees or on salary
structures, or one of the other contexts. -/
inductive Command where
  | employee (cmd : EmployeeCommand)
  | salaryStructure (cmd : SalaryStructureCommand)
  | other (command : RatelPlatform.Command)

/-- A command with what it draws from its surroundings. -/
structure Request where
  env : Env
  command : Command

/-- A store without rows. -/
def initial (administration : Administration) (users : List Id) : PayrollStore where
  users := users
  employees := ∅
  store := .initial { administration with salaryStructures := [] }

/-- No row has the id. -/
def Fresh (d : PayrollStore) (id : Id) : Prop :=
  id ∉ d.employees ∧ (∀ s ∈ d.salaryStructures, s.id ≠ id) ∧ d.store.Fresh id

instance (d : PayrollStore) (id : Id) : Decidable (d.Fresh id) :=
  inferInstanceAs (Decidable (_ ∧ _))

/-- The store a request leaves, unless it fails. -/
def run (d : PayrollStore) (r : Request) : Except Failure PayrollStore :=
  match r.command with
  | .employee cmd => ((cmd.program r.env).solo d).map Prod.snd
  | .salaryStructure cmd => ((cmd.program r.env).solo d).map Prod.snd
  | .other command =>
    (((command.keeping d.salaryStructures).program r.env).solo d.store).map fun result =>
      { d with store := result.2 }

/-- A request: its transaction commits, or fails and leaves the store alone. The id it draws
is one that is not in use. -/
def next (d : PayrollStore) (r : Request) : Option PayrollStore :=
  if d.Fresh r.env.uuid then
    match d.run r with
    | .ok d' => some d'
    | .error _ => some d
  else none

theorem next_cases {d d' : PayrollStore} {r : Request} (h : next d r = some d') :
    d.Fresh r.env.uuid ∧ (d' = d ∨ d.run r = .ok d') := by
  simp only [next] at h
  split_ifs at h with hfresh
  refine ⟨hfresh, ?_⟩
  rcases hrun : d.run r with e | d₁
  · rw [hrun] at h
    exact .inl (Option.some.inj h).symm
  · rw [hrun] at h
    obtain rfl := Option.some.inj h
    exact .inr rfl

variable {env : Env} {d d' : PayrollStore}

theorem map_snd_ok {D E : Type} {x : Except E (Unit × D)} {d : D} :
    x.map Prod.snd = .ok d ↔ x = .ok ((), d) := by
  rcases x with e | ⟨_, d₁⟩
  · simp [Except.map]
  · simp [Except.map]

theorem run_employee_ok {cmd : EmployeeCommand} :
    d.run ⟨env, .employee cmd⟩ = .ok d' ↔ (cmd.program env).solo d = .ok ((), d') := by
  simp [run, map_snd_ok]

theorem run_salaryStructure_ok {cmd : SalaryStructureCommand} :
    d.run ⟨env, .salaryStructure cmd⟩ = .ok d' ↔ (cmd.program env).solo d = .ok ((), d') := by
  simp [run, map_snd_ok]

theorem run_other_ok {command : RatelPlatform.Command} :
    d.run ⟨env, .other command⟩ = .ok d' ↔
      ∃ store, ((command.keeping d.salaryStructures).program env).solo d.store = .ok ((), store) ∧
        d' = { d with store } := by
  simp only [run]
  rcases ((command.keeping d.salaryStructures).program env).solo d.store with e | ⟨a, store⟩
  · simp [Except.map]
  · simp [Except.map, eq_comm]

end PayrollStore

end RatelPlatform
