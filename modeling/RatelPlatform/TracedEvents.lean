import RatelPlatform.AuditSubscriber
import RatelPlatform.OrganizationsApart

/-!
# What the events of a command tell

An event says in its payload of which organization it is, and an event of a decision (an
approval, a rejection, a cancellation, the closing or reopening of a period) who decided. No
event names anyone but the user whom the command names (`Command.traced`), in none of the keys
under which the audit log looks for who acted.
-/

namespace RatelPlatform

/-- The user whom a command names. -/
def Command.actorId : Command → Option Id
  | .period (.close cmd) => some cmd.closedById
  | .period (.reopen cmd) => some cmd.reopenedById
  | .expense (.create cmd) => some cmd.source.actorId
  | .expense (.approve cmd) => some cmd.approverId
  | .expense (.reject cmd) => some cmd.approverId
  | .expense (.cancel cmd) => some cmd.actorId
  | .payroll (.create cmd) => some cmd.createdById
  | .payroll (.approve cmd) => some cmd.approverId
  | .payroll (.reject cmd) => some cmd.approverId
  | .payroll (.cancel cmd) => some cmd.actorId
  | _ => none

/-- The events that say who decided. -/
def decisionTypes : List String :=
  ["ExpenseApproved", "ExpenseRejected", "ExpenseCancelled", "PayrollRunApproved",
    "PayrollRunRejected", "PayrollRunCancelled", "PeriodClosed", "PeriodReopened"]

/-- The keys that payloads have besides `organizationId`. -/
def payloadKeys : List (List String) :=
  [[], ["source"], ["approverId"], ["approverId", "reason"], ["actorId"],
    ["parentExpenseId", "reason"], ["runMonth"], ["employeeId", "netPayMinorUnits"],
    ["closedById"], ["reopenedById", "reason"]]

/-- What an event of a command tells: its organization, and who acted. -/
structure DomainEvent.Traces (command : Command) (event : DomainEvent) : Prop where
  organization : ∃ O fields, command.organizationId = some O ∧
    event.payload = ("organizationId", .id O) :: fields ∧ fields.map Prod.fst ∈ payloadKeys
  actor : ∀ m ∈ event.payload, m.1 ∈ actorKeys → ∃ user, command.actorId = some user ∧
    m.2 = .id user
  decided : event.type ∈ decisionTypes → ∃ m ∈ event.payload, m.1 ∈ actorKeys

namespace DomainEvent.Traces

variable {command : Command} {O : Id} {type aggregateType : String} {aggregateId : Id}
  {fields : List (String × PayloadValue)}

theorem organization_silent : "organizationId" ∉ actorKeys := by decide

/-- An event that names nobody. -/
theorem silent (keys : List String) (hfields : fields.map Prod.fst = keys)
    (horg : command.organizationId = some O) (hkeys : keys ∈ payloadKeys)
    (hsilent : ∀ key ∈ keys, key ∉ actorKeys) (htype : type ∉ decisionTypes) :
    Traces command ⟨type, aggregateType, aggregateId, ("organizationId", .id O) :: fields⟩ where
  organization := ⟨O, fields, horg, rfl, hfields ▸ hkeys⟩
  actor := by
    rintro m hm hkey
    rcases List.mem_cons.mp hm with rfl | hm
    · exact absurd hkey organization_silent
    · exact absurd hkey (hsilent m.1 (hfields ▸ List.mem_map_of_mem hm))
  decided hdecision := absurd hdecision htype

/-- An event that names the user of the command. -/
theorem named {key : String} {user : Id} (keys : List String)
    (hfields : fields.map Prod.fst = keys) (horg : command.organizationId = some O)
    (huser : command.actorId = some user) (hkey : key ∈ actorKeys)
    (hkeys : key :: keys ∈ payloadKeys) (hsilent : ∀ key ∈ keys, key ∉ actorKeys) :
    Traces command ⟨type, aggregateType, aggregateId,
      ("organizationId", .id O) :: (key, .id user) :: fields⟩ where
  organization := ⟨O, _, horg, rfl, by rwa [List.map_cons, hfields]⟩
  actor := by
    rintro m hm hmkey
    rcases List.mem_cons.mp hm with rfl | hm
    · exact absurd hmkey organization_silent
    rcases List.mem_cons.mp hm with rfl | hm
    · exact ⟨user, huser, rfl⟩
    · exact absurd hmkey (hsilent m.1 (hfields ▸ List.mem_map_of_mem hm))
  decided _ := ⟨_, List.mem_cons_of_mem _ List.mem_cons_self, hkey⟩

end DomainEvent.Traces

section

open DomainEvent (Traces)

variable {env : Env} {d d' : Store} {a : Unit}

theorem traces_singleton {command : Command} {event : DomainEvent} (h : event.Traces command) :
    ∀ e ∈ [event], e.Traces command := by
  intro e he
  obtain rfl := List.mem_singleton.mp he
  exact h

/-- An event of an approval that is the last one, or no event. -/
theorem traces_ite {command : Command} {final : Prop} [Decidable final] {event : DomainEvent}
    (h : event.Traces command) : ∀ e ∈ if final then [event] else [], e.Traces command := by
  split_ifs
  · exact traces_singleton h
  · exact fun e he => absurd he List.not_mem_nil

theorem PeriodCommand.traced {cmd : PeriodCommand} (hfresh : d.Fresh env.uuid)
    (h : (cmd.program env).solo d = .ok (a, d')) :
    ∃ events, d'.outbox = d.outbox ++ events ∧ ∀ e ∈ events, e.Traces (.period cmd) := by
  cases cmd with
  | «open» cmd =>
    obtain ⟨_, h⟩ := Tx.solo_discard_ok.mp h
    obtain rfl := openPeriod_ok (Finmap.lookup_eq_none.mpr hfresh.1) h
    exact ⟨_, rfl, traces_singleton (.silent [] rfl rfl (by decide) (by decide) (by decide))⟩
  | close cmd =>
    obtain ⟨row, -, horg, -, rfl⟩ := closePeriod_ok.mp h
    exact ⟨_, rfl, traces_singleton (.named [] rfl (congrArg some horg.symm) rfl (by decide)
      (by decide) (by decide))⟩
  | reopen cmd =>
    obtain ⟨row, -, horg, -, -, rfl⟩ := (@reopenPeriod_ok env _ _ _ cmd).mp h
    exact ⟨_, rfl, traces_singleton (.named ["reason"] rfl (congrArg some horg.symm) rfl
      (by decide) (by decide) (by decide))⟩

theorem ExpenseCommand.traced {cmd : ExpenseCommand} (hal : d.RecordsAligned)
    (hfresh : d.Fresh env.uuid) (h : (cmd.program env).solo d = .ok (a, d')) :
    ∃ events, d'.outbox = d.outbox ++ events ∧ ∀ e ∈ events, e.Traces (.expense cmd) := by
  have hnew := Finmap.lookup_eq_none.mpr hfresh.2.1
  cases cmd with
  | create cmd =>
    obtain ⟨_, h⟩ := Tx.solo_discard_ok.mp h
    obtain ⟨row, _, -, -, -, -, -, -, rfl⟩ := createExpense_ok hnew h
    exact ⟨_, rfl, traces_singleton (.silent ["source"] rfl rfl (by decide) (by decide)
      (by decide))⟩
  | submit cmd =>
    obtain ⟨row, -, horg, -, -, -, rfl⟩ := submitExpense_ok h
    exact ⟨_, rfl, traces_singleton (.silent [] rfl (congrArg some horg.symm) (by decide)
      (by decide) (by decide))⟩
  | approve cmd =>
    obtain ⟨row, prow, _, -, horg, -, -, -, -, -, -, -, rfl⟩ := approveExpense_ok hal h
    exact ⟨_, rfl, traces_ite (.named [] rfl (congrArg some horg.symm) rfl (by decide)
      (by decide) (by decide))⟩
  | reject cmd =>
    obtain ⟨row, prow, -, horg, -, -, -, -, -, rfl⟩ := rejectExpense_ok hal h
    exact ⟨_, rfl, traces_singleton (.named ["reason"] rfl (congrArg some horg.symm) rfl
      (by decide) (by decide) (by decide))⟩
  | cancel cmd =>
    obtain ⟨row, -, horg, -, -, rfl⟩ := cancelExpense_ok h
    exact ⟨_, rfl, traces_singleton (.named [] rfl (congrArg some horg.symm) rfl (by decide)
      (by decide) (by decide))⟩
  | createAdjustment cmd =>
    obtain ⟨_, h⟩ := Tx.solo_discard_ok.mp h
    obtain ⟨original, _, _, _, -, horg, -, -, -, -, -, rfl⟩ := createAdjustment_ok hnew h
    refine ⟨_, rfl, fun e he => ?_⟩
    rcases List.mem_cons.mp he with rfl | he
    · exact .silent ["parentExpenseId", "reason"] rfl (congrArg some horg.symm) (by decide)
        (by decide) (by decide)
    · refine traces_ite ?_ e he
      exact .silent [] rfl (congrArg some horg.symm) (by decide) (by decide) (by decide)

theorem PayrollCommand.traced {cmd : PayrollCommand} (hal : d.RecordsAligned)
    (hfresh : d.Fresh env.uuid) (h : (cmd.program env).solo d = .ok (a, d')) :
    ∃ events, d'.outbox = d.outbox ++ events ∧ ∀ e ∈ events, e.Traces (.payroll cmd) := by
  cases cmd with
  | create cmd =>
    obtain ⟨_, h⟩ := Tx.solo_discard_ok.mp h
    obtain ⟨_, -, rfl⟩ := createPayrollRun_ok (Finmap.lookup_eq_none.mpr hfresh.2.2.2) h
    exact ⟨_, rfl, traces_singleton (.silent ["runMonth"] rfl rfl (by decide) (by decide)
      (by decide))⟩
  | addPayslip cmd =>
    obtain ⟨_, h⟩ := Tx.solo_discard_ok.mp h
    obtain ⟨row, _, -, horg, -, -, -, -, rfl⟩ := addPayslip_ok h
    exact ⟨_, rfl, traces_singleton (.silent ["employeeId", "netPayMinorUnits"] rfl
      (congrArg some horg.symm) (by decide) (by decide) (by decide))⟩
  | submit cmd =>
    obtain ⟨row, -, horg, -, -, -, -, -, rfl⟩ := (@submitPayrollRun_ok env _ _ _ _).mp h
    exact ⟨_, rfl, traces_singleton (.silent [] rfl (congrArg some horg.symm) (by decide)
      (by decide) (by decide))⟩
  | approve cmd =>
    obtain ⟨row, _, _, -, horg, -, -, -, -, -, -, -, -, rfl⟩ := (approvePayrollRun_ok hal).mp h
    exact ⟨_, rfl, traces_ite (.named [] rfl (congrArg some horg.symm) rfl (by decide)
      (by decide) (by decide))⟩
  | reject cmd =>
    obtain ⟨row, _, -, horg, -, -, -, -, -, rfl⟩ := rejectPayrollRun_ok hal h
    exact ⟨_, rfl, traces_singleton (.named ["reason"] rfl (congrArg some horg.symm) rfl
      (by decide) (by decide) (by decide))⟩
  | cancel cmd =>
    obtain ⟨row, -, horg, -, rfl⟩ := (@cancelPayrollRun_ok env _ _ _ _).mp h
    exact ⟨_, rfl, traces_singleton (.named [] rfl (congrArg some horg.symm) rfl (by decide)
      (by decide) (by decide))⟩
  | process cmd =>
    obtain ⟨row, -, horg, -, rfl⟩ := (@processPayrollRun_ok env _ _ _ _).mp h
    refine ⟨_, rfl, fun e he => ?_⟩
    rcases List.mem_cons.mp he with rfl | he
    · exact .silent [] rfl (congrArg some horg.symm) (by decide) (by decide) (by decide)
    · obtain rfl := List.mem_singleton.mp he
      exact .silent [] rfl (congrArg some horg.symm) (by decide) (by decide) (by decide)

/-- **The events of a command** tell its organization, and nobody but its user. -/
theorem Command.traced {command : Command} (hwf : d.WellFormed) (hfresh : d.Fresh env.uuid)
    (h : (command.program env).solo d = .ok (a, d')) :
    ∃ events, d'.outbox = d.outbox ++ events ∧ ∀ e ∈ events, e.Traces command := by
  cases command with
  | administer administration =>
    obtain ⟨_, hp, rfl⟩ := Tx.solo_exec_ok.mp h
    cases hp
    exact ⟨[], by simp, by simp⟩
  | period cmd => exact PeriodCommand.traced hfresh h
  | expense cmd => exact ExpenseCommand.traced hwf.aligned hfresh h
  | payroll cmd => exact PayrollCommand.traced hwf.aligned hfresh h

/-- And so do those that a request adds. -/
theorem newEvents_traced {r : Request} (hwf : d.WellFormed) (h : next d r = some d') :
    ∀ e ∈ d.newEvents d', e.Traces r.command := by
  obtain ⟨hfresh, ⟨-, rfl⟩ | h⟩ := next_cases h
  · simp [Store.newEvents]
  · obtain ⟨events, hout, htraced⟩ := Command.traced hwf hfresh h
    rwa [Store.newEvents_of_append hout]

end

end RatelPlatform
