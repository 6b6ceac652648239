import RatelPlatform.Commands

/-!
# Transactions that compete for one payroll run

The payroll commands on a run, interleaved statement by statement under READ
COMMITTED. Each loads the run, checks its transition in memory, and writes
status, approver and approval time back from the copy it loaded; payslips are
rows of their own.

When every transaction commits on reads that are still current, each commit
follows the state machine of the aggregate from the status stored just before it
(`payroll_follows_of_current`). Nothing in the code makes it so: a payslip added
to a copy loaded as a draft takes a run that was approved in the meantime back
to draft.
-/

namespace RatelPlatform

/-- The state machine of a payroll run, an edge for each of its transitions. -/
inductive PayrollRunStatus.Edge : PayrollRunStatus → PayrollRunStatus → Prop
  | submitForApproval : Edge draft pendingApproval
  | approve : Edge pendingApproval approved
  | reject : Edge pendingApproval draft
  | startProcessing : Edge approved processing
  | complete : Edge processing completed
  | cancelDraft : Edge draft cancelled
  | cancelPending : Edge pendingApproval cancelled

/-- The command rejects a run. -/
def PayrollCommand.isReject : PayrollCommand → Bool
  | reject _ => true
  | _ => false

/-- The command processes a run: it takes two edges in one transaction. -/
def PayrollCommand.isProcess : PayrollCommand → Bool
  | process _ => true
  | _ => false

/-- **A committed change of a run follows its state machine.** -/
structure FollowsMachine (cmd : PayrollCommand) (row row' : PayrollRunRow) : Prop where
  /-- a changed status is reached along an edge, or along the two of processing -/
  edge : row'.columns.status ≠ row.columns.status →
    row.columns.status.Edge row'.columns.status ∨
      cmd.isProcess = true ∧ row.columns.status.Edge .processing ∧
        PayrollRunStatus.Edge .processing row'.columns.status
  /-- only a rejection leads back to draft -/
  draft : row.columns.status ≠ .draft → row'.columns.status = .draft → cmd.isReject = true
  /-- payslips change in drafts only -/
  payslips : row'.payslips ≠ row.payslips → row.columns.status = .draft

variable {row row' : PayrollRunRow} {cmd : PayrollCommand} {env : Env} {d d' : Store} {id : Id}

/-- Nothing changed. -/
theorem FollowsMachine.refl (cmd : PayrollCommand) (row : PayrollRunRow) :
    FollowsMachine cmd row row :=
  ⟨fun h => absurd rfl h, fun h h' => absurd h' h, fun h => absurd rfl h⟩

/-- Only the status changed, along an edge. -/
theorem FollowsMachine.of_edge {target : PayrollRunStatus}
    (hedge : row.columns.status.Edge target) (hdraft : target = .draft → cmd.isReject = true) :
    FollowsMachine cmd row (row.withStatus target) :=
  ⟨fun _ => .inl hedge, fun _ => hdraft, fun h => absurd rfl h⟩

/-! ## One transaction after the other -/

/-- **One payroll command**, run alone, follows the machine on every run. -/
theorem followsMachine_of_solo {a : Unit} (hal : d.RecordsAligned) (hcreate : cmd.isCreate = false)
    (h : (cmd.program env).solo d = .ok (a, d')) (hrow : d.payrollRuns.lookup id = some row)
    (hrow' : d'.payrollRuns.lookup id = some row') : FollowsMachine cmd row row' := by
  have hinsert : ∀ {k : Id} {row₁ row₂ : PayrollRunRow}, d.payrollRuns.lookup k = some row₁ →
      d'.payrollRuns = d.payrollRuns.insert k row₂ → FollowsMachine cmd row₁ row₂ →
      FollowsMachine cmd row row' := by
    intro k row₁ row₂ hk hd' hfollows
    rw [hd'] at hrow'
    obtain ⟨rfl, rfl⟩ | ⟨-, hrow'⟩ := Table.lookup_insert_cases hrow'
    · obtain rfl := Option.some.inj (hrow.symm.trans hk)
      exact hfollows
    · obtain rfl := Option.some.inj (hrow.symm.trans hrow')
      exact .refl cmd row
  cases cmd with
  | create cmd => cases hcreate
  | addPayslip cmd =>
    obtain ⟨_, h⟩ := Tx.solo_discard_ok.mp h
    obtain ⟨row₁, _, hk, -, -, hdraft, -, -, hd'⟩ := addPayslip_ok h
    refine hinsert hk (congrArg Store.payrollRuns hd') ?_
    exact ⟨fun h => absurd rfl h, fun h => absurd hdraft h, fun _ => hdraft⟩
  | submit cmd =>
    obtain ⟨row₁, hk, -, -, hdraft, -, -, -, hd'⟩ := (@submitPayrollRun_ok env _ _ _ _).mp h
    refine hinsert hk (congrArg Store.payrollRuns hd') (.of_edge ?_ nofun)
    rw [hdraft]
    exact .submitForApproval
  | approve cmd =>
    obtain ⟨row₁, _, _, hk, -, -, -, -, -, -, -, -, hpending, hd'⟩ := (approvePayrollRun_ok hal).mp h
    refine hinsert hk (congrArg Store.payrollRuns hd') ?_
    split_ifs with hlast
    · refine ⟨fun _ => .inl ?_, fun _ => nofun, fun h => absurd rfl h⟩
      rw [hpending hlast]
      exact .approve
    · exact .refl _ row₁
  | reject cmd =>
    obtain ⟨row₁, _, hk, -, -, -, -, hpending, -, hd'⟩ := rejectPayrollRun_ok hal h
    refine hinsert hk (congrArg Store.payrollRuns hd') (.of_edge ?_ fun _ => rfl)
    rw [hpending]
    exact .reject
  | cancel cmd =>
    obtain ⟨row₁, hk, -, hstatus, hd'⟩ := (@cancelPayrollRun_ok env _ _ _ _).mp h
    refine hinsert hk (congrArg Store.payrollRuns hd') (.of_edge ?_ nofun)
    rcases List.mem_pair.mp hstatus with hs | hs
    · rw [hs]
      exact .cancelDraft
    · rw [hs]
      exact .cancelPending
  | process cmd =>
    obtain ⟨row₁, hk, -, happroved, hd'⟩ := (@processPayrollRun_ok env _ _ _ _).mp h
    refine hinsert hk (congrArg Store.payrollRuns hd') ?_
    refine ⟨fun _ => .inr ⟨rfl, ?_, .complete⟩, fun _ => nofun, fun h => absurd rfl h⟩
    rw [happroved]
    exact .startProcessing

/-- The records stay aligned through any transactions that create no run. -/
theorem recordsAligned_of_serial {contenders : ℕ → Env × PayrollCommand} {d₀ : Store}
    {log : List ℕ} (hal : d₀.RecordsAligned)
    (hcreate : ∀ i, (contenders i).2.isCreate = false)
    (hs : System.Serial (fun i => (contenders i).2.program (contenders i).1) d₀ log d) :
    d.RecordsAligned := by
  induction hs with
  | nil => exact hal
  | @snoc log d d' i a _ hsolo ih =>
    have hnew : (contenders i).2.isCreate = true →
        d.payrollRuns.lookup (contenders i).1.uuid = none := by
      rw [hcreate i]
      exact nofun
    obtain ⟨-, -, -, -, -, hprogress⟩ := PayrollCommand.frame ih hnew hsolo
    exact hprogress.aligned ih

/-! ## The result -/

/-- **Current payroll commits follow the machine.** However the transactions are
interleaved: as long as each commits on reads that are still current, every turn
leaves the run as it was or follows the state machine from the status stored
just before it, as the command of the committing session does. -/
theorem payroll_follows_of_current {administration : Administration} {rs : List Request}
    {d₀ : Store} (hr : Runs administration rs d₀) {contenders : ℕ → Env × PayrollCommand}
    (hcreate : ∀ i, (contenders i).2.isCreate = false) {turns : List Turn} {turn : Turn}
    {σ σ' : System Store RowLock Failure Unit}
    (hσ : Reaches System.next System.CommitsCurrent
      (System.init d₀ fun i => (contenders i).2.program (contenders i).1) turns σ)
    (hcurrent : σ.CommitsCurrent turn) (hn : σ.next turn = some σ')
    (hrow : σ.db.payrollRuns.lookup id = some row)
    (hrow' : σ'.db.payrollRuns.lookup id = some row') :
    row' = row ∨ ∃ i, σ'.log = σ.log ++ [i] ∧ FollowsMachine (contenders i).2 row row' := by
  have hal := recordsAligned_of_serial (Runs.wellFormed hr).aligned hcreate
    (System.serial_of_current hσ)
  rcases (System.faithful_of_reaches hσ).solo_of_current hcurrent hn with
    ⟨hdb, -⟩ | ⟨i, a, hsolo, hlog⟩
  · rw [hdb] at hrow'
    exact .inl (Option.some.inj (hrow'.symm.trans hrow))
  · exact .inr ⟨i, hlog, followsMachine_of_solo hal (hcreate i) hsolo hrow hrow'⟩

/-! ## A stale payslip -/

namespace Sample

/-- The run of January is a draft with one payslip. -/
def draftedStore : Store := store [openJanuary, createRun 201, payslipFor 301 201 20]

/-- A payslip of user 21 is added, the run is submitted, 14 approves it, and it is processed. -/
def januarySessions : ℕ → Env × PayrollCommand
  | 0 => (⟨noon, 302, 0⟩, .addPayslip ⟨201, 1, 21, []⟩)
  | 1 => (⟨noon, 0, 0⟩, .submit ⟨201, 1⟩)
  | 2 => (⟨noon, 0, 0⟩, .approve ⟨201, 1, 14⟩)
  | _ => (⟨noon, 0, 0⟩, .process ⟨201, 1⟩)

/-- The payslip's transaction loads the draft, then the run is submitted and
approved, then the payslip's transaction saves its copy. -/
def stalePayslip : List Turn :=
  List.replicate 4 (.step 0) ++ List.replicate 8 (.step 1) ++ List.replicate 14 (.step 2) ++
    List.replicate 4 (.step 0)

/-- The competition of the four. -/
def payrollSystem : System Store RowLock Failure Unit :=
  .init draftedStore fun i => (januarySessions i).2.program (januarySessions i).1

theorem januarySessions_isCreate (i : ℕ) : (januarySessions i).2.isCreate = false := by
  simp only [januarySessions]
  split
  · rfl
  · rfl
  · rfl
  · rfl

end Sample

namespace Sample

/-- The payslip's transaction loads the draft, then the run is submitted and approved, the
payslip's transaction is killed, and the run is about to be processed. -/
def killedPayslip : List Turn :=
  List.replicate 4 (.step 0) ++ List.replicate 8 (.step 1) ++
    (List.replicate 14 (.step 2) ++ [.kill 0]) ++ List.replicate 5 (.step 3)

theorem killedPayslip_current : ∃ σ, Reaches System.next System.CommitsCurrent payrollSystem
    (killedPayslip ++ [.step 3]) σ ∧ σ.log = [1, 2, 3] := by
  have h₁ : ∃ σ, Reaches System.next System.CommitsCurrent payrollSystem
      (List.replicate 4 (.step 0) ++ List.replicate 8 (.step 1)) σ ∧ σ.log = [1] :=
    System.exists_reaches_fresh_commit 1 _ ⟨_, .nil, rfl⟩ (by decide) (by decide +kernel)
  have h₂ := System.exists_reaches_fresh_commit 2 (List.replicate 14 (.step 2) ++ [.kill 0]) h₁
    (by decide) (by decide +kernel)
  exact System.exists_reaches_fresh_commit 3 (List.replicate 6 (.step 3)) h₂ (by decide)
    (by decide +kernel)

end Sample

/-- The third commit of the run processes it, along two edges; a payslip was under way all the
time. -/
theorem payroll_follows_of_current_sample :
    ∃ row row' : PayrollRunRow, row.columns.status = .approved ∧
      row'.columns.status = .completed ∧
      FollowsMachine (Sample.januarySessions 3).2 row row' := by
  have hbefore : (runLabels System.next Sample.payrollSystem Sample.killedPayslip).map
        (fun σ => (σ.log, (σ.db.payrollRuns.lookup 201).map fun row => row.columns.status)) =
      some ([1, 2], some .approved) := by
    decide +kernel
  have hafter : (runLabels System.next Sample.payrollSystem
      (Sample.killedPayslip ++ [.step 3])).map
        (fun σ => (σ.db.payrollRuns.lookup 201).map fun row => row.columns.status) =
      some (some .completed) := by
    decide +kernel
  obtain ⟨σ', hσ', hlog'⟩ := Sample.killedPayslip_current
  rw [hσ'.runLabels_eq, Option.map_some, Option.some.injEq, Option.map_eq_some_iff] at hafter
  obtain ⟨row', hrow', hs'⟩ := hafter
  obtain ⟨σ, hσ, hok, hn⟩ := hσ'.of_snoc
  rw [hσ.runLabels_eq, Option.map_some, Option.some.injEq, Prod.mk.injEq,
    Option.map_eq_some_iff] at hbefore
  obtain ⟨hlog, row, hrow, hs⟩ := hbefore
  rcases payroll_follows_of_current (Sample.runs (by decide +kernel))
    Sample.januarySessions_isCreate hσ hok hn hrow hrow' with hsame | ⟨i, hi, hfollows⟩
  · rw [hsame, hs] at hs'
    cases hs'
  · rw [hlog, hlog'] at hi
    obtain rfl : 3 = i := by simpa using hi
    exact ⟨row, row', hs, hs', hfollows⟩

/-- **A payslip reopens an approved run**: its commit finds the run approved and
leaves it a draft with one payslip more. -/
theorem payroll_leaves_machine :
    Runs Sample.administration [Sample.openJanuary, Sample.createRun 201,
      Sample.payslipFor 301 201 20] Sample.draftedStore ∧
    ∃ (σ σ' : System Store RowLock Failure Unit) (row row' : PayrollRunRow),
      Reaches System.next (fun _ _ => True) Sample.payrollSystem Sample.stalePayslip σ ∧
      σ.next (.step 0) = some σ' ∧ σ'.log = σ.log ++ [0] ∧
      σ.db.payrollRuns.lookup 201 = some row ∧ σ'.db.payrollRuns.lookup 201 = some row' ∧
      row.columns.status = .approved ∧ row.payslips.map PayslipProps.employeeId = [20] ∧
      row'.columns.status = .draft ∧ row'.payslips.map PayslipProps.employeeId = [20, 21] ∧
      ¬ FollowsMachine (Sample.januarySessions 0).2 row row' := by
  have hbefore : (runLabels System.next Sample.payrollSystem Sample.stalePayslip).map
        (fun σ => (σ.log, (σ.db.payrollRuns.lookup 201).map fun row =>
          (row.columns.status, row.payslips.map PayslipProps.employeeId))) =
      some ([1, 2], some (.approved, [20])) := by
    decide +kernel
  have hafter : (runLabels System.next Sample.payrollSystem
      (Sample.stalePayslip ++ [.step 0])).map
        (fun σ => (σ.log, (σ.db.payrollRuns.lookup 201).map fun row =>
          (row.columns.status, row.payslips.map PayslipProps.employeeId))) =
      some ([1, 2, 0], some (.draft, [20, 21])) := by
    decide +kernel
  obtain ⟨σ', hσ', hfacts'⟩ := Option.map_eq_some_iff.mp hafter
  obtain ⟨σ₀, hσ₀, hfacts⟩ := Option.map_eq_some_iff.mp hbefore
  simp only [Prod.mk.injEq, Option.map_eq_some_iff] at hfacts hfacts'
  obtain ⟨hlog', row', hrow', hs', hp'⟩ := hfacts'
  obtain ⟨hlog, row, hrow, hs, hp⟩ := hfacts
  obtain ⟨σ, hσ, -, hn⟩ := (reaches_of_runLabels hσ').of_snoc
  obtain rfl := Option.some.inj (hσ.runLabels_eq.symm.trans hσ₀)
  refine ⟨Sample.runs (by decide +kernel), σ, σ', row, row', hσ, hn, by rw [hlog', hlog]; rfl, hrow,
    hrow', hs, hp, hs', hp', fun h => ?_⟩
  have hreject := h.draft (by rw [hs]; exact nofun) hs'
  cases hreject

end RatelPlatform
