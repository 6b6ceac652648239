import RatelPlatform.ApprovedExpenses

/-!
# Approved payroll runs are signed off

The status of a run, its approver columns, its payslips and its progress are
written by different commands. What ties them together is said here of every run
that is approved, being processed or completed: each step of its chain was
approved by a finance director who did not create it, the columns name the last
of them, and its payslips are those it was submitted with.

A rejection sends a run back to draft and leaves a record behind. Such a run is
never submitted again, so no approved run carries a record of a rejection.
-/

namespace RatelPlatform

/-- The request submits the draft, with these payslips. -/
def SubmitsRun (id : Id) (payslips : List PayslipProps) (d : Store) (request : Request)
    (d' : Store) : Prop :=
  (∃ organizationId, request.command = .payroll (.submit ⟨id, organizationId⟩)) ∧
    ∃ row, d.payrollRuns.lookup id = some row ∧ row.columns.status = .draft ∧
      row.payslips = payslips ∧ d'.payrollRuns.lookup id = some (row.withStatus .pendingApproval)

/-- The request is an approval by a finance director, and adds the record. -/
def DirectorApproves (id : Id) (r : ApprovalRecord) (d : Store) (request : Request)
    (d' : Store) : Prop :=
  (∃ organizationId, request.command = .payroll (.approve ⟨id, organizationId, r.approverId⟩)) ∧
    d'.recordsOf id = d.recordsOf id ++ [r] ∧
    ∃ role ∈ d.administration.rolesOf r.approverId, role.role = .financeDirector

/-- **What stands behind an approved run.** -/
structure RunSignedOff (administration : Administration) (rs : List Request) (id : Id)
    (row : PayrollRunRow) (prow : ApprovalProgressRow) : Prop where
  /-- the chain is the one the policy resolves -/
  chain : ∀ item, prow.chain = (PayrollApprovalPolicy.resolveChain item).steps
  /-- a record for every step, in order -/
  complete : prow.records.map ApprovalRecord.stepOrder = prow.chain.map ApprovalStep.order
  /-- nobody rejected -/
  approved : ∀ r ∈ prow.records, r.decision = .approved
  /-- nobody approved the run they created -/
  others : ∀ r ∈ prow.records, r.approverId ≠ row.columns.createdById
  /-- everybody was a finance director when they decided -/
  directors : ∀ r ∈ prow.records, HappenedIn administration rs (DirectorApproves id r)
  /-- the columns name the approver of the last step -/
  approver : row.columns.approvedById = prow.records.getLast?.map ApprovalRecord.approverId
  /-- and when they decided -/
  approvedAt : row.columns.approvedAt = prow.records.getLast?.map ApprovalRecord.decidedAt
  /-- there is a last step -/
  decided : prow.records ≠ []
  /-- the payslips are those of the submission -/
  payslips : ∀ payslips, HappenedIn administration rs (SubmitsRun id payslips) ↔
    payslips = row.payslips
  /-- one payslip an employee -/
  employees : (row.payslips.map PayslipProps.employeeId).Nodup

/-- The statuses of a run that has been approved. -/
def PayrollRunStatus.isApproved : PayrollRunStatus → Bool
  | .approved => true
  | .processing => true
  | .completed => true
  | _ => false

variable {administration : Administration} {rs : List Request} {d d' : Store} {id : Id}
  {row : PayrollRunRow} {prow : ApprovalProgressRow} {request : Request}

/-- A run that goes on keeps its decisions. -/
theorem HappenedIn.snoc {P : Store → Request → Store → Prop} (hr : Runs administration rs d)
    (hn : next d request = some d') (h : HappenedIn administration rs P) :
    HappenedIn administration (rs ++ [request]) P :=
  (happened_snoc_iff hr hn).mpr (.inl h)

/-! ## Submissions -/

/-- Unless the step submits the run, its submissions are the earlier ones. -/
theorem submissions_snoc_iff (hr : Runs administration rs d) (hn : next d request = some d')
    (hnot : ∀ payslips, ¬ SubmitsRun id payslips d request d') (payslips : List PayslipProps) :
    HappenedIn administration (rs ++ [request]) (SubmitsRun id payslips) ↔
      HappenedIn administration rs (SubmitsRun id payslips) := by
  rw [HappenedIn, happened_snoc_iff hr hn]
  exact or_iff_left (hnot payslips)

/-- A request that changes nothing submits nothing. -/
theorem not_submitsRun_self (payslips : List PayslipProps) : ¬ SubmitsRun id payslips d request d := by
  rintro ⟨-, row, hrow, hdraft, -, hrow'⟩
  rw [Option.some.inj (hrow.symm.trans hrow')] at hdraft
  cases hdraft

/-- A submission starts the approval progress. -/
theorem SubmitsRun.progress {payslips : List PayslipProps} (hn : next d request = some d')
    (h : SubmitsRun id payslips d request d') :
    d'.approvalProgress.lookup id = some ⟨"PayrollRun", payrollChain, []⟩ := by
  obtain ⟨-, ⟨-, rfl⟩ | hsolo⟩ := next_cases hn
  · exact absurd h (not_submitsRun_self _)
  obtain ⟨⟨organizationId, hcommand⟩, -⟩ := h
  rw [hcommand] at hsolo
  obtain ⟨_, -, -, -, -, -, -, -, rfl⟩ := (@submitPayrollRun_ok request.env _ _ _ _).mp hsolo
  exact Finmap.lookup_insert _

/-- No step deletes a progress. -/
theorem progress_kept (hwf : d.WellFormed) (hn : next d request = some d')
    (hnone : d'.approvalProgress.lookup id = none) : d.approvalProgress.lookup id = none := by
  have hkept : ∀ id', d.ProgressOf d' id' → d.approvalProgress.lookup id = none := by
    intro id' h
    rcases h with h | ⟨prow, -, h⟩
    · rw [← h]
      exact hnone
    · rw [h, Table.lookup_insert_ite] at hnone
      split_ifs at hnone with hid
      exact hnone
  obtain ⟨hfresh, ⟨-, rfl⟩ | h⟩ := next_cases hn
  · exact hnone
  obtain ⟨env, command⟩ := request
  cases command with
  | administer a =>
    obtain ⟨_, hp, rfl⟩ := Tx.solo_exec_ok.mp h
    cases hp
    exact hnone
  | period cmd =>
    obtain ⟨_, _, rfl⟩ := PeriodCommand.frame h
    exact hnone
  | expense cmd =>
    obtain ⟨-, -, -, -, -, hprogress⟩ := ExpenseCommand.frame hwf.aligned hfresh h
    exact hkept _ hprogress
  | payroll cmd =>
    obtain ⟨-, -, -, -, -, hprogress⟩ :=
      PayrollCommand.frame hwf.aligned (fun _ => Finmap.lookup_eq_none.mpr hfresh.2.2.2) h
    exact hkept _ hprogress

/-- An item without a progress was never submitted. -/
theorem Runs.unsubmitted (hr : Runs administration rs d)
    (hnone : d.approvalProgress.lookup id = none) (payslips : List PayslipProps) :
    ¬ HappenedIn administration rs (SubmitsRun id payslips) := by
  revert hnone
  refine hr.invariant_along (P := fun rs d => d.approvalProgress.lookup id = none →
    ¬ HappenedIn administration rs (SubmitsRun id payslips)) (fun _ => not_happened_nil) ?_
  intro rs d request d' hr ih _ hn hnone
  rw [HappenedIn, happened_snoc_iff hr hn]
  rintro (hbefore | hnow)
  · exact ih (progress_kept (Runs.wellFormed hr) hn hnone) hbefore
  · rw [hnow.progress hn] at hnone
    cases hnone

/-! ## The invariant -/

/-- What a run of commands makes of a payroll run, by its status. -/
structure RunInvariant (administration : Administration) (rs : List Request) (d : Store)
    (id : Id) (row : PayrollRunRow) : Prop where
  /-- one payslip an employee -/
  employees : (row.payslips.map PayslipProps.employeeId).Nodup
  /-- a progress has the chain of the policy -/
  chain : ∀ prow, d.approvalProgress.lookup id = some prow → prow.chain = payrollChain
  /-- a draft has no progress, or one that ended in a rejection -/
  draft : row.columns.status = .draft → ∀ prow, d.approvalProgress.lookup id = some prow →
    prow.records ≠ []
  /-- a pending run has a progress without decisions, and the submitted payslips -/
  pending : row.columns.status = .pendingApproval →
    (∃ prow, d.approvalProgress.lookup id = some prow ∧ prow.records = []) ∧
    ∀ payslips, HappenedIn administration rs (SubmitsRun id payslips) ↔ payslips = row.payslips
  /-- an approved run is signed off -/
  approved : row.columns.status.isApproved = true →
    ∃ prow, d.approvalProgress.lookup id = some prow ∧
      RunSignedOff administration rs id row prow

/-- Being signed off outlasts every step that is no submission of the run. -/
theorem RunSignedOff.snoc (h : RunSignedOff administration rs id row prow)
    (hr : Runs administration rs d) (hn : next d request = some d')
    (hnot : ∀ payslips, ¬ SubmitsRun id payslips d request d') :
    RunSignedOff administration (rs ++ [request]) id row prow :=
  { h with
    directors := fun r hmem => (h.directors r hmem).snoc hr hn
    payslips := fun payslips => by rw [submissions_snoc_iff hr hn hnot, h.payslips] }

/-- Steps that leave the run and its progress alone keep its invariant. -/
theorem RunInvariant.frame (h : RunInvariant administration rs d id row)
    (hr : Runs administration rs d) (hn : next d request = some d')
    (hnot : ∀ payslips, ¬ SubmitsRun id payslips d request d')
    (hprogress : d'.approvalProgress.lookup id = d.approvalProgress.lookup id) :
    RunInvariant administration (rs ++ [request]) d' id row where
  employees := h.employees
  chain := by
    rw [hprogress]
    exact h.chain
  draft := by
    rw [hprogress]
    exact h.draft
  pending := by
    rw [hprogress]
    intro hs
    refine ⟨(h.pending hs).1, fun payslips => ?_⟩
    rw [submissions_snoc_iff hr hn hnot]
    exact (h.pending hs).2 payslips
  approved := by
    rw [hprogress]
    intro hs
    obtain ⟨prow, hprow, hoff⟩ := h.approved hs
    exact ⟨prow, hprow, hoff.snoc hr hn hnot⟩

/-- The chain has one step, for a finance director. -/
theorem payrollChain_stepAt {n : ℕ} {step : ApprovalStep}
    (h : (ApprovalChain.of payrollChain).stepAt (n + 1) = some step) :
    n = 0 ∧ step.requiredRole = .financeDirector := by
  have hsteps : (ApprovalChain.of payrollChain).steps = [⟨1, .financeDirector, .organization⟩] := rfl
  rw [ApprovalChain.stepAt, hsteps, List.find?_singleton] at h
  split_ifs at h with horder
  have hone : 1 = n + 1 := of_decide_eq_true horder
  refine ⟨by omega, ?_⟩
  rw [← Option.some.inj h]

/-- Only a submit command submits a run. -/
theorem not_submitsRun (h : ∀ organizationId,
    request.command ≠ .payroll (.submit ⟨id, organizationId⟩)) (payslips : List PayslipProps) :
    ¬ SubmitsRun id payslips d request d' := by
  rintro ⟨⟨organizationId, hcommand⟩, -⟩
  exact h organizationId hcommand

/-- **The step of an approval**: it finds the run pending and without a decision,
and signs it off. -/
theorem RunInvariant.approve {env : Env} {cmd : ApprovePayrollRunCommand} {row' : PayrollRunRow}
    (hr : Runs administration rs d) (hn : next d ⟨env, .payroll (.approve cmd)⟩ = some d')
    (h : (approvePayrollRun env cmd).solo d = .ok ((), d'))
    (hinv : ∀ row, d.payrollRuns.lookup cmd.payrollRunId = some row →
      RunInvariant administration rs d cmd.payrollRunId row)
    (hrow' : d'.payrollRuns.lookup cmd.payrollRunId = some row') :
    RunInvariant administration (rs ++ [⟨env, .payroll (.approve cmd)⟩]) d' cmd.payrollRunId
      row' := by
  obtain ⟨row, prow, step, hrow, -, -, hprow, -, hself, -, hstep, ⟨a, ha, hrole, -⟩, hpending, hd'⟩ :=
    (approvePayrollRun_ok (Runs.wellFormed hr).aligned).mp h
  have hbefore := hinv row hrow
  have hchain := hbefore.chain prow hprow
  rw [hchain] at hstep
  obtain ⟨hlength, hdirector⟩ := payrollChain_stepAt hstep
  have hrecords : prow.records = [] := List.length_eq_zero_iff.mp hlength
  have hfinal : (ApprovalChain.of prow.chain).isLastStep (prow.records.length + 1) = true := by
    rw [hchain, hrecords]
    decide
  have hprow' : d'.approvalProgress.lookup cmd.payrollRunId =
      some { prow with records := prow.records ++ [payrollApprovalOf env cmd prow] } := by
    rw [hd', Store.decided]
    exact Finmap.lookup_insert _
  have hlookup : d'.payrollRuns.lookup cmd.payrollRunId =
      some (row.approvedBy cmd.approverId env.now) := by
    rw [hd', if_pos hfinal]
    exact Finmap.lookup_insert _
  obtain rfl := Option.some.inj (hrow'.symm.trans hlookup)
  have hnot : ∀ payslips, ¬ SubmitsRun cmd.payrollRunId payslips d ⟨env, .payroll (.approve cmd)⟩
      d' := not_submitsRun fun _ h => by cases h
  -- the record this step adds, by a director who is one at this moment
  have happroves : DirectorApproves cmd.payrollRunId (payrollApprovalOf env cmd prow) d
      ⟨env, .payroll (.approve cmd)⟩ d' := by
    refine ⟨⟨cmd.organizationId, rfl⟩, ?_, a, ha, hrole.trans hdirector⟩
    rw [Store.recordsOf, Store.recordsOf, hprow, hprow']
    rfl
  refine ⟨hbefore.employees, fun p hp => ?_, ?_, ?_, fun _ => ⟨_, hprow', ?_⟩⟩
  · rw [hprow'] at hp
    rw [← Option.some.inj hp]
    exact hchain
  · intro hdraft
    cases hdraft
  · intro hwaiting
    cases hwaiting
  · rw [hrecords]
    have hone : ∀ r ∈ [payrollApprovalOf env cmd prow], r = payrollApprovalOf env cmd prow :=
      fun r hr => List.mem_singleton.mp hr
    refine
      { chain := fun item => ?_
        complete := ?_
        approved := fun r hmem => ?_
        others := fun r hmem => ?_
        directors := fun r hmem => ?_
        approver := rfl
        approvedAt := rfl
        decided := List.cons_ne_nil _ _
        payslips := fun payslips => ?_
        employees := hbefore.employees }
    · rw [payrollChain_eq]
      exact hchain
    · rw [List.nil_append, hchain, List.map_singleton, payrollApprovalOf, hrecords]
      rfl
    · rw [hone r hmem]
      rfl
    · rw [hone r hmem]
      exact Ne.symm hself
    · rw [hone r hmem, HappenedIn, happened_snoc_iff hr hn]
      exact .inr happroves
    · rw [submissions_snoc_iff hr hn hnot]
      exact (hbefore.pending (hpending hfinal)).2 payslips

/-- **The step of a submission**: it starts the progress, and is the only submission
so far. -/
theorem RunInvariant.submit {env : Env} {cmd : SubmitPayrollRunCommand} {row' : PayrollRunRow}
    (hr : Runs administration rs d) (hn : next d ⟨env, .payroll (.submit cmd)⟩ = some d')
    (h : (submitPayrollRun env cmd).solo d = .ok ((), d'))
    (hinv : ∀ row, d.payrollRuns.lookup cmd.payrollRunId = some row →
      RunInvariant administration rs d cmd.payrollRunId row)
    (hrow' : d'.payrollRuns.lookup cmd.payrollRunId = some row') :
    RunInvariant administration (rs ++ [⟨env, .payroll (.submit cmd)⟩]) d' cmd.payrollRunId
      row' := by
  obtain ⟨row, hrow, -, -, hdraft, -, -, hnone, hd'⟩ := (@submitPayrollRun_ok env _ _ _ _).mp h
  have hlookup : d'.payrollRuns.lookup cmd.payrollRunId =
      some (row.withStatus .pendingApproval) := by
    rw [hd']
    exact Finmap.lookup_insert _
  have hprow : d'.approvalProgress.lookup cmd.payrollRunId =
      some ⟨"PayrollRun", payrollChain, []⟩ := by
    rw [hd']
    exact Finmap.lookup_insert _
  obtain rfl := Option.some.inj (hrow'.symm.trans hlookup)
  refine ⟨(hinv row hrow).employees, fun p hp => ?_, nofun, fun _ => ⟨⟨_, hprow, rfl⟩, ?_⟩, nofun⟩
  · rw [hprow] at hp
    rw [← Option.some.inj hp]
  · -- there was no submission before, and this one is of these payslips
    intro payslips
    refine (happened_snoc_iff hr hn).trans
      ((or_iff_right (Runs.unsubmitted hr hnone payslips)).trans ?_)
    refine ⟨?_, ?_⟩
    · rintro ⟨-, row₁, hrow₁, -, rfl, -⟩
      obtain rfl := Option.some.inj (hrow.symm.trans hrow₁)
      rfl
    · rintro rfl
      exact ⟨⟨cmd.organizationId, rfl⟩, row, hrow, hdraft, rfl, hlookup⟩

/-- **The step of the processing**: it finds the run signed off, and leaves it so. -/
theorem RunInvariant.process {env : Env} {cmd : ProcessPayrollRunCommand} {row' : PayrollRunRow}
    (hr : Runs administration rs d) (hn : next d ⟨env, .payroll (.process cmd)⟩ = some d')
    (h : (processPayrollRun env cmd).solo d = .ok ((), d'))
    (hinv : ∀ row, d.payrollRuns.lookup cmd.payrollRunId = some row →
      RunInvariant administration rs d cmd.payrollRunId row)
    (hrow' : d'.payrollRuns.lookup cmd.payrollRunId = some row') :
    RunInvariant administration (rs ++ [⟨env, .payroll (.process cmd)⟩]) d' cmd.payrollRunId
      row' := by
  obtain ⟨row, hrow, -, happroved, hd'⟩ := (@processPayrollRun_ok env _ _ _ _).mp h
  have hlookup : d'.payrollRuns.lookup cmd.payrollRunId = some (row.withStatus .completed) := by
    rw [hd']
    exact Finmap.lookup_insert _
  have hprogress : d'.approvalProgress = d.approvalProgress := by
    rw [hd']
  obtain rfl := Option.some.inj (hrow'.symm.trans hlookup)
  have hbefore := hinv row hrow
  obtain ⟨prow, hprow, hoff⟩ := hbefore.approved (by rw [happroved]; rfl)
  have hnot : ∀ payslips, ¬ SubmitsRun cmd.payrollRunId payslips d
      ⟨env, .payroll (.process cmd)⟩ d' := not_submitsRun nofun
  have hafter := hoff.snoc hr hn hnot
  refine ⟨hbefore.employees, ?_, nofun, nofun, fun _ => ⟨prow, ?_, ?_⟩⟩
  · rw [hprogress]
    exact hbefore.chain
  · rw [hprogress]
    exact hprow
  · exact { hafter with }

/-- **One payroll command** keeps the invariant of the run it is about. -/
theorem RunInvariant.own {env : Env} {cmd : PayrollCommand} {row' : PayrollRunRow}
    (hr : Runs administration rs d) (hn : next d ⟨env, .payroll cmd⟩ = some d')
    (hfresh : d.Fresh env.uuid) (h : (cmd.program env).solo d = .ok ((), d'))
    (hinv : ∀ id row, d.payrollRuns.lookup id = some row →
      RunInvariant administration rs d id row)
    (hrow' : d'.payrollRuns.lookup (cmd.subject env) = some row') :
    RunInvariant administration (rs ++ [⟨env, .payroll cmd⟩]) d' (cmd.subject env) row' := by
  have hal := (Runs.wellFormed hr).aligned
  cases cmd with
  | create cmd =>
    obtain ⟨_, h⟩ := Tx.solo_discard_ok.mp h
    obtain ⟨_, -, rfl⟩ := createPayrollRun_ok (Finmap.lookup_eq_none.mpr hfresh.2.2.2) h
    obtain rfl := Option.some.inj (hrow'.symm.trans (Finmap.lookup_insert _))
    have hnone := Finmap.lookup_eq_none.mpr hfresh.2.2.1
    refine ⟨List.nodup_nil, fun p hp => ?_, fun _ p hp => ?_, nofun, nofun⟩
    · cases hnone.symm.trans hp
    · cases hnone.symm.trans hp
  | addPayslip cmd =>
    obtain ⟨_, h⟩ := Tx.solo_discard_ok.mp h
    obtain ⟨row, p, hrow, -, -, hdraft, -, hnew, rfl⟩ := addPayslip_ok h
    obtain rfl := Option.some.inj (hrow'.symm.trans (Finmap.lookup_insert _))
    have hbefore := hinv _ row hrow
    refine ⟨?_, hbefore.chain, fun _ => hbefore.draft hdraft, fun hs => ?_, fun hs => ?_⟩
    · rw [List.map_append, List.nodup_append]
      refine ⟨hbefore.employees, List.nodup_singleton _, fun e he e' he' heq => ?_⟩
      rw [List.map_singleton, List.mem_singleton] at he'
      exact hnew (he' ▸ heq ▸ he)
    · cases hdraft.symm.trans hs
    · have : row.columns.status.isApproved = true := hs
      rw [hdraft] at this
      cases this
  | submit cmd => exact RunInvariant.submit hr hn h (hinv cmd.payrollRunId) hrow'
  | approve cmd => exact RunInvariant.approve hr hn h (hinv cmd.payrollRunId) hrow'
  | reject cmd =>
    obtain ⟨row, prow, hrow, -, -, hprow, -, -, -, rfl⟩ := rejectPayrollRun_ok hal h
    obtain rfl := Option.some.inj (hrow'.symm.trans (Finmap.lookup_insert _))
    have hbefore := hinv _ row hrow
    refine ⟨hbefore.employees, fun p hp => ?_, fun _ p hp => ?_, nofun, nofun⟩
    · rw [← Option.some.inj ((Finmap.lookup_insert _).symm.trans hp)]
      exact hbefore.chain prow hprow
    · rw [← Option.some.inj ((Finmap.lookup_insert _).symm.trans hp)]
      exact List.append_ne_nil_of_right_ne_nil _ (List.cons_ne_nil _ _)
  | cancel cmd =>
    obtain ⟨row, hrow, -, -, rfl⟩ := (@cancelPayrollRun_ok env _ _ _ _).mp h
    obtain rfl := Option.some.inj (hrow'.symm.trans (Finmap.lookup_insert _))
    have hbefore := hinv _ row hrow
    exact ⟨hbefore.employees, hbefore.chain, nofun, nofun, nofun⟩
  | process cmd => exact RunInvariant.process hr hn h (hinv cmd.payrollRunId) hrow'

/-- **One request** keeps the invariant of every payroll run. -/
theorem RunInvariant.next (hr : Runs administration rs d) (hn : next d request = some d')
    (hinv : ∀ id row, d.payrollRuns.lookup id = some row →
      RunInvariant administration rs d id row)
    (hrow : d'.payrollRuns.lookup id = some row) :
    RunInvariant administration (rs ++ [request]) d' id row := by
  obtain ⟨hfresh, ⟨-, rfl⟩ | h⟩ := next_cases hn
  · exact (hinv id row hrow).frame hr hn not_submitsRun_self rfl
  obtain ⟨env, command⟩ := request
  cases command with
  | administer a =>
    obtain ⟨_, hp, rfl⟩ := Tx.solo_exec_ok.mp h
    cases hp
    exact (hinv id row hrow).frame hr hn (not_submitsRun nofun) rfl
  | period cmd =>
    obtain ⟨_, _, rfl⟩ := PeriodCommand.frame h
    exact (hinv id row hrow).frame hr hn (not_submitsRun nofun) rfl
  | expense cmd =>
    obtain ⟨-, -, hruns, -, -, hprogress⟩ :=
      ExpenseCommand.frame (Runs.wellFormed hr).aligned hfresh h
    rw [hruns] at hrow
    have hmem : id ∈ d.payrollRuns := Finmap.mem_of_lookup_eq_some hrow
    have hid := ExpenseCommand.subject_ne (Runs.wellFormed hr) hfresh h hmem
    exact (hinv id row hrow).frame hr hn (not_submitsRun nofun) (hprogress.lookup_ne hid)
  | payroll cmd =>
    obtain ⟨-, -, -, ⟨row₁, hrows⟩, -, hprogress⟩ := PayrollCommand.frame
      (Runs.wellFormed hr).aligned (fun _ => Finmap.lookup_eq_none.mpr hfresh.2.2.2) h
    by_cases hid : id = cmd.subject env
    · subst hid
      exact RunInvariant.own hr hn hfresh h hinv hrow
    · have hrow₀ := hrow
      rw [hrows, Finmap.lookup_insert_of_ne _ hid] at hrow₀
      refine (hinv id row hrow₀).frame hr hn ?_ (hprogress.lookup_ne hid)
      refine not_submitsRun fun organizationId hcommand => hid ?_
      rw [Command.payroll.inj hcommand]
      rfl

/-- The invariant holds of every payroll run of every reachable store. -/
theorem Runs.runInvariant (hr : Runs administration rs d) :
    ∀ id row, d.payrollRuns.lookup id = some row → RunInvariant administration rs d id row := by
  refine hr.invariant_along (P := fun rs d => ∀ id row, d.payrollRuns.lookup id = some row →
    RunInvariant administration rs d id row) ?_ ?_
  · intro id row hrow
    cases hrow
  · intro rs d request d' hr hinv _ hn id row hrow
    exact RunInvariant.next hr hn hinv hrow

/-! ## The result -/

/-- **Approved payroll runs are signed off**, and stay so while they are processed. -/
theorem approvedRun_signedOff (hr : Runs administration rs d)
    (hrow : d.payrollRuns.lookup id = some row) (happroved : row.columns.status.isApproved = true) :
    ∃ prow, d.approvalProgress.lookup id = some prow ∧
      RunSignedOff administration rs id row prow :=
  (Runs.runInvariant hr id row hrow).approved happroved

/-- A run with one payslip that user 14 approves. -/
def Sample.approvedRun : List Request :=
  [openJanuary, createRun 201, payslipFor 301 201 20, submitRun 201, approveRun 201 14]

theorem approvedRun_signedOff_sample : ∃ row prow,
    (Sample.store Sample.approvedRun).payrollRuns.lookup 201 = some row ∧
      (Sample.store Sample.approvedRun).approvalProgress.lookup 201 = some prow ∧
      RunSignedOff Sample.administration Sample.approvedRun 201 row prow := by
  have happroved : ((Sample.store Sample.approvedRun).payrollRuns.lookup 201).map
      (fun row => row.columns.status) = some .approved := by
    decide +kernel
  obtain ⟨row, hrow, hstatus⟩ := Option.map_eq_some_iff.mp happroved
  obtain ⟨prow, hprow, hoff⟩ :=
    approvedRun_signedOff (Sample.runs (by decide +kernel)) hrow (by rw [hstatus]; rfl)
  exact ⟨row, prow, hrow, hprow, hoff⟩

end RatelPlatform
