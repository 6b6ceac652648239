import RatelPlatform.Commands

/-!
# Submitting a payroll run again

A rejected run goes back to draft, to be corrected and submitted again. Its
approval progress, keyed uniquely by the run, stays behind: the first submission
of a run goes through and leads to its approval, and after a rejection none does.
-/

namespace RatelPlatform

/-- Every payslip of every run is in naira. -/
def Store.PayslipsInNaira (d : Store) : Prop :=
  ∀ id row, d.payrollRuns.lookup id = some row → ∀ p ∈ row.payslips, p.grossPay.currency = .NGN

variable {administration : Administration} {rs : List Request} {d d' : Store} {id : Id}
  {row : PayrollRunRow}

/-- Changing a row without its payslips keeps the currency. -/
theorem Store.PayslipsInNaira.insert {k : Id} (h : d.PayslipsInNaira)
    (hrow : ∀ p ∈ row.payslips, p.grossPay.currency = .NGN)
    (hd' : d'.payrollRuns = d.payrollRuns.insert k row) : d'.PayslipsInNaira := by
  intro id' row' hrow' p hp
  rw [hd'] at hrow'
  obtain ⟨-, rfl⟩ | ⟨-, hrow'⟩ := Table.lookup_insert_cases hrow'
  · exact hrow p hp
  · exact h id' row' hrow' p hp

theorem Store.PayslipsInNaira.keep {k : Id} {row' : PayrollRunRow} (h : d.PayslipsInNaira)
    (hrow : d.payrollRuns.lookup k = some row)
    (hd' : d'.payrollRuns = d.payrollRuns.insert k row') (hsame : row'.payslips = row.payslips) :
    d'.PayslipsInNaira := by
  refine h.insert ?_ hd'
  rw [hsame]
  exact h k row hrow

/-- **One payroll command** keeps the currency of the payslips. -/
theorem Store.PayslipsInNaira.payroll {env : Env} {cmd : PayrollCommand} {a : Unit}
    (hal : d.RecordsAligned) (hfresh : d.Fresh env.uuid) (hnaira : d.PayslipsInNaira)
    (h : (cmd.program env).solo d = .ok (a, d')) : d'.PayslipsInNaira := by
  cases cmd with
  | create cmd =>
    obtain ⟨_, h⟩ := Tx.solo_discard_ok.mp h
    obtain ⟨_, -, hd'⟩ := createPayrollRun_ok (Finmap.lookup_eq_none.mpr hfresh.2.2.2) h
    exact hnaira.insert (fun _ hp => (List.not_mem_nil hp).elim) (congrArg Store.payrollRuns hd')
  | addPayslip cmd =>
    obtain ⟨_, h⟩ := Tx.solo_discard_ok.mp h
    obtain ⟨row, p, hrow, -, -, -, hcur, -, hd'⟩ := addPayslip_ok h
    refine hnaira.insert ?_ (congrArg Store.payrollRuns hd')
    intro q hq
    rcases List.mem_append.mp hq with hq | hq
    · exact hnaira _ row hrow q hq
    · rw [List.mem_singleton.mp hq]
      exact hcur
  | submit cmd =>
    obtain ⟨row, hrow, -, -, -, -, -, -, hd'⟩ := (@submitPayrollRun_ok env _ _ _ _).mp h
    exact hnaira.keep hrow (congrArg Store.payrollRuns hd') rfl
  | approve cmd =>
    obtain ⟨row, _, _, hrow, -, -, -, -, -, -, -, -, -, hd'⟩ := (approvePayrollRun_ok hal).mp h
    refine hnaira.keep hrow (congrArg Store.payrollRuns hd') ?_
    split_ifs
    · rfl
    · rfl
  | reject cmd =>
    obtain ⟨row, _, hrow, -, -, -, -, -, -, hd'⟩ := rejectPayrollRun_ok hal h
    exact hnaira.keep hrow (congrArg Store.payrollRuns hd') rfl
  | cancel cmd =>
    obtain ⟨row, hrow, -, -, hd'⟩ := (@cancelPayrollRun_ok env _ _ _ _).mp h
    exact hnaira.keep hrow (congrArg Store.payrollRuns hd') rfl
  | process cmd =>
    obtain ⟨row, hrow, -, -, hd'⟩ := (@processPayrollRun_ok env _ _ _ _).mp h
    exact hnaira.keep hrow (congrArg Store.payrollRuns hd') rfl

theorem Store.PayslipsInNaira.next {r : Request} (hwf : d.WellFormed) (h : d.PayslipsInNaira)
    (hn : next d r = some d') : d'.PayslipsInNaira := by
  obtain ⟨hfresh, ⟨-, rfl⟩ | hsolo⟩ := next_cases hn
  · exact h
  obtain ⟨env, command⟩ := r
  cases command with
  | administer administration =>
    obtain ⟨_, hp, rfl⟩ := Tx.solo_exec_ok.mp hsolo
    cases hp
    exact h
  | period cmd =>
    obtain ⟨_, _, rfl⟩ := PeriodCommand.frame hsolo
    exact h
  | expense cmd =>
    obtain ⟨-, -, hruns, -⟩ := ExpenseCommand.frame hwf.aligned hfresh hsolo
    intro id row hrow
    rw [hruns] at hrow
    exact h id row hrow
  | payroll cmd => exact h.payroll hwf.aligned hfresh hsolo

/-- In every reachable store all payslips are in naira. -/
theorem Runs.payslipsInNaira (hr : Runs administration rs d) : d.PayslipsInNaira := by
  have hinv : d.WellFormed ∧ d.PayslipsInNaira := by
    refine hr.invariant (P := fun d => d.WellFormed ∧ d.PayslipsInNaira)
      ⟨Store.wellFormed_initial administration, ?_⟩ ?_
    · intro id row hrow
      cases hrow
    · rintro d r d' ⟨hwf, hnaira⟩ - hn
      exact ⟨hwf.next hn, hnaira.next hwf hn⟩
  exact hinv.2

/-! ## The result -/

/-- **What a submission is for**: it makes the run pending, with a progress that
has no decisions, and the next approval by a finance director other than the
creator approves the run. -/
def SubmissionWorks (d : Store) (env : Env) (id : Id) (row : PayrollRunRow) : Prop :=
  ∃ d' prow,
    (submitPayrollRun env ⟨id, row.columns.organizationId⟩).solo d = .ok ((), d') ∧
    d'.payrollRuns.lookup id = some (row.withStatus .pendingApproval) ∧
    d'.approvalProgress.lookup id = some prow ∧ prow.records = [] ∧
    ∀ env' approverId, approverId ≠ row.columns.createdById →
      (∃ r ∈ d'.administration.rolesOf approverId, r.role = .financeDirector) →
      ∃ d'' row'',
        (approvePayrollRun env' ⟨id, row.columns.organizationId, approverId⟩).solo d' =
          .ok ((), d'') ∧
        d''.payrollRuns.lookup id = some row'' ∧ row''.columns.status = .approved

/-- A submitted run is approved by the first finance director who is not its
creator. -/
theorem approve_submitted (env' : Env) {approverId : Id} {prow : ApprovalProgressRow}
    (hal : d.RecordsAligned) (hrow : d.payrollRuns.lookup id = some row)
    (hpending : row.columns.status = .pendingApproval)
    (hopen : d.PeriodIsOpen row.columns.organizationId row.columns.periodId)
    (hnaira : ∀ p ∈ row.payslips, p.grossPay.currency = .NGN)
    (hprow : d.approvalProgress.lookup id = some prow) (hchain : prow.chain = payrollChain)
    (hrecords : prow.records = []) (hself : approverId ≠ row.columns.createdById)
    (hrole : ∃ r ∈ d.administration.rolesOf approverId, r.role = .financeDirector) :
    ∃ d' row', (approvePayrollRun env' ⟨id, row.columns.organizationId, approverId⟩).solo d =
        .ok ((), d') ∧
      d'.payrollRuns.lookup id = some row' ∧ row'.columns.status = .approved := by
  have hlast : (ApprovalChain.of prow.chain).isLastStep (prow.records.length + 1) = true := by
    rw [hchain, hrecords]
    decide
  have hstep : (ApprovalChain.of prow.chain).stepAt (prow.records.length + 1) =
      some ⟨1, .financeDirector, .organization⟩ := by
    rw [hchain, hrecords]
    decide
  have hholds : HoldsRequiredRole ⟨1, .financeDirector, .organization⟩ none
      (d.administration.rolesOf approverId) := by
    obtain ⟨r, hr, hdirector⟩ := hrole
    exact ⟨r, hr, hdirector, .inl nofun⟩
  refine ⟨_, _, (approvePayrollRun_ok hal).mpr ⟨row, prow, _, hrow, rfl, hopen, hprow, hnaira,
    Ne.symm hself, ?_, hstep, hholds, fun _ => hpending, rfl⟩, Finmap.lookup_insert _, ?_⟩
  · rw [hrecords]
    rintro ⟨r, hr, -⟩
    cases hr
  · rw [if_pos hlast]
    rfl

/-- **When submitting a draft works**: exactly when the run has no approval
progress yet, that is, when it is submitted for the first time. -/
theorem submissionWorks_iff (hr : Runs administration rs d) (env : Env)
    (hrow : d.payrollRuns.lookup id = some row) (hdraft : row.columns.status = .draft)
    (hpayslips : row.payslips ≠ [])
    (hopen : d.PeriodIsOpen row.columns.organizationId row.columns.periodId) :
    SubmissionWorks d env id row ↔ d.approvalProgress.lookup id = none := by
  refine ⟨?_, ?_⟩
  · rintro ⟨d', prow, hsubmit, -⟩
    obtain ⟨_, -, -, -, -, -, -, hnone, -⟩ := submitPayrollRun_ok.mp hsubmit
    exact hnone
  · intro hnone
    have hnaira := Runs.payslipsInNaira hr id row hrow
    obtain ⟨d', hd'⟩ : ∃ d' : Store, d' = { d with
        payrollRuns := d.payrollRuns.insert id (row.withStatus .pendingApproval)
        approvalProgress := d.approvalProgress.insert id ⟨"PayrollRun", payrollChain, []⟩
        outbox := d.outbox ++ [payrollRunSubmittedForApproval id row.columns.organizationId] } :=
      ⟨_, rfl⟩
    have hsubmit : (submitPayrollRun env ⟨id, row.columns.organizationId⟩).solo d = .ok ((), d') :=
      submitPayrollRun_ok.mpr ⟨row, hrow, rfl, hopen, hdraft, hpayslips, hnaira, hnone, hd'⟩
    have hrow' : d'.payrollRuns.lookup id = some (row.withStatus .pendingApproval) := by
      rw [hd']
      exact Finmap.lookup_insert _
    have hprow' : d'.approvalProgress.lookup id = some ⟨"PayrollRun", payrollChain, []⟩ := by
      rw [hd']
      exact Finmap.lookup_insert _
    have hal : d'.RecordsAligned :=
      (Store.ProgressOf.started (congrArg Store.approvalProgress hd')).aligned
        (Runs.wellFormed hr).aligned
    have hopen' : d'.PeriodIsOpen row.columns.organizationId row.columns.periodId := by
      rw [hd']
      exact hopen
    refine ⟨d', _, hsubmit, hrow', hprow', rfl, fun env' approverId hself hrole => ?_⟩
    have happroved := approve_submitted env' hal hrow' rfl hopen' hnaira hprow' rfl rfl hself hrole
    exact happroved

/-- The run of January with one payslip. -/
def Sample.draftRun : List Request := [openJanuary, createRun 201, payslipFor 301 201 20]

/-- It is submitted, and rejected by the finance director. -/
def Sample.rejectedRun : List Request := draftRun ++ [submitRun 201, rejectRun 201 14]

/-- The first submission of the sample run works. -/
theorem submissionWorks_iff_sample : ∃ row,
    (Sample.store Sample.draftRun).payrollRuns.lookup 201 = some row ∧
      SubmissionWorks (Sample.store Sample.draftRun) ⟨Sample.noon, 0, 0⟩ 201 row := by
  have hfacts : ((Sample.store Sample.draftRun).payrollRuns.lookup 201).map (fun row =>
      (row.columns.status, row.columns.organizationId, row.columns.periodId,
        row.payslips.length)) = some (.draft, 1, 100, 1) := by
    decide +kernel
  obtain ⟨row, hrow, hfacts⟩ := Option.map_eq_some_iff.mp hfacts
  simp only [Prod.mk.injEq] at hfacts
  obtain ⟨hdraft, horg, hperiod, hlength⟩ := hfacts
  have hpayslips : row.payslips ≠ [] := by
    intro hnil
    rw [hnil] at hlength
    cases hlength
  have hopen : (Sample.store Sample.draftRun).PeriodIsOpen row.columns.organizationId
      row.columns.periodId := by
    rw [horg, hperiod]
    decide +kernel
  exact ⟨row, hrow, (submissionWorks_iff (Sample.runs (by decide +kernel)) _ hrow hdraft hpayslips
    hopen).mpr (by decide +kernel)⟩

/-- **A rejected run cannot be submitted again**: it is a draft with a payslip in
an open period, and its submission fails. -/
theorem resubmission_fails :
    Runs Sample.administration Sample.rejectedRun (Sample.store Sample.rejectedRun) ∧
    ∃ row, (Sample.store Sample.rejectedRun).payrollRuns.lookup 201 = some row ∧
      row.columns.status = .draft ∧ row.payslips ≠ [] ∧
      (Sample.store Sample.rejectedRun).PeriodIsOpen row.columns.organizationId
        row.columns.periodId ∧
      ¬ SubmissionWorks (Sample.store Sample.rejectedRun) ⟨Sample.noon, 0, 0⟩ 201 row := by
  have hfacts : ((Sample.store Sample.rejectedRun).payrollRuns.lookup 201).map (fun row =>
      (row.columns.status, row.columns.organizationId, row.columns.periodId,
        row.payslips.length)) = some (.draft, 1, 100, 1) := by
    decide +kernel
  obtain ⟨row, hrow, hfacts⟩ := Option.map_eq_some_iff.mp hfacts
  simp only [Prod.mk.injEq] at hfacts
  obtain ⟨hdraft, horg, hperiod, hlength⟩ := hfacts
  have hleft : ((Sample.store Sample.rejectedRun).approvalProgress.lookup 201).isSome := by
    decide +kernel
  refine ⟨Sample.runs (by decide +kernel), row, hrow, hdraft, ?_, ?_, ?_⟩
  · intro hnil
    rw [hnil] at hlength
    cases hlength
  · rw [horg, hperiod]
    decide +kernel
  · -- the progress of the first submission is still there
    rintro ⟨d', prow, hsubmit, -⟩
    obtain ⟨_, -, -, -, -, -, -, hnone, -⟩ := submitPayrollRun_ok.mp hsubmit
    rw [hnone] at hleft
    cases hleft

end RatelPlatform
