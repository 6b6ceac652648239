import RatelPlatform.ApprovedExpenses

/-!
# Decisions that compete for one expense

Any number of approve, reject and cancel transactions on the same pending
expense, interleaved statement by statement under READ COMMITTED. Each loads
the expense and its progress, decides in memory and writes whole rows back, with
no version check and no lock on what it read.

When every transaction commits on reads that are still current, the rows tell
exactly what was committed (`decisions_agree_of_current`). Nothing in the code
makes it so: a rejection that loads its progress before an approval commits and
saves it afterwards drops its own record and overwrites the status.
-/

namespace RatelPlatform

/-- A transaction that competes for the expense. -/
inductive Contender where
  | approve (env : Env) (organizationId approverId : Id)
  | reject (env : Env) (organizationId approverId : Id) (reason : String)
  | cancel (env : Env) (organizationId actorId : Id)

/-- The program it runs. -/
def Contender.program (expenseId : Id) : Contender → StoreTx Unit
  | approve env organizationId approverId =>
    approveExpense env ⟨expenseId, organizationId, approverId⟩
  | reject env organizationId approverId reason =>
    rejectExpense env ⟨expenseId, organizationId, approverId, reason⟩
  | cancel env organizationId actorId => cancelExpense env ⟨expenseId, organizationId, actorId⟩

/-- What a decision says, whatever the step it is recorded on. -/
structure Verdict where
  approverId : Id
  decidedAt : JsDate
  decision : Decision
  reason : Option String
  deriving DecidableEq

/-- The verdict of a record. -/
def ApprovalRecord.verdict (r : ApprovalRecord) : Verdict :=
  ⟨r.approverId, r.decidedAt, r.decision, r.reason⟩

/-- The verdict a transaction gives; a cancellation gives none. -/
def Contender.verdict : Contender → Option Verdict
  | approve env _ approverId => some ⟨approverId, env.now, .approved, none⟩
  | reject env _ approverId reason => some ⟨approverId, env.now, .rejected, some reason⟩
  | cancel _ _ _ => none

/-- The transaction approves. -/
def Contender.isApproval : Contender → Bool
  | approve _ _ _ => true
  | _ => false

/-- The transaction cancels. -/
def Contender.isCancellation : Contender → Bool
  | cancel _ _ _ => true
  | _ => false

theorem Contender.isCancellation_of_isApproval {c : Contender} (h : c.isApproval = true) :
    c.isCancellation = false := by
  cases c with
  | approve => rfl
  | reject => rfl
  | cancel => cases h

/-- **What is stored agrees with what was committed.** -/
structure DecisionsAgree (contenders : ℕ → Contender) (id : Id) (d₀ d : Store) (log : List ℕ) :
    Prop where
  /-- no transaction commits twice -/
  once : log.Nodup
  /-- the records are the earlier ones and one for each committed verdict -/
  recorded : (d.recordsOf id).map ApprovalRecord.verdict =
    (d₀.recordsOf id).map ApprovalRecord.verdict ++
      log.filterMap fun i => (contenders i).verdict
  /-- approved only if every step is, and nothing but approvals was committed -/
  approved : ∀ row, d.expenses.lookup id = some row → row.status = .approved →
    (∃ prow, d.approvalProgress.lookup id = some prow ∧
      prow.records.map ApprovalRecord.stepOrder = prow.chain.map ApprovalStep.order ∧
      ∀ r ∈ prow.records, r.decision = .approved) ∧
    ∀ i ∈ log, (contenders i).isApproval = true
  /-- rejected only if a rejection is recorded -/
  rejected : ∀ row, d.expenses.lookup id = some row → row.status = .rejected →
    ∃ r ∈ d.recordsOf id, r.decision = .rejected
  /-- cancelled exactly when a cancellation was committed -/
  cancelled : ∀ row, d.expenses.lookup id = some row →
    (row.status = .cancelled ↔ ∃ i ∈ log, (contenders i).isCancellation = true)

/-! ## One transaction after the other -/

/-- What the status says of the records and of the committed transactions. -/
def StatusAgrees (contenders : ℕ → Contender) (prow : ApprovalProgressRow) (log : List ℕ) :
    ExpenseStatus → Prop
  | .pendingApproval =>
    (∀ r ∈ prow.records, r.decision = .approved) ∧ ∀ i ∈ log, (contenders i).isApproval = true
  | .approved =>
    (∀ r ∈ prow.records, r.decision = .approved) ∧ (∀ i ∈ log, (contenders i).isApproval = true) ∧
      prow.records.length = prow.chain.length
  | .rejected =>
    (∃ r ∈ prow.records, r.decision = .rejected) ∧
      ∀ i ∈ log, (contenders i).isCancellation = false
  | .cancelled => ∃ i ∈ log, (contenders i).isCancellation = true
  | _ => False

/-- The state of the competition when the transactions `log` have run. -/
structure Tally (contenders : ℕ → Contender) (id : Id) (before : List Verdict) (d : Store)
    (log : List ℕ) (row : ExpenseRow) (prow : ApprovalProgressRow) : Prop where
  aligned : d.RecordsAligned
  expense : d.expenses.lookup id = some row
  progress : d.approvalProgress.lookup id = some prow
  chain : prow.chain = (row.chain id).steps
  verdicts : prow.records.map ApprovalRecord.verdict =
    before ++ log.filterMap fun i => (contenders i).verdict
  status : StatusAgrees contenders prow log row.status

variable {contenders : ℕ → Contender} {id : Id} {before : List Verdict} {d d' : Store}
  {log : List ℕ} {row : ExpenseRow} {prow : ApprovalProgressRow} {i : ℕ}

/-- A record more, for a committed verdict more. -/
theorem Tally.verdicts_snoc (h : Tally contenders id before d log row prow) {r : ApprovalRecord}
    (hr : (contenders i).verdict = some r.verdict) :
    (prow.records ++ [r]).map ApprovalRecord.verdict =
      before ++ (log ++ [i]).filterMap fun i => (contenders i).verdict := by
  rw [List.map_append, h.verdicts, List.filterMap_append, List.append_assoc]
  simp [hr]

/-- After an approval of a step short of the last nothing changes but the
records; after one of the last step the expense is approved. -/
theorem Tally.approve {env : Env} {organizationId approverId : Id} {a : Unit}
    (h : Tally contenders id before d log row prow)
    (hi : contenders i = .approve env organizationId approverId)
    (hsolo : (approveExpense env ⟨id, organizationId, approverId⟩).solo d = .ok (a, d')) :
    ∃ row' prow', Tally contenders id before d' (log ++ [i]) row' prow' := by
  obtain ⟨row₁, prow₁, step, hrow, -, -, hprow, -, -, hstep, -, hpending, rfl⟩ :=
    approveExpense_ok h.aligned hsolo
  obtain rfl := Option.some.inj (h.expense.symm.trans hrow)
  obtain rfl := Option.some.inj (h.progress.symm.trans hprow)
  have hverdict : (contenders i).verdict =
      some (approvalOf env ⟨id, organizationId, approverId⟩ prow).verdict := by
    rw [hi]
    rfl
  have happroval : ∀ j ∈ log ++ [i], (∀ j ∈ log, (contenders j).isApproval = true) →
      (contenders j).isApproval = true := by
    intro j hj hlog
    rcases List.mem_append.mp hj with hj | hj
    · exact hlog j hj
    · rw [List.mem_singleton.mp hj, hi]
      rfl
  have happroved : (∀ r ∈ prow.records, r.decision = .approved) →
      ∀ r ∈ prow.records ++ [approvalOf env ⟨id, organizationId, approverId⟩ prow],
        r.decision = .approved := by
    intro hall r hr
    rcases List.mem_append.mp hr with hr | hr
    · exact hall r hr
    · rw [List.mem_singleton.mp hr]
      rfl
  rw [row.stepAt_chain h.chain] at hstep
  refine ⟨_, _, (Store.ProgressOf.decided h.aligned hprow rfl rfl).aligned h.aligned,
    Finmap.lookup_insert _, Finmap.lookup_insert _, ?_, h.verdicts_snoc hverdict, ?_⟩
  · split_ifs
    · exact h.chain
    · exact h.chain
  have hstatus := h.status
  split_ifs with hlast
  · rw [hpending hlast] at hstatus
    have hlength := (row.isLastStep_chain h.chain _).mp hlast
    refine ⟨happroved hstatus.1, fun j hj => happroval j hj hstatus.2, ?_⟩
    rw [List.length_append, List.length_singleton]
    exact hlength
  · rcases hs : row.status with _ | _ | _ | _ | _ | _
    · rw [hs] at hstatus
      exact hstatus.elim
    · rw [hs] at hstatus
      exact ⟨happroved hstatus.1, fun j hj => happroval j hj hstatus.2⟩
    · -- an approved expense has no step left to approve
      rw [hs] at hstatus
      rw [hstatus.2.2, List.getElem?_length] at hstep
      cases hstep
    · rw [hs] at hstatus
      obtain ⟨⟨r, hr, hrejected⟩, hlog⟩ := hstatus
      refine ⟨⟨r, List.mem_append_left _ hr, hrejected⟩, fun j hj => ?_⟩
      rcases List.mem_append.mp hj with hj | hj
      · exact hlog j hj
      · rw [List.mem_singleton.mp hj, hi]
        rfl
    · rw [hs] at hstatus
      obtain ⟨j, hj, hcancel⟩ := hstatus
      exact ⟨j, List.mem_append_left _ hj, hcancel⟩
    · rw [hs] at hstatus
      exact hstatus.elim

/-- A rejection finds the expense pending, and leaves it rejected. -/
theorem Tally.reject {env : Env} {organizationId approverId : Id} {reason : String} {a : Unit}
    (h : Tally contenders id before d log row prow)
    (hi : contenders i = .reject env organizationId approverId reason)
    (hsolo : (rejectExpense env ⟨id, organizationId, approverId, reason⟩).solo d = .ok (a, d')) :
    ∃ row' prow', Tally contenders id before d' (log ++ [i]) row' prow' := by
  obtain ⟨row₁, prow₁, hrow, -, -, hprow, -, hpending, -, rfl⟩ := rejectExpense_ok h.aligned hsolo
  obtain rfl := Option.some.inj (h.expense.symm.trans hrow)
  obtain rfl := Option.some.inj (h.progress.symm.trans hprow)
  have hverdict : (contenders i).verdict =
      some (rejectionOf env ⟨id, organizationId, approverId, reason⟩ prow).verdict := by
    rw [hi]
    rfl
  refine ⟨_, _, (Store.ProgressOf.decided h.aligned hprow rfl rfl).aligned h.aligned,
    Finmap.lookup_insert _, Finmap.lookup_insert _, h.chain, h.verdicts_snoc hverdict, ?_⟩
  have hstatus := h.status
  rw [hpending] at hstatus
  refine ⟨⟨_, List.mem_append_right _ (List.mem_singleton_self _), rfl⟩, fun j hj => ?_⟩
  rcases List.mem_append.mp hj with hj | hj
  · exact Contender.isCancellation_of_isApproval (hstatus.2 j hj)
  · rw [List.mem_singleton.mp hj, hi]
    rfl

/-- A cancellation leaves the expense cancelled, and records nothing. -/
theorem Tally.cancel {env : Env} {organizationId actorId : Id} {a : Unit}
    (h : Tally contenders id before d log row prow)
    (hi : contenders i = .cancel env organizationId actorId)
    (hsolo : (cancelExpense env ⟨id, organizationId, actorId⟩).solo d = .ok (a, d')) :
    ∃ row' prow', Tally contenders id before d' (log ++ [i]) row' prow' := by
  obtain ⟨row₁, hrow, -, -, -, rfl⟩ := cancelExpense_ok hsolo
  obtain rfl := Option.some.inj (h.expense.symm.trans hrow)
  refine ⟨_, _, h.aligned, Finmap.lookup_insert _, h.progress, h.chain, ?_, i,
    List.mem_append_right _ (List.mem_singleton_self _), ?_⟩
  · rw [List.filterMap_append, h.verdicts]
    simp [hi, Contender.verdict]
  · rw [hi]
    rfl

/-- **One committed transaction.** -/
theorem Tally.snoc {a : Unit} (h : Tally contenders id before d log row prow)
    (hsolo : ((contenders i).program id).solo d = .ok (a, d')) :
    ∃ row' prow', Tally contenders id before d' (log ++ [i]) row' prow' := by
  rcases hi : contenders i with ⟨env, organizationId, approverId⟩ |
    ⟨env, organizationId, approverId, reason⟩ | ⟨env, organizationId, actorId⟩
  · rw [hi] at hsolo
    exact h.approve hi hsolo
  · rw [hi] at hsolo
    exact h.reject hi hsolo
  · rw [hi] at hsolo
    exact h.cancel hi hsolo

/-- A pending expense of a reachable store starts the competition. -/
theorem Tally.start (contenders : ℕ → Contender) {administration : Administration}
    {rs : List Request} (hr : Runs administration rs d) (hrow : d.expenses.lookup id = some row)
    (hpending : row.status = .pendingApproval) :
    ∃ prow, Tally contenders id ((d.recordsOf id).map ApprovalRecord.verdict) d [] row prow := by
  obtain ⟨prow, hprow, hend⟩ := (Runs.expenseInvariant hr id row hrow).pending hpending
  refine ⟨prow, (Runs.wellFormed hr).aligned, hrow, hprow, hend.chain, ?_, ?_⟩
  · rw [Store.recordsOf, hprow, List.filterMap_nil, List.append_nil]
    rfl
  · rw [hpending]
    exact ⟨hend.approved, fun _ h => (List.not_mem_nil h).elim⟩

/-- The state of the competition after the transactions that have committed, when
they ran one after the other. -/
theorem Tally.serial {d₀ : Store} {prow₀ : ApprovalProgressRow} {row₀ : ExpenseRow}
    (h : Tally contenders id before d₀ [] row₀ prow₀)
    (hs : System.Serial (fun i => (contenders i).program id) d₀ log d) :
    ∃ row prow, Tally contenders id before d log row prow := by
  induction hs with
  | nil => exact ⟨row₀, prow₀, h⟩
  | snoc _ hsolo ih =>
    obtain ⟨row, prow, ih⟩ := ih
    exact ih.snoc hsolo

/-- What the competition comes to agrees with what was committed. -/
theorem Tally.agree {d₀ : Store}
    (h : Tally contenders id ((d₀.recordsOf id).map ApprovalRecord.verdict) d log row prow)
    (honce : log.Nodup) : DecisionsAgree contenders id d₀ d log := by
  have hrecords : d.recordsOf id = prow.records := by
    rw [Store.recordsOf, h.progress]
    rfl
  have hstatus := h.status
  refine ⟨honce, by rw [hrecords, h.verdicts], fun row' hrow' hs => ?_, fun row' hrow' hs => ?_,
    fun row' hrow' => ?_⟩
  · obtain rfl := Option.some.inj (h.expense.symm.trans hrow')
    rw [hs] at hstatus
    refine ⟨⟨prow, h.progress, ?_, hstatus.1⟩, hstatus.2.1⟩
    have hnumbered := row.chain_numbered id
    rw [ApprovalChain.Numbered, ← h.chain] at hnumbered
    rw [hnumbered, ← hstatus.2.2]
    exact h.aligned _ _ h.progress
  · obtain rfl := Option.some.inj (h.expense.symm.trans hrow')
    rw [hs] at hstatus
    rw [hrecords]
    exact hstatus.1
  · obtain rfl := Option.some.inj (h.expense.symm.trans hrow')
    refine ⟨?_, ?_⟩
    · intro hs
      rw [hs] at hstatus
      exact hstatus
    · rintro ⟨i, hi, hcancel⟩
      -- in every other status no cancellation is among the committed transactions
      have hnone : ¬ (contenders i).isCancellation = false := by
        rw [hcancel]
        exact Bool.noConfusion
      rcases hs : row.status with _ | _ | _ | _ | _ | _
      · rw [hs] at hstatus
        exact hstatus.elim
      · rw [hs] at hstatus
        exact absurd (Contender.isCancellation_of_isApproval (hstatus.2 i hi)) hnone
      · rw [hs] at hstatus
        exact absurd (Contender.isCancellation_of_isApproval (hstatus.2.1 i hi)) hnone
      · rw [hs] at hstatus
        exact absurd (hstatus.2 i hi) hnone
      · rfl
      · rw [hs] at hstatus
        exact hstatus.elim

/-! ## The result -/

/-- **Current decisions agree.** However the transactions are interleaved: as
long as each commits on reads that are still current, the records and the status
of the expense agree with what was committed, in every state of the run. -/
theorem decisions_agree_of_current {administration : Administration} {rs : List Request}
    {d₀ : Store} (hr : Runs administration rs d₀) (hrow : d₀.expenses.lookup id = some row)
    (hpending : row.status = .pendingApproval) {turns : List Turn}
    {σ : System Store RowLock Failure Unit}
    (hσ : Reaches System.next System.CommitsCurrent
      (System.init d₀ fun i => (contenders i).program id) turns σ) :
    DecisionsAgree contenders id d₀ σ.db σ.log := by
  obtain ⟨prow₀, hstart⟩ := Tally.start contenders hr hrow hpending
  obtain ⟨_, _, htally⟩ := hstart.serial (System.serial_of_current hσ)
  exact htally.agree (System.log_nodup hσ)

/-! ## A stale rejection -/

namespace Sample

/-- An expense of 50000 is pending. -/
def pendingStore : Store := store [openJanuary, create 101 50000, submit 101]

/-- User 11 approves it, and user 12 rejects it. -/
def approvalAndRejection : ℕ → Contender
  | 0 => .approve ⟨noon, 0, 0⟩ 1 11
  | _ => .reject ⟨noon, 0, 0⟩ 1 12 "no receipt"

/-- The rejection loads everything it decides on, then the approval runs and
commits, then the rejection saves and commits. -/
def staleRejection : List Turn :=
  List.replicate 7 (.step 1) ++ List.replicate 12 (.step 0) ++ List.replicate 4 (.step 1)

end Sample

namespace Sample

/-- An expense of 200000 naira is pending: three heads have to approve it. -/
def panelStore : Store := store [openJanuary, create 101 20000000, submit 101]

/-- The users 11, 12 and 13 approve it, and 13 rejects it as well. -/
def panelDecisions : ℕ → Contender
  | 0 => .approve ⟨noon, 0, 0⟩ 1 11
  | 1 => .approve ⟨noon, 0, 0⟩ 1 12
  | 2 => .approve ⟨noon, 0, 0⟩ 1 13
  | _ => .reject ⟨noon, 0, 0⟩ 1 13 "no receipt"

/-- The competition of the four. -/
def panelSystem : System Store RowLock Failure Unit :=
  .init panelStore fun i => (panelDecisions i).program 101

/-- The rejection loads everything it decides on, then the approvals commit one after the other,
and the rejection is killed. -/
def killedRejection : List Turn :=
  List.replicate 7 (.step 3) ++ List.replicate 11 (.step 0) ++ List.replicate 11 (.step 1) ++
    (List.replicate 12 (.step 2) ++ [.kill 3])

theorem killedRejection_current : ∃ σ,
    Reaches System.next System.CommitsCurrent panelSystem killedRejection σ ∧
      σ.log = [0, 1, 2] := by
  have h₁ : ∃ σ, Reaches System.next System.CommitsCurrent panelSystem
      (List.replicate 7 (.step 3) ++ List.replicate 11 (.step 0)) σ ∧ σ.log = [0] :=
    System.exists_reaches_fresh_commit 0 _ ⟨_, .nil, rfl⟩ (by decide) (by decide +kernel)
  have h₂ := System.exists_reaches_fresh_commit 1 (List.replicate 11 (.step 1)) h₁ (by decide)
    (by decide +kernel)
  exact System.exists_reaches_fresh_commit 2 (List.replicate 12 (.step 2) ++ [.kill 3]) h₂
    (by decide) (by decide +kernel)

end Sample

/-- The three approvals commit while a rejection is under way, and the expense is approved. -/
theorem decisions_agree_of_current_sample :
    ∃ σ : System Store RowLock Failure Unit, σ.log = [0, 1, 2] ∧
      (σ.db.expenses.lookup 101).map ExpenseRow.status = some .approved ∧
      DecisionsAgree Sample.panelDecisions 101 Sample.panelStore σ.db σ.log := by
  obtain ⟨σ, hσ, hlog⟩ := Sample.killedRejection_current
  have hrow : Sample.panelStore.expenses.lookup 101 =
      some (Sample.expenseRow .pendingApproval 20000000) := by
    decide +kernel
  have hstatus : (runLabels System.next Sample.panelSystem Sample.killedRejection).map
      (fun σ => (σ.db.expenses.lookup 101).map ExpenseRow.status) = some (some .approved) := by
    decide +kernel
  rw [hσ.runLabels_eq] at hstatus
  exact ⟨σ, hlog, Option.some.inj hstatus,
    decisions_agree_of_current (Sample.runs (by decide +kernel)) hrow rfl hσ⟩

/-- **A committed rejection leaves no record**: the approval is recorded, the
rejection is not, and the expense is rejected all the same. -/
theorem decisions_disagree :
    Runs Sample.administration [Sample.openJanuary, Sample.create 101 50000, Sample.submit 101]
      Sample.pendingStore ∧
    Sample.pendingStore.expenses.lookup 101 = some (Sample.expenseRow .pendingApproval 50000) ∧
    ∃ σ : System Store RowLock Failure Unit,
      Reaches System.next (fun _ _ => True)
        (System.init Sample.pendingStore fun i => (Sample.approvalAndRejection i).program 101)
        Sample.staleRejection σ ∧
      σ.log = [0, 1] ∧ σ.db.recordsOf 101 = [⟨1, 11, Sample.noon, .approved, none⟩] ∧
      σ.db.expenses.lookup 101 = some (Sample.expenseRow .rejected 50000) ∧
      ¬ DecisionsAgree Sample.approvalAndRejection 101 Sample.pendingStore σ.db σ.log := by
  have hrun : (runLabels System.next (System.init Sample.pendingStore fun i =>
      (Sample.approvalAndRejection i).program 101) Sample.staleRejection).map
        (fun σ => (σ.log, σ.db.recordsOf 101, σ.db.expenses.lookup 101)) =
      some ([0, 1], [⟨1, 11, Sample.noon, .approved, none⟩],
        some (Sample.expenseRow .rejected 50000)) := by
    decide +kernel
  obtain ⟨σ, hσ, hfacts⟩ := Option.map_eq_some_iff.mp hrun
  simp only [Prod.mk.injEq] at hfacts
  obtain ⟨hlog, hrecords, hrow⟩ := hfacts
  refine ⟨Sample.runs (by decide +kernel), by decide +kernel, σ, reaches_of_runLabels hσ, hlog,
    hrecords, hrow, fun h => ?_⟩
  obtain ⟨r, hr, hrejected⟩ := h.rejected _ hrow rfl
  rw [hrecords, List.mem_singleton] at hr
  rw [hr] at hrejected
  cases hrejected

end RatelPlatform
