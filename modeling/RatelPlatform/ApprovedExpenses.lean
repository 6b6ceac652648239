import RatelPlatform.Commands

/-!
# Approved expenses are signed off

What the approval workflow is for, as a property of whole runs: an expense that
is approved was approved step by step along the chain of its amount, by
different people, none of them the one who entered it, each of whom held the
role of the step when they decided. The one way around it is an adjustment that
lowers the amount.

The decisions are spread over many commands, so the property speaks of the run:
`DecidedIn` says at which moment of it a record was written.
-/

namespace RatelPlatform

/-- The decisions recorded on an item. -/
def Store.recordsOf (d : Store) (id : Id) : List ApprovalRecord :=
  ((d.approvalProgress.lookup id).map ApprovalProgressRow.records).getD []

/-- Somewhere in the run an approve command of the approver put the record there,
and at that moment the approver held the role of the step. -/
def DecidedIn (administration : Administration) (rs : List Request) (id departmentId : Id)
    (step : ApprovalStep) (r : ApprovalRecord) : Prop :=
  ∃ before request after u u',
    rs = before ++ request :: after ∧ Runs administration before u ∧ next u request = some u' ∧
      (∃ organizationId,
        request.command = .expense (.approve ⟨id, organizationId, r.approverId⟩)) ∧
      u'.recordsOf id = u.recordsOf id ++ [r] ∧
      HoldsRequiredRole step (some departmentId) (u.administration.rolesOf r.approverId)

/-- A run that goes on keeps its decisions. -/
theorem DecidedIn.snoc {administration : Administration} {rs : List Request} {id departmentId : Id}
    {step : ApprovalStep} {r : ApprovalRecord}
    (h : DecidedIn administration rs id departmentId step r) (request : Request) :
    DecidedIn administration (rs ++ [request]) id departmentId step r := by
  obtain ⟨before, req, after, u, u', rfl, hrest⟩ := h
  exact ⟨before, req, after ++ [request], u, u', by simp, hrest⟩

/-- The progress of an expense holds nothing but proper approvals: along the
chain of its amount, by distinct people other than its source. -/
structure Endorsed (administration : Administration) (rs : List Request) (id : Id)
    (row : ExpenseRow) (prow : ApprovalProgressRow) : Prop where
  /-- the chain is the one the policy resolves -/
  chain : prow.chain = (row.chain id).steps
  /-- the records are those of the first steps, in order -/
  orders : prow.records.map ApprovalRecord.stepOrder =
    (prow.chain.map ApprovalStep.order).take prow.records.length
  /-- nobody rejected -/
  approved : ∀ r ∈ prow.records, r.decision = .approved
  /-- nobody approved twice -/
  distinct : (prow.records.map ApprovalRecord.approverId).Nodup
  /-- nobody approved what they entered -/
  others : ∀ r ∈ prow.records, r.approverId ≠ row.source.actorId
  /-- everybody held the role of their step when they decided -/
  roles : ∀ (i : ℕ) (r : ApprovalRecord) (step : ApprovalStep), prow.records[i]? = some r →
    prow.chain[i]? = some step → DecidedIn administration rs id row.departmentId step r

/-- All steps of the chain are approved. -/
structure SignedOff (administration : Administration) (rs : List Request) (id : Id)
    (row : ExpenseRow) (prow : ApprovalProgressRow) : Prop
    extends Endorsed administration rs id row prow where
  /-- a record for every step -/
  complete : prow.records.map ApprovalRecord.stepOrder = prow.chain.map ApprovalStep.order

variable {administration : Administration} {rs : List Request} {id : Id} {row : ExpenseRow}
  {prow : ApprovalProgressRow}

theorem Endorsed.snoc (h : Endorsed administration rs id row prow) (request : Request) :
    Endorsed administration (rs ++ [request]) id row prow :=
  { h with roles := fun i r step hr hs => (h.roles i r step hr hs).snoc request }

theorem SignedOff.snoc (h : SignedOff administration rs id row prow) (request : Request) :
    SignedOff administration (rs ++ [request]) id row prow :=
  { h.toEndorsed.snoc request with complete := h.complete }

/-- A fresh progress holds no decisions. -/
theorem Endorsed.start (row : ExpenseRow) {itemType : String} :
    Endorsed administration rs id row ⟨itemType, (row.chain id).steps, []⟩ where
  chain := rfl
  orders := rfl
  approved := fun _ h => nomatch h
  distinct := List.nodup_nil
  others := fun _ h => nomatch h
  roles := fun _ _ _ h => nomatch h

theorem ExpenseRow.chain_numbered (row : ExpenseRow) (id : Id) : (row.chain id).Numbered :=
  (ExpenseApprovalPolicy.resolveChain_numbered _).1

/-- Looking a step of the policy's chain up is indexing it. -/
theorem ExpenseRow.stepAt_chain (hchain : prow.chain = (row.chain id).steps) (i : ℕ) :
    (ApprovalChain.of prow.chain).stepAt (i + 1) = prow.chain[i]? := by
  rw [hchain, ApprovalChain.of_steps, (row.chain_numbered id).stepAt_eq]

/-- The last step of the policy's chain is the one it ends with. -/
theorem ExpenseRow.isLastStep_chain (hchain : prow.chain = (row.chain id).steps) (i : ℕ) :
    (ApprovalChain.of prow.chain).isLastStep (i + 1) = true ↔ i + 1 = prow.chain.length := by
  rw [hchain, ApprovalChain.of_steps, (row.chain_numbered id).isLastStep_iff]

/-- Being endorsed has nothing to do with the status. -/
theorem Endorsed.withStatus (h : Endorsed administration rs id row prow) (status : ExpenseStatus)
    (updatedAt : JsDate) :
    Endorsed administration rs id { row with status, updatedAt } prow :=
  ⟨h.chain, h.orders, h.approved, h.distinct, h.others, h.roles⟩

/-- **One approval more**: what the engine checks keeps the progress endorsed. -/
theorem Endorsed.approve (h : Endorsed administration rs id row prow) {r : ApprovalRecord}
    {step : ApprovalStep} (hstep : prow.chain[prow.records.length]? = some step)
    (horder : r.stepOrder = prow.records.length + 1) (hdecision : r.decision = .approved)
    (hdup : ¬ ∃ q ∈ prow.records, q.decision = .approved ∧ q.approverId = r.approverId)
    (hself : r.approverId ≠ row.source.actorId)
    (hrole : DecidedIn administration rs id row.departmentId step r) :
    Endorsed administration rs id row { prow with records := prow.records ++ [r] } where
  chain := h.chain
  orders := by
    have hnumbered : step.order = prow.records.length + 1 := by
      refine (row.chain_numbered id).order_eq ?_
      rw [← h.chain]
      exact hstep
    rw [List.map_append, h.orders, List.length_append, List.length_singleton, List.take_add_one,
      List.getElem?_map, hstep]
    simp [horder, hnumbered]
  approved := by
    intro q hq
    rcases List.mem_append.mp hq with hq | hq
    · exact h.approved q hq
    · rw [List.mem_singleton.mp hq]
      exact hdecision
  distinct := by
    rw [List.map_append, List.nodup_append]
    refine ⟨h.distinct, List.nodup_singleton _, ?_⟩
    intro a ha b hb heq
    obtain ⟨q, hq, rfl⟩ := List.mem_map.mp ha
    rw [List.map_singleton, List.mem_singleton] at hb
    exact hdup ⟨q, hq, h.approved q hq, heq.trans hb⟩
  others := by
    intro q hq
    rcases List.mem_append.mp hq with hq | hq
    · exact h.others q hq
    · rw [List.mem_singleton.mp hq]
      exact hself
  roles := by
    intro i q s hq hs
    rcases Nat.lt_trichotomy i prow.records.length with hi | hi | hi
    · rw [List.getElem?_append_left hi] at hq
      exact h.roles i q s hq hs
    · subst hi
      rw [List.getElem?_concat_length] at hq
      obtain rfl := Option.some.inj hq
      obtain rfl := Option.some.inj (hstep.symm.trans hs)
      exact hrole
    · rw [List.getElem?_eq_none (by simp; omega)] at hq
      cases hq

/-- With the last approval the chain is signed off. -/
theorem Endorsed.signedOff (h : Endorsed administration rs id row prow)
    (hlength : prow.records.length = prow.chain.length) :
    SignedOff administration rs id row prow where
  toEndorsed := h
  complete := by
    rw [h.orders, hlength]
    exact List.take_of_length_le (List.length_map ..).le

/-! ## The invariant -/

/-- What a run makes of an expense, by its status. Nothing is said of a dead
(rejected or cancelled) item, whose progress may still receive decisions. -/
structure ExpenseInvariant (administration : Administration) (rs : List Request) (d : Store)
    (id : Id) (row : ExpenseRow) : Prop where
  /-- a draft has no progress yet -/
  draft : row.status = .draft → d.approvalProgress.lookup id = none
  /-- a pending expense has an endorsed progress -/
  pending : row.status = .pendingApproval →
    ∃ prow, d.approvalProgress.lookup id = some prow ∧ Endorsed administration rs id row prow
  /-- an approved expense is signed off, or an adjustment that lowers the amount -/
  approved : row.status = .approved →
    (∃ prow, d.approvalProgress.lookup id = some prow ∧
      SignedOff administration rs id row prow) ∨
    ((∃ parent, row.parentExpenseId = some parent) ∧ row.amount.minorUnits < 0)

/-- Steps that leave the progress of an expense alone keep its invariant. -/
theorem ExpenseInvariant.frame {d d' : Store} (h : ExpenseInvariant administration rs d id row)
    (hprogress : d'.approvalProgress.lookup id = d.approvalProgress.lookup id)
    (request : Request) : ExpenseInvariant administration (rs ++ [request]) d' id row where
  draft := by
    rw [hprogress]
    exact h.draft
  pending := by
    rw [hprogress]
    intro hs
    obtain ⟨prow, hprow, hend⟩ := h.pending hs
    exact ⟨prow, hprow, hend.snoc request⟩
  approved := by
    rw [hprogress]
    intro hs
    rcases h.approved hs with ⟨prow, hprow, hoff⟩ | hneg
    · exact .inl ⟨prow, hprow, hoff.snoc request⟩
    · exact .inr hneg

/-- An expense that is rejected or cancelled satisfies the invariant as it is. -/
theorem ExpenseInvariant.dead {d : Store} {status : ExpenseStatus} {updatedAt : JsDate}
    (hs : status = .rejected ∨ status = .cancelled) :
    ExpenseInvariant administration rs d id { row with status, updatedAt } := by
  rcases hs with rfl | rfl
  · exact ⟨nofun, nofun, nofun⟩
  · exact ⟨nofun, nofun, nofun⟩

/-- The record an approve command adds was decided in this very step. -/
theorem decidedIn_last {d d' : Store} {env : Env} {cmd : ApproveExpenseCommand}
    {departmentId : Id} {step : ApprovalStep} (hr : Runs administration rs d)
    (hn : next d ⟨env, .expense (.approve cmd)⟩ = some d')
    (hprow : d.approvalProgress.lookup cmd.expenseId = some prow)
    (hprogress : d'.approvalProgress = d.decided cmd.expenseId prow (approvalOf env cmd prow))
    (hrole : HoldsRequiredRole step (some departmentId)
      (d.administration.rolesOf cmd.approverId)) :
    DecidedIn administration (rs ++ [⟨env, .expense (.approve cmd)⟩]) cmd.expenseId departmentId
      step (approvalOf env cmd prow) := by
  refine ⟨rs, _, [], d, d', rfl, hr, hn, ⟨cmd.organizationId, rfl⟩, ?_, hrole⟩
  rw [Store.recordsOf, Store.recordsOf, hprogress, hprow, Store.decided, Finmap.lookup_insert]
  rfl

/-- **The step of an approval.** -/
theorem ExpenseInvariant.approve {d d' : Store} {env : Env} {cmd : ApproveExpenseCommand}
    {row' : ExpenseRow} (hr : Runs administration rs d)
    (hn : next d ⟨env, .expense (.approve cmd)⟩ = some d')
    (h : (approveExpense env cmd).solo d = .ok ((), d'))
    (hinv : ∀ row, d.expenses.lookup cmd.expenseId = some row →
      ExpenseInvariant administration rs d cmd.expenseId row)
    (hrow' : d'.expenses.lookup cmd.expenseId = some row') :
    ExpenseInvariant administration (rs ++ [⟨env, .expense (.approve cmd)⟩]) d' cmd.expenseId
      row' := by
  obtain ⟨row, prow, step, hrow, -, -, hprow, hself, hdup, hstep, hrole, hpending, hd'⟩ :=
    approveExpense_ok hr.wellFormed.aligned h
  have hprow' : d'.approvalProgress.lookup cmd.expenseId =
      some { prow with records := prow.records ++ [approvalOf env cmd prow] } := by
    rw [hd', Store.decided]
    exact Finmap.lookup_insert _
  have hdecided : DecidedIn administration (rs ++ [⟨env, .expense (.approve cmd)⟩]) cmd.expenseId
      row.departmentId step (approvalOf env cmd prow) :=
    decidedIn_last hr hn hprow (by rw [hd']) hrole
  have hmore : Endorsed administration rs cmd.expenseId row prow →
      Endorsed administration (rs ++ [⟨env, .expense (.approve cmd)⟩]) cmd.expenseId row
        { prow with records := prow.records ++ [approvalOf env cmd prow] } := by
    intro hend
    rw [row.stepAt_chain hend.chain] at hstep
    exact (hend.snoc _).approve hstep rfl rfl hdup (Ne.symm hself) hdecided
  have hlookup : d'.expenses.lookup cmd.expenseId = some
      (if (ApprovalChain.of prow.chain).isLastStep (prow.records.length + 1) = true then
        { row with status := .approved, updatedAt := env.now } else row) := by
    rw [hd']
    exact Finmap.lookup_insert _
  obtain rfl := Option.some.inj (hrow'.symm.trans hlookup)
  have hbefore := hinv row hrow
  split_ifs with hlast
  · -- the last step: the expense was pending, and now every step has its record
    obtain ⟨prow₀, hprow₀, hend⟩ := hbefore.pending (hpending hlast)
    obtain rfl := Option.some.inj (hprow.symm.trans hprow₀)
    have hlength := (row.isLastStep_chain hend.chain _).mp hlast
    refine ⟨nofun, nofun, fun _ => .inl ⟨_, hprow', ?_⟩⟩
    refine ((hmore hend).withStatus _ _).signedOff ?_
    rw [List.length_append, List.length_singleton]
    exact hlength
  · refine ⟨fun hs => ?_, fun hs => ?_, fun hs => ?_⟩
    · rw [hbefore.draft hs] at hprow
      cases hprow
    · obtain ⟨prow₀, hprow₀, hend⟩ := hbefore.pending hs
      obtain rfl := Option.some.inj (hprow.symm.trans hprow₀)
      exact ⟨_, hprow', hmore hend⟩
    · rcases hbefore.approved hs with ⟨prow₀, hprow₀, hoff⟩ | hneg
      · -- a chain that is signed off has no step left to approve
        obtain rfl := Option.some.inj (hprow.symm.trans hprow₀)
        have hlength := congrArg List.length hoff.complete
        rw [List.length_map, List.length_map] at hlength
        rw [row.stepAt_chain hoff.chain, hlength, List.getElem?_length] at hstep
        cases hstep
      · exact .inr hneg

/-- **The step of an adjustment**: one that raises the amount starts a workflow
of its own, one that lowers it is approved on the spot. -/
theorem ExpenseInvariant.adjust {d d' : Store} {env : Env} {cmd : CreateAdjustmentCommand}
    {a : Id} {row : ExpenseRow} (hfresh : d.expenses.lookup env.uuid = none)
    (h : (createAdjustment env cmd).solo d = .ok (a, d'))
    (hrow : d'.expenses.lookup env.uuid = some row) :
    ExpenseInvariant administration rs d' env.uuid row := by
  obtain ⟨original, periodId, number, sequences, -, -, -, -, hne, -, -, hd'⟩ :=
    createAdjustment_ok hfresh h
  have hlookup : d'.expenses.lookup env.uuid =
      some (adjustmentRow env (adjustmentInput cmd original periodId number)) := by
    rw [hd']
    exact Finmap.lookup_insert _
  obtain rfl := Option.some.inj (hrow.symm.trans hlookup)
  by_cases hraise : original.amount.minorUnits < cmd.newAmountMinorUnits
  · have hrequires : (adjustmentInput cmd original periodId number).requiresApproval = true :=
      decide_eq_true hraise
    have hstatus : (adjustmentRow env (adjustmentInput cmd original periodId number)).status =
        .pendingApproval := if_pos hrequires
    have hprow : d'.approvalProgress.lookup env.uuid = some ⟨"Expense",
        ((adjustmentRow env (adjustmentInput cmd original periodId number)).chain env.uuid).steps,
        []⟩ := by
      rw [hd', if_pos hrequires]
      exact Finmap.lookup_insert _
    refine ⟨fun hs => ?_, fun _ => ⟨_, hprow, .start _⟩, fun hs => ?_⟩
    · rw [hstatus] at hs
      cases hs
    · rw [hstatus] at hs
      cases hs
  · have hstatus : (adjustmentRow env (adjustmentInput cmd original periodId number)).status =
        .approved := if_neg (by simpa [adjustmentInput] using hraise)
    refine ⟨fun hs => ?_, fun hs => ?_, fun _ => .inr ⟨⟨_, rfl⟩, ?_⟩⟩
    · rw [hstatus] at hs
      cases hs
    · rw [hstatus] at hs
      cases hs
    · change cmd.newAmountMinorUnits - original.amount.minorUnits < 0
      omega

/-- **One expense command** keeps the invariant of the expense it is about. -/
theorem ExpenseInvariant.own {d d' : Store} {env : Env} {cmd : ExpenseCommand} {row' : ExpenseRow}
    (hr : Runs administration rs d) (hn : next d ⟨env, .expense cmd⟩ = some d')
    (hfresh : d.Fresh env.uuid) (h : (cmd.program env).solo d = .ok ((), d'))
    (hinv : ∀ id row, d.expenses.lookup id = some row →
      ExpenseInvariant administration rs d id row)
    (hrow' : d'.expenses.lookup (cmd.subject env) = some row') :
    ExpenseInvariant administration (rs ++ [⟨env, .expense cmd⟩]) d' (cmd.subject env) row' := by
  have hnew := Finmap.lookup_eq_none.mpr hfresh.2.1
  cases cmd with
  | create cmd =>
    obtain ⟨_, h⟩ := Tx.solo_discard_ok.mp h
    obtain ⟨row, _, -, -, hdraft, -, -, -, rfl⟩ := createExpense_ok hnew h
    obtain rfl := Option.some.inj (hrow'.symm.trans (Finmap.lookup_insert _))
    refine ⟨fun _ => Finmap.lookup_eq_none.mpr hfresh.2.2.1, fun hs => ?_, fun hs => ?_⟩
    · rw [hdraft] at hs
      cases hs
    · rw [hdraft] at hs
      cases hs
  | submit cmd =>
    obtain ⟨row, -, -, -, -, -, rfl⟩ := submitExpense_ok h
    obtain rfl := Option.some.inj (hrow'.symm.trans (Finmap.lookup_insert _))
    exact ⟨nofun, fun _ => ⟨_, Finmap.lookup_insert _, (Endorsed.start row).withStatus _ _⟩, nofun⟩
  | approve cmd => exact ExpenseInvariant.approve hr hn h (hinv cmd.expenseId) hrow'
  | reject cmd =>
    obtain ⟨row, _, -, -, -, -, -, -, -, rfl⟩ := rejectExpense_ok hr.wellFormed.aligned h
    obtain rfl := Option.some.inj (hrow'.symm.trans (Finmap.lookup_insert _))
    exact .dead (.inl rfl)
  | cancel cmd =>
    obtain ⟨row, -, -, -, -, rfl⟩ := cancelExpense_ok h
    obtain rfl := Option.some.inj (hrow'.symm.trans (Finmap.lookup_insert _))
    exact .dead (.inr rfl)
  | createAdjustment cmd =>
    obtain ⟨_, h⟩ := Tx.solo_discard_ok.mp h
    exact ExpenseInvariant.adjust hnew h hrow'

/-- **One request** keeps the invariant of every expense. -/
theorem ExpenseInvariant.next {d d' : Store} {request : Request} (hr : Runs administration rs d)
    (hn : next d request = some d')
    (hinv : ∀ id row, d.expenses.lookup id = some row →
      ExpenseInvariant administration rs d id row)
    (hrow : d'.expenses.lookup id = some row) :
    ExpenseInvariant administration (rs ++ [request]) d' id row := by
  obtain ⟨hfresh, ⟨-, rfl⟩ | h⟩ := next_cases hn
  · exact (hinv id row hrow).frame rfl _
  obtain ⟨env, command⟩ := request
  cases command with
  | administer a =>
    obtain ⟨_, hp, rfl⟩ := Tx.solo_exec_ok.mp h
    cases hp
    refine (hinv id row hrow).frame ?_ _
    rfl
  | period cmd =>
    obtain ⟨_, _, rfl⟩ := PeriodCommand.frame h
    refine (hinv id row hrow).frame ?_ _
    rfl
  | expense cmd =>
    obtain ⟨-, -, -, ⟨row₁, hrows⟩, -, hprogress⟩ :=
      ExpenseCommand.frame hr.wellFormed.aligned hfresh h
    by_cases hid : id = cmd.subject env
    · subst hid
      exact ExpenseInvariant.own hr hn hfresh h hinv hrow
    · rw [hrows, Finmap.lookup_insert_of_ne _ hid] at hrow
      exact (hinv id row hrow).frame (hprogress.lookup_ne hid) _
  | payroll cmd =>
    obtain ⟨-, -, hrows, -, -, hprogress⟩ :=
      PayrollCommand.frame hr.wellFormed.aligned (fun _ => Finmap.lookup_eq_none.mpr hfresh.2.2.2) h
    rw [hrows] at hrow
    have hmem : id ∈ d.expenses := Finmap.mem_of_lookup_eq_some hrow
    have hid := PayrollCommand.subject_ne hr.wellFormed hfresh h hmem
    exact (hinv id row hrow).frame (hprogress.lookup_ne hid) _

/-- The invariant holds of every expense of every reachable store. -/
theorem Runs.expenseInvariant {d : Store} (hr : Runs administration rs d) :
    ∀ id row, d.expenses.lookup id = some row → ExpenseInvariant administration rs d id row := by
  refine hr.invariant_along (P := fun rs d => ∀ id row, d.expenses.lookup id = some row →
    ExpenseInvariant administration rs d id row) ?_ ?_
  · intro id row hrow
    cases hrow
  · intro rs d request d' hr hinv _ hn id row hrow
    exact ExpenseInvariant.next hr hn hinv hrow

/-! ## The result -/

/-- **Approved expenses are signed off.** In every reachable store an approved
expense of a positive amount has a progress that is signed off, and the only
approved rows without one are adjustments that lower the amount. -/
theorem approved_signedOff {d : Store} (hr : Runs administration rs d)
    (hrow : d.expenses.lookup id = some row) (happroved : row.status = .approved) :
    (0 < row.amount.minorUnits → ∃ prow, d.approvalProgress.lookup id = some prow ∧
      SignedOff administration rs id row prow) ∧
    ((∃ prow, d.approvalProgress.lookup id = some prow ∧
      SignedOff administration rs id row prow) ∨
      (∃ parent, row.parentExpenseId = some parent) ∧ row.amount.minorUnits < 0) := by
  have hcases := (hr.expenseInvariant id row hrow).approved happroved
  refine ⟨fun hpos => ?_, hcases⟩
  rcases hcases with hoff | ⟨-, hneg⟩
  · exact hoff
  · omega

namespace Sample

/-- An expense of a million naira goes through three heads and the director. The first head
tries to approve twice, and then loses the role. -/
def approvedByPanel : List Request :=
  [openJanuary, create 101 100000000, submit 101, approve 101 11, approve 101 11, withdrawHead,
    approve 101 12, approve 101 13, approve 101 14]

end Sample

/-- The expense is signed off in all four steps, the first one by a former head. -/
theorem approved_signedOff_sample :
    ∃ prow, (Sample.store Sample.approvedByPanel).approvalProgress.lookup 101 = some prow ∧
      SignedOff Sample.administration Sample.approvedByPanel 101
        (Sample.expenseRow .approved 100000000) prow :=
  (approved_signedOff (Sample.runs (by decide +kernel))
    (show (Sample.store _).expenses.lookup 101 = some (Sample.expenseRow .approved 100000000) by
      decide +kernel) rfl).1 (by decide)

end RatelPlatform
