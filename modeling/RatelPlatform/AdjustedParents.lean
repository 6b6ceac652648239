import RatelPlatform.Approvability

/-!
# What corrections correct

A correction that lowers an amount is approved at once: the policy takes it for no
new commitment of funds *beyond what was already approved*. Nothing looks at the
status of the expense that is corrected, nor at whether it is a correction itself,
so a correction can be approved and its expense be a draft, or rejected.

As long as only approved originals are corrected, every correction has an approved
original for good: an approved row is never written again.
-/

namespace RatelPlatform

variable {administration : Administration} {rs : List Request} {d d' : Store} {id : Id}
  {row : ExpenseRow} {request : Request}

/-- The row corrects an approved original of its organization. -/
def Store.CorrectsApproved (d : Store) (row : ExpenseRow) (parentId : Id) : Prop :=
  ∃ parent, d.expenses.lookup parentId = some parent ∧
    parent.organizationId = row.organizationId ∧ parent.parentExpenseId = none ∧
    parent.status = .approved

/-- An expense that is an approved adjustment has an approved original. -/
def Store.Stands (d : Store) (id : Id) : Prop :=
  ∀ row parentId, d.expenses.lookup id = some row → row.parentExpenseId = some parentId →
    row.status = .approved → d.CorrectsApproved row parentId

/-- A request adjusts an approved original only. -/
def AdjustsApproved (d : Store) (request : Request) : Prop :=
  ∀ cmd original, request.command = .expense (.createAdjustment cmd) →
    d.expenses.lookup cmd.originalExpenseId = some original →
    original.organizationId = cmd.organizationId →
    original.parentExpenseId = none ∧ original.status = .approved

/-! ## An approved row is final -/

/-- A command that succeeds leaves an approved row as it is. -/
theorem ExpenseCommand.approved_kept {env : Env} {cmd : ExpenseCommand} {a : Unit}
    (hal : d.RecordsAligned) (hfresh : d.Fresh env.uuid)
    (h : (cmd.program env).solo d = .ok (a, d')) (hrow : d.expenses.lookup id = some row)
    (happroved : row.status = .approved) : d'.expenses.lookup id = some row := by
  obtain ⟨-, -, -, ⟨row₁, hrows⟩, -⟩ := ExpenseCommand.frame hal hfresh h
  by_cases hid : id = cmd.subject env
  · -- the command is about the row itself
    subst hid
    have hnew : env.uuid = cmd.subject env → False := by
      intro hid
      rw [← hid] at hrow
      exact hfresh.2.1 (Finmap.mem_of_lookup_eq_some hrow)
    cases cmd with
    | create cmd => exact absurd rfl hnew
    | createAdjustment cmd => exact absurd rfl hnew
    | submit cmd =>
      obtain ⟨row₂, hrow₂, -, -, hdraft, -⟩ := submitExpense_ok h
      obtain rfl := Option.some.inj (hrow.symm.trans hrow₂)
      cases happroved.symm.trans hdraft
    | approve cmd =>
      obtain ⟨row₂, prow, _, hrow₂, -, -, -, -, -, -, -, hpending, rfl⟩ := approveExpense_ok hal h
      obtain rfl := Option.some.inj (hrow.symm.trans hrow₂)
      refine (Finmap.lookup_insert _).trans (congrArg some ?_)
      split_ifs with hlast
      · cases happroved.symm.trans (hpending hlast)
      · rfl
    | reject cmd =>
      obtain ⟨row₂, _, hrow₂, -, -, -, -, hpending, -⟩ := rejectExpense_ok hal h
      obtain rfl := Option.some.inj (hrow.symm.trans hrow₂)
      cases happroved.symm.trans hpending
    | cancel cmd =>
      obtain ⟨row₂, hrow₂, -, -, hstatus, -⟩ := cancelExpense_ok h
      obtain rfl := Option.some.inj (hrow.symm.trans hrow₂)
      rw [happroved] at hstatus
      exact absurd hstatus (by decide)
  · rw [hrows, Finmap.lookup_insert_of_ne _ hid]
    exact hrow

/-- **An approved row is never written again.** -/
theorem approved_kept (hwf : d.WellFormed) (hn : next d request = some d')
    (hrow : d.expenses.lookup id = some row) (happroved : row.status = .approved) :
    d'.expenses.lookup id = some row := by
  obtain ⟨hfresh, ⟨-, rfl⟩ | h⟩ := next_cases hn
  · exact hrow
  obtain ⟨env, command⟩ := request
  cases command with
  | administer a =>
    obtain ⟨_, hp, rfl⟩ := Tx.solo_exec_ok.mp h
    cases hp
    exact hrow
  | period cmd =>
    obtain ⟨_, _, rfl⟩ := PeriodCommand.frame h
    exact hrow
  | expense cmd => exact ExpenseCommand.approved_kept hwf.aligned hfresh h hrow happroved
  | payroll cmd =>
    obtain ⟨-, -, hrows, -⟩ :=
      PayrollCommand.frame hwf.aligned (fun _ => Finmap.lookup_eq_none.mpr hfresh.2.2.2) h
    rw [hrows]
    exact hrow

theorem Store.CorrectsApproved.next {parentId : Id} (h : d.CorrectsApproved row parentId)
    (hwf : d.WellFormed) (hn : next d request = some d') : d'.CorrectsApproved row parentId := by
  obtain ⟨parent, hparent, horg, horiginal, happroved⟩ := h
  exact ⟨parent, approved_kept hwf hn hparent happroved, horg, horiginal, happroved⟩

/-! ## Where a row comes from -/

/-- The row the request created adjusts an expense. -/
def AdjustmentOf (d : Store) (request : Request) (row : ExpenseRow) : Prop :=
  ∃ cmd original, request.command = .expense (.createAdjustment cmd) ∧
    d.expenses.lookup cmd.originalExpenseId = some original ∧
    original.organizationId = cmd.organizationId ∧ row.organizationId = original.organizationId ∧
    row.parentExpenseId = some cmd.originalExpenseId

/-- A row that is new is an original, or the adjustment the request asks for. -/
theorem adjustmentOf_new (hwf : d.WellFormed) (hn : next d request = some d')
    (hnone : d.expenses.lookup id = none) (hrow : d'.expenses.lookup id = some row) :
    row.parentExpenseId = none ∨ AdjustmentOf d request row := by
  have hnew := Finmap.lookup_eq_none.mpr (next_cases hn).1.2.1
  obtain ⟨rfl, ⟨cmd, _, -, h⟩ | ⟨cmd, _, hcommand, h⟩⟩ := request_of_new hwf hn hnone hrow
  · obtain ⟨row₁, _, -, -, -, -, hparent, -, rfl⟩ := createExpense_ok hnew h
    obtain rfl := Option.some.inj ((Finmap.lookup_insert _).symm.trans hrow)
    exact .inl hparent
  · obtain ⟨original, _, _, _, horiginal, horg, -, -, -, -, -, rfl⟩ := createAdjustment_ok hnew h
    obtain rfl := Option.some.inj ((Finmap.lookup_insert _).symm.trans hrow)
    exact .inr ⟨cmd, original, hcommand, horiginal, horg, rfl, rfl⟩

/-! ## The result -/

/-- Every adjustment has an approved original, whatever its own status. -/
def Store.ParentsApproved (d : Store) : Prop :=
  ∀ id row parentId, d.expenses.lookup id = some row → row.parentExpenseId = some parentId →
    d.CorrectsApproved row parentId

theorem Store.ParentsApproved.next (h : d.ParentsApproved) (hwf : d.WellFormed)
    (hadjusts : AdjustsApproved d request) (hn : next d request = some d') :
    d'.ParentsApproved := by
  intro id row' parentId hrow' hparent
  rcases (expenses_next hwf hn).2 id row' hrow' with ⟨row, hrow, _, _, rfl⟩ | ⟨hnone, -⟩
  · exact (h id row parentId hrow hparent).next hwf hn
  · rcases adjustmentOf_new hwf hn hnone hrow' with horiginal |
      ⟨cmd, original, hcommand, hlookup, horg, hsame, hof⟩
    · cases horiginal.symm.trans hparent
    · obtain rfl := Option.some.inj (hof.symm.trans hparent)
      obtain ⟨horiginal, happroved⟩ := hadjusts cmd original hcommand hlookup horg
      exact Store.CorrectsApproved.next ⟨original, hlookup, hsame.symm, horiginal, happroved⟩ hwf hn

/-- **Approved corrections correct approved expenses**, in a run that adjusts
approved originals only. -/
theorem approved_adjustments_stand (hr : Reaches next AdjustsApproved (.initial administration) rs d) :
    ∀ id, d.Stands id := by
  have hinv : d.WellFormed ∧ d.ParentsApproved := by
    refine hr.invariant (P := fun d => d.WellFormed ∧ d.ParentsApproved)
      ⟨Store.wellFormed_initial administration, ?_⟩ ?_
    · intro id row parentId hrow
      cases hrow
    · rintro d request d' ⟨hwf, hparents⟩ hadjusts hn
      exact ⟨hwf.next hn, hparents.next hwf hadjusts hn⟩
  exact fun id row parentId hrow hparent _ => hinv.2 id row parentId hrow hparent

/-! ## Each single adjustment -/

/-- **When an adjustment stands whatever follows it**: exactly when it adjusts an
approved original. Otherwise it is approved at once, or can be before its expense. -/
theorem stands_iff {env : Env} {cmd : CreateAdjustmentCommand} {original : ExpenseRow}
    (hr : Runs administration rs d)
    (horiginal : d.expenses.lookup cmd.originalExpenseId = some original)
    (hn : next d ⟨env, .expense (.createAdjustment cmd)⟩ = some d')
    (hrow : d'.expenses.lookup env.uuid = some row) :
    (∀ rs' d'', Reaches next (fun _ _ => True) d' rs' d'' → d''.Stands env.uuid) ↔
      original.parentExpenseId = none ∧ original.status = .approved := by
  have hr' := hr.snoc trivial hn
  have hwf := Runs.wellFormed hr
  obtain ⟨hfresh, ⟨-, rfl⟩ | hok⟩ := next_cases hn
  · cases (Finmap.lookup_eq_none.mpr hfresh.2.1).symm.trans hrow
  obtain ⟨_, hok⟩ := Tx.solo_discard_ok.mp hok
  obtain ⟨original₁, periodId, number, _, horiginal₁, horg, hopen, -, -, -, -, hd'⟩ :=
    createAdjustment_ok (Finmap.lookup_eq_none.mpr hfresh.2.1) hok
  obtain rfl := Option.some.inj (horiginal.symm.trans horiginal₁)
  have hne : cmd.originalExpenseId ≠ env.uuid := by
    intro hid
    rw [hid] at horiginal
    exact hfresh.2.1 (Finmap.mem_of_lookup_eq_some horiginal)
  obtain ⟨input, hinput⟩ : ∃ input, input = adjustmentInput cmd original periodId number := ⟨_, rfl⟩
  have hlookup : d'.expenses.lookup env.uuid = some (adjustmentRow env input) := by
    rw [hd', hinput]
    exact Finmap.lookup_insert _
  have hkept : d'.expenses.lookup cmd.originalExpenseId = some original := by
    rw [hd']
    exact (Finmap.lookup_insert_of_ne _ hne).trans horiginal
  obtain rfl := Option.some.inj (hrow.symm.trans hlookup)
  have hparent : (adjustmentRow env input).parentExpenseId = some cmd.originalExpenseId := by
    rw [hinput]
    rfl
  refine ⟨?_, ?_⟩
  · intro hstands
    -- a store in which the adjustment is approved and the original as it was
    obtain ⟨rs', d'', row'', hreach, hrow'', hsame, happroved, hothers⟩ :
        ∃ rs' d'' row'', Reaches next (fun _ _ => True) d' rs' d'' ∧
          d''.expenses.lookup env.uuid = some row'' ∧ (adjustmentRow env input).SameBut row'' ∧
          row''.status = .approved ∧
          ∀ id, id ≠ env.uuid → d''.expenses.lookup id = d'.expenses.lookup id := by
      by_cases hrequires : input.requiresApproval = true
      · refine can_be_approved hr' hlookup (if_pos hrequires) ?_
        rw [hinput, hd']
        exact horg ▸ hopen
      · exact ⟨[], d', _, .nil, hlookup, .refl _, if_neg hrequires, fun _ _ => rfl⟩
    have hparent'' : row''.parentExpenseId = some cmd.originalExpenseId := by
      obtain ⟨_, _, rfl⟩ := hsame
      exact hparent
    obtain ⟨parent, hparentRow, -, hfirst, hparentApproved⟩ :=
      hstands rs' d'' hreach row'' _ hrow'' hparent'' happroved
    rw [hothers _ hne, hkept] at hparentRow
    obtain rfl := Option.some.inj hparentRow
    exact ⟨hfirst, hparentApproved⟩
  · rintro ⟨hfirst, happroved⟩ rs' d'' hreach
    have hend : d''.WellFormed ∧ d''.CorrectsApproved (adjustmentRow env input)
        cmd.originalExpenseId ∧ ∃ row'', d''.expenses.lookup env.uuid = some row'' ∧
          (adjustmentRow env input).SameBut row'' := by
      refine hreach.invariant (P := fun d => d.WellFormed ∧ d.CorrectsApproved
        (adjustmentRow env input) cmd.originalExpenseId ∧ ∃ row'',
          d.expenses.lookup env.uuid = some row'' ∧ (adjustmentRow env input).SameBut row'') ?_ ?_
      · refine ⟨Runs.wellFormed hr', ⟨original, hkept, ?_, hfirst, happroved⟩, _, hlookup, .refl _⟩
        rw [hinput]
        rfl
      · rintro d request d' ⟨hwf, hcorrects, row₁, hrow₁, hsame₁⟩ - hn
        obtain ⟨row₂, hrow₂, hsame₂⟩ := (expenses_next hwf hn).1 _ row₁ hrow₁
        exact ⟨hwf.next hn, hcorrects.next hwf hn, row₂, hrow₂, hsame₁.trans hsame₂⟩
    obtain ⟨-, hcorrects, row₁, hrow₁, _, _, rfl⟩ := hend
    intro row₂ parentId hrow₂ hof _
    obtain rfl := Option.some.inj (hrow₁.symm.trans hrow₂)
    obtain rfl := Option.some.inj (hparent.symm.trans hof)
    exact hcorrects

/-! ## Two corrections -/

namespace Sample

/-- The request adjusts nothing, or an approved original. -/
def adjustsApproved (d : Store) (request : Request) : Bool :=
  match request.command with
  | .expense (.createAdjustment cmd) => (d.expenses.lookup cmd.originalExpenseId).all fun original =>
      original.parentExpenseId = none ∧ original.status = .approved
  | _ => true

theorem adjustsApproved_of_check (d : Store) (request : Request)
    (h : adjustsApproved d request) : AdjustsApproved d request := by
  intro cmd original hcommand horiginal _
  simp only [adjustsApproved, hcommand, horiginal, Option.all_some, decide_eq_true_eq] at h
  exact h

/-- An approved expense is lowered to 30000. -/
def correctedApproved : List Request :=
  [openJanuary, create 101 50000, submit 101, approve 101 11, adjust 102 101 30000]

/-- A draft is lowered to 30000. -/
def correctedDraft : List Request := [openJanuary, create 101 50000, adjust 102 101 30000]

end Sample

theorem approved_adjustments_stand_sample :
    ∃ d, Reaches next AdjustsApproved (.initial Sample.administration) Sample.correctedApproved d ∧
      ∀ id, d.Stands id := by
  obtain ⟨d, hr⟩ : ∃ d, Reaches next AdjustsApproved (.initial Sample.administration)
      Sample.correctedApproved d :=
    exists_reaches_of_checked Sample.adjustsApproved_of_check (by decide +kernel)
  exact ⟨d, hr, approved_adjustments_stand hr⟩

/-- **A draft has an approved correction**: it lowers the amount, and nobody is
asked. -/
theorem draft_has_approved_correction : ∃ d row,
    Runs Sample.administration Sample.correctedDraft d ∧ d.expenses.lookup 102 = some row ∧
      row.parentExpenseId = some 101 ∧ row.status = .approved ∧
      d.expenses.lookup 101 = some (Sample.expenseRow .draft 50000) ∧ ¬ d.Stands 102 := by
  have hfacts : ((Sample.store Sample.correctedDraft).expenses.lookup 102).map
      (fun row => (row.parentExpenseId, row.status)) = some (some 101, .approved) := by
    decide +kernel
  obtain ⟨row, hrow, hfacts⟩ := Option.map_eq_some_iff.mp hfacts
  obtain ⟨hparent, hstatus⟩ := Prod.mk.inj hfacts
  have hdraft : (Sample.store Sample.correctedDraft).expenses.lookup 101 =
      some (Sample.expenseRow .draft 50000) := by
    decide +kernel
  refine ⟨_, row, Sample.runs (by decide +kernel), hrow, hparent, hstatus, hdraft, ?_⟩
  intro hstands
  obtain ⟨parent, hlookup, -, -, happroved⟩ := hstands row 101 hrow hparent hstatus
  obtain rfl := Option.some.inj (hdraft.symm.trans hlookup)
  cases happroved

end RatelPlatform
