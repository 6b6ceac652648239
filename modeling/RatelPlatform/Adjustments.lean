import RatelPlatform.Commands

/-!
# What adjustments add up to

An approved expense is corrected by rows of its own: the amount of the original
and of its adjustments together is what the expense now stands at. Each
adjustment is asked for as a corrected total and stored as a difference, and the
difference is always taken to the *original's* amount. So after several
adjustments the sum is the last total asked for only when the earlier ones
cancel out.
-/

namespace RatelPlatform

/-- What a row adds to the adjustments of an expense. -/
def adjustmentOf (id : Id) (row : ExpenseRow) : ℤ :=
  if row.parentExpenseId = some id then row.amount.minorUnits else 0

/-- The amounts of all adjustment rows of an expense. -/
def Store.adjustmentSum (d : Store) (id : Id) : ℤ := Table.sum d.expenses (adjustmentOf id)

/-- The corrected total a request asks for, if it adjusts the expense and is
accepted. -/
def Request.acceptedTotal (d : Store) (id : Id) (r : Request) : Option ℤ :=
  match r.command with
  | .expense (.createAdjustment cmd) =>
    match (createAdjustment r.env cmd).solo d with
    | .ok _ => if cmd.originalExpenseId = id then some cmd.newAmountMinorUnits else none
    | .error _ => none
  | _ => none

theorem Request.acceptedTotal_of_error {d : Store} {id : Id} {r : Request} {e : Failure}
    (h : (r.command.program r.env).solo d = .error e) : r.acceptedTotal d id = none := by
  obtain ⟨env, command⟩ := r
  unfold Request.acceptedTotal
  split
  · next cmd hcommand =>
    cases hcommand
    rcases hsolo : (createAdjustment env cmd).solo d with e' | ⟨a, d'⟩
    · rfl
    · have hok := (Tx.solo_discard_ok (a := ())).mpr ⟨a, hsolo⟩
      cases h.symm.trans hok
  · rfl

/-- The corrected totals the accepted adjustments of a run ask for, in order. -/
def acceptedTotals (id : Id) : Store → List Request → List ℤ
  | _, [] => []
  | d, r :: rs => (r.acceptedTotal d id).toList ++ acceptedTotals id ((next d r).getD d) rs

theorem acceptedTotals_snoc (id : Id) {rs : List Request} {d₀ d : Store} (r : Request)
    (h : runLabels next d₀ rs = some d) :
    acceptedTotals id d₀ (rs ++ [r]) =
      acceptedTotals id d₀ rs ++ (r.acceptedTotal d id).toList := by
  induction rs generalizing d₀ with
  | nil =>
    obtain rfl := Option.some.inj h
    simp [acceptedTotals]
  | cons r₀ rs ih =>
    obtain ⟨d₁, h₁, hrest⟩ := Option.bind_eq_some_iff.mp h
    simp only [List.cons_append, acceptedTotals, h₁, Option.getD_some, ih hrest, List.append_assoc]

/-! ## The invariant -/

/-- The adjustments of an expense stand for the totals asked for, each taken
against the amount of the original. -/
structure Counted (d : Store) (id : Id) (totals : List ℤ) : Prop where
  /-- an expense that is not there has no adjustments -/
  absent : d.expenses.lookup id = none → totals = [] ∧ d.adjustmentSum id = 0
  /-- the sum of the differences -/
  present : ∀ row, d.expenses.lookup id = some row →
    d.adjustmentSum id = (totals.map fun t => t - row.amount.minorUnits).sum

variable {d d' : Store} {id k : Id} {row : ExpenseRow} {totals : List ℤ}

/-- A row that keeps its amount and its parent changes no sum. -/
theorem Counted.rewrite (h : Counted d id totals) (hrow : d.expenses.lookup k = some row)
    {status : ExpenseStatus} {updatedAt : JsDate}
    (hd' : d'.expenses = d.expenses.insert k { row with status, updatedAt }) :
    Counted d' id totals := by
  have hsum : d'.adjustmentSum id = d.adjustmentSum id := by
    rw [Store.adjustmentSum, hd']
    exact Table.sum_insert_same _ hrow rfl
  refine ⟨fun hnone => ?_, fun row' hrow' => ?_⟩
  · rw [hd', Table.lookup_insert_ite] at hnone
    split_ifs at hnone
    rw [hsum]
    exact h.absent hnone
  · rw [hd'] at hrow'
    rw [hsum]
    obtain ⟨rfl, rfl⟩ | ⟨-, hrow'⟩ := Table.lookup_insert_cases hrow'
    · exact h.present row hrow
    · exact h.present row' hrow'

/-- A new row that is not an adjustment of the expense changes no sum. -/
theorem Counted.enter (h : Counted d id totals) (hnew : d.expenses.lookup k = none)
    (hparent : row.parentExpenseId ≠ some id) (hd' : d'.expenses = d.expenses.insert k row) :
    Counted d' id totals := by
  have hsum : d'.adjustmentSum id = d.adjustmentSum id := by
    rw [Store.adjustmentSum, hd', Table.sum_insert_new _ hnew, adjustmentOf, if_neg hparent]
    exact zero_add _
  refine ⟨fun hnone => ?_, fun row' hrow' => ?_⟩
  · rw [hd', Table.lookup_insert_ite] at hnone
    split_ifs at hnone
    rw [hsum]
    exact h.absent hnone
  · rw [hd'] at hrow'
    rw [hsum]
    obtain ⟨rfl, rfl⟩ | ⟨-, hrow'⟩ := Table.lookup_insert_cases hrow'
    · obtain ⟨rfl, hzero⟩ := h.absent hnew
      exact hzero
    · exact h.present row' hrow'

/-- A new adjustment of the expense adds the difference to the original. -/
theorem Counted.adjust (h : Counted d id totals) {original : ExpenseRow} {total : ℤ}
    (horiginal : d.expenses.lookup id = some original) (hnew : d.expenses.lookup k = none)
    (hparent : row.parentExpenseId = some id)
    (hamount : row.amount.minorUnits = total - original.amount.minorUnits)
    (hd' : d'.expenses = d.expenses.insert k row) : Counted d' id (totals ++ [total]) := by
  have hne : id ≠ k := by
    rintro rfl
    rw [hnew] at horiginal
    cases horiginal
  have hkept : d'.expenses.lookup id = some original := by
    rw [hd', Finmap.lookup_insert_of_ne _ hne]
    exact horiginal
  refine ⟨fun hnone => ?_, fun row' hrow' => ?_⟩
  · rw [hkept] at hnone
    cases hnone
  · obtain rfl := Option.some.inj (hkept.symm.trans hrow')
    rw [Store.adjustmentSum, hd', Table.sum_insert_new _ hnew, adjustmentOf, if_pos hparent, hamount,
      List.map_append, List.sum_append, ← h.present original horiginal]
    exact (add_comm _ _).trans (by rw [List.map_singleton, List.sum_singleton]; rfl)

theorem Counted.congr (h : Counted d id totals) (hd' : d'.expenses = d.expenses) :
    Counted d' id totals := by
  refine ⟨?_, ?_⟩
  · rw [hd', Store.adjustmentSum, hd']
    exact h.absent
  · rw [hd', Store.adjustmentSum, hd']
    exact h.present

/-- **One expense command**: only an accepted adjustment of the expense counts. -/
theorem Counted.expense {env : Env} {cmd : ExpenseCommand} {a : Unit} (hal : d.RecordsAligned)
    (hfresh : d.Fresh env.uuid) (hcounted : Counted d id totals)
    (h : (cmd.program env).solo d = .ok (a, d')) :
    Counted d' id (totals ++ (Request.acceptedTotal d id ⟨env, .expense cmd⟩).toList) := by
  have hnew := Finmap.lookup_eq_none.mpr hfresh.2.1
  cases cmd with
  | create cmd =>
    obtain ⟨_, h⟩ := Tx.solo_discard_ok.mp h
    obtain ⟨row, _, -, -, -, -, hparent, -, hd'⟩ := createExpense_ok hnew h
    rw [Request.acceptedTotal, Option.toList_none, List.append_nil]
    refine hcounted.enter hnew ?_ (congrArg Store.expenses hd')
    rw [hparent]
    exact nofun
  | submit cmd =>
    obtain ⟨row, hrow, -, -, -, -, rfl⟩ := submitExpense_ok h
    rw [Request.acceptedTotal, Option.toList_none, List.append_nil]
    exact hcounted.rewrite hrow rfl
  | approve cmd =>
    obtain ⟨row, _, _, hrow, -, -, -, -, -, -, -, -, rfl⟩ := approveExpense_ok hal h
    rw [Request.acceptedTotal, Option.toList_none, List.append_nil]
    split_ifs
    · exact hcounted.rewrite hrow rfl
    · exact hcounted.rewrite hrow rfl
  | reject cmd =>
    obtain ⟨row, _, hrow, -, -, -, -, -, -, rfl⟩ := rejectExpense_ok hal h
    rw [Request.acceptedTotal, Option.toList_none, List.append_nil]
    exact hcounted.rewrite hrow rfl
  | cancel cmd =>
    obtain ⟨row, hrow, -, -, -, rfl⟩ := cancelExpense_ok h
    rw [Request.acceptedTotal, Option.toList_none, List.append_nil]
    exact hcounted.rewrite hrow rfl
  | createAdjustment cmd =>
    obtain ⟨_, h⟩ := Tx.solo_discard_ok.mp h
    have haccepted : Request.acceptedTotal d id ⟨env, .expense (.createAdjustment cmd)⟩ =
        if cmd.originalExpenseId = id then some cmd.newAmountMinorUnits else none := by
      simp only [Request.acceptedTotal, h]
    obtain ⟨original, periodId, number, _, horiginal, -, -, -, -, -, -, hd'⟩ :=
      createAdjustment_ok hnew h
    have hrows := congrArg Store.expenses hd'
    rw [haccepted]
    split_ifs with hid
    · subst hid
      exact hcounted.adjust horiginal hnew rfl rfl hrows
    · rw [Option.toList_none, List.append_nil]
      refine hcounted.enter hnew ?_ hrows
      exact fun he => hid (Option.some.inj he)

/-- **One request.** -/
theorem Counted.next {r : Request} (hwf : d.WellFormed) (hcounted : Counted d id totals)
    (hn : next d r = some d') : Counted d' id (totals ++ (r.acceptedTotal d id).toList) := by
  obtain ⟨hfresh, ⟨⟨e, herror⟩, rfl⟩ | h⟩ := next_cases hn
  · rw [Request.acceptedTotal_of_error herror, Option.toList_none, List.append_nil]
    exact hcounted
  obtain ⟨env, command⟩ := r
  cases command with
  | administer administration =>
    obtain ⟨_, hp, rfl⟩ := Tx.solo_exec_ok.mp h
    cases hp
    rw [Request.acceptedTotal, Option.toList_none, List.append_nil]
    exact hcounted.congr rfl
  | period cmd =>
    obtain ⟨_, _, rfl⟩ := PeriodCommand.frame h
    rw [Request.acceptedTotal, Option.toList_none, List.append_nil]
    exact hcounted.congr rfl
  | expense cmd => exact hcounted.expense hwf.aligned hfresh h
  | payroll cmd =>
    obtain ⟨-, -, hrows, -⟩ := PayrollCommand.frame hwf.aligned
      (fun _ => Finmap.lookup_eq_none.mpr hfresh.2.2.2) h
    rw [Request.acceptedTotal, Option.toList_none, List.append_nil]
    exact hcounted.congr hrows

/-- In every reachable store the adjustments of an expense stand for the totals
asked for so far. -/
theorem Runs.counted {administration : Administration} {rs : List Request}
    (hr : Runs administration rs d) (id : Id) :
    Counted d id (acceptedTotals id (.initial administration) rs) := by
  refine hr.invariant_along
    (P := fun rs d => Counted d id (acceptedTotals id (.initial administration) rs)) ?_ ?_
  · refine ⟨fun _ => ⟨rfl, Table.sum_empty _⟩, fun row hrow => ?_⟩
    cases hrow
  · intro rs d r d' hr hcounted _ hn
    rw [acceptedTotals_snoc id r hr.runLabels_eq]
    exact hcounted.next (Runs.wellFormed hr) hn

/-! ## The result -/

/-- **What the adjustments add up to**: an expense and its adjustments amount to
the last corrected total asked for exactly when the differences of the earlier
totals to the original amount cancel out. -/
theorem adjustments_net_iff {administration : Administration} {rs : List Request}
    (hr : Runs administration rs d) (hrow : d.expenses.lookup id = some row) {earlier : List ℤ}
    {last : ℤ} (htotals : acceptedTotals id (.initial administration) rs = earlier ++ [last]) :
    row.amount.minorUnits + d.adjustmentSum id = last ↔
      (earlier.map fun t => t - row.amount.minorUnits).sum = 0 := by
  have hsum := (hr.counted id).present row hrow
  rw [htotals, List.map_append, List.sum_append, List.map_singleton, List.sum_singleton] at hsum
  omega

/-- Three corrections of an approved expense of 1000: to 800, to 1200, which has to be approved,
and then to 900. -/
def Sample.cancellingCorrections : List Request :=
  [openJanuary, create 101 1000, submit 101, approve 101 11, adjust 102 101 800,
    adjust 103 101 1200, approve 103 11, adjust 104 101 900]

/-- The three corrections are approved, and net out: the differences of the first two cancel. -/
theorem adjustments_net_iff_sample :
    (∀ id ∈ (Sample.store Sample.cancellingCorrections).expenses.keys,
      ((Sample.store Sample.cancellingCorrections).expenses.lookup id).map ExpenseRow.status =
        some .approved) ∧
      (1000 : ℤ) + (Sample.store Sample.cancellingCorrections).adjustmentSum 101 = 900 :=
  ⟨by decide +kernel, (adjustments_net_iff (Sample.runs (by decide +kernel))
    (show (Sample.store _).expenses.lookup 101 = some (Sample.expenseRow .approved 1000) by
      decide +kernel)
    (show acceptedTotals 101 _ _ = [800, 1200] ++ [900] by decide +kernel)).mpr (by decide)⟩

/-- Two corrections of an approved expense of 1000: to 800, and then to 900. -/
def Sample.twoCorrections : List Request :=
  [openJanuary, create 101 1000, submit 101, approve 101 11, adjust 102 101 800,
    adjust 103 101 900]

/-- Both corrections are approved on the spot, and the rows amount to 700. -/
theorem adjustments_do_not_net :
    Runs Sample.administration Sample.twoCorrections (Sample.store Sample.twoCorrections) ∧
      acceptedTotals 101 (.initial Sample.administration) Sample.twoCorrections = [800, 900] ∧
      (Sample.store Sample.twoCorrections).expenses.lookup 101 =
        some (Sample.expenseRow .approved 1000) ∧
      (∀ id ∈ (Sample.store Sample.twoCorrections).expenses.keys,
        ((Sample.store Sample.twoCorrections).expenses.lookup id).map ExpenseRow.status =
          some .approved) ∧
      (1000 : ℤ) + (Sample.store Sample.twoCorrections).adjustmentSum 101 = 700 ∧
      (700 : ℤ) ≠ 900 :=
  ⟨Sample.runs (by decide +kernel), by decide +kernel, by decide +kernel, by decide +kernel,
    by decide +kernel, by decide⟩

end RatelPlatform
