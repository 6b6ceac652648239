import RatelPlatform.Approvability

/-!
# Who may approve a correction

An adjustment takes over the source of the expense it corrects. The engine asks
that an approver is not the source, so nobody approves a correction of what they
entered themselves; but the command that creates an adjustment does not say who
issues it, and a user who corrects someone else's expense may go on to approve
the correction.

Requests are taken here together with the user who issues them, which the model
of the commands does not know.
-/

namespace RatelPlatform

/-- A request with the user who issues it. -/
abbrev IssuedRequest := Id × Request

/-- The request as it is executed: nothing depends on who issues it. -/
def nextBy (d : Store) (r : IssuedRequest) : Option Store := next d r.2

/-- The stores issued requests lead to. -/
abbrev RunsBy (administration : Administration) : List IssuedRequest → Store → Prop :=
  Reaches nextBy (fun _ _ => True) (.initial administration)

/-- The step creates the adjustment, on behalf of the user. -/
def Adjusts (id userId : Id) (d : Store) (r : IssuedRequest) (d' : Store) : Prop :=
  r.1 = userId ∧ (∃ cmd, r.2.command = .expense (.createAdjustment cmd)) ∧
    d.expenses.lookup id = none ∧ ∃ row, d'.expenses.lookup id = some row

/-- The user issued the command that created the adjustment. -/
def AdjustedBy (administration : Administration) (rs : List IssuedRequest) (id userId : Id) : Prop :=
  Happened nextBy (.initial administration) rs (Adjusts id userId)

/-- Whoever adjusts an expense is its source, or does not raise its amount. -/
def AdjustsOwn (d : Store) (r : IssuedRequest) : Prop :=
  ∀ cmd original, r.2.command = .expense (.createAdjustment cmd) →
    d.expenses.lookup cmd.originalExpenseId = some original →
      original.source.actorId = r.1 ∨ cmd.newAmountMinorUnits ≤ original.amount.minorUnits

variable {administration : Administration} {d d' : Store} {id userId : Id} {row : ExpenseRow}

/-- Leaving out who issued the requests. -/
theorem runs_of_issued {ok : Store → IssuedRequest → Prop} {rs : List IssuedRequest}
    (hr : Reaches nextBy ok (.initial administration) rs d) :
    Runs administration (rs.map Prod.snd) d := by
  induction hr with
  | nil => exact .nil
  | snoc _ _ hn ih =>
    rw [List.map_append]
    exact .snoc ih trivial hn

/-! ## Nobody decides on what they entered -/

/-- No decision on an expense is by its source. -/
def Store.DecidedByOthers (d : Store) : Prop :=
  ∀ id row, d.expenses.lookup id = some row → ∀ r ∈ d.recordsOf id,
    r.approverId ≠ row.source.actorId

theorem Store.DecidedByOthers.next {request : Request} (h : d.DecidedByOthers)
    (hwf : d.WellFormed) (hn : next d request = some d') : d'.DecidedByOthers := by
  intro id row' hrow' r hr
  obtain ⟨hfresh, -⟩ := next_cases hn
  rcases (expenses_next hwf hn).2 id row' hrow' with ⟨row, hrow, _, _, rfl⟩ | ⟨hnew, rfl, -⟩
  · rcases records_next hwf hn id with hsame | ⟨item, prow, r₁, hadmits, hmore⟩
    · rw [hsame] at hr
      exact h id row hrow r hr
    · rw [hmore, List.mem_append, List.mem_singleton] at hr
      rcases hr with hold | rfl
      · exact h id row hrow r hold
      · rcases hadmits.stored with ⟨row₁, hrow₁, rfl⟩ | ⟨run, hrun, -⟩
        · obtain rfl := Option.some.inj (hrow.symm.trans hrow₁)
          exact Ne.symm hadmits.other
        · exact absurd (Finmap.mem_of_lookup_eq_some hrun)
            (hwf.disjoint id (Finmap.mem_of_lookup_eq_some hrow))
  · -- a new expense has no progress, so nothing is decided on it
    have hnone := Finmap.lookup_eq_none.mpr hfresh.2.2.1
    rcases records_next hwf hn request.env.uuid with hsame | ⟨item, prow, r₁, hadmits, -⟩
    · rw [hsame, Store.recordsOf, hnone] at hr
      cases hr
    · cases hnone.symm.trans hadmits.progress

/-- In every reachable store nobody decided on what they entered. -/
theorem Runs.decidedByOthers {rs : List Request} (hr : Runs administration rs d) :
    d.DecidedByOthers := by
  have hinv : d.WellFormed ∧ d.DecidedByOthers := by
    refine hr.invariant (P := fun d => d.WellFormed ∧ d.DecidedByOthers)
      ⟨Store.wellFormed_initial administration, ?_⟩ ?_
    · intro id row hrow
      cases hrow
    · rintro d request d' ⟨hwf, hothers⟩ - hn
      exact ⟨hwf.next hn, hothers.next hwf hn⟩
  exact hinv.2

/-! ## Adjustments that need no approval -/

/-- An approved expense without a progress, such as an adjustment that lowers the
amount. -/
def Store.ApprovedOutright (d : Store) (id : Id) (row : ExpenseRow) : Prop :=
  d.expenses.lookup id = some row ∧ row.status = .approved ∧ d.approvalProgress.lookup id = none

/-- No command is about an expense that was approved outright. -/
theorem Store.ApprovedOutright.ne_subject {env : Env} {cmd : ExpenseCommand} {a : Unit}
    (h : d.ApprovedOutright id row) (hal : d.RecordsAligned) (hfresh : d.Fresh env.uuid)
    (hok : (cmd.program env).solo d = .ok (a, d')) : id ≠ cmd.subject env := by
  obtain ⟨hrow, happroved, hnone⟩ := h
  rintro rfl
  have hstored : env.uuid = cmd.subject env → False := by
    intro hid
    rw [← hid] at hrow
    exact hfresh.2.1 (Finmap.mem_of_lookup_eq_some hrow)
  cases cmd with
  | create cmd => exact hstored rfl
  | createAdjustment cmd => exact hstored rfl
  | submit cmd =>
    obtain ⟨row₁, hrow₁, -, -, hdraft, -⟩ := submitExpense_ok hok
    obtain rfl := Option.some.inj (hrow.symm.trans hrow₁)
    cases happroved.symm.trans hdraft
  | approve cmd =>
    obtain ⟨_, _, _, -, -, -, hprow, -⟩ := approveExpense_ok hal hok
    cases hnone.symm.trans hprow
  | reject cmd =>
    obtain ⟨_, _, -, -, -, hprow, -⟩ := rejectExpense_ok hal hok
    cases hnone.symm.trans hprow
  | cancel cmd =>
    obtain ⟨row₁, hrow₁, -, -, hstatus, -⟩ := cancelExpense_ok hok
    obtain rfl := Option.some.inj (hrow.symm.trans hrow₁)
    rw [happroved] at hstatus
    exact absurd hstatus (by decide)

theorem Store.ApprovedOutright.next {request : Request} (h : d.ApprovedOutright id row)
    (hwf : d.WellFormed) (hn : next d request = some d') : d'.ApprovedOutright id row := by
  obtain ⟨hfresh, ⟨-, rfl⟩ | hok⟩ := next_cases hn
  · exact h
  obtain ⟨env, command⟩ := request
  cases command with
  | administer a =>
    obtain ⟨_, hp, rfl⟩ := Tx.solo_exec_ok.mp hok
    cases hp
    exact h
  | period cmd =>
    obtain ⟨_, _, rfl⟩ := PeriodCommand.frame hok
    exact h
  | expense cmd =>
    obtain ⟨-, -, -, ⟨row₁, hrows⟩, -, hprogress⟩ := ExpenseCommand.frame hwf.aligned hfresh hok
    have hid := h.ne_subject hwf.aligned hfresh hok
    refine ⟨?_, h.2.1, ?_⟩
    · rw [hrows, Finmap.lookup_insert_of_ne _ hid]
      exact h.1
    · rw [hprogress.lookup_ne hid]
      exact h.2.2
  | payroll cmd =>
    obtain ⟨-, -, hrows, -, -, hprogress⟩ :=
      PayrollCommand.frame hwf.aligned (fun _ => Finmap.lookup_eq_none.mpr hfresh.2.2.2) hok
    have hmem : id ∈ d.expenses := Finmap.mem_of_lookup_eq_some h.1
    have hid := PayrollCommand.subject_ne hwf hfresh hok hmem
    refine ⟨?_, h.2.1, ?_⟩
    · rw [hrows]
      exact h.1
    · rw [hprogress.lookup_ne hid]
      exact h.2.2

/-! ## The result -/

/-- The adjustment is by the source of its expense, or was approved outright. -/
def Adjusted (d : Store) (id userId : Id) : Prop :=
  ∃ row, d.expenses.lookup id = some row ∧
    (row.source.actorId = userId ∨ d.ApprovedOutright id row)

theorem Adjusted.next {request : Request} (h : Adjusted d id userId) (hwf : d.WellFormed)
    (hn : next d request = some d') : Adjusted d' id userId := by
  obtain ⟨row, hrow, hsource | houtright⟩ := h
  · obtain ⟨row', hrow', _, _, rfl⟩ := (expenses_next hwf hn).1 id row hrow
    exact ⟨_, hrow', .inl hsource⟩
  · have hafter := houtright.next hwf hn
    exact ⟨row, hafter.1, .inr hafter⟩

/-- The step that creates an adjustment. -/
theorem Adjusts.adjusted {r : IssuedRequest} (hwf : d.WellFormed) (hn : next d r.2 = some d')
    (hown : AdjustsOwn d r) (h : Adjusts id userId d r d') : Adjusted d' id userId := by
  obtain ⟨hissuer, ⟨cmd, hcommand⟩, hnone, row', hrow'⟩ := h
  obtain ⟨hfresh, ⟨-, rfl⟩ | hok⟩ := next_cases hn
  · cases hnone.symm.trans hrow'
  rw [hcommand] at hok
  obtain ⟨_, hok⟩ := Tx.solo_discard_ok.mp hok
  obtain ⟨original, periodId, number, _, horiginal, -, -, -, -, -, -, rfl⟩ :=
    createAdjustment_ok (Finmap.lookup_eq_none.mpr hfresh.2.1) hok
  obtain ⟨rfl, rfl⟩ | ⟨-, hrow'⟩ := Table.lookup_insert_cases hrow'
  · refine ⟨_, Finmap.lookup_insert _, ?_⟩
    rcases hown cmd original hcommand horiginal with hsource | hlower
    · exact .inl (hsource.trans hissuer)
    · have hrequires : (adjustmentInput cmd original periodId number).requiresApproval = false :=
        decide_eq_false (not_lt.mpr hlower)
      refine .inr ⟨Finmap.lookup_insert _, ?_, ?_⟩
      · simp only [adjustmentRow, ExpenseRepository.toRow, Expense.adjustmentProps, hrequires]
        rfl
      · simp only [hrequires, Bool.false_eq_true, if_false]
        exact Finmap.lookup_eq_none.mpr hfresh.2.2.1
  · cases hnone.symm.trans hrow'

/-- **Nobody decides on their own correction**, in a run in which whoever adjusts an
expense is its source or does not raise its amount. -/
theorem adjuster_never_decides {rs : List IssuedRequest}
    (hr : Reaches nextBy AdjustsOwn (.initial administration) rs d)
    (hadjusted : AdjustedBy administration rs id userId) :
    ∀ r ∈ d.recordsOf id, r.approverId ≠ userId := by
  have hinv : ∀ id userId, AdjustedBy administration rs id userId → Adjusted d id userId := by
    refine hr.invariant_along (P := fun rs d => ∀ id userId,
      AdjustedBy administration rs id userId → Adjusted d id userId) ?_ ?_
    · exact fun _ _ h => absurd h not_happened_nil
    · intro rs d r d' hr ih hown hn id userId h
      have hwf := Runs.wellFormed (runs_of_issued hr)
      rcases (happened_snoc_iff hr hn).mp h with hbefore | hnow
      · exact (ih id userId hbefore).next hwf hn
      · exact hnow.adjusted hwf hn hown
  obtain ⟨row, hrow, hsource | ⟨-, -, hnone⟩⟩ := hinv id userId hadjusted
  · rw [← hsource]
    exact Runs.decidedByOthers (runs_of_issued hr) id row hrow
  · intro r hmem
    rw [Store.recordsOf, hnone] at hmem
    cases hmem

/-! ## Why the source has to be asked for -/

/-- **When a user is kept from deciding on an adjustment**: whatever follows its
creation, no decision on it is by the user, exactly when the user is the source of
the expense or the adjustment does not raise its amount. -/
theorem never_decides_iff {rs : List Request} {env : Env} {cmd : CreateAdjustmentCommand}
    {original : ExpenseRow} (hr : Runs administration rs d)
    (horiginal : d.expenses.lookup cmd.originalExpenseId = some original)
    (hn : next d ⟨env, .expense (.createAdjustment cmd)⟩ = some d')
    (hrow : d'.expenses.lookup env.uuid = some row) :
    (∀ rs' d'', Reaches next (fun _ _ => True) d' rs' d'' → ∀ r ∈ d''.recordsOf env.uuid,
      r.approverId ≠ userId) ↔
    original.source.actorId = userId ∨ cmd.newAmountMinorUnits ≤ original.amount.minorUnits := by
  have hr' := hr.snoc trivial hn
  obtain ⟨hfresh, -⟩ := next_cases hn
  have hnone := Finmap.lookup_eq_none.mpr hfresh.2.1
  refine ⟨?_, ?_⟩
  · intro hnever
    by_contra hnot
    rw [not_or, not_le] at hnot
    obtain ⟨hother, hraise⟩ := hnot
    obtain ⟨-, ⟨-, rfl⟩ | hok⟩ := next_cases hn
    · cases hnone.symm.trans hrow
    obtain ⟨_, hok⟩ := Tx.solo_discard_ok.mp hok
    obtain ⟨original₁, periodId, number, _, horiginal₁, horg, hopen, -, -, -, -, hd'⟩ :=
      createAdjustment_ok hnone hok
    obtain rfl := Option.some.inj (horiginal.symm.trans horiginal₁)
    have hrequires : (adjustmentInput cmd original periodId number).requiresApproval = true :=
      decide_eq_true hraise
    have hlookup : d'.expenses.lookup env.uuid =
        some (adjustmentRow env (adjustmentInput cmd original periodId number)) := by
      rw [hd']
      exact Finmap.lookup_insert _
    obtain ⟨prow, hprow, hrecords⟩ : ∃ prow, d'.approvalProgress.lookup env.uuid = some prow ∧
        prow.records = [] := by
      rw [hd']
      simp only [hrequires, if_true]
      exact ⟨_, Finmap.lookup_insert _, rfl⟩
    have hopen' : d'.PeriodIsOpen original.organizationId periodId := by
      rw [hd', horg]
      exact hopen
    have hnobody : d'.recordsOf env.uuid = [] := (recordsOf_eq hprow).trans hrecords
    obtain ⟨rs', d'', hreach, hnext⟩ := approve_next hr' hlookup (if_pos hrequires) hopen' hother
      (by rw [hnobody]; exact fun _ h => absurd h List.not_mem_nil)
    obtain ⟨r, hby, hmem⟩ := hnext.recorded
    exact hnever rs' d'' hreach r (hmem ▸ List.mem_append_right _ List.mem_cons_self) hby
  · intro hown rs' d'' hreach r hmem
    have hadjusts : Adjusts env.uuid userId d (userId, ⟨env, .expense (.createAdjustment cmd)⟩) d' :=
      ⟨rfl, ⟨cmd, rfl⟩, hnone, row, hrow⟩
    have hadjusted : Adjusted d' env.uuid userId := by
      refine hadjusts.adjusted (Runs.wellFormed hr) hn fun cmd₁ original₁ hcommand horiginal₁ => ?_
      cases hcommand
      obtain rfl := Option.some.inj (horiginal.symm.trans horiginal₁)
      exact hown
    have hend : d''.WellFormed ∧ Adjusted d'' env.uuid userId := by
      refine hreach.invariant (P := fun d => d.WellFormed ∧ Adjusted d env.uuid userId)
        ⟨Runs.wellFormed hr', hadjusted⟩ ?_
      rintro d request d' ⟨hwf, h⟩ - hn
      exact ⟨hwf.next hn, h.next hwf hn⟩
    obtain ⟨-, row', hrow', hsource | ⟨-, -, hoff⟩⟩ := hend
    · rw [← hsource]
      exact Runs.decidedByOthers (hr'.append hreach) _ row' hrow' r hmem
    · rw [Store.recordsOf, hoff] at hmem
      cases hmem

/-! ## Two corrections -/

namespace Sample

/-- User 10 enters an expense, and user 11 approves it. -/
def approvedBy11 : List IssuedRequest :=
  [(14, openJanuary), (10, create 101 50000), (10, submit 101), (11, approve 101 11)]

/-- User 10 corrects it, and user 11 approves the correction. -/
def correctedBySource : List IssuedRequest :=
  approvedBy11 ++ [(10, adjust 102 101 60000), (11, approve 102 11)]

/-- The finance director corrects it by a million naira and is the last to approve
the correction. -/
def correctedByDirector : List IssuedRequest :=
  approvedBy11 ++ [(14, adjust 102 101 100050000), (11, approve 102 11), (12, approve 102 12),
    (13, approve 102 13), (14, approve 102 14)]

/-- The request adjusts nothing, or an expense of its issuer. -/
def adjustsOwn (d : Store) (r : IssuedRequest) : Bool :=
  match r.2.command with
  | .expense (.createAdjustment cmd) =>
    (d.expenses.lookup cmd.originalExpenseId).all fun original => original.source.actorId = r.1
  | _ => true

theorem adjustsOwn_of_check (d : Store) (r : IssuedRequest) (h : adjustsOwn d r) :
    AdjustsOwn d r := by
  intro cmd original hcommand horiginal
  simp only [adjustsOwn, hcommand, horiginal, Option.all_some, decide_eq_true_eq] at h
  exact .inl h

/-- The store after some issued requests. -/
def storeBy (rs : List IssuedRequest) : Store :=
  (runLabels nextBy (.initial Sample.administration) rs).getD (.initial Sample.administration)

theorem storeBy_eq {ok : Store → IssuedRequest → Prop} {rs : List IssuedRequest}
    (hr : Reaches nextBy ok (.initial Sample.administration) rs d) : storeBy rs = d := by
  rw [storeBy, hr.runLabels_eq]
  rfl

theorem runsBy {rs : List IssuedRequest}
    (h : (runLabels nextBy (.initial Sample.administration) rs).isSome) :
    RunsBy Sample.administration rs (storeBy rs) := by
  obtain ⟨d, hd⟩ := Option.isSome_iff_exists.mp h
  rw [storeBy_eq (reaches_of_runLabels hd)]
  exact reaches_of_runLabels hd

/-- The request in the middle of a run creates an adjustment. -/
theorem adjustedBy {before after : List IssuedRequest} {r : IssuedRequest}
    (hcommand : ∃ cmd, r.2.command = .expense (.createAdjustment cmd))
    (h : (runLabels nextBy (.initial Sample.administration) (before ++ [r])).isSome)
    (hnone : (storeBy before).expenses.lookup id = none)
    (hsome : ((storeBy (before ++ [r])).expenses.lookup id).isSome) :
    AdjustedBy Sample.administration (before ++ r :: after) id r.1 := by
  obtain ⟨d, hd, -, hn⟩ := (runsBy h).of_snoc
  rw [storeBy_eq hd] at hnone
  exact ⟨before, r, after, d, _, rfl, hd, hn, rfl, hcommand, hnone,
    Option.isSome_iff_exists.mp hsome⟩

end Sample

/-- The source of an expense does not decide on their correction of it. -/
theorem adjuster_never_decides_sample :
    AdjustedBy Sample.administration Sample.correctedBySource 102 10 ∧
      ∀ r ∈ (Sample.storeBy Sample.correctedBySource).recordsOf 102, r.approverId ≠ 10 := by
  obtain ⟨d, hr⟩ : ∃ d, Reaches nextBy AdjustsOwn (.initial Sample.administration)
      Sample.correctedBySource d :=
    exists_reaches_of_checked Sample.adjustsOwn_of_check (by decide +kernel)
  have hadjusted : AdjustedBy Sample.administration Sample.correctedBySource 102 10 :=
    Sample.adjustedBy (r := (10, Sample.adjust 102 101 60000)) ⟨_, rfl⟩ (by decide +kernel)
      (by decide +kernel) (by decide +kernel)
  rw [Sample.storeBy_eq hr]
  exact ⟨hadjusted, adjuster_never_decides hr hadjusted⟩

/-- **The finance director signs their own correction**: they raise the amount of an
expense somebody else entered, and their approval makes the correction final. -/
theorem director_approves_own_correction : ∃ d row,
    RunsBy Sample.administration Sample.correctedByDirector d ∧
      AdjustedBy Sample.administration Sample.correctedByDirector 102 14 ∧
      d.expenses.lookup 102 = some row ∧ row.parentExpenseId = some 101 ∧
      row.status = .approved ∧ ∃ r ∈ d.recordsOf 102, r.approverId = 14 := by
  have hadjusted : AdjustedBy Sample.administration Sample.correctedByDirector 102 14 :=
    Sample.adjustedBy (r := (14, Sample.adjust 102 101 100050000)) ⟨_, rfl⟩ (by decide +kernel)
      (by decide +kernel) (by decide +kernel)
  have hfacts : ((Sample.storeBy Sample.correctedByDirector).expenses.lookup 102).map
      (fun row => (row.parentExpenseId, row.status)) = some (some 101, .approved) := by
    decide +kernel
  obtain ⟨row, hrow, hfacts⟩ := Option.map_eq_some_iff.mp hfacts
  obtain ⟨hparent, hstatus⟩ := Prod.mk.inj hfacts
  exact ⟨_, row, Sample.runsBy (by decide +kernel), hadjusted, hrow, hparent, hstatus,
    by decide +kernel⟩

end RatelPlatform
