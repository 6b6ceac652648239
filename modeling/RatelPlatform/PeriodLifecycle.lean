import RatelPlatform.Commands

/-!
# Closing and reopening

What becomes of a period over any number of open, close and reopen commands. The
rest of the platform asks `isOpen`, which a reopened period answers like one that
was never closed; the aggregate itself closes only `open` and `closing` ones. So a
period can be reopened once, and then stays open for good (`reopened_stuck`): the
lifecycle is sound exactly as long as no reopen command has taken effect
(`period_lifecycle_iff`).
-/

namespace RatelPlatform

variable {env : Env} {d d' : Store} {a : Unit} {id : Id} {row row' : FinancialPeriodRow}

/-! ## What a success means -/

theorem findPeriod_ok {periodId organizationId : Id} {p : FinancialPeriod} :
    (findPeriod periodId organizationId).solo d = .ok (p, d') ↔
      (∃ row, d.financialPeriods.lookup periodId = some row ∧ row.organizationId = organizationId ∧
        p = FinancialPeriodRepository.toDomain periodId row) ∧ d' = d := by
  simp only [findPeriod]
  rw [Tx.solo_bind_of_ok (FinancialPeriodRepository.findByIdForOrganization_solo _ _ d),
    Tx.solo_orFail_ok, Option.map_eq_some_iff]
  refine ⟨?_, ?_⟩
  · rintro ⟨⟨row, hfind, rfl⟩, rfl⟩
    obtain ⟨hrow, horg⟩ := Option.filter_eq_some_iff.mp hfind
    exact ⟨⟨row, hrow, of_decide_eq_true horg, rfl⟩, rfl⟩
  · rintro ⟨⟨row, hrow, horg, rfl⟩, rfl⟩
    exact ⟨⟨row, Option.filter_eq_some_iff.mpr ⟨hrow, decide_eq_true horg⟩, rfl⟩, rfl⟩

namespace FinancialPeriodRepository

/-- Saving a period that has a row writes its status and its closing columns. -/
theorem save_existing_ok {p : FinancialPeriod} (hrow : d.financialPeriods.lookup p.props.id = some row) :
    (save p).solo d = .ok (a, d') ↔ d' = { d with
      financialPeriods := d.financialPeriods.insert p.props.id { row with
        status := p.props.status, closedById := p.props.closedById
        closedAt := p.props.closedAt } } := by
  have hmem : p.props.id ∈ d.financialPeriods :=
    Finmap.lookup_isSome.mp (Option.isSome_iff_exists.mpr ⟨row, hrow⟩)
  simp only [save, Tx.solo_exec_ok, if_pos hmem, except_pure_ok, exists_eq_left,
    Table.update_of_lookup hrow]

/-- Saving a new period inserts its row: a `DATE` column keeps the day. -/
theorem save_new_ok {p : FinancialPeriod} (hrow : d.financialPeriods.lookup p.props.id = none)
    (h : (save p).solo d = .ok (a, d')) :
    d' = { d with financialPeriods := d.financialPeriods.insert p.props.id (
      { p.props.toFinancialPeriodRow with
        startDate := p.props.startDate.day, endDate := p.props.endDate.day }) } := by
  have hmem : p.props.id ∉ d.financialPeriods := Finmap.lookup_eq_none.mp hrow
  simp only [save, Tx.solo_exec_ok, if_neg hmem, except_bind_ok, except_pure_ok] at h
  obtain ⟨_, ⟨-, -, -, -, rfl⟩, rfl⟩ := h
  rfl

end FinancialPeriodRepository

/-- The row of a period opened by a command. -/
def openedRow (env : Env) (cmd : OpenPeriodCommand) : FinancialPeriodRow where
  organizationId := cmd.organizationId
  startDate := cmd.startDate.day
  endDate := cmd.endDate.day
  status := .open
  closedById := none
  closedAt := none
  createdAt := env.now

/-- The row of a period once it is closed. -/
def FinancialPeriodRow.closed (row : FinancialPeriodRow) (closedById : Id) (now : JsDate) :
    FinancialPeriodRow :=
  { row with status := .closed, closedById := some closedById, closedAt := some now }

/-- The row of a period once it is reopened. -/
def FinancialPeriodRow.reopened (row : FinancialPeriodRow) : FinancialPeriodRow :=
  { row with status := .reopened, closedById := none, closedAt := none }

theorem openPeriod_ok {cmd : OpenPeriodCommand} {a : Id}
    (hnew : d.financialPeriods.lookup env.uuid = none)
    (h : (openPeriod env cmd).solo d = .ok (a, d')) :
    d' = { d with
      financialPeriods := d.financialPeriods.insert env.uuid (openedRow env cmd)
      outbox := d.outbox ++ [periodOpened env.uuid cmd.organizationId] } := by
  simp only [openPeriod, Tx.solo_bind_ok, Tx.solo_ofExcept_ok, enqueue_ok, Tx.pure_eq,
    Tx.solo_ret] at h
  obtain ⟨p, _, ⟨hcreate, rfl⟩, _, _, hsave, _, _, rfl, hret⟩ := h
  obtain ⟨-, rfl⟩ := FinancialPeriod.create_ok.mp hcreate
  obtain rfl := FinancialPeriodRepository.save_new_ok hnew hsave
  cases hret
  rfl

/-- **When a close succeeds**: the period is one of the organization and was never
closed before. -/
theorem closePeriod_ok {cmd : ClosePeriodCommand} :
    (closePeriod env cmd).solo d = .ok (a, d') ↔
      ∃ row, d.financialPeriods.lookup cmd.periodId = some row ∧
        row.organizationId = cmd.organizationId ∧ row.status ∈ [PeriodStatus.open, .closing] ∧
        d' = { d with
          financialPeriods :=
            d.financialPeriods.insert cmd.periodId (row.closed cmd.closedById env.now)
          outbox := d.outbox ++
            [periodClosed cmd.periodId row.organizationId cmd.closedById] } := by
  simp only [closePeriod, Tx.solo_bind_ok, findPeriod_ok, Tx.solo_ofExcept_ok,
    FinancialPeriod.close_ok, enqueue_ok]
  refine ⟨?_, ?_⟩
  · rintro ⟨_, _, ⟨⟨row, hrow, horg, rfl⟩, rfl⟩, _, _, ⟨⟨hstatus, rfl⟩, rfl⟩, _, _, hsave, rfl⟩
    obtain rfl := (FinancialPeriodRepository.save_existing_ok hrow).mp hsave
    exact ⟨row, hrow, horg, hstatus, rfl⟩
  · rintro ⟨row, hrow, horg, hstatus, rfl⟩
    exact ⟨_, _, ⟨⟨row, hrow, horg, rfl⟩, rfl⟩, _, _, ⟨⟨hstatus, rfl⟩, rfl⟩, (), _,
      (FinancialPeriodRepository.save_existing_ok hrow).mpr rfl, rfl⟩

/-- **When a reopen succeeds**: the period is a closed one of the organization, and
the reason is not blank. -/
theorem reopenPeriod_ok {cmd : ReopenPeriodCommand} :
    (reopenPeriod env cmd).solo d = .ok (a, d') ↔
      ∃ row, d.financialPeriods.lookup cmd.periodId = some row ∧
        row.organizationId = cmd.organizationId ∧ row.status = .closed ∧ trim cmd.reason ≠ [] ∧
        d' = { d with
          financialPeriods := d.financialPeriods.insert cmd.periodId row.reopened
          outbox := d.outbox ++ [periodReopened cmd.periodId row.organizationId cmd.reopenedById
            (trim cmd.reason)] } := by
  simp only [reopenPeriod, Tx.solo_bind_ok, findPeriod_ok, Tx.solo_ofExcept_ok,
    FinancialPeriod.reopen_ok, enqueue_ok, List.mem_singleton]
  refine ⟨?_, ?_⟩
  · rintro ⟨_, _, ⟨⟨row, hrow, horg, rfl⟩, rfl⟩, _, _, ⟨⟨hstatus, hreason, rfl⟩, rfl⟩, _, _, hsave,
      rfl⟩
    obtain rfl := (FinancialPeriodRepository.save_existing_ok hrow).mp hsave
    exact ⟨row, hrow, horg, hstatus, hreason, rfl⟩
  · rintro ⟨row, hrow, horg, hstatus, hreason, rfl⟩
    exact ⟨_, _, ⟨⟨row, hrow, horg, rfl⟩, rfl⟩, _, _, ⟨⟨hstatus, hreason, rfl⟩, rfl⟩, (), _,
      (FinancialPeriodRepository.save_existing_ok hrow).mpr rfl, rfl⟩

/-! ## The row of a period over a step -/

/-- The request reopens the period: it is a closed one of the organization, and the
reason given is not blank. -/
def Reopens (id : Id) (d : Store) (r : Request) : Prop :=
  ∃ cmd row, r.command = .period (.reopen cmd) ∧ cmd.periodId = id ∧
    d.financialPeriods.lookup id = some row ∧ row.organizationId = cmd.organizationId ∧
    row.status = .closed ∧ trim cmd.reason ≠ []

/-- A reopen that is due succeeds. -/
theorem Reopens.succeeds {r : Request} (h : Reopens id d r) :
    ∃ row, d.financialPeriods.lookup id = some row ∧ row.status = .closed ∧
      ∃ d', (r.command.program r.env).solo d = .ok ((), d') ∧
        d'.financialPeriods = d.financialPeriods.insert id row.reopened := by
  obtain ⟨cmd, row, hcmd, rfl, hrow, horg, hstatus, hreason⟩ := h
  rw [hcmd]
  exact ⟨row, hrow, hstatus, _, (@reopenPeriod_ok r.env d _ () cmd).mpr
    ⟨row, hrow, horg, hstatus, hreason, rfl⟩, rfl⟩

/-- A step without effect on the table of periods reopens none. -/
theorem not_reopens_of_frame {r : Request} (hn : next d r = some d')
    (hframe : d'.financialPeriods = d.financialPeriods) : ¬ Reopens id d r := by
  intro hreopens
  obtain ⟨row, hrow, hstatus, d₁, hsolo, hperiods⟩ := hreopens.succeeds
  obtain ⟨-, ⟨⟨e, he⟩, -⟩ | hok⟩ := next_cases hn
  · rw [hsolo] at he
    cases he
  · rw [hsolo] at hok
    cases hok
    have hlookup := Finmap.lookup_insert (a := id) (b := row.reopened) d.financialPeriods
    rw [← hperiods, hframe, hrow] at hlookup
    have hreopened : PeriodStatus.closed = .reopened :=
      hstatus.symm.trans (congrArg FinancialPeriodRow.status (Option.some.inj hlookup))
    cases hreopened

/-- What a step can leave of a period: what there was, or its row opened, closed or
reopened. -/
inductive PeriodStep (id : Id) (d : Store) (r : Request) : Option FinancialPeriodRow → Prop
  | kept (hnot : ¬ Reopens id d r) : PeriodStep id d r (d.financialPeriods.lookup id)
  | opened (cmd : OpenPeriodCommand) (hnone : d.financialPeriods.lookup id = none)
    (hnot : ¬ Reopens id d r) : PeriodStep id d r (some (openedRow r.env cmd))
  | closed (row : FinancialPeriodRow) (closedById : Id)
    (hrow : d.financialPeriods.lookup id = some row) (hnot : ¬ Reopens id d r)
    (hstatus : row.status ∈ [PeriodStatus.open, .closing]) :
    PeriodStep id d r (some (row.closed closedById r.env.now))
  | reopened (row : FinancialPeriodRow) (hrow : d.financialPeriods.lookup id = some row)
    (hreopens : Reopens id d r) (hstatus : row.status = .closed) :
    PeriodStep id d r (some row.reopened)

/-- A step does nothing else to a period. -/
theorem periodStep_of_next {r : Request} (hwf : d.WellFormed) (hn : next d r = some d') (id : Id) :
    PeriodStep id d r (d'.financialPeriods.lookup id) := by
  have hkept : d'.financialPeriods = d.financialPeriods →
      PeriodStep id d r (d'.financialPeriods.lookup id) := fun hframe => by
    rw [hframe]
    exact .kept (not_reopens_of_frame hn hframe)
  obtain ⟨hfresh, ⟨-, rfl⟩ | h⟩ := next_cases hn
  · exact hkept rfl
  obtain ⟨env, cmd⟩ := r
  cases cmd with
  | administer administration =>
    obtain ⟨_, hp, rfl⟩ := Tx.solo_exec_ok.mp h
    cases hp
    exact hkept rfl
  | period cmd =>
    cases cmd with
    | «open» cmd =>
      obtain ⟨_, h⟩ := Tx.solo_discard_ok.mp h
      obtain rfl := openPeriod_ok (Finmap.lookup_eq_none.mpr hfresh.1) h
      rw [Table.lookup_insert_ite]
      have hnot : ¬ Reopens id d ⟨env, .period (.open cmd)⟩ := by
        rintro ⟨_, _, hcmd, -⟩
        cases hcmd
      split_ifs with hid
      · subst hid
        exact .opened cmd (Finmap.lookup_eq_none.mpr hfresh.1) hnot
      · exact .kept hnot
    | close cmd =>
      obtain ⟨row, hrow, -, hstatus, rfl⟩ := closePeriod_ok.mp h
      rw [Table.lookup_insert_ite]
      have hnot : ¬ Reopens id d ⟨env, .period (.close cmd)⟩ := by
        rintro ⟨_, _, hcmd, -⟩
        cases hcmd
      split_ifs with hid
      · subst hid
        exact .closed row cmd.closedById hrow hnot hstatus
      · exact .kept hnot
    | reopen cmd =>
      obtain ⟨row, hrow, horg, hstatus, hreason, rfl⟩ := (@reopenPeriod_ok env _ _ _ _).mp h
      rw [Table.lookup_insert_ite]
      split_ifs with hid
      · subst hid
        exact .reopened row hrow ⟨cmd, row, rfl, rfl, hrow, horg, hstatus, hreason⟩ hstatus
      · refine .kept ?_
        rintro ⟨_, _, hcmd, rfl, -⟩
        cases hcmd
        exact hid rfl
  | expense cmd => exact hkept (ExpenseCommand.frame hwf.aligned hfresh h).2.1
  | payroll cmd =>
    exact hkept (PayrollCommand.frame hwf.aligned
      (fun _ => Finmap.lookup_eq_none.mpr hfresh.2.2.2) h).2.1

/-! ## Runs -/

/-- The closing columns of a period are those of its status. -/
structure FinancialPeriodRow.ClosingColumns (row : FinancialPeriodRow) : Prop where
  closedAt : row.closedAt ≠ none ↔ row.status = .closed
  closedById : row.closedById ≠ none ↔ row.status = .closed

theorem FinancialPeriodRow.closingColumns_of_ne (hstatus : row.status ≠ .closed)
    (hat : row.closedAt = none) (hby : row.closedById = none) : row.ClosingColumns :=
  ⟨iff_of_false (not_not_intro hat) hstatus, iff_of_false (not_not_intro hby) hstatus⟩

variable {administration : Administration} {rs : List Request}

/-- A reopen of the period has taken effect. -/
abbrev Reopened (administration : Administration) (rs : List Request) (id : Id) : Prop :=
  HappenedIn administration rs fun d r _ => Reopens id d r

/-- **What a period says of its history**: its closing columns are set exactly while
it is closed, and it is reopened exactly when it once was. -/
theorem Runs.period (hr : Runs administration rs d) (id : Id) :
    (∀ row ∈ d.financialPeriods.lookup id, row.ClosingColumns) ∧
      ((∃ row ∈ d.financialPeriods.lookup id, row.status = .reopened) ↔
        Reopened administration rs id) := by
  refine hr.invariant_along (P := fun rs d =>
    (∀ row ∈ d.financialPeriods.lookup id, row.ClosingColumns) ∧
      ((∃ row ∈ d.financialPeriods.lookup id, row.status = .reopened) ↔
        Reopened administration rs id))
    ⟨fun _ h => (Option.not_mem_none _ h).elim,
      iff_of_false (fun ⟨_, h, _⟩ => Option.not_mem_none _ h) not_happened_nil⟩ ?_
  rintro rs d r d' hr ⟨hcolumns, hreopened⟩ - hn
  have hpast : Reopened administration (rs ++ [r]) id ↔
      Reopened administration rs id ∨ Reopens id d r := happened_snoc_iff hr hn
  rw [hpast, ← hreopened]
  have hstep := periodStep_of_next (Runs.wellFormed hr) hn id
  generalize d'.financialPeriods.lookup id = after at hstep
  cases hstep with
  | kept hnot => exact ⟨hcolumns, (or_iff_left hnot).symm⟩
  | opened cmd hnone hnot =>
    refine ⟨?_, ?_⟩
    · rintro _ ⟨⟩
      exact FinancialPeriodRow.closingColumns_of_ne nofun rfl rfl
    · rw [or_iff_left hnot, hnone]
      simp [openedRow]
  | closed row closedById hrow hnot hstatus =>
    refine ⟨?_, ?_⟩
    · rintro _ ⟨⟩
      exact ⟨iff_of_true nofun rfl, iff_of_true nofun rfl⟩
    · rw [or_iff_left hnot, hrow]
      have hne : row.status ≠ .reopened := fun h => by
        rw [h] at hstatus
        simp at hstatus
      simp [FinancialPeriodRow.closed, hne]
  | reopened row hrow hreopens hstatus =>
    refine ⟨?_, ?_⟩
    · rintro _ ⟨⟩
      exact FinancialPeriodRow.closingColumns_of_ne nofun rfl rfl
    · exact iff_of_true ⟨_, rfl, rfl⟩ (.inr hreopens)

/-! ## The lifecycle -/

/-- `ClosePeriodHandler` can close the period, whoever asks for it and when. -/
def Store.CanClose (d : Store) (id : Id) (row : FinancialPeriodRow) : Prop :=
  ∀ env closedById, ∃ d' row',
    (closePeriod env ⟨row.organizationId, id, closedById⟩).solo d = .ok ((), d') ∧
      d'.financialPeriods.lookup id = some row' ∧ row'.status = .closed

/-- `ReopenPeriodHandler` can reopen the period, for any reason that is not blank. -/
def Store.CanReopen (d : Store) (id : Id) (row : FinancialPeriodRow) : Prop :=
  ∀ env reopenedById reason, trim reason ≠ [] → ∃ d' row',
    (reopenPeriod env ⟨row.organizationId, id, reopenedById, reason⟩).solo d = .ok ((), d') ∧
      d'.financialPeriods.lookup id = some row' ∧ row'.status = .reopened

/-- A period that accepts postings can be closed, a closed one can be reopened, and
the closing columns are set exactly while it is closed. -/
structure PeriodLifecycle (d : Store) (id : Id) (row : FinancialPeriodRow) : Prop where
  closable : (FinancialPeriodRepository.toDomain id row).isOpen = true → d.CanClose id row
  reopenable : row.status = .closed → d.CanReopen id row
  columns : row.ClosingColumns

theorem canClose_iff (hrow : d.financialPeriods.lookup id = some row) :
    d.CanClose id row ↔ row.status ∈ [PeriodStatus.open, .closing] := by
  refine ⟨?_, ?_⟩
  · intro h
    obtain ⟨_, _, hclose, -⟩ := h ⟨row.createdAt, id, id⟩ id
    obtain ⟨row', hrow', -, hstatus, -⟩ := closePeriod_ok.mp hclose
    obtain rfl := Option.some.inj (hrow.symm.trans hrow')
    exact hstatus
  · exact fun hstatus env closedById => ⟨_, row.closed closedById env.now,
      closePeriod_ok.mpr ⟨row, hrow, rfl, hstatus, rfl⟩, Finmap.lookup_insert _, rfl⟩

theorem canReopen_of_closed (hrow : d.financialPeriods.lookup id = some row)
    (hstatus : row.status = .closed) : d.CanReopen id row :=
  fun env reopenedById reason hreason => ⟨_, row.reopened,
    (@reopenPeriod_ok env d _ () ⟨row.organizationId, id, reopenedById, reason⟩).mpr
      ⟨row, hrow, rfl, hstatus, hreason, rfl⟩, Finmap.lookup_insert _, rfl⟩

theorem toDomain_isOpen : (FinancialPeriodRepository.toDomain id row).isOpen = true ↔
    row.status = .open ∨ row.status = .reopened := by
  simp [FinancialPeriodRepository.toDomain, FinancialPeriod.reconstitute, FinancialPeriod.isOpen,
    PeriodStatus.openStatuses]

/-- A reopened period stays reopened, whatever happens: nobody can close it again. -/
theorem reopened_stuck {ok : Store → Request → Prop} (hwf : d.WellFormed)
    (hr : Reaches next ok d rs d') (hrow : d.financialPeriods.lookup id = some row)
    (hstatus : row.status = .reopened) :
    ∃ row', d'.financialPeriods.lookup id = some row' ∧ row'.status = .reopened ∧
      ¬ d'.CanClose id row' := by
  have hinv : d'.WellFormed ∧
      ∃ row', d'.financialPeriods.lookup id = some row' ∧ row'.status = .reopened := by
    refine hr.invariant (P := fun d => d.WellFormed ∧
      ∃ row', d.financialPeriods.lookup id = some row' ∧ row'.status = .reopened)
      ⟨hwf, row, hrow, hstatus⟩ ?_
    rintro d r d' ⟨hwf, row, hrow, hstatus⟩ - hn
    refine ⟨hwf.next hn, ?_⟩
    have hstep := periodStep_of_next hwf hn id
    generalize d'.financialPeriods.lookup id = after at hstep
    cases hstep with
    | kept _ => exact ⟨row, hrow, hstatus⟩
    | opened cmd hnone _ =>
      rw [hrow] at hnone
      cases hnone
    | closed row₁ closedById hrow₁ _ hstatus₁ =>
      obtain rfl := Option.some.inj (hrow.symm.trans hrow₁)
      rw [hstatus] at hstatus₁
      simp at hstatus₁
    | reopened row₁ _ _ _ => exact ⟨_, rfl, rfl⟩
  obtain ⟨-, row', hrow', hstatus'⟩ := hinv
  refine ⟨row', hrow', hstatus', ?_⟩
  rw [canClose_iff hrow', hstatus']
  simp

/-- **A period keeps to its lifecycle exactly as long as no reopen has taken effect
on it**: the one command that makes a closed period accept postings again is also
the last one that ever changes it. -/
theorem period_lifecycle_iff (hr : Runs administration rs d)
    (hrow : d.financialPeriods.lookup id = some row) :
    PeriodLifecycle d id row ↔ ¬ Reopened administration rs id := by
  obtain ⟨hcolumns, hreopened⟩ := hr.period id
  have hstatus : row.status = .reopened ↔ Reopened administration rs id := by
    rw [← hreopened, hrow]
    simp
  rw [← hstatus]
  refine ⟨?_, ?_⟩
  · intro h hre
    have hclose := (canClose_iff hrow).mp (h.closable (toDomain_isOpen.mpr (.inr hre)))
    rw [hre] at hclose
    simp at hclose
  · intro hnot
    refine ⟨fun hopen => ?_, canReopen_of_closed hrow, hcolumns row hrow⟩
    have hopen := (toDomain_isOpen.mp hopen).resolve_right hnot
    rw [canClose_iff hrow, hopen]
    simp

/-! ## January, reopened -/

namespace Sample

/-- January is reopened by 14. -/
def reopenJanuary (reason : String) : Request :=
  request 907 (.period (.reopen ⟨1, 100, 14, reason⟩))

theorem january_valid : -8640000000000000 ≤ (0 : ℤ) ∧ (0 : ℤ) ≤ 8640000000000000 := by decide

theorem february_valid :
    -8640000000000000 ≤ (2678400000 : ℤ) ∧ (2678400000 : ℤ) ≤ 8640000000000000 := by decide

/-- January, closed at noon by 14. -/
def closedJanuaryRow : FinancialPeriodRow where
  organizationId := 1
  startDate := ⟨0, january_valid⟩
  endDate := ⟨2678400000, february_valid⟩
  status := .closed
  closedById := some 14
  closedAt := some noon
  createdAt := noon

end Sample

open Sample in
/-- Closed, and not reopened for a blank reason: January keeps to its lifecycle. -/
theorem period_lifecycle_iff_sample :
    PeriodLifecycle (store [openJanuary, closeJanuary, reopenJanuary " "]) 100 closedJanuaryRow ↔
      ¬ Reopened Sample.administration [openJanuary, closeJanuary, reopenJanuary " "] 100 :=
  period_lifecycle_iff (runs rfl) rfl

open Sample in
/-- January is closed and reopened for a late invoice: it accepts postings again,
and can no longer be closed. -/
theorem period_stuck_open :
    ¬ ∀ (administration : Administration) (rs : List Request) (d : Store) (id : Id)
        (row : FinancialPeriodRow), Runs administration rs d →
      d.financialPeriods.lookup id = some row → PeriodLifecycle d id row := by
  intro h
  have hlifecycle := h Sample.administration [openJanuary, closeJanuary, reopenJanuary "late invoice"]
    (store [openJanuary, closeJanuary, reopenJanuary "late invoice"]) 100 closedJanuaryRow.reopened
    (runs rfl) rfl
  have hclose := (canClose_iff rfl).mp (hlifecycle.closable rfl)
  simp [FinancialPeriodRow.reopened] at hclose

end RatelPlatform
