import RatelPlatform.Reservations
import RatelPlatform.WrittenRows

/-!
# One payroll run a month

A payroll run carries the date it was created for, and creating a second run of the
organization for the same date is refused: by the handler, which looks for one, and by
a unique index, which also stops two creations under way at once. Neither asks for the
month the date lies in.

So an organization has one run a date (`Runs.datesUnique`), and it has one run a month
as long as a run is committed only where the runs of its month are of its own date
(`one_run_a_month`); a run of another date of the month is a second run
(`second_run_of_month`).
-/

namespace RatelPlatform

variable {d d' : Store} {organizationId id : Id} {date : JsDate}

/-- The run is stored for the organization and the date. -/
def Store.HasRun (d : Store) (organizationId id : Id) (date : JsDate) : Prop :=
  ∃ row, d.payrollRuns.lookup id = some row ∧ row.columns.organizationId = organizationId ∧
    row.columns.runMonth = date

/-- The organization has at most one run for any calendar month. -/
def OneRunAMonth (d : Store) (organizationId : Id) : Prop :=
  ∀ id₁ id₂ date₁ date₂, d.HasRun organizationId id₁ date₁ → d.HasRun organizationId id₂ date₂ →
    date₁.month = date₂.month → id₁ = id₂

/-- Runs of the organization in one calendar month are of one date. -/
def DatesAgree (d : Store) (organizationId : Id) : Prop :=
  ∀ id₁ id₂ date₁ date₂, d.HasRun organizationId id₁ date₁ → d.HasRun organizationId id₂ date₂ →
    date₁.month = date₂.month → date₁ = date₂

/-- The organization has at most one run for any date. -/
def DatesUnique (d : Store) (organizationId : Id) : Prop :=
  ∀ id₁ id₂ date, d.HasRun organizationId id₁ date → d.HasRun organizationId id₂ date → id₁ = id₂

theorem DatesUnique.oneRunAMonth (h : DatesUnique d organizationId)
    (hagree : DatesAgree d organizationId) : OneRunAMonth d organizationId := by
  intro id₁ id₂ date₁ date₂ h₁ h₂ hmonth
  obtain rfl := hagree id₁ id₂ date₁ date₂ h₁ h₂ hmonth
  exact h id₁ id₂ date₁ h₁ h₂

/-- What the handler and the index ask. -/
theorem monthTaken_iff : PayrollRunRepository.MonthTaken d organizationId date ↔
    ∃ id, d.HasRun organizationId id date := by
  simp only [PayrollRunRepository.MonthTaken, Table.mem_keys_iff, Store.HasRun]
  refine ⟨?_, ?_⟩
  · rintro ⟨id, ⟨row, hrow⟩, htaken⟩
    rw [hrow] at htaken
    exact ⟨id, row, hrow, of_decide_eq_true htaken⟩
  · rintro ⟨id, row, hrow, htaken⟩
    refine ⟨id, ⟨row, hrow⟩, ?_⟩
    rw [hrow]
    exact decide_eq_true htaken

/-! ## Creating a run -/

/-- A run of the organization and the date is stored under the id. -/
def InsertsRun (organizationId id : Id) (date : JsDate) (p : Store → Store) : Prop :=
  ∃ row : PayrollRunRow, row.columns.organizationId = organizationId ∧ row.columns.runMonth = date ∧
    ∀ d, (p d).payrollRuns = d.payrollRuns.insert id row

theorem InsertsRun.of_hasRun {p : Store → Store} {organizationId' id' : Id} {date' : JsDate}
    (h : InsertsRun organizationId id date p) (hrun : (p d).HasRun organizationId' id' date') :
    d.HasRun organizationId' id' date' ∨
      (id' = id ∧ organizationId' = organizationId ∧ date' = date) := by
  obtain ⟨row, rfl, rfl, hp⟩ := h
  simp only [Store.HasRun, hp, Table.lookup_insert_ite] at hrun
  obtain ⟨row', hrow', rfl, rfl⟩ := hrun
  split_ifs at hrow' with hid
  · cases hrow'
    exact .inr ⟨hid, rfl, rfl⟩
  · exact .inl ⟨row', hrow', rfl, rfl⟩

theorem InsertsRun.hasRun_new {p : Store → Store} (h : InsertsRun organizationId id date p) :
    (p d).HasRun organizationId id date := by
  obtain ⟨row, horg, hdate, hp⟩ := h
  exact ⟨row, by rw [hp, Finmap.lookup_insert], horg, hdate⟩

theorem InsertsRun.hasRun_old {p : Store → Store} {organizationId' id' : Id} {date' : JsDate}
    (h : InsertsRun organizationId id date p) (hnew : d.payrollRuns.lookup id = none)
    (hrun : d.HasRun organizationId' id' date') : (p d).HasRun organizationId' id' date' := by
  obtain ⟨row, -, -, hp⟩ := h
  obtain ⟨row', hrow', horg, hdate⟩ := hrun
  refine ⟨row', ?_, horg, hdate⟩
  rw [hp, Finmap.lookup_insert_of_ne _ ?_]
  · exact hrow'
  · rintro rfl
    cases hnew.symm.trans hrow'

/-- Events are not stored with the runs. -/
theorem InsertsRun.enqueue {p : Store → Store} {events : List DomainEvent}
    (h : InsertsRun organizationId id date p) :
    (RatelPlatform.enqueue events).Patches (fun _ => InsertsRun organizationId id date) p := by
  simp only [RatelPlatform.enqueue]
  split_ifs
  · exact h
  · rw [Tx.patches_exec]
    intro _ q hq
    rw [except_pure_ok] at hq
    subst hq
    exact h

/-- **Creating a run** takes the lock of the organization and the date, which have no
run then. -/
theorem createPayrollRun_reserves (env : Env) (cmd : CreatePayrollRunCommand) :
    ((PayrollCommand.create cmd).program env).Reserves
      (.payrollRunMonth cmd.organizationId cmd.runMonth.day)
      (fun d => d.payrollRuns.lookup env.uuid = none)
      (fun d => ¬ ∃ id, d.HasRun cmd.organizationId id cmd.runMonth.day)
      (InsertsRun cmd.organizationId env.uuid cmd.runMonth.day) := by
  simp only [PayrollCommand.program, Tx.discard, createPayrollRun, PayrollRunRepository.save,
    Tx.bind_assoc]
  apply Tx.Looks.reserves
  apply looks_requireOpenPeriod
  intro period
  apply Tx.Looks.reserves
  rw [PayrollRunRepository.existsForOrgAndMonth, Tx.looks_select]
  intro taken
  apply Tx.Looks.reserves
  rw [Tx.looks_require]
  intro _
  apply Tx.reserves_exec
  intro d hnew q hf
  have hmem : (PayrollRun.create env.uuid cmd.organizationId period.props.id cmd.runMonth
      cmd.createdById env.now).props.id ∉ d.payrollRuns := Finmap.lookup_eq_none.mp hnew
  rw [if_neg hmem] at hf
  simp only [except_bind_ok, ensure_ok, except_pure_ok] at hf
  obtain ⟨_, hfree, rfl⟩ := hf
  refine ⟨?_, fun hrun => hfree (monthTaken_iff.mpr hrun), ?_⟩
  · rw [if_neg hmem]
    exact List.mem_cons_of_mem _ (List.mem_singleton_self _)
  · have hinserts : InsertsRun cmd.organizationId env.uuid cmd.runMonth.day fun d : Store =>
        { d with payrollRuns := d.payrollRuns.insert env.uuid (⟨⟨cmd.organizationId,
          period.props.id, .draft, cmd.runMonth.day, cmd.createdById, none, none, env.now⟩, []⟩) } :=
      ⟨_, rfl, rfl, fun _ => rfl⟩
    -- there are no payslips to store
    simp only [PayrollRun.create, List.filter_nil, PayrollRunRepository.insertPayslips,
      Tx.patches_bind, Tx.patches_select, Tx.pure_eq, Tx.patches_ret]
    exact fun _ => hinserts.enqueue

/-! ## Commands one at a time -/

/-- The other commands leave the dates of the runs alone. -/
theorem PayrollCommand.keepsDates {env : Env} {cmd : PayrollCommand} {a : Unit}
    (hcreate : cmd.isCreate = false) (hal : d.RecordsAligned)
    (h : (cmd.program env).solo d = .ok (a, d')) :
    d'.HasRun organizationId id date ↔ d.HasRun organizationId id date := by
  have updated : ∀ {runId : Id} {row row' : PayrollRunRow}, d.payrollRuns.lookup runId = some row →
      d'.payrollRuns = d.payrollRuns.insert runId row' →
      row'.columns.organizationId = row.columns.organizationId →
      row'.columns.runMonth = row.columns.runMonth →
      (d'.HasRun organizationId id date ↔ d.HasRun organizationId id date) := by
    intro runId row row' hrow hruns horg hmonth
    simp only [Store.HasRun, hruns, Table.lookup_insert_ite]
    by_cases hid : id = runId
    · subst hid
      simp [hrow, horg, hmonth]
    · simp [hid]
  cases cmd with
  | create cmd => cases hcreate
  | addPayslip cmd =>
    obtain ⟨_, h⟩ := Tx.solo_discard_ok.mp h
    obtain ⟨_, _, hrow, -, -, -, -, -, rfl⟩ := addPayslip_ok h
    exact updated hrow rfl rfl rfl
  | submit cmd =>
    obtain ⟨_, hrow, -, -, -, -, -, -, rfl⟩ := (@submitPayrollRun_ok env _ _ _ _).mp h
    exact updated hrow rfl rfl rfl
  | approve cmd =>
    obtain ⟨_, _, _, hrow, -, -, -, -, -, -, -, -, -, rfl⟩ := (approvePayrollRun_ok hal).mp h
    refine updated hrow rfl ?_ ?_
    · split_ifs <;> rfl
    · split_ifs <;> rfl
  | reject cmd =>
    obtain ⟨_, _, hrow, -, -, -, -, -, -, rfl⟩ := rejectPayrollRun_ok hal h
    exact updated hrow rfl rfl rfl
  | cancel cmd =>
    obtain ⟨_, hrow, -, -, rfl⟩ := (@cancelPayrollRun_ok env _ _ _ _).mp h
    exact updated hrow rfl rfl rfl
  | process cmd =>
    obtain ⟨_, hrow, -, -, rfl⟩ := (@processPayrollRun_ok env _ _ _ _).mp h
    exact updated hrow rfl rfl rfl

/-- A run of a date that has none. -/
theorem DatesUnique.insert {p : Store → Store} {organizationId' : Id}
    (h : DatesUnique d organizationId) (hfree : ¬ ∃ id, d.HasRun organizationId' id date)
    (hinserts : InsertsRun organizationId' id date p) : DatesUnique (p d) organizationId := by
  intro id₁ id₂ date' h₁ h₂
  rcases hinserts.of_hasRun h₁ with h₁ | ⟨rfl, rfl, rfl⟩
  · rcases hinserts.of_hasRun h₂ with h₂ | ⟨rfl, rfl, rfl⟩
    · exact h id₁ id₂ date' h₁ h₂
    · exact absurd ⟨id₁, h₁⟩ hfree
  · rcases hinserts.of_hasRun h₂ with h₂ | ⟨rfl, -, -⟩
    · exact absurd ⟨id₂, h₂⟩ hfree
    · rfl

/-- In every reachable store every organization has at most one run for any date. -/
theorem Runs.datesUnique {administration : Administration} {rs : List Request}
    (hr : Runs administration rs d) (organizationId : Id) : DatesUnique d organizationId := by
  have hinv : d.WellFormed ∧ DatesUnique d organizationId := by
    refine hr.invariant (P := fun d => d.WellFormed ∧ DatesUnique d organizationId) ?_ ?_
    · refine ⟨Store.wellFormed_initial administration, ?_⟩
      rintro id₁ id₂ date ⟨row, hrow, -⟩
      cases hrow
    · rintro d request d' ⟨hwf, hunique⟩ - hn
      refine ⟨hwf.next hn, ?_⟩
      have same : (∀ id date, d'.HasRun organizationId id date ↔ d.HasRun organizationId id date) →
          DatesUnique d' organizationId := by
        intro hsame id₁ id₂ date h₁ h₂
        exact hunique id₁ id₂ date ((hsame id₁ date).mp h₁) ((hsame id₂ date).mp h₂)
      obtain ⟨hfresh, ⟨-, rfl⟩ | hok⟩ := next_cases hn
      · exact hunique
      obtain ⟨env, command⟩ := request
      cases command with
      | administer a =>
        obtain ⟨_, hp, rfl⟩ := Tx.solo_exec_ok.mp hok
        cases hp
        exact hunique
      | period cmd =>
        obtain ⟨_, _, rfl⟩ := PeriodCommand.frame hok
        exact hunique
      | expense cmd =>
        obtain ⟨-, -, hruns, -⟩ := ExpenseCommand.frame hwf.aligned hfresh hok
        refine same fun id date => ?_
        simp only [Store.HasRun, hruns]
      | payroll cmd =>
        rcases hcreate : cmd.isCreate with _ | _
        · exact same fun id date => PayrollCommand.keepsDates hcreate hwf.aligned hok
        · cases cmd with
          | create cmd =>
            have hnew := Finmap.lookup_eq_none.mpr hfresh.2.2.2
            obtain ⟨hfree, p, hinserts, rfl⟩ := (createPayrollRun_reserves env cmd).solo hnew hok
            exact hunique.insert hfree hinserts
          | addPayslip | submit | approve | reject | cancel | process => cases hcreate
  exact hinv.2

/-! ## Any interleaving -/

/-- Transactions that create payroll runs of an organization. -/
structure RunCreations (d₀ : Store) where
  organizationId : Id
  env : ℕ → Env
  command : ℕ → CreatePayrollRunCommand
  within : ∀ i, (command i).organizationId = organizationId
  /-- a transaction draws an id that is not in use -/
  fresh : ∀ i, d₀.payrollRuns.lookup (env i).uuid = none
  /-- nor drawn by another one -/
  distinct : ∀ i j, (env i).uuid = (env j).uuid → i = j

namespace RunCreations

variable {d₀ : Store} (c : RunCreations d₀)

/-- The transaction of a session. -/
def program (i : ℕ) : StoreTx Unit := (PayrollCommand.create (c.command i)).program (c.env i)

/-- The date a session creates its run for. -/
def runDate (i : ℕ) : JsDate := (c.command i).runMonth.day

/-- **The condition**: a session commits its run only where the committed runs of the
organization in its calendar month are of its own date. -/
def CommitsOnAgreedDate (σ : System Store RowLock Failure Unit) (turn : Turn) : Prop :=
  ∀ i a patch current, turn = .step i → σ.sessions i = .running (.ret a) patch current →
    ∀ id date, σ.db.HasRun c.organizationId id date → date.month = (c.runDate i).month →
      date = c.runDate i

variable {c} {administration : Administration} {rs : List Request} {turns : List Turn}
  {ok : System Store RowLock Failure Unit → Turn → Prop} {σ σ' : System Store RowLock Failure Unit}
  {turn : Turn}

/-- What any interleaving keeps. -/
structure Kept (c : RunCreations d₀) (σ : System Store RowLock Failure Unit) : Prop where
  reserved : System.Reserved (fun i => .payrollRunMonth c.organizationId (c.runDate i))
    (fun i d => d.payrollRuns.lookup (c.env i).uuid = none)
    (fun i d => ¬ ∃ id, d.HasRun c.organizationId id (c.runDate i))
    (fun i => InsertsRun c.organizationId (c.env i).uuid (c.runDate i)) σ
  unused : ∀ i ∉ σ.log, σ.db.payrollRuns.lookup (c.env i).uuid = none
  unique : DatesUnique σ.db c.organizationId

theorem Kept.initial (hd : Runs administration rs d₀) :
    c.Kept (System.init d₀ c.program) := by
  refine ⟨fun i rest patch current hi => ?_, fun i _ => c.fresh i, hd.datesUnique c.organizationId⟩
  cases hi
  refine .inl ⟨rfl, ?_⟩
  rw [← c.within i]
  exact createPayrollRun_reserves (c.env i) (c.command i)

/-- **One turn** commits nothing, or a run of a date that has none. -/
theorem Kept.next (h : c.Kept σ) (hr : Reaches System.next ok (System.init d₀ c.program) turns σ)
    (hn : σ.next turn = some σ') : c.Kept σ' ∧ ((σ'.db = σ.db ∧ σ'.log = σ.log) ∨ ∃ i patch,
      System.Commits σ σ' turn i patch ∧ σ.db.payrollRuns.lookup (c.env i).uuid = none ∧
        InsertsRun c.organizationId (c.env i).uuid (c.runDate i) patch) := by
  have hframe : ∀ i j d p, RowLock.payrollRunMonth c.organizationId (c.runDate i) ≠
      .payrollRunMonth c.organizationId (c.runDate j) →
      InsertsRun c.organizationId (c.env j).uuid (c.runDate j) p →
      (¬ ∃ id, Store.HasRun d c.organizationId id (c.runDate i)) →
      ¬ ∃ id, (p d).HasRun c.organizationId id (c.runDate i) := by
    rintro i j d p hne hinserts hfree ⟨id, hrun⟩
    rcases hinserts.of_hasRun hrun with hrun | ⟨-, -, heq⟩
    · exact hfree ⟨id, hrun⟩
    · exact hne (congrArg _ heq)
  obtain ⟨hreserved, ⟨hdb, hlog⟩ | ⟨i, patch, hcommits, hfree, hinserts⟩⟩ := h.reserved.next
    (fun i _ _ _ hi => h.unused i (System.running_notMem_log hr hi)) hframe hn
  · refine ⟨⟨hreserved, ?_, ?_⟩, .inl ⟨hdb, hlog⟩⟩
    · rw [hdb, hlog]
      exact h.unused
    · rw [hdb]
      exact h.unique
  · obtain ⟨a, current, hi⟩ := hcommits.running
    have hnew := h.unused i (System.running_notMem_log hr hi)
    refine ⟨⟨hreserved, fun j hj => ?_, ?_⟩, .inr ⟨i, patch, hcommits, hnew, hinserts⟩⟩
    · rw [hcommits.log, System.notMem_log_snoc] at hj
      obtain ⟨row, -, -, hp⟩ := hinserts
      rw [hcommits.db, hp, Finmap.lookup_insert_of_ne _ fun heq => hj.2 (c.distinct j i heq)]
      exact h.unused j hj.1
    · rw [hcommits.db]
      exact h.unique.insert hfree hinserts

theorem kept_of_reaches (hd : Runs administration rs d₀)
    (hr : Reaches System.next ok (System.init d₀ c.program) turns σ) : c.Kept σ :=
  hr.invariant_along (P := fun _ σ => c.Kept σ) (Kept.initial hd)
    fun _ _ _ _ hr h _ hn => (h.next hr hn).1

/-- **One run a month**: from a store whose runs of one month are of one date, in every
interleaving that commits a run only where those of its month are of its own date. -/
theorem one_run_a_month {administration : Administration} {rs : List Request} {d₀ : Store}
    (hd : Runs administration rs d₀) (c : RunCreations d₀)
    (hagree : DatesAgree d₀ c.organizationId) {turns : List Turn}
    {σ : System Store RowLock Failure Unit}
    (hr : Reaches System.next c.CommitsOnAgreedDate (System.init d₀ c.program) turns σ) :
    OneRunAMonth σ.db c.organizationId := by
  have hdates : DatesAgree σ.db c.organizationId := by
    refine hr.invariant_along (P := fun _ σ => DatesAgree σ.db c.organizationId) hagree ?_
    rintro turns σ turn σ' hr hagree hok hn
    obtain ⟨-, ⟨hdb, -⟩ | ⟨i, patch, hcommits, -, hinserts⟩⟩ := (kept_of_reaches hd hr).next hr hn
    · rw [hdb]
      exact hagree
    · obtain ⟨a, current, hi⟩ := hcommits.running
      have hown := hok i a patch current hcommits.turn hi
      rw [hcommits.db]
      intro id₁ id₂ date₁ date₂ h₁ h₂ hmonth
      rcases hinserts.of_hasRun h₁ with h₁ | ⟨-, -, rfl⟩
      · rcases hinserts.of_hasRun h₂ with h₂ | ⟨-, -, rfl⟩
        · exact hagree id₁ id₂ date₁ date₂ h₁ h₂ hmonth
        · exact hown id₁ date₁ h₁ hmonth
      · rcases hinserts.of_hasRun h₂ with h₂ | ⟨-, -, rfl⟩
        · exact (hown id₂ date₂ h₂ hmonth.symm).symm
        · rfl
  exact (kept_of_reaches hd hr).unique.oneRunAMonth hdates

/-- **Why the dates have to agree**: a run committed where its month has a run of
another date is a second run of the month. -/
theorem second_run_of_month (hd : Runs administration rs d₀)
    (hr : Reaches System.next ok (System.init d₀ c.program) turns σ)
    (hn : σ.next turn = some σ') (hnot : ¬ c.CommitsOnAgreedDate σ turn) :
    ¬ OneRunAMonth σ'.db c.organizationId := by
  simp only [CommitsOnAgreedDate, not_forall] at hnot
  obtain ⟨i, a, patch, current, rfl, hi, id, date, hrun, hmonth, hne⟩ := hnot
  obtain ⟨-, ⟨-, hlog⟩ | ⟨j, patch', hcommits, hnew, hinserts⟩⟩ :=
    (kept_of_reaches hd hr).next hr hn
  · -- the session does commit
    simp only [System.next, hi, Option.some.injEq] at hn
    rw [← hn] at hlog
    exact absurd hlog (by simp)
  · obtain rfl : i = j := Turn.step.inj hcommits.turn
    intro hone
    rw [hcommits.db] at hone
    have hid := hone id _ date _ (hinserts.hasRun_old hnew hrun) hinserts.hasRun_new hmonth
    obtain ⟨row, hrow, -⟩ := hrun
    rw [hid, hnew] at hrow
    cases hrow

/-- **Dates that agree**: when all the dates the runs of a month are given are the same,
as when each is the first of its month, every interleaving commits on agreed dates. -/
theorem reaches_of_agreed_dates (hd : Runs administration rs d₀)
    (hstored : ∀ i id date, d₀.HasRun c.organizationId id date →
      date.month = (c.runDate i).month → date = c.runDate i)
    (hgiven : ∀ i j, (c.runDate i).month = (c.runDate j).month → c.runDate i = c.runDate j)
    (hr : Reaches System.next ok (System.init d₀ c.program) turns σ) :
    Reaches System.next c.CommitsOnAgreedDate (System.init d₀ c.program) turns σ := by
  have hboth : Reaches System.next c.CommitsOnAgreedDate (System.init d₀ c.program) turns σ ∧
      ∀ id date, σ.db.HasRun c.organizationId id date →
        d₀.HasRun c.organizationId id date ∨ ∃ j, date = c.runDate j := by
    induction hr with
    | nil => exact ⟨.nil, fun id date hrun => .inl hrun⟩
    | snoc hr _ hn ih =>
      obtain ⟨hr', hdates⟩ := ih
      refine ⟨.snoc hr' ?_ hn, ?_⟩
      · intro i a patch current _ _ id date hrun hmonth
        rcases hdates id date hrun with hrun | ⟨j, rfl⟩
        · exact hstored i id date hrun hmonth
        · exact hgiven j i hmonth
      · obtain ⟨-, ⟨hdb, -⟩ | ⟨i, patch, hcommits, -, hinserts⟩⟩ :=
          (kept_of_reaches hd hr).next hr hn
        · rw [hdb]
          exact hdates
        · rw [hcommits.db]
          intro id date hrun
          rcases hinserts.of_hasRun hrun with hrun | ⟨-, -, rfl⟩
          · exact hdates id date hrun
          · exact .inr ⟨i, rfl⟩
  exact hboth.1

end RunCreations

namespace Sample

/-- The fifteenth of January, at noon. -/
def midJanuary : JsDate := ⟨1252800000, by decide⟩

/-- User 15 creates payroll runs for these dates. -/
def runsFor (dates : ℕ → JsDate) : RunCreations (store [openJanuary]) where
  organizationId := 1
  env := fun i => ⟨noon, 201 + i, 0⟩
  command := fun i => ⟨1, dates i, 15⟩
  within := fun _ => rfl
  fresh := by
    intro i
    rw [show (store [openJanuary]).payrollRuns = ∅ by decide +kernel]
    exact Finmap.lookup_empty _
  distinct := fun i j h => Nat.add_left_cancel h

/-- The first and the fifteenth. -/
def firstAndFifteenth : ℕ → JsDate
  | 0 => noon
  | _ => midJanuary

/-- A creation, and another one that is refused. -/
def refusedCreation : List Turn := List.replicate 6 (.step 0) ++ List.replicate 3 (.step 1)

/-- Two creations, one after the other. -/
def twoCreations : List Turn := List.replicate 6 (.step 0) ++ List.replicate 6 (.step 1)

theorem noRuns (organizationId id : Id) (date : JsDate) :
    ¬ (store [openJanuary]).HasRun organizationId id date := by
  rintro ⟨row, hrow, -⟩
  rw [show (store [openJanuary]).payrollRuns = ∅ by decide +kernel] at hrow
  cases hrow

end Sample

namespace RunCreations

/-- Two runs for the first of January: the second one is refused. -/
theorem one_run_a_month_sample : ∃ turns σ, Reaches System.next
    (Sample.runsFor fun _ => Sample.noon).CommitsOnAgreedDate
    (System.init (Sample.store [Sample.openJanuary]) (Sample.runsFor fun _ => Sample.noon).program)
    turns σ ∧ σ.log = [0] ∧ OneRunAMonth σ.db 1 := by
  have hrun : (runLabels System.next (System.init (Sample.store [Sample.openJanuary])
      (Sample.runsFor fun _ => Sample.noon).program) Sample.refusedCreation).map System.log =
        some [0] := by
    decide +kernel
  obtain ⟨σ, hσ, hlog⟩ := Option.map_eq_some_iff.mp hrun
  have hd := @Sample.runs [Sample.openJanuary] (by decide +kernel)
  have hr := reaches_of_agreed_dates hd (fun _ _ _ h => absurd h (Sample.noRuns _ _ _))
    (fun _ _ _ => rfl) (reaches_of_runLabels hσ)
  exact ⟨_, σ, hr, hlog,
    one_run_a_month hd _ (fun _ _ _ _ h => absurd h (Sample.noRuns _ _ _)) hr⟩

/-- **Two runs of January**: one for the first, one for the fifteenth. -/
theorem two_runs_of_january : ¬ ∀ (administration : Administration) (rs : List Request) (d₀ : Store)
    (c : RunCreations d₀) (turns : List Turn) (σ : System Store RowLock Failure Unit),
    Runs administration rs d₀ → OneRunAMonth d₀ c.organizationId →
    Reaches System.next (fun _ _ => True) (System.init d₀ c.program) turns σ →
    OneRunAMonth σ.db c.organizationId := by
  intro hall
  have hrun : (runLabels System.next (System.init (Sample.store [Sample.openJanuary])
      (Sample.runsFor Sample.firstAndFifteenth).program) Sample.twoCreations).map
        (fun σ => ((σ.db.payrollRuns.lookup 201).map fun row =>
            (row.columns.organizationId, row.columns.runMonth),
          (σ.db.payrollRuns.lookup 202).map fun row =>
            (row.columns.organizationId, row.columns.runMonth))) =
      some (some (1, Sample.noon.day), some (1, Sample.midJanuary.day)) := by
    decide +kernel
  obtain ⟨σ, hσ, hfacts⟩ := Option.map_eq_some_iff.mp hrun
  simp only [Prod.mk.injEq, Option.map_eq_some_iff] at hfacts
  obtain ⟨⟨row₁, hrow₁, horg₁, hdate₁⟩, row₂, hrow₂, horg₂, hdate₂⟩ := hfacts
  have hone := hall Sample.administration [Sample.openJanuary] _
    (Sample.runsFor Sample.firstAndFifteenth) _ σ (Sample.runs (by decide +kernel))
    (fun _ _ _ _ h => absurd h (Sample.noRuns _ _ _)) (reaches_of_runLabels hσ)
  have hsame := hone 201 202 _ _ ⟨row₁, hrow₁, horg₁, hdate₁⟩ ⟨row₂, hrow₂, horg₂, hdate₂⟩
    (by decide +kernel)
  cases hsame

end RunCreations

end RatelPlatform
