import RatelPlatform.ApprovedSpend
import RatelPlatform.ExpenseProjections
import RatelPlatform.PermanentLedger
import RatelPlatform.ReportingPlatform

/-!
# Reports on the ledger

The reports read the read model, and the read model is written by projections that may be late,
twice or side by side. Each of its rows still is an expense as it has been committed at some
time: it never mixes two of them (`model_was_committed`). What an upsert of an existing row leaves
alone was written from an older version of the expense, but those columns are the entry in the
ledger, which does not change.

Once the projections have caught up, every report is computed from the rows it would have been
computed from if it had read the expenses themselves, but for the names (`reports_show_ledger`).
-/

namespace RatelPlatform

/-! ## Rows of the read model and expenses -/

/-- The row without its names. -/
def ExpenseReadModel.unnamed (model : ExpenseReadModel) : ExpenseReadModel :=
  { model with
    departmentName := "Unknown"
    categoryName := "Unknown"
    vendorName := none
    projectName := none }

/-- The row an expense is shown as, without its names. -/
def ExpenseRow.model (expense : ExpenseRow) : ExpenseReadModel :=
  ExpenseReadModelProjector.create expense ⟨none, none, none, none⟩

/-- A row that is in sync with the same entry shows the expense. -/
theorem ExpenseReadModel.InSync.unnamed_eq {model : ExpenseReadModel} {expense now : ExpenseRow}
    (hsync : model.InSync now) (hmodel : model.unnamed = expense.model)
    (hsame : expense.SameEntry now) : model.unnamed = now.model := by
  have hnow : now.model = { expense.model with
      status := now.status.name, updatedAt := now.updatedAt } := by
    rw [ExpenseRow.SameEntry] at hsame
    rw [← hsame]
    rfl
  rw [hnow, ← hmodel, ← hsync.1, ← hsync.2.2]
  rfl

/-- The half of the upsert that updates: what it leaves alone is of the same entry. -/
theorem ExpenseReadModelProjector.unnamed_update {old : ExpenseReadModel}
    {expense expense' : ExpenseRow} (hold : old.unnamed = expense.model)
    (hsame : expense.SameEntry expense') (names : Names) :
    (update expense' names old).unnamed = expense'.model := by
  rw [ExpenseRow.SameEntry] at hsame
  have hupdate : (update expense' names old).unnamed = { old.unnamed with
      sourceActorId := expense'.source.actorId
      amountMinorUnits := expense'.amount.minorUnits
      status := expense'.status.name
      updatedAt := expense'.updatedAt } := rfl
  rw [hupdate, hold, ← hsame]
  rfl

theorem ExpenseReadModelProjector.unnamed_create (expense : ExpenseRow) (names : Names) :
    (create expense names).unnamed = expense.model := rfl

/-! ## Every row was committed -/

namespace ProjectionSystem

variable {administration : Administration} {requests : ℕ → Request} {labels : List Label}
  {ok : ProjectionSystem → Label → Prop} {σ σ' : ProjectionSystem} {l : Label}

/-- The expense was committed with this row, at some time of the run. -/
def WasCommitted (ok : ProjectionSystem → Label → Prop) (σ₀ : ProjectionSystem)
    (labels : List Label) (id : Id) (expense : ExpenseRow) : Prop :=
  ∃ earlier τ, earlier <+: labels ∧ Reaches next ok σ₀ earlier τ ∧
    τ.commands.db.expenses.lookup id = some expense

/-- The same, and the entry is still in the ledger. -/
structure Recorded (ok : ProjectionSystem → Label → Prop) (σ₀ : ProjectionSystem)
    (labels : List Label) (σ : ProjectionSystem) (id : Id) (expense : ExpenseRow) : Prop where
  was : WasCommitted ok σ₀ labels id expense
  still : (Finding.expense id expense).found σ.commands.db

variable {σ₀ : ProjectionSystem}

theorem Recorded.next {id : Id} {expense : ExpenseRow} (h : Recorded ok σ₀ labels σ id expense)
    (hkeeps : σ.commands.db.Keeps σ'.commands.db) :
    Recorded ok σ₀ (labels ++ [l]) σ' id expense := by
  obtain ⟨earlier, τ, hearlier, hr, hrow⟩ := h.was
  exact ⟨⟨earlier, τ, hearlier.trans (List.prefix_append _ _), hr, hrow⟩,
    (Finding.expense id expense).stable hkeeps h.still⟩

/-- Two rows of an expense are of the same entry. -/
theorem Recorded.sameEntry {id : Id} {expense expense' : ExpenseRow}
    (h : Recorded ok σ₀ labels σ id expense) (h' : Recorded ok σ₀ labels σ id expense') :
    expense.SameEntry expense' := by
  obtain ⟨now, hnow, hsame⟩ := h.still
  obtain ⟨now', hnow', hsame'⟩ := h'.still
  obtain rfl := Option.some.inj (hnow.symm.trans hnow')
  exact hsame.trans hsame'.symm

/-- What every run keeps: the projections carry expenses that were committed, and the rows of
the read model show such expenses. -/
structure Records (uuids : ℕ → Id) (hdistinct : ∀ i j, uuids i = uuids j → i = j)
    (ok : ProjectionSystem → Label → Prop) (σ₀ : ProjectionSystem) (labels : List Label)
    (σ : ProjectionSystem) : Prop where
  commands : (ledgerPact uuids hdistinct).Kept σ.commands
  read : ∀ i n id expense seen, (σ.projections i).read = some (n, id, expense, seen) →
    Recorded ok σ₀ labels σ id expense
  model : ∀ id model, σ.readModel.lookup id = some model →
    ∃ expense, Recorded ok σ₀ labels σ id expense ∧ model.unnamed = expense.model

variable {uuids : ℕ → Id} {hdistinct : ∀ i j, uuids i = uuids j → i = j}

/-- A step after which the read model is as before, and what is carried was, or has just been
read. -/
theorem Records.keep (h : Records uuids hdistinct ok σ₀ labels σ)
    (hcommands : (ledgerPact uuids hdistinct).Kept σ'.commands)
    (hkeeps : σ.commands.db.Keeps σ'.commands.db) (hmodel : σ'.readModel = σ.readModel)
    (hread : ∀ i n id expense seen, (σ'.projections i).read = some (n, id, expense, seen) →
      (σ.projections i).read = some (n, id, expense, seen) ∨
        Recorded ok σ₀ (labels ++ [l]) σ' id expense) :
    Records uuids hdistinct ok σ₀ (labels ++ [l]) σ' where
  commands := hcommands
  read i n id expense seen hi :=
    (hread i n id expense seen hi).elim (fun hi => (h.read i n id expense seen hi).next hkeeps)
      fun hrecorded => hrecorded
  model id model hrow := by
    rw [hmodel] at hrow
    obtain ⟨expense, hrecorded, hshows⟩ := h.model id model hrow
    exact ⟨expense, hrecorded.next hkeeps, hshows⟩

/-- What the projections have read once one of them has changed. -/
theorem read_update {i j : ℕ} {p : Projection} {carried : ℕ × Id × ExpenseRow × ℕ}
    (h : (Function.update σ.projections i p j).read = some carried) :
    (j = i ∧ p.read = some carried) ∨ (σ.projections j).read = some carried := by
  by_cases hj : j = i
  · subst hj
    rw [Function.update_self] at h
    exact .inl ⟨rfl, h⟩
  · rw [Function.update_of_ne hj] at h
    exact .inr h

/-- **An upsert** leaves the row of an expense that was committed. -/
theorem Records.upsert (h : Records uuids hdistinct ok σ₀ labels σ) {i n seen : ℕ} {id : Id}
    {expense : ExpenseRow} {names : ExpenseReadModelProjector.Names}
    (hi : σ.projections i = .writing n id expense seen names) :
    Records uuids hdistinct ok σ₀ (labels ++ [l])
      { σ with
        readModel := ExpenseReadModelProjector.upsert σ.readModel id expense names
        projections := Function.update σ.projections i .idle
        handled := σ.handled ++ [n]
        written := Function.update σ.written id seen } where
  commands := h.commands
  read j n' id' expense' seen' hj := by
    obtain ⟨-, hnone⟩ | hj := read_update hj
    · cases hnone
    · exact (h.read j n' id' expense' seen' hj).next (.refl _)
  model id' model hrow := by
    have hcarried : Recorded ok σ₀ labels σ id expense :=
      h.read i n id expense seen (by rw [hi, Projection.read])
    rw [ExpenseReadModelProjector.upsert_eq_insert] at hrow
    obtain ⟨rfl, rfl⟩ | ⟨-, hrow⟩ := Table.lookup_insert_cases hrow
    · refine ⟨expense, hcarried.next (.refl _), ?_⟩
      rw [ExpenseReadModelProjector.written]
      rcases hold : σ.readModel.lookup id' with _ | old
      · exact ExpenseReadModelProjector.unnamed_create expense names
      · obtain ⟨before, hbefore, hshown⟩ := h.model id' old hold
        exact ExpenseReadModelProjector.unnamed_update hshown (hbefore.sameEntry hcarried) names
    · obtain ⟨expense', hrecorded, hshows⟩ := h.model id' model hrow
      exact ⟨expense', hrecorded.next (.refl _), hshows⟩

/-- **Every step**. -/
theorem Records.next (hr : Reaches next ok σ₀ labels σ)
    (h : Records uuids hdistinct ok σ₀ labels σ) (hn : σ.next l = some σ') :
    Records uuids hdistinct ok σ₀ (labels ++ [l]) σ' := by
  -- a projection that has read nothing new
  have hlocal : ∀ {i : ℕ} {p : Projection} {handled : List ℕ},
      (∀ carried, p.read = some carried → (σ.projections i).read = some carried) →
        Records uuids hdistinct ok σ₀ (labels ++ [l])
          { σ with projections := Function.update σ.projections i p, handled := handled } := by
    intro i p handled hp
    refine h.keep h.commands (.refl _) rfl fun j n id expense seen hj => .inl ?_
    obtain ⟨rfl, hread⟩ | hread := read_update hj
    · exact hp _ hread
    · exact hread
  cases l with
  | turn turn =>
    obtain ⟨commands, hcommands, rfl⟩ := Option.map_eq_some_iff.mp hn
    obtain ⟨hkept, hkeeps⟩ := keeps_of_next h.commands hcommands
    exact h.keep hkept hkeeps rfl fun _ _ _ _ _ hi => .inl hi
  | start i n =>
    simp only [ProjectionSystem.next] at hn
    split at hn
    · split_ifs at hn
      cases hn
      exact hlocal fun _ hnone => absurd hnone (by simp [Projection.read])
    · cases hn
  | read i =>
    simp only [ProjectionSystem.next] at hn
    split at hn
    · next n event hi =>
      split at hn
      · cases hn
        exact hlocal fun _ hnone => absurd hnone (by simp [Projection.read])
      · next expense hrow =>
        cases hn
        refine h.keep h.commands (.refl _) rfl fun j n' id expense' seen hj => ?_
        obtain ⟨rfl, hread⟩ | hread := read_update hj
        · cases hread
          exact .inr ⟨⟨labels, σ, List.prefix_append _ _, hr, hrow⟩, expense, hrow, .refl expense⟩
        · exact .inl hread
    · cases hn
  | lookUp i names =>
    simp only [ProjectionSystem.next] at hn
    split at hn
    · next n id expense seen hi =>
      split_ifs at hn
      cases hn
      refine hlocal fun carried hcarried => ?_
      rw [hi]
      exact hcarried
    · cases hn
  | upsert i =>
    simp only [ProjectionSystem.next] at hn
    split at hn
    · next n id expense seen names hi =>
      cases hn
      exact h.upsert hi
    · cases hn
  | fail i =>
    simp only [ProjectionSystem.next] at hn
    split at hn
    · cases hn
    · cases hn
      exact hlocal fun _ hnone => absurd hnone (by simp [Projection.read])

/-- Every run of requests that draw different ids. -/
theorem records_of_reaches
    (hdistinct : ∀ i j, (requests i).env.uuid = (requests j).env.uuid → i = j)
    (hr : Reaches next ok (initial administration requests) labels σ) :
    Records (fun i => (requests i).env.uuid) hdistinct ok (initial administration requests)
      labels σ := by
  refine hr.invariant_along ⟨?_, ?_, ?_⟩ fun _ _ _ _ hr h _ hn => h.next hr hn
  · exact kept_requests (fun i => ⟨Finmap.notMem_empty, Finmap.notMem_empty, Finmap.notMem_empty⟩)
      hdistinct
  · exact fun i n id expense seen hi => by cases hi
  · exact fun id model hrow => by simp [initial] at hrow

/-- **Every row of the read model was committed**: in every interleaving of commands and
projections, late or repeated, with failures and crashes, a row of the read model is, but for
its names, the expense as it was committed at some time of the run. -/
theorem model_was_committed
    (hdistinct : ∀ i j, (requests i).env.uuid = (requests j).env.uuid → i = j)
    (hr : Reaches next ok (initial administration requests) labels σ) {id : Id}
    {model : ExpenseReadModel} (hrow : σ.readModel.lookup id = some model) :
    ∃ expense, WasCommitted ok (initial administration requests) labels id expense ∧
      model.unnamed = expense.model := by
  obtain ⟨expense, hrecorded, hshows⟩ := (records_of_reaches hdistinct hr).model id model hrow
  exact ⟨expense, hrecorded.was, hshows⟩

end ProjectionSystem

namespace Sample

/-- User 10 enters an expense in January and submits it, and user 11 approves it. Each request
draws an id of its own. -/
def enteredAndApproved (i : ℕ) : Request :=
  request (100 + i) (match i with
    | 0 => openJanuary
    | 1 => create 101 50000
    | 2 => submit 101
    | _ => approve 101 11).command

theorem enteredAndApproved_distinct (i j : ℕ)
    (h : (enteredAndApproved i).env.uuid = (enteredAndApproved j).env.uuid) : i = j :=
  Nat.add_left_cancel h

end Sample

namespace ProjectionSystem

/-- The late projection shows the expense as a draft: so it was once. -/
theorem model_was_committed_sample : ∃ (σ : ProjectionSystem) (model : ExpenseReadModel),
    (σ.commands.db.expenses.lookup 101).map ExpenseRow.status = some .pendingApproval ∧
      model.status = "draft" ∧ ∃ expense, WasCommitted (fun _ _ => True)
        (initial Sample.administration Sample.enteredAndApproved) Sample.projectedLate 101 expense ∧
          model.unnamed = expense.model := by
  have hrun : (runLabels next (initial Sample.administration Sample.enteredAndApproved)
      Sample.projectedLate).map (fun σ =>
        ((σ.commands.db.expenses.lookup 101).map ExpenseRow.status,
          (σ.readModel.lookup 101).map ExpenseReadModel.status)) =
      some (some .pendingApproval, some "draft") := by
    decide +kernel
  obtain ⟨σ, hσ, hfacts⟩ := Option.map_eq_some_iff.mp hrun
  simp only [Prod.mk.injEq, Option.map_eq_some_iff] at hfacts
  obtain ⟨⟨expense, hexpense, hpending⟩, model, hmodel, hdraft⟩ := hfacts
  refine ⟨σ, model, ?_, hdraft, ?_⟩
  · rw [hexpense, Option.map_some, hpending]
  · exact model_was_committed Sample.enteredAndApproved_distinct (reaches_of_runLabels hσ) hmodel

end ProjectionSystem

/-! ## Reports on the expenses themselves -/

/-- What a caller sees, by the scope they have. -/
theorem ReportQuery.sees_iff {permissions : List RolePermission} {query : ReportQuery}
    {row : ExpenseReadModel} : query.Sees permissions row ↔
      row.organizationId = query.requestingUser.organizationId ∧
        ∃ scope ∈ reportScope permissions query.requestingUser,
          scope = .department → row.departmentId ∈ query.requestingUser.departmentIds := by
  rw [Sees]
  refine and_congr_right fun _ => ?_
  rcases reportScope permissions query.requestingUser with _ | _ | _ | _ <;> simp

instance (permissions : List RolePermission) (query : ReportQuery) (row : ExpenseReadModel) :
    Decidable (query.Sees permissions row) :=
  decidable_of_iff _ ReportQuery.sees_iff.symm

/-- The rows a report would be computed from if it read the expenses. -/
def Store.reported (d : Store) (permissions : List RolePermission) (query : ReportQuery)
    (report : Report) : List ExpenseReadModel :=
  ((Table.rows d.expenses).map fun row => row.2.model).filter fun model =>
    query.Sees permissions model ∧ report.Matches query model

/-- Two tables that show the same under each key list the same. -/
theorem Table.map_rows_eq {κ ρ ρ' α : Type} [LinearOrder κ] {t : Table κ ρ} {t' : Table κ ρ'}
    {f : ρ → α} {g : ρ' → α} (h : ∀ k, (t.lookup k).map f = (t'.lookup k).map g) :
    ((Table.rows t).map fun row => f row.2) = (Table.rows t').map fun row => g row.2 := by
  have hkeys : t.keys = t'.keys := by
    ext k
    rw [Table.mem_keys_iff, Table.mem_keys_iff]
    have hk := congrArg Option.isSome (h k)
    rw [Option.isSome_map, Option.isSome_map] at hk
    rw [← Option.isSome_iff_exists, ← Option.isSome_iff_exists, hk]
  have hsorted : Table.sortedKeys t = Table.sortedKeys t' := by
    rw [Table.sortedKeys, Table.sortedKeys, hkeys]
  simp only [Table.rows, List.map_filterMap, Option.map_map, Function.comp_def, hsorted]
  exact List.filterMap_congr fun k _ => h k

section

variable {permissions : List RolePermission} {readModel : Table Id ExpenseReadModel}
  {query : ReportQuery} {report : Report}

/-- A report reads the rows the caller may see that meet its conditions. -/
theorem Report.rows_eq_filter : report.rows permissions readModel query =
    ((Table.rows readModel).map Prod.snd).filter fun row =>
      query.Sees permissions row ∧ report.Matches query row := by
  simp only [Report.rows, organizationRows, ReportQuery.sees_iff]
  rcases reportScope permissions query.requestingUser with _ | _ | _ | _
  · simp
  · simp
  · rw [List.filter_filter]
    refine List.filter_congr fun row _ => ?_
    rw [← Bool.decide_and]
    refine decide_eq_decide.mpr ?_
    simp only [Option.mem_some_iff, exists_eq_left', true_imp_iff]
    tauto
  · simp

/-- Neither the conditions of a report nor what a caller may see depends on the names. -/
theorem Report.unnamed_iff (row : ExpenseReadModel) :
    (query.Sees permissions row.unnamed ∧ report.Matches query row.unnamed) ↔
      query.Sees permissions row ∧ report.Matches query row := by
  cases report <;> exact Iff.rfl

/-- Where the read model shows the expenses, a report reads what it would read of them. -/
theorem Store.reported_eq {d : Store} (h : ∀ id, (readModel.lookup id).map
      ExpenseReadModel.unnamed = (d.expenses.lookup id).map ExpenseRow.model) :
    (report.rows permissions readModel query).map ExpenseReadModel.unnamed =
      d.reported permissions query report := by
  rw [Report.rows_eq_filter, reported, ← Table.map_rows_eq h, List.filter_map, List.map_map,
    List.filter_map]
  refine congrArg _ (List.filter_congr fun row _ => ?_)
  exact decide_eq_decide.mpr (Report.unnamed_iff row.2).symm

theorem Spend.ofRows_unnamed (rows : List ExpenseReadModel) :
    Spend.ofRows (rows.map ExpenseReadModel.unnamed) = Spend.ofRows rows := by
  simp [Spend.ofRows, Function.comp_def, ExpenseReadModel.unnamed]

end

namespace ProjectionSystem

variable {administration : Administration} {requests : ℕ → Request} {labels : List Label}
  {σ : ProjectionSystem}

/-- Once the projections have caught up, the read model has one row an expense, and shows it. -/
theorem unnamed_eq_model
    (hdistinct : ∀ i j, (requests i).env.uuid = (requests j).env.uuid → i = j)
    (hr : Reaches next InOrder (initial administration requests) labels σ)
    (hsettled : ∀ id, σ.Settled id) (id : Id) :
    (σ.readModel.lookup id).map ExpenseReadModel.unnamed =
      (σ.commands.db.expenses.lookup id).map ExpenseRow.model := by
  have hrecords := records_of_reaches hdistinct hr
  have hshows : σ.Shows id := projected_in_sync hr id (hsettled id)
  rcases hrow : σ.readModel.lookup id with _ | model
  · rcases hnow : σ.commands.db.expenses.lookup id with _ | now
    · rfl
    · obtain ⟨model, hmodel, -⟩ := hshows now hnow
      cases hrow.symm.trans hmodel
  · obtain ⟨expense, ⟨-, now, hnow, hsame⟩, hmodel⟩ := hrecords.model id model hrow
    obtain ⟨model', hmodel', hsync⟩ := hshows now hnow
    obtain rfl := Option.some.inj (hrow.symm.trans hmodel')
    rw [hnow, Option.map_some, Option.map_some, hsync.unnamed_eq hmodel hsame]

/-- **The reports show the ledger**: in every interleaving in which commits tell and upserts are
in order, once every event has been handled and no projection is in progress, each report is
computed, whoever asks and for whatever range, from the rows it would be computed from if it read
the expenses, but for their names. So what the three reports on approved expenses come to is what
the approved expenses in the ledger come to. -/
theorem reports_show_ledger
    (hdistinct : ∀ i j, (requests i).env.uuid = (requests j).env.uuid → i = j)
    (hr : Reaches next InOrder (initial administration requests) labels σ)
    (hsettled : ∀ id, σ.Settled id) (permissions : List RolePermission) (query : ReportQuery) :
    (∀ report : Report, (report.rows permissions σ.readModel query).map
        ExpenseReadModel.unnamed = σ.commands.db.reported permissions query report) ∧
      DepartmentSpendingSummaryHandler.spend permissions σ.readModel query =
        .ofRows (σ.commands.db.reported permissions query .departmentSpendingSummary) ∧
      ExpenseStatusBreakdownHandler.approvedSpend permissions σ.readModel query =
        .ofRows (σ.commands.db.reported permissions query .departmentSpendingSummary) ∧
      CashOutflowHandler.spend permissions σ.readModel query =
        .ofRows (σ.commands.db.reported permissions query .cashOutflow) := by
  have hrows : ∀ report : Report, (report.rows permissions σ.readModel query).map
      ExpenseReadModel.unnamed = σ.commands.db.reported permissions query report :=
    fun report => Store.reported_eq (unnamed_eq_model hdistinct hr hsettled)
  refine ⟨hrows, ?_⟩
  simp only [← hrows, Spend.ofRows_unnamed]
  refine ⟨DepartmentSpendingSummaryHandler.spend_eq, ?_, CashOutflowHandler.spend_eq⟩
  rw [ExpenseStatusBreakdownHandler.approvedSpend_eq, Report.rows_approved]

/-- What is left to say of a run that has handled all that is projected. -/
theorem settled_of_handled
    (hr : Reaches next (fun _ _ => True) (initial administration requests) labels σ)
    (hcalled : ∀ l ∈ labels, ∀ i ∈ l.projector, i < 2)
    (hidle : ((σ.projections 0).isIdle && (σ.projections 1).isIdle) = true)
    (hhandled : ∀ n < σ.commands.db.outbox.length, n ∈ σ.handled ∨
      ∀ event ∈ σ.commands.db.outbox[n]?,
        event.type ∉ ExpenseReadModelProjector.projectedEventTypes) (id : Id) : σ.Settled id := by
  refine ⟨fun n event hn hof => ?_, fun i => ?_⟩
  · obtain ⟨hlt, -⟩ := List.getElem?_eq_some_iff.mp hn
    exact (hhandled n hlt).resolve_right fun hnot => hnot event hn hof.1
  · rw [Bool.and_eq_true] at hidle
    match i with
    | 0 => exact Projection.eq_idle hidle.1
    | 1 => exact Projection.eq_idle hidle.2
    | i + 2 =>
      apply idle_of_uncalled hr
      intro l hl hprojector
      have hlt := hcalled l hl _ hprojector
      omega

end ProjectionSystem

namespace Sample

/-- Two expenses are entered, submitted and approved, one of noon and one of the next month. -/
def twoApproved (i : ℕ) : Request :=
  request (100 + i) (match i with
    | 4 => .expense (.create
        ⟨1, ⟨.employee, 10, none⟩, 70000, "NGN", 3, 2, nextMonth, none, none, none⟩)
    | 5 => .expense (.submit ⟨104, 1⟩)
    | 6 => .expense (.approve ⟨104, 1, 12⟩)
    | _ => (enteredAndApproved i).command)

theorem twoApproved_distinct (i j : ℕ)
    (h : (twoApproved i).env.uuid = (twoApproved j).env.uuid) : i = j :=
  Nat.add_left_cancel h

/-- Some of the events are projected while the second expense is entered, and one of them twice.
-/
def twoApprovedInTurn : List ProjectionSystem.Label :=
  turnsOf 0 3 ++ turnsOf 1 7 ++ turnsOf 2 6 ++ projects 0 1 ++ turnsOf 3 12 ++ projects 1 2 ++
    turnsOf 4 7 ++ projects 0 3 ++ turnsOf 5 6 ++ projects 1 1 ++ turnsOf 6 12 ++ projects 0 4 ++
      projects 1 6 ++ projects 0 5

end Sample

namespace ProjectionSystem

/-- Both expenses are approved and projected: user 11 reads of one in the cash outflow of the first
weeks. -/
theorem reports_show_ledger_sample : ∃ σ : ProjectionSystem,
    (Table.rows σ.readModel).map (fun row => row.2.status) = ["approved", "approved"] ∧
      (σ.commands.db.reported Sample.rolePermissions Sample.firstWeeks .cashOutflow).length = 1 ∧
        CashOutflowHandler.spend Sample.rolePermissions σ.readModel Sample.firstWeeks =
          .ofRows (σ.commands.db.reported Sample.rolePermissions Sample.firstWeeks
            .cashOutflow) := by
  have hrun : (runLabels (fun σ l => if decide (σ.InOrder l) = true then next σ l else none)
      (initial Sample.administration Sample.twoApproved) Sample.twoApprovedInTurn).map
        (fun σ => ((Table.rows σ.readModel).map (fun row => row.2.status),
          (σ.commands.db.reported Sample.rolePermissions Sample.firstWeeks .cashOutflow).length,
          (σ.projections 0).isIdle && (σ.projections 1).isIdle,
          decide (∀ n < σ.commands.db.outbox.length, n ∈ σ.handled ∨
            ∀ event ∈ σ.commands.db.outbox[n]?,
              event.type ∉ ExpenseReadModelProjector.projectedEventTypes))) =
      some (["approved", "approved"], 1, true, true) := by
    decide +kernel
  obtain ⟨σ, hσ, hfacts⟩ := Option.map_eq_some_iff.mp hrun
  simp only [Prod.mk.injEq, decide_eq_true_eq] at hfacts
  obtain ⟨hstatus, hlength, hidle, hhandled⟩ := hfacts
  have hr := reaches_of_checked_inv (I := fun _ => True) trivial (fun _ _ _ _ _ _ => trivial)
    (fun _ _ _ => of_decide_eq_true) hσ
  have hsettled := settled_of_handled (hr.mono fun _ _ _ => trivial) (by decide) hidle hhandled
  exact ⟨σ, hstatus, hlength, (reports_show_ledger Sample.twoApproved_distinct hr hsettled
    Sample.rolePermissions Sample.firstWeeks).2.2.2⟩

end ProjectionSystem

end RatelPlatform
