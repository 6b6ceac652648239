import RatelPlatform.ExpenseRows
import RatelPlatform.ImportJobs

/-!
# One expense for a row

The inbox is to make an import safe to repeat: a row that was imported is found there
and skipped. But the expense is committed before the hash is, and the inbox is asked
before either. A run that dies in between leaves an expense the inbox does not know of,
and two runs may both be told that a row is new.

As long as the inbox is right whenever it calls a row new (`AsksInTime`), no row of the
file becomes two expenses.
-/

namespace RatelPlatform

variable {runtime : ImportRuntime} {job : ImportJob}

/-! ## Steps -/

/-- The run was told that the row is new, and has no expense for it yet. -/
def RowStep.isAtWork : RowStep → Bool
  | findingDepartment _ | findingCategory _ _ | upsertingVendor _ _ _ _ | creating _ _ => true
  | _ => false

/-- The row a run is about to create an expense for. -/
def ImportPhase.attempt : ImportPhase → Option ℕ
  | atRow i _ _ step => if step.isAtWork then some i else none
  | _ => none

/-- The run is about to create an expense. -/
def ImportPhase.isCreating : ImportPhase → Bool
  | atRow _ _ _ (.creating _ _) => true
  | _ => false

/-- Whatever a run creates, it creates in the name of its job. -/
def RowStep.ForJob (job : ImportJob) : RowStep → Prop
  | creating _ cmd => cmd.source = importedSource job.initiatedById job.id
  | _ => True

/-- A run at a row is at a row of the file. -/
def ImportPhase.ForJob (job : ImportJob) : ImportPhase → Prop
  | atRow i row _ step => job.rows[i]? = some row ∧ step.ForJob job
  | _ => True

/-- Where the loop goes on. -/
theorem nextRow_cases (runtime : ImportRuntime) (job : ImportJob) (i : ℕ) (counts : ImportCounts) :
    (job.rows[i]? = none ∧ nextRow runtime job i counts = .completing counts) ∨
      ∃ row, job.rows[i]? = some row ∧
        ((∃ record, CsvNormalizer.normalize runtime.toRuntime row (i + 2) = .ok record ∧
            nextRow runtime job i counts = .atRow i row counts (.checking record)) ∨
          ∃ e, CsvNormalizer.normalize runtime.toRuntime row (i + 2) = .error e ∧
            nextRow runtime job i counts = .atRow i row
              { counts with failureCount := counts.failureCount + 1 } (.rejecting e.recorded)) := by
  simp only [nextRow]
  rcases hrow : job.rows[i]? with _ | row
  · exact .inl ⟨rfl, rfl⟩
  · refine .inr ⟨row, rfl, ?_⟩
    simp only
    rcases hnormalize : CsvNormalizer.normalize runtime.toRuntime row (i + 2) with e | record
    · exact .inr ⟨e, rfl, rfl⟩
    · exact .inl ⟨record, rfl, rfl⟩

theorem attempt_nextRow (i : ℕ) (counts : ImportCounts) :
    (nextRow runtime job i counts).attempt = none := by
  obtain ⟨-, hnext⟩ | ⟨row, -, ⟨record, -, hnext⟩ | ⟨e, -, hnext⟩⟩ :=
    nextRow_cases runtime job i counts
  all_goals
    rw [hnext]
    rfl

theorem forJob_nextRow (i : ℕ) (counts : ImportCounts) :
    (nextRow runtime job i counts).ForJob job := by
  obtain ⟨-, hnext⟩ | ⟨row, hrow, ⟨record, -, hnext⟩ | ⟨e, -, hnext⟩⟩ :=
    nextRow_cases runtime job i counts
  · rw [hnext]
    trivial
  · rw [hnext]
    exact ⟨hrow, trivial⟩
  · rw [hnext]
    exact ⟨hrow, trivial⟩

theorem attempt_caught (e : ImportError) (p : ImportPhase) : (p.caught e).attempt = none := by
  rcases p with _ | _ | _ | _ | ⟨i, row, counts, step⟩ | _ | _
  case atRow => cases step <;> rfl
  all_goals rfl

theorem forJob_caught (e : ImportError) {p : ImportPhase} (h : p.ForJob job) :
    (p.caught e).ForJob job := by
  rcases p with _ | _ | _ | _ | ⟨i, row, counts, step⟩ | _ | _
  case atRow =>
    cases step with
    | rejecting message => trivial
    | _ => exact ⟨h.1, trivial⟩
  all_goals trivial

/-- What a call that takes effect does to the tables, and where the run goes on. -/
inductive ImportPhase.Performed (runtime : ImportRuntime) (job : ImportJob) (env : Env)
    (t : ImportTables) : ImportPhase → ImportTables → ImportPhase → Prop
  | delivered : Performed runtime job env t queued t starting
  | started : Performed runtime job env t starting
      { t with importJob :=
          { t.importJob with status := .processing, failureReason := none } } loading
  | loaded {rows : List CsvRow} (hfile : job.file = .ok rows) :
      Performed runtime job env t loading t (nextRow runtime job 0 ⟨0, 0⟩)
  | aborted {reason : String} : Performed runtime job env t (aborting reason)
      { t with importJob := { t.importJob with
          status := .failed, completedAt := some env.now, failureReason := some reason } } ended
  /-- the inbox knows the row -/
  | known {i : ℕ} {row : CsvRow} {counts : ImportCounts} {record : RawImportRecord}
      (hknown : record.sourceRecordHash ∈ t.inbox) :
      Performed runtime job env t (atRow i row counts (.checking record)) t
        (nextRow runtime job (i + 1) counts)
  /-- the inbox calls the row new -/
  | asked {i : ℕ} {row : CsvRow} {counts : ImportCounts} {record : RawImportRecord}
      (hnew : record.sourceRecordHash ∉ t.inbox) :
      Performed runtime job env t (atRow i row counts (.checking record)) t
        (atRow i row counts (.findingDepartment record))
  | foundDepartment {i : ℕ} {row : CsvRow} {counts : ImportCounts} {record : RawImportRecord}
      {department : ReferenceRow} (hfound : findByName runtime job t Administration.departments
        record.departmentName env.tie = some department) :
      Performed runtime job env t (atRow i row counts (.findingDepartment record)) t
        (atRow i row counts (.findingCategory record department.id))
  | foundCategory {i : ℕ} {row : CsvRow} {counts : ImportCounts} {record : RawImportRecord}
      {departmentId : Id} {category : ReferenceRow} (hfound : findByName runtime job t
        Administration.expenseCategories record.categoryName env.tie = some category) :
      Performed runtime job env t (atRow i row counts (.findingCategory record departmentId)) t
        (atRow i row counts (mapped job record departmentId category.id))
  | upsertedVendor {i : ℕ} {row : CsvRow} {counts : ImportCounts} {record : RawImportRecord}
      {departmentId categoryId : Id} {name : String} :
      Performed runtime job env t
        (atRow i row counts (.upsertingVendor record departmentId categoryId name))
        (upsertVendor job t env.uuid name).1
        (atRow i row counts (.creating record.sourceRecordHash
          (toCreateExpenseCommand job record departmentId categoryId
            (some (upsertVendor job t env.uuid name).2))))
  | created {i : ℕ} {row : CsvRow} {counts : ImportCounts} {hash : JsString}
      {cmd : CreateExpenseCommand} {a : Id × String} {store : Store}
      (h : (createExpense env cmd).solo t.store = .ok (a, store)) :
      Performed runtime job env t (atRow i row counts (.creating hash cmd)) { t with store }
        (atRow i row counts (.marking hash))
  | marked {i : ℕ} {row : CsvRow} {counts : ImportCounts} {hash : JsString}
      (hnew : hash ∉ t.inbox) :
      Performed runtime job env t (atRow i row counts (.marking hash))
        { t with inbox := insert hash t.inbox }
        (nextRow runtime job (i + 1) { counts with successCount := counts.successCount + 1 })
  | stored {i : ℕ} {row : CsvRow} {counts : ImportCounts} {message : String} :
      Performed runtime job env t (atRow i row counts (.rejecting message))
        { t with failedRecords := t.failedRecords ++ [⟨i + 2, row, message⟩] }
        (nextRow runtime job (i + 1) counts)
  | completed {counts : ImportCounts} : Performed runtime job env t (completing counts)
      { t with importJob := { t.importJob with
          status := .completed
          totalRecords := some job.rows.length
          successCount := counts.successCount
          failureCount := counts.failureCount
          completedAt := some env.now } } ended
  | stayed : Performed runtime job env t ended t ended

/-- **Every call that takes effect is one of these.** -/
theorem ImportPhase.performed {env : Env} {t t' : ImportTables} {p p' : ImportPhase}
    (h : p.perform runtime job env t = .ok (t', p')) : p.Performed runtime job env t t' p' := by
  cases p with
  | queued => cases h; exact .delivered
  | starting => cases h; exact .started
  | loading =>
    simp only [perform] at h
    split at h
    · next hfile => cases h; exact .loaded hfile
    · cases h
  | aborting reason => cases h; exact .aborted
  | completing counts => cases h; exact .completed
  | ended => cases h; exact .stayed
  | atRow i row counts step =>
    cases step with
    | checking record =>
      simp only [perform, RowStep.perform] at h
      split_ifs at h with hknown
      · cases h; exact .known hknown
      · cases h; exact .asked hknown
    | findingDepartment record =>
      simp only [perform, RowStep.perform] at h
      split at h
      · next hfound => cases h; exact .foundDepartment hfound
      · cases h
    | findingCategory record departmentId =>
      simp only [perform, RowStep.perform] at h
      split at h
      · next hfound => cases h; exact .foundCategory hfound
      · cases h
    | upsertingVendor record departmentId categoryId name => cases h; exact .upsertedVendor
    | creating hash cmd =>
      simp only [perform, RowStep.perform] at h
      split at h
      · next hsolo => cases h; exact .created hsolo
      · cases h
    | marking hash =>
      simp only [perform, RowStep.perform] at h
      split_ifs at h with hknown
      cases h; exact .marked hknown
    | rejecting message => cases h; exact .stored

/-- What such a call is to the expenses, and to the row that is attempted. -/
inductive Effect (runtime : ImportRuntime) (job : ImportJob) (env : Env) (t : ImportTables) :
    ImportPhase → ImportTables → ImportPhase → Prop
  /-- the inbox calls the row new -/
  | asked {i : ℕ} {row : CsvRow} {counts : ImportCounts} {record : RawImportRecord}
      (hnew : record.sourceRecordHash ∉ t.inbox) :
    Effect runtime job env t (.atRow i row counts (.checking record)) t
      (.atRow i row counts (.findingDepartment record))
  /-- an expense is created -/
  | created {i : ℕ} {row : CsvRow} {counts : ImportCounts} {hash : JsString}
      {cmd : CreateExpenseCommand} {a : Id × String} {store : Store}
      (h : (createExpense env cmd).solo t.store = .ok (a, store)) :
    Effect runtime job env t (.atRow i row counts (.creating hash cmd)) { t with store }
      (.atRow i row counts (.marking hash))
  /-- anything else, which leaves the expenses alone -/
  | moved {p p' : ImportPhase} {t' : ImportTables} (administration : Administration)
      (hother : p.isCreating = false)
      (hstore : t'.store = { t.store with administration })
      (hattempt : p'.attempt = none ∨ p'.attempt = p.attempt)
      (hjob : p.ForJob job → p'.ForJob job) :
    Effect runtime job env t p t' p'

theorem store_upsertVendor (job : ImportJob) (t : ImportTables) (uuid : Id) (name : String) :
    ∃ administration, (upsertVendor job t uuid name).1.store = { t.store with administration } := by
  unfold upsertVendor
  simp only
  split
  · exact ⟨_, rfl⟩
  · exact ⟨_, rfl⟩

theorem attempt_mapped (record : RawImportRecord) (departmentId categoryId : Id) (i : ℕ)
    (row : CsvRow) (counts : ImportCounts) :
    (ImportPhase.atRow i row counts (mapped job record departmentId categoryId)).attempt = some i := by
  simp only [mapped]
  rcases record.vendorName with _ | name
  · rfl
  · rfl

theorem forJob_mapped (record : RawImportRecord) (departmentId categoryId : Id) :
    (mapped job record departmentId categoryId).ForJob job := by
  simp only [mapped]
  rcases record.vendorName with _ | name
  · rfl
  · trivial

theorem effect_of_perform {env : Env} {t t' : ImportTables} {p p' : ImportPhase}
    (h : p.perform runtime job env t = .ok (t', p')) : Effect runtime job env t p t' p' := by
  -- a call that writes no expense and leads away from every row
  have plain : ∀ {q : ImportPhase}, t'.store = t.store → p'.attempt = none → p'.ForJob job →
      q.isCreating = false → Effect runtime job env t q t' p' :=
    fun hstore hattempt hjob hother =>
      .moved t.store.administration hother hstore (.inl hattempt) fun _ => hjob
  cases ImportPhase.performed h with
  | delivered | started | aborted | completed | stayed => exact plain rfl rfl trivial rfl
  | loaded hfile => exact plain rfl (attempt_nextRow _ _) (forJob_nextRow _ _) rfl
  | known hknown => exact plain rfl (attempt_nextRow _ _) (forJob_nextRow _ _) rfl
  | asked hnew => exact .asked hnew
  | foundDepartment hfound => exact .moved _ rfl rfl (.inr rfl) fun hp => ⟨hp.1, trivial⟩
  | foundCategory hfound =>
    exact .moved _ rfl rfl (.inr (attempt_mapped _ _ _ _ _ _)) fun hp =>
      ⟨hp.1, forJob_mapped _ _ _⟩
  | @upsertedVendor i row counts record departmentId categoryId name =>
    obtain ⟨administration, hstore⟩ := store_upsertVendor job t env.uuid name
    exact .moved administration rfl hstore (.inr rfl) fun hp => ⟨hp.1, rfl⟩
  | created hsolo => exact .created hsolo
  | marked hnew => exact plain rfl (attempt_nextRow _ _) (forJob_nextRow _ _) rfl
  | stored => exact plain rfl (attempt_nextRow _ _) (forJob_nextRow _ _) rfl

namespace ImportSystem

/-- What an event does. -/
inductive Step (job : ImportJob) (σ : ImportSystem) : ImportEvent → ImportSystem → Prop
  /-- the inbox tells a run that its row is new -/
  | asked {w : ℕ} {env : Env} {i : ℕ} {row : CsvRow} {counts : ImportCounts}
      {record : RawImportRecord} (hphase : σ.phase w = .atRow i row counts (.checking record))
      (hnew : record.sourceRecordHash ∉ σ.inbox) :
    Step job σ (.call w env .returns) (σ.goto w (.atRow i row counts (.findingDepartment record)))
  /-- a run creates an expense, whatever it hears of it -/
  | created {l : ImportEvent} {w : ℕ} {env : Env} {i : ℕ} {row : CsvRow} {counts : ImportCounts}
      {hash : JsString} {cmd : CreateExpenseCommand} {a : Id × String} {store : Store}
      {p : ImportPhase} (hphase : σ.phase w = .atRow i row counts (.creating hash cmd))
      (hfresh : σ.store.Fresh env.uuid) (h : (createExpense env cmd).solo σ.store = .ok (a, store))
      (hattempt : p.attempt = none) (hjob : (σ.phase w).ForJob job → p.ForJob job) :
    Step job σ l
      { σ with
        store := store
        phase := Function.update σ.phase w p
        created := σ.created ++ [(i, env.uuid)] }
  /-- a run goes on in any other way, the expenses left alone -/
  | moved {l : ImportEvent} {w : ℕ} {t : ImportTables} {p : ImportPhase}
      (administration : Administration) (hstore : t.store = { σ.store with administration })
      (hattempt : p.attempt = none ∨ p.attempt = (σ.phase w).attempt)
      (hjob : (σ.phase w).ForJob job → p.ForJob job) :
    Step job σ l ⟨t, Function.update σ.phase w p, σ.created⟩
  /-- the platform serves somebody else -/
  | serve {request : Request} {store : Store} (hother : request.createsFor job = false)
      (h : RatelPlatform.next σ.store request = some store) :
    Step job σ (.serve request) { σ with store }
  | rename (names : Id → String) : Step job σ (.rename names) { σ with names }

variable {σ τ : ImportSystem} {l : ImportEvent} {w : ℕ}

theorem goto_phase {v : ℕ} (p : ImportPhase) :
    (σ.goto w p).phase v = if v = w then p else σ.phase v :=
  Function.update_apply _ _ _ _

/-- What is noted of a call that creates nothing. -/
theorem commit_of_not_creating {env : Env} {t : ImportTables} {p : ImportPhase}
    (h : (σ.phase w).isCreating = false) :
    (σ.commit w env t).goto w p = ⟨t, Function.update σ.phase w p, σ.created⟩ := by
  simp only [commit, goto]
  rcases hphase : σ.phase w with _ | _ | _ | _ | ⟨i, row, counts, step⟩ | _ | _
  case atRow =>
    cases step with
    | creating hash cmd =>
      rw [hphase] at h
      cases h
    | _ => rfl
  all_goals rfl

/-- And of one that creates an expense. -/
theorem commit_of_creating {env : Env} {t : ImportTables} {p : ImportPhase} {i : ℕ} {row : CsvRow}
    {counts : ImportCounts} {hash : JsString} {cmd : CreateExpenseCommand}
    (hphase : σ.phase w = .atRow i row counts (.creating hash cmd)) :
    (σ.commit w env t).goto w p =
      ⟨t, Function.update σ.phase w p, σ.created ++ [(i, env.uuid)]⟩ := by
  simp only [commit, goto]
  rw [hphase]

/-- A run hears of an error, the tables left alone. -/
theorem step_caught (e : ImportError) : Step job σ l (σ.goto w ((σ.phase w).caught e)) :=
  .moved (t := σ.toImportTables) σ.store.administration rfl (.inl (attempt_caught e _))
    (forJob_caught e)

/-- **Every step is one of these.** -/
theorem step_of_next (h : next runtime job σ l = some τ) : Step job σ l τ := by
  cases l with
  | call w env outcome =>
    simp only [next] at h
    split_ifs at h with hfresh
    rcases hperform : (σ.phase w).perform runtime job env σ.toImportTables with e | ⟨t, p⟩
    · rw [hperform] at h
      cases outcome with
      | returns => cases h; exact step_caught e
      | fails message => cases h; exact step_caught _
      | loses message => cases h; exact step_caught e
    · have heffect := effect_of_perform hperform
      rw [hperform] at h
      generalize hphase : σ.phase w = phase at heffect
      cases outcome with
      | fails message => cases h; exact step_caught _
      | returns =>
        cases h
        cases heffect with
        | asked hnew =>
          rw [commit_of_not_creating (by rw [hphase]; rfl)]
          exact .asked hphase hnew
        | created hsolo =>
          rw [commit_of_creating hphase]
          refine .created hphase hfresh hsolo rfl fun hp => ?_
          rw [hphase] at hp
          exact ⟨hp.1, trivial⟩
        | moved administration hother hstore hattempt hjob =>
          rw [commit_of_not_creating (by rw [hphase]; exact hother)]
          exact .moved administration hstore (by rw [hphase]; exact hattempt)
            (by rw [hphase]; exact hjob)
      | loses message =>
        cases h
        have hattempt := attempt_caught (.unexpected message) (σ.phase w)
        have hjob (h : (σ.phase w).ForJob job) := forJob_caught (.unexpected message) h
        cases heffect with
        | asked hnew =>
          rw [commit_of_not_creating (by rw [hphase]; rfl)]
          exact .moved σ.store.administration rfl (.inl hattempt) hjob
        | created hsolo =>
          rw [commit_of_creating hphase]
          exact .created hphase hfresh hsolo hattempt hjob
        | moved administration hother hstore _ _ =>
          rw [commit_of_not_creating (by rw [hphase]; exact hother)]
          exact .moved administration hstore (.inl hattempt) hjob
  | crash w =>
    cases h
    exact .moved (t := σ.toImportTables) σ.store.administration rfl (.inl rfl) fun _ => trivial
  | serve request =>
    simp only [next] at h
    split_ifs at h with hother
    obtain ⟨store, hstore, rfl⟩ := Option.map_eq_some_iff.mp h
    exact .serve (Bool.eq_false_of_not_eq_true hother) hstore
  | rename names =>
    cases h
    exact .rename names

/-! ## What the file became -/

/-- The job imported the expense. A correction takes the source of what it corrects
along, but nobody imported it. -/
def ImportedBy (job : ImportJob) (row : ExpenseRow) : Prop :=
  row.source.importJobId = some job.id ∧ row.parentExpenseId = none

/-- **Every expense of the job is that of a row of the file, and every row has one at
most.** -/
structure OncePerRow (job : ImportJob) (σ : ImportSystem) : Prop where
  attributed : ∀ id row, σ.store.expenses.lookup id = some row → ImportedBy job row →
    ∃ i < job.rows.length, (i, id) ∈ σ.created
  once : ∀ i id id', (i, id) ∈ σ.created → (i, id') ∈ σ.created → id = id'

/-- A row the inbox calls new is one that no expense was created for, and no other run
is about to create one. -/
def AsksInTime (σ : ImportSystem) (l : ImportEvent) : Prop :=
  ∀ w env i row counts record, l = .call w env .returns →
    σ.phase w = .atRow i row counts (.checking record) → record.sourceRecordHash ∉ σ.inbox →
    (∀ id, (i, id) ∉ σ.created) ∧ ∀ v, v ≠ w → (σ.phase v).attempt ≠ some i

theorem ImportedBy.of_sameBut {row row' : ExpenseRow} (h : row.SameBut row') :
    ImportedBy job row' ↔ ImportedBy job row := by
  obtain ⟨_, _, rfl⟩ := h
  rfl

/-- The transaction of an import as a request. -/
theorem next_of_createExpense {d d' : Store} {env : Env} {cmd : CreateExpenseCommand}
    {a : Id × String} (hfresh : d.Fresh env.uuid)
    (h : (createExpense env cmd).solo d = .ok (a, d')) :
    RatelPlatform.next d ⟨env, .expense (.create cmd)⟩ = some d' := by
  have hsolo : ((Command.expense (.create cmd)).program env).solo d = .ok ((), d') :=
    Tx.solo_discard_ok.mpr ⟨a, h⟩
  simp only [RatelPlatform.next]
  rw [if_pos hfresh]
  simp only [hsolo]

/-- Nobody else enters an expense of the job. -/
theorem importedBy_of_serve {d d' : Store} {request : Request} {id : Id} {row' : ExpenseRow}
    (hwf : d.WellFormed) (hother : request.createsFor job = false)
    (hn : RatelPlatform.next d request = some d') (hrow' : d'.expenses.lookup id = some row')
    (himported : ImportedBy job row') :
    ∃ row, d.expenses.lookup id = some row ∧ ImportedBy job row := by
  rcases (expenses_next hwf hn).2 id row' hrow' with ⟨row, hrow, hsame⟩ | ⟨hnone, -, -⟩
  · exact ⟨row, hrow, (ImportedBy.of_sameBut hsame).mp himported⟩
  have hnew := Finmap.lookup_eq_none.mpr (next_cases hn).1.2.1
  obtain ⟨rfl, ⟨cmd, _, hcommand, h⟩ | ⟨cmd, _, -, h⟩⟩ := request_of_new hwf hn hnone hrow'
  · obtain ⟨row, hrows, hsource, -⟩ := createExpense_row hnew h
    rw [hrows, Finmap.lookup_insert] at hrow'
    obtain rfl := Option.some.inj hrow'
    simp only [Request.createsFor, hcommand, ← hsource] at hother
    exact absurd himported.1 (of_decide_eq_false hother)
  · obtain ⟨_, _, _, _, -, -, -, -, -, -, -, rfl⟩ := createAdjustment_ok hnew h
    obtain rfl := Option.some.inj ((Finmap.lookup_insert _).symm.trans hrow')
    cases himported.2

/-! ## Which row an expense is of -/

/-- Whatever happens, the expenses of the job are those the runs created. -/
structure Attributed (job : ImportJob) (σ : ImportSystem) : Prop where
  wellFormed : σ.store.WellFormed
  /-- every run is at a row of the file -/
  forJob : ∀ w, (σ.phase w).ForJob job
  /-- what was created is there -/
  created : ∀ i id, (i, id) ∈ σ.created → i < job.rows.length ∧
    ∃ row, σ.store.expenses.lookup id = some row ∧ ImportedBy job row
  /-- and nothing else is -/
  imported : ∀ id row, σ.store.expenses.lookup id = some row → ImportedBy job row →
    ∃ i < job.rows.length, (i, id) ∈ σ.created

theorem attributed_initial (administration : Administration) (names : Id → String) :
    (initial administration names).Attributed job where
  wellFormed := Store.wellFormed_initial administration
  forJob := fun _ => trivial
  created := fun _ _ h => absurd h List.not_mem_nil
  imported := fun _ _ h => nomatch h

theorem forJob_update {p : ImportPhase} (h : ∀ v, (σ.phase v).ForJob job)
    (hp : (σ.phase w).ForJob job → p.ForJob job) (v : ℕ) :
    (Function.update σ.phase w p v).ForJob job := by
  by_cases hv : v = w
  · rw [hv, Function.update_self]
    exact hp (h w)
  · rw [Function.update_of_ne hv]
    exact h v

/-- **Every step keeps the attribution.** -/
theorem Attributed.next (h : σ.Attributed job) (hn : next runtime job σ l = some τ) :
    τ.Attributed job := by
  cases step_of_next hn with
  | @asked w env i row counts record hphase hnew =>
    refine ⟨h.wellFormed, forJob_update h.forJob fun hp => ?_, h.created, h.imported⟩
    rw [hphase] at hp
    exact ⟨hp.1, trivial⟩
  | moved administration hstore hattempt hjob =>
    refine ⟨?_, forJob_update h.forJob hjob, fun i id hid => ?_, fun id row hrow => ?_⟩
    · simp only [hstore]
      exact ⟨h.wellFormed.aligned, h.wellFormed.disjoint⟩
    · simp only [hstore]
      exact h.created i id hid
    · simp only [hstore] at hrow
      exact h.imported id row hrow
  | rename names => exact ⟨h.wellFormed, h.forJob, h.created, h.imported⟩
  | @serve request store hother hserve =>
    refine ⟨h.wellFormed.next hserve, h.forJob, fun i id hid => ?_, fun id row' hrow' hrow => ?_⟩
    · obtain ⟨hi, row, hrow, himported⟩ := h.created i id hid
      obtain ⟨row', hrow', hsame⟩ := (expenses_next h.wellFormed hserve).1 id row hrow
      exact ⟨hi, row', hrow', (ImportedBy.of_sameBut hsame).mpr himported⟩
    · obtain ⟨row, hrow, himported⟩ := importedBy_of_serve h.wellFormed hother hserve hrow' hrow
      exact h.imported id row hrow himported
  | @created _ w env i row counts hash cmd a store p hphase hfresh hsolo hattempt hjob =>
    have hnew := Finmap.lookup_eq_none.mpr hfresh.2.1
    have hw := h.forJob w
    rw [hphase] at hw
    have hi : i < job.rows.length := (List.getElem?_eq_some_iff.mp hw.1).1
    obtain ⟨row₁, hrows, hsource, hparent, -⟩ := createExpense_row hnew hsolo
    have himported : ImportedBy job row₁ := by
      refine ⟨?_, hparent⟩
      rw [hsource, hw.2]
      rfl
    refine ⟨h.wellFormed.next (next_of_createExpense hfresh hsolo), forJob_update h.forJob hjob,
      fun j id hid => ?_, fun id row' hrow' himported' => ?_⟩
    · simp only [hrows]
      rcases List.mem_append.mp hid with hid | hid
      · obtain ⟨hj, row', hrow', himported'⟩ := h.created j id hid
        have hne : id ≠ env.uuid := by
          rintro rfl
          cases hnew.symm.trans hrow'
        exact ⟨hj, row', by rw [Finmap.lookup_insert_of_ne _ hne]; exact hrow', himported'⟩
      · obtain ⟨rfl, rfl⟩ := Prod.mk.inj (List.mem_singleton.mp hid)
        exact ⟨hi, row₁, Finmap.lookup_insert _, himported⟩
    · simp only [hrows] at hrow'
      obtain ⟨rfl, -⟩ | ⟨-, hrow'⟩ := Table.lookup_insert_cases hrow'
      · exact ⟨i, hi, List.mem_append_right _ (List.mem_singleton_self _)⟩
      · obtain ⟨j, hj, hmem⟩ := h.imported id row' hrow' himported'
        exact ⟨j, hj, List.mem_append_left _ hmem⟩

/-! ## One run at a time for a row -/

/-- Who is about to create an expense for a row is the first to do so. -/
structure Exclusive (σ : ImportSystem) : Prop where
  /-- no expense was created for the row -/
  untried : ∀ w i id, (σ.phase w).attempt = some i → (i, id) ∉ σ.created
  /-- and no other run is about to create one -/
  alone : ∀ v w i, (σ.phase v).attempt = some i → (σ.phase w).attempt = some i → v = w
  once : ∀ i id id', (i, id) ∈ σ.created → (i, id') ∈ σ.created → id = id'

theorem exclusive_initial (administration : Administration) (names : Id → String) :
    (initial administration names).Exclusive where
  untried := fun _ _ _ h => nomatch h
  alone := fun _ _ _ h => nomatch h
  once := fun _ _ _ h => absurd h List.not_mem_nil

/-- A run that attempts no other row than before changes nothing about it. -/
theorem Exclusive.update (h : σ.Exclusive) {p : ImportPhase} (t : ImportTables)
    (hp : p.attempt = none ∨ p.attempt = (σ.phase w).attempt) :
    Exclusive ⟨t, Function.update σ.phase w p, σ.created⟩ := by
  have hbefore : ∀ v i, (Function.update σ.phase w p v).attempt = some i →
      (σ.phase v).attempt = some i := by
    intro v i hv
    by_cases hvw : v = w
    · rw [hvw, Function.update_self] at hv
      rcases hp with hp | hp
      · cases hp.symm.trans hv
      · rw [hvw, ← hp, hv]
    · rwa [Function.update_of_ne hvw] at hv
  exact ⟨fun v i id hv => h.untried v i id (hbefore v i hv), fun u v i hu hv =>
    h.alone u v i (hbefore u i hu) (hbefore v i hv), h.once⟩

/-- **Every step keeps it**, if the inbox is asked in time. -/
theorem Exclusive.next (h : σ.Exclusive) (hasks : σ.AsksInTime l)
    (hn : next runtime job σ l = some τ) : τ.Exclusive := by
  cases step_of_next hn with
  | moved administration hstore hattempt hjob => exact h.update _ hattempt
  | serve hother hserve => exact ⟨h.untried, h.alone, h.once⟩
  | rename names => exact ⟨h.untried, h.alone, h.once⟩
  | @asked w env i row counts record hphase hnew =>
    obtain ⟨huntried, halone⟩ := hasks w env i row counts record rfl hphase hnew
    have hself : ((σ.goto w (.atRow i row counts (.findingDepartment record))).phase w).attempt =
        some i := by
      rw [goto_phase, if_pos rfl]
      rfl
    have hothers : ∀ v, v ≠ w → (σ.goto w (.atRow i row counts (.findingDepartment record))).phase v =
        σ.phase v := fun v hv => by rw [goto_phase, if_neg hv]
    refine ⟨fun v j id hv => ?_, fun u v j hu hv => ?_, h.once⟩
    · by_cases hvw : v = w
      · rw [hvw, hself] at hv
        rw [← Option.some.inj hv]
        exact huntried id
      · rw [hothers v hvw] at hv
        exact h.untried v j id hv
    · by_cases huw : u = w <;> by_cases hvw : v = w
      · rw [huw, hvw]
      · rw [huw, hself] at hu
        rw [hothers v hvw, ← hu] at hv
        exact absurd hv (halone v hvw)
      · rw [hvw, hself] at hv
        rw [hothers u huw, ← hv] at hu
        exact absurd hu (halone u huw)
      · rw [hothers u huw] at hu
        rw [hothers v hvw] at hv
        exact h.alone u v j hu hv
  | @created _ w env i row counts hash cmd a store p hphase hfresh hsolo hattempt hjob =>
    have hw : (σ.phase w).attempt = some i := by
      rw [hphase]
      rfl
    have hrest := h.update { σ.toImportTables with store } (.inl hattempt) (w := w) (p := p)
    refine ⟨fun v j id hv hid => ?_, hrest.alone, fun j id id' hid hid' => ?_⟩
    · rcases List.mem_append.mp hid with hid | hid
      · exact hrest.untried v j id hv hid
      · -- the run that created it is done, and no other was after the row
        obtain ⟨rfl, -⟩ := Prod.mk.inj (List.mem_singleton.mp hid)
        by_cases hvw : v = w
        · simp only [hvw, Function.update_self, hattempt] at hv
          cases hv
        · simp only [Function.update_of_ne hvw] at hv
          exact hvw (h.alone v w j hv hw)
    · rcases List.mem_append.mp hid with hold | hlast <;>
        rcases List.mem_append.mp hid' with hold' | hlast'
      · exact h.once j id id' hold hold'
      · obtain ⟨rfl, -⟩ := Prod.mk.inj (List.mem_singleton.mp hlast')
        exact absurd hold (h.untried w j id hw)
      · obtain ⟨rfl, -⟩ := Prod.mk.inj (List.mem_singleton.mp hlast)
        exact absurd hold' (h.untried w j id' hw)
      · obtain ⟨-, rfl⟩ := Prod.mk.inj (List.mem_singleton.mp hlast)
        exact (Prod.mk.inj (List.mem_singleton.mp hlast')).2.symm

/-- An expense created for a row that has one is one too many. -/
theorem not_oncePerRow_of_created {env : Env} {i : ℕ} {row : CsvRow} {counts : ImportCounts}
    {hash : JsString} {cmd : CreateExpenseCommand} {a : Id × String} {store : Store} {id : Id}
    (h : σ.Attributed job) (hphase : σ.phase w = .atRow i row counts (.creating hash cmd))
    (hfresh : σ.store.Fresh env.uuid) (hsolo : (createExpense env cmd).solo σ.store = .ok (a, store))
    (hcreated : (i, id) ∈ σ.created) :
    ∃ τ, next runtime job σ (.call w env .returns) = some τ ∧ ¬ τ.OncePerRow job := by
  refine ⟨(σ.commit w env { σ.toImportTables with store }).goto w (.atRow i row counts (.marking hash)),
    ?_, fun honce => ?_⟩
  · simp only [ImportSystem.next, if_pos hfresh, hphase, ImportPhase.perform, RowStep.perform, hsolo]
  · rw [commit_of_creating hphase] at honce
    obtain ⟨-, row', hrow', -⟩ := h.created i id hcreated
    have hid : id = env.uuid := honce.once i id env.uuid (List.mem_append_left _ hcreated)
      (List.mem_append_right _ (List.mem_singleton_self _))
    rw [hid, Finmap.lookup_eq_none.mpr hfresh.2.1] at hrow'
    cases hrow'

/-- **No row of the file becomes two expenses**, in any run in which the inbox is asked
in time: whatever runs of the job are repeated, overlap, fail or die. -/
theorem once_per_row {administration : Administration} {names : Id → String}
    {events : List ImportEvent}
    (hr : Reaches (next runtime job) AsksInTime (initial administration names) events σ) :
    σ.OncePerRow job := by
  have hinv : σ.Attributed job ∧ σ.Exclusive := by
    refine hr.invariant (P := fun σ => σ.Attributed job ∧ σ.Exclusive)
      ⟨attributed_initial administration names, exclusive_initial administration names⟩ ?_
    rintro σ l τ ⟨hattributed, hexclusive⟩ hasks hn
    exact ⟨hattributed.next hn, hexclusive.next hasks hn⟩
  exact ⟨hinv.1.imported, hinv.2.once⟩

end ImportSystem

/-! ## A run that dies -/

namespace Sample

/-- The one data row of a file. -/
def importedRow : CsvRow where
  fields := [("department", "Ops"), ("category", "Travel"), ("amountMinorUnits", "50000"),
    ("currency", "NGN"), ("expenseDate", "1970-01-15")]
  distinct := by decide

/-- User 15 uploads the file. -/
def importJob : ImportJob := ⟨500, 1, 15, .ok [importedRow]⟩

/-- The surroundings, as far as the file needs them. -/
def importRuntime : ImportRuntime where
  sha256 := fun _ => js "ee58ac74c4c1bcaf8fed96b90eb5e2bb93acf8b51885b4d34f73b7658fd20085"
  parseDate := fun _ => some ⟨1209600000, by decide⟩
  toUpperCase := id
  equalsInsensitive := fun a b => a == b
  constraintMessage := id

/-- The department and the category have the names of the row. -/
def names (id : Id) : String := if id = 2 then "Ops" else "Travel"

/-- A call of a run that goes through. -/
def call (run : ℕ) (uuid : Id) : ImportEvent := .call run ⟨noon, uuid, 0⟩ .returns

/-- The run imports the row up to its expense, which draws the id `uuid`. -/
def untilCreated (run : ℕ) (uuid : Id) : List ImportEvent := List.replicate 7 (call run uuid)

/-- The first run imports the row and completes, the second one finds it imported. -/
def importedTwice : List ImportEvent :=
  .serve openJanuary :: (untilCreated 0 101 ++ [call 0 102, call 0 102] ++
    List.replicate 5 (call 1 102))

/-- The first run dies once the expense is there, and the job is delivered again. -/
def diedOnce : List ImportEvent :=
  .serve openJanuary :: (untilCreated 0 101 ++ .crash 0 :: untilCreated 1 102)

end Sample

namespace ImportSystem

/-- The event is about the run. -/
def About (l : ImportEvent) (w : ℕ) : Prop :=
  match l with
  | .call v _ _ | .crash v => v = w
  | _ => False

/-- A run that an event is not about stays where it is. -/
theorem phase_of_not_about (hn : next runtime job σ l = some τ) (hl : ¬ About l w) :
    τ.phase w = σ.phase w := by
  have hgoto : ∀ {σ' : ImportSystem} {v : ℕ} {p : ImportPhase}, v ≠ w → σ'.phase = σ.phase →
      (σ'.goto v p).phase w = σ.phase w := by
    intro σ' v p hv hphase
    rw [goto_phase, if_neg (Ne.symm hv), hphase]
  cases l with
  | call v env outcome =>
    simp only [next] at hn
    split_ifs at hn
    split at hn
    all_goals
      cases hn
      exact hgoto hl rfl
  | crash v =>
    cases hn
    exact hgoto hl rfl
  | serve request =>
    simp only [next] at hn
    split_ifs at hn
    obtain ⟨_, -, rfl⟩ := Option.map_eq_some_iff.mp hn
    rfl
  | rename names =>
    cases hn
    rfl

/-- The event is about none but the runs below `n`. -/
def isAmong (n : ℕ) : ImportEvent → Bool
  | .call w _ _ | .crash w => decide (w < n)
  | _ => true

theorem lt_of_about {n : ℕ} (h : isAmong n l = true) (habout : About l w) : w < n := by
  cases l with
  | call v env outcome =>
    obtain rfl : v = w := habout
    exact of_decide_eq_true h
  | crash v =>
    obtain rfl : v = w := habout
    exact of_decide_eq_true h
  | serve request => exact habout.elim
  | rename names => exact habout.elim

/-- `AsksInTime` among the runs below `n`, as a test. -/
def asksAmong (n : ℕ) (σ : ImportSystem) : ImportEvent → Bool
  | .call w _ .returns =>
    match σ.phase w with
    | .atRow i _ _ (.checking record) =>
      decide (record.sourceRecordHash ∉ σ.inbox →
        (∀ c ∈ σ.created, c.1 ≠ i) ∧ ∀ v < n, v ≠ w → (σ.phase v).attempt ≠ some i)
    | _ => true
  | _ => true

/-- A schedule of the runs below `n` that passes the test asks in time. -/
theorem reaches_asking {administration : Administration} {names : Id → String} (n : ℕ)
    {events : List ImportEvent}
    (h : runLabels (fun σ l =>
        if isAmong n l && asksAmong n σ l then next runtime job σ l else none)
      (initial administration names) events = some σ) :
    Reaches (next runtime job) AsksInTime (initial administration names) events σ := by
  refine reaches_of_checked_inv (I := fun σ => ∀ v, n ≤ v → σ.phase v = .queued)
    (fun _ _ => rfl) ?_ ?_ h
  · intro σ l τ hqueued hcheck hn v hv
    obtain ⟨hamong, -⟩ := Bool.and_eq_true_iff.mp hcheck
    rw [phase_of_not_about hn fun habout => absurd hv (Nat.not_le_of_lt (lt_of_about hamong habout))]
    exact hqueued v hv
  · rintro σ l hqueued hcheck w env i row counts record rfl hphase hnew
    obtain ⟨-, hasks⟩ := Bool.and_eq_true_iff.mp hcheck
    simp only [asksAmong, hphase, decide_eq_true_eq] at hasks
    obtain ⟨huntried, halone⟩ := hasks hnew
    refine ⟨fun id hid => huntried _ hid rfl, fun v hv => ?_⟩
    by_cases hvn : v < n
    · exact halone v hvn hv
    · rw [hqueued v (Nat.le_of_not_lt hvn)]
      exact nofun

/-- A job that is delivered twice. -/
theorem once_per_row_sample :
    ∃ σ, Reaches (next Sample.importRuntime Sample.importJob) AsksInTime
        (initial Sample.administration Sample.names) Sample.importedTwice σ ∧
      σ.created = [(0, 101)] ∧ σ.OncePerRow Sample.importJob := by
  have hrun : (runLabels (fun σ l => if isAmong 2 l && asksAmong 2 σ l then
      next Sample.importRuntime Sample.importJob σ l else none)
      (initial Sample.administration Sample.names) Sample.importedTwice).map created =
        some [(0, 101)] := by
    decide +kernel
  obtain ⟨σ, hσ, hcreated⟩ := Option.map_eq_some_iff.mp hrun
  have hr := reaches_asking 2 hσ
  exact ⟨σ, hr, hcreated, once_per_row hr⟩

/-- **One row, two expenses**: the run that imports the row dies before the inbox has
its hash, and the next one imports it again. -/
theorem second_expense_after_crash :
    ∃ σ, Reaches (next Sample.importRuntime Sample.importJob) (fun _ _ => True)
        (initial Sample.administration Sample.names) Sample.diedOnce σ ∧
      σ.created = [(0, 101), (0, 102)] ∧
      (∀ id ∈ [101, 102], (σ.store.expenses.lookup id).any fun row =>
        row.source.importJobId = some Sample.importJob.id) ∧
      ¬ σ.OncePerRow Sample.importJob := by
  have hrun : (runLabels (next Sample.importRuntime Sample.importJob)
      (initial Sample.administration Sample.names) Sample.diedOnce).map (fun σ => (σ.created,
        [101, 102].all fun id => (σ.store.expenses.lookup id).any fun row =>
          row.source.importJobId = some Sample.importJob.id)) =
      some ([(0, 101), (0, 102)], true) := by
    decide +kernel
  obtain ⟨σ, hσ, hfacts⟩ := Option.map_eq_some_iff.mp hrun
  simp only [Prod.mk.injEq] at hfacts
  obtain ⟨hcreated, hnamed⟩ := hfacts
  refine ⟨σ, reaches_of_runLabels hσ, hcreated, List.all_eq_true.mp hnamed, fun honce => ?_⟩
  have hsame := honce.once 0 101 102 (by rw [hcreated]; decide) (by rw [hcreated]; decide)
  cases hsame

end ImportSystem

end RatelPlatform
