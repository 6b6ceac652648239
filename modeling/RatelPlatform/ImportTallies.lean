import RatelPlatform.ImportRuns

/-!
# What an import reports

A run that completes writes how many rows it imported and how many failed. A row whose hash
the inbox knows is neither: the run passes over it, be it that an earlier run imported the
row, or that an earlier row of the file has the same content. The counts then tell nothing
of the row, and they start at zero in every run.

As long as the inbox knows no row it is asked about (`KeepsTrack`), the counts of the last run
are those of the file: every row has its expense or its failure.
-/

namespace RatelPlatform

variable {runtime : ImportRuntime} {job : ImportJob}

/-! ## Complete runs -/

/-- Not begun, or over. -/
def ImportPhase.isIdle : ImportPhase → Bool
  | queued | ended => true
  | _ => false

/-- Inside the `try` of the loop: what is thrown is caught, and the run goes on. -/
def ImportPhase.isGuarded : ImportPhase → Bool
  | atRow _ _ _ (.rejecting _) => false
  | atRow _ _ _ _ => true
  | _ => false

namespace ImportSystem

/-- The runs of the job are complete, and one after the other: nothing is thrown out of
`process`, and nothing dies. In between, and meanwhile, anything else may happen. -/
def Completes (σ : ImportSystem) : ImportEvent → Prop
  | .call w _ outcome =>
    (∀ v, v ≠ w → (σ.phase v).isIdle) ∧ ((σ.phase w).isGuarded ∨ outcome = .returns)
  | .crash _ => False
  | .serve _ => True
  | .rename _ => True

/-- The inbox knows no row it is asked about, and once an expense is created its row is
marked. -/
def KeepsTrack (σ : ImportSystem) : ImportEvent → Prop
  | .call w _ outcome =>
    match σ.phase w with
    | .atRow _ _ _ (.checking record) => record.sourceRecordHash ∉ σ.inbox
    | .atRow _ _ _ (.creating _ _) => ∀ message, outcome ≠ .loses message
    | .atRow _ _ _ (.marking _) => outcome = .returns
    | _ => True
  | _ => True

/-- The expenses of the job. -/
def importedExpenses (job : ImportJob) (σ : ImportSystem) : Finset Id :=
  σ.store.expenses.keys.filter fun id => (σ.store.expenses.lookup id).any fun row =>
    row.source.importJobId = some job.id ∧ row.parentExpenseId = none

/-- An expense was created for the row. -/
def IsCreated (created : List (ℕ × Id)) (i : ℕ) : Prop := i ∈ created.map Prod.fst

instance (created : List (ℕ × Id)) (i : ℕ) : Decidable (IsCreated created i) :=
  inferInstanceAs (Decidable (_ ∈ _))

/-- The failures of the last run: it appended one for each that it counted. -/
def currentFailures (failureCount : ℕ) (failed : List FailedImportRecord) :
    List FailedImportRecord :=
  failed.drop (failed.length - failureCount)

/-- **Every row is accounted for**: by an expense of its own or by a failure of the last run,
in numbers that add up. -/
structure Accounted (job : ImportJob) (σ : ImportSystem) : Prop where
  /-- a row has an expense, or a failure -/
  row : ∀ i < job.rows.length,
    (∃ id ∈ σ.importedExpenses job, (i, id) ∈ σ.created) ∨
      ∃ f ∈ currentFailures σ.importJob.failureCount σ.failedRecords,
        f.rowNumber = i + 2 ∧ job.rows[i]? = some f.rawRow
  /-- an expense is one row's -/
  own : ∀ i j id, (i, id) ∈ σ.created → (j, id) ∈ σ.created → i = j
  successCount : σ.importJob.successCount = (σ.importedExpenses job).card
  failureCount : σ.importJob.failureCount =
    ((List.range job.rows.length).filter fun i => ¬ IsCreated σ.created i).length
  totalRecords : σ.importJob.totalRecords = some job.rows.length
  sum : σ.importJob.successCount + σ.importJob.failureCount = job.rows.length

end ImportSystem

/-! ## The tally of a run -/

open ImportSystem

/-- What the normalizer makes of a row. -/
def ImportJob.recordOf (runtime : ImportRuntime) (job : ImportJob) (i : ℕ) :
    Option RawImportRecord :=
  job.rows[i]?.bind fun row => (CsvNormalizer.normalize runtime.toRuntime row (i + 2)).toOption

/-- The counts are those of the first `i` rows, and the failures among them are recorded. -/
structure CountsRows (job : ImportJob) (created : List (ℕ × Id)) (failed : List FailedImportRecord)
    (i : ℕ) (counts : ImportCounts) : Prop where
  success : counts.successCount = ((List.range i).filter fun j => IsCreated created j).length
  failure : counts.failureCount = ((List.range i).filter fun j => ¬ IsCreated created j).length
  recorded : ∀ j < i, ¬ IsCreated created j →
    ∃ f ∈ currentFailures counts.failureCount failed,
      f.rowNumber = j + 2 ∧ job.rows[j]? = some f.rawRow

/-- The hash a run has of its row, until it is marked. -/
def RowStep.hash : RowStep → Option JsString
  | checking record | findingDepartment record | findingCategory record _
  | upsertingVendor record _ _ _ => some record.sourceRecordHash
  | creating sourceRecordHash _ | marking sourceRecordHash => some sourceRecordHash
  | rejecting _ => none

/-- A run has counted the rows before its own, and its own once that is decided. -/
def ImportPhase.Tallied (runtime : ImportRuntime) (job : ImportJob) (created : List (ℕ × Id))
    (inbox : Finset JsString) (failed : List FailedImportRecord) : ImportPhase → Prop
  | aborting _ => False
  | atRow i _ counts (.checking record) =>
    CountsRows job created failed i counts ∧ job.recordOf runtime i = some record
  | atRow i _ counts (.rejecting _) =>
    ¬ IsCreated created i ∧ ∃ before, CountsRows job created failed i before ∧
      counts = { before with failureCount := before.failureCount + 1 }
  | atRow i _ counts step =>
    CountsRows job created failed i counts ∧ (IsCreated created i ↔ step.isAtWork = false) ∧
      ∃ record, job.recordOf runtime i = some record ∧
        step.hash = some record.sourceRecordHash ∧ record.sourceRecordHash ∉ inbox
  | completing counts => CountsRows job created failed job.rows.length counts
  | _ => True

variable {created : List (ℕ × Id)} {failed : List FailedImportRecord} {i : ℕ}
  {counts : ImportCounts}

/-- A row more, with an expense. -/
theorem CountsRows.succeed (h : CountsRows job created failed i counts) (hi : IsCreated created i) :
    CountsRows job created failed (i + 1)
      { counts with successCount := counts.successCount + 1 } := by
  obtain ⟨hsuccess, hfailure, hrecorded⟩ := h
  refine ⟨?_, ?_, fun j hj hnot => ?_⟩
  · simp [List.range_succ, List.filter_append, hsuccess, hi]
  · simp [List.range_succ, List.filter_append, hfailure, hi]
  · rcases Nat.lt_succ_iff_lt_or_eq.mp hj with hj | rfl
    · exact hrecorded j hj hnot
    · exact absurd hi hnot

/-- A row more, with a failure. -/
theorem CountsRows.fail (h : CountsRows job created failed i counts) (hi : ¬ IsCreated created i)
    {f : FailedImportRecord} (hnumber : f.rowNumber = i + 2)
    (hrow : job.rows[i]? = some f.rawRow) :
    CountsRows job created (failed ++ [f]) (i + 1)
      { counts with failureCount := counts.failureCount + 1 } := by
  obtain ⟨hsuccess, hfailure, hrecorded⟩ := h
  have hcurrent : currentFailures (counts.failureCount + 1) (failed ++ [f]) =
      currentFailures counts.failureCount failed ++ [f] := by
    rw [currentFailures, currentFailures, List.length_append, List.length_singleton,
      Nat.add_sub_add_right, List.drop_append_of_le_length (Nat.sub_le _ _)]
  refine ⟨?_, ?_, fun j hj hnot => ?_⟩
  · simp [List.range_succ, List.filter_append, hsuccess, hi]
  · simp [List.range_succ, List.filter_append, hfailure, hi]
  · rw [hcurrent]
    rcases Nat.lt_succ_iff_lt_or_eq.mp hj with hj | rfl
    · obtain ⟨f', hf', hfacts⟩ := hrecorded j hj hnot
      exact ⟨f', List.mem_append_left _ hf', hfacts⟩
    · exact ⟨f, List.mem_append_right _ (List.mem_singleton_self _), hnumber, hrow⟩

/-- An expense for a later row changes nothing. -/
theorem CountsRows.create (h : CountsRows job created failed i counts) (id : Id) :
    CountsRows job (created ++ [(i, id)]) failed i counts := by
  have hiff : ∀ j < i, IsCreated (created ++ [(i, id)]) j ↔ IsCreated created j := by
    intro j hj
    simp [IsCreated, Nat.ne_of_lt hj]
  obtain ⟨hsuccess, hfailure, hrecorded⟩ := h
  refine ⟨?_, ?_, fun j hj hnot => hrecorded j hj (mt (hiff j hj).mpr hnot)⟩
  · rw [hsuccess]
    refine congrArg _ (List.filter_congr fun j hj => ?_)
    simp only [hiff j (List.mem_range.mp hj)]
  · rw [hfailure]
    refine congrArg _ (List.filter_congr fun j hj => ?_)
    simp only [hiff j (List.mem_range.mp hj)]

theorem countsRows_zero : CountsRows job created failed 0 ⟨0, 0⟩ where
  success := rfl
  failure := rfl
  recorded := fun _ hj => absurd hj (Nat.not_lt_zero _)

/-- The rows with and those without an expense are all rows. -/
theorem CountsRows.sum (h : CountsRows job created failed i counts) :
    counts.successCount + counts.failureCount = i := by
  rw [h.success, h.failure]
  have hsum := List.length_eq_length_filter_add (l := List.range i) fun j =>
    decide (IsCreated created j)
  rw [List.length_range] at hsum
  simpa using hsum.symm

/-- The loop goes on to its `i`-th row. -/
theorem tallied_nextRow {inbox : Finset JsString} (h : CountsRows job created failed i counts)
    (hi : i ≤ job.rows.length) (hcreated : IsCreated created i → job.recordOf runtime i ≠ none) :
    (nextRow runtime job i counts).Tallied runtime job created inbox failed := by
  have hrecord : ∀ row, job.rows[i]? = some row → job.recordOf runtime i =
      (CsvNormalizer.normalize runtime.toRuntime row (i + 2)).toOption := by
    intro row hrow
    rw [ImportJob.recordOf, hrow]
    rfl
  obtain ⟨hrow, hnext⟩ | ⟨row, hrow, ⟨record, hnormalize, hnext⟩ | ⟨e, hnormalize, hnext⟩⟩ :=
    nextRow_cases runtime job i counts
  all_goals rw [hnext]
  · have hlength : job.rows.length = i := Nat.le_antisymm (List.getElem?_eq_none_iff.mp hrow) hi
    simp only [ImportPhase.Tallied, hlength]
    exact h
  · refine ⟨h, ?_⟩
    rw [hrecord row hrow, hnormalize]
    rfl
  · -- what cannot be normalized was never imported
    refine ⟨fun hc => hcreated hc ?_, counts, h, rfl⟩
    rw [hrecord row hrow, hnormalize]
    rfl

/-! ## Every step -/

namespace ImportSystem

variable {σ τ : ImportSystem} {l : ImportEvent} {w : ℕ}

/-- The run is about to put the hash of its row into the inbox. -/
def Marking (phase : ImportPhase) (i : ℕ) (hash : JsString) : Prop :=
  ∃ row counts, phase = .atRow i row counts (.marking hash)

/-- The tallies are right: those of the run at work, and once it is over those of the job. -/
structure Tallied (runtime : ImportRuntime) (job : ImportJob) (σ : ImportSystem) : Prop where
  attributed : σ.Attributed job
  rowsNodup : (σ.created.map Prod.fst).Nodup
  idsNodup : (σ.created.map Prod.snd).Nodup
  /-- one run is at work at a time -/
  alone : ∀ v w, (σ.phase v).isIdle = false → (σ.phase w).isIdle = false → v = w
  /-- what was imported is in the inbox, or on its way there -/
  hashed : ∀ c ∈ σ.created, ∃ record, job.recordOf runtime c.1 = some record ∧
    (record.sourceRecordHash ∈ σ.inbox ∨ ∃ w, Marking (σ.phase w) c.1 record.sourceRecordHash)
  phase : ∀ w, (σ.phase w).Tallied runtime job σ.created σ.inbox σ.failedRecords
  settled : (∀ w, (σ.phase w).isIdle) → (∃ w, σ.phase w = .ended) →
    CountsRows job σ.created σ.failedRecords job.rows.length
      ⟨σ.importJob.successCount, σ.importJob.failureCount⟩ ∧
        σ.importJob.totalRecords = some job.rows.length

theorem tallied_initial (administration : Administration) (names : Id → String) :
    (initial administration names).Tallied runtime job where
  attributed := attributed_initial administration names
  rowsNodup := List.nodup_nil
  idsNodup := List.nodup_nil
  alone := fun _ _ h => nomatch h
  hashed := fun _ hc => absurd hc List.not_mem_nil
  phase := fun _ => trivial
  settled := fun _ ⟨_, h⟩ => nomatch h

/-- What a request or a renaming leaves alone. -/
theorem Tallied.of_eq (h : σ.Tallied runtime job) (hattributed : τ.Attributed job)
    (hcreated : τ.created = σ.created) (hinbox : τ.inbox = σ.inbox)
    (hfailed : τ.failedRecords = σ.failedRecords) (hphase : τ.phase = σ.phase)
    (hjob : τ.importJob = σ.importJob) : τ.Tallied runtime job := by
  obtain ⟨-, hrows, hids, halone, hhashed, hphases, hsettled⟩ := h
  refine ⟨hattributed, ?_, ?_, ?_, ?_, ?_, ?_⟩
  all_goals simpa only [hcreated, hinbox, hfailed, hphase, hjob]

/-- The run at work goes on to another phase. -/
theorem Tallied.update (hothers : ∀ v, v ≠ w → (σ.phase v).isIdle)
    {p : ImportPhase} (hphase : τ.phase = Function.update σ.phase w p)
    (hattributed : τ.Attributed job) (hrows : (τ.created.map Prod.fst).Nodup)
    (hids : (τ.created.map Prod.snd).Nodup)
    (hhashed : ∀ c ∈ τ.created, ∃ record, job.recordOf runtime c.1 = some record ∧
      (record.sourceRecordHash ∈ τ.inbox ∨ Marking p c.1 record.sourceRecordHash))
    (hp : p.Tallied runtime job τ.created τ.inbox τ.failedRecords)
    (hsettled : p.isIdle → CountsRows job τ.created τ.failedRecords job.rows.length
      ⟨τ.importJob.successCount, τ.importJob.failureCount⟩ ∧
        τ.importJob.totalRecords = some job.rows.length) : τ.Tallied runtime job := by
  have hself : τ.phase w = p := by rw [hphase, Function.update_self]
  have hidle : ∀ v, v ≠ w → (τ.phase v).isIdle := by
    intro v hv
    rw [hphase, Function.update_of_ne hv]
    exact hothers v hv
  have hwork : ∀ v, (τ.phase v).isIdle = false → v = w := by
    intro v hv
    by_contra hne
    rw [hidle v hne] at hv
    cases hv
  refine ⟨hattributed, hrows, hids, fun u v hu hv => (hwork u hu).trans (hwork v hv).symm,
    fun c hc => ?_, fun v => ?_, fun hall _ => hsettled (hself ▸ hall w)⟩
  · obtain ⟨record, hrecord, hinbox | hmarking⟩ := hhashed c hc
    · exact ⟨record, hrecord, .inl hinbox⟩
    · exact ⟨record, hrecord, .inr ⟨w, hself ▸ hmarking⟩⟩
  · by_cases hv : v = w
    · rw [hv, hself]
      exact hp
    · have hv := hidle v hv
      rcases hphase : τ.phase v <;> rw [hphase] at hv <;> trivial

/-- The hashes of what was imported are in the inbox while no run marks a row. -/
theorem Tallied.hash_mem (h : σ.Tallied runtime job) (hothers : ∀ v, v ≠ w → (σ.phase v).isIdle)
    (hmarking : ∀ i hash, ¬ Marking (σ.phase w) i hash) :
    ∀ c ∈ σ.created, ∃ record, job.recordOf runtime c.1 = some record ∧
      record.sourceRecordHash ∈ σ.inbox := by
  intro c hc
  obtain ⟨record, hrecord, hinbox | ⟨v, hv⟩⟩ := h.hashed c hc
  · exact ⟨record, hrecord, hinbox⟩
  · by_cases hvw : v = w
    · exact absurd (hvw ▸ hv) (hmarking _ _)
    · obtain ⟨_, _, hphase⟩ := hv
      have hidle := hothers v hvw
      rw [hphase] at hidle
      cases hidle

/-- A step that neither creates an expense nor marks a row. -/
theorem Tallied.goto (h : σ.Tallied runtime job) (hothers : ∀ v, v ≠ w → (σ.phase v).isIdle)
    (hmarking : ∀ i hash, ¬ Marking (σ.phase w) i hash) {t : ImportTables} {p : ImportPhase}
    (hattributed : Attributed job ⟨t, Function.update σ.phase w p, σ.created⟩)
    (hinbox : t.inbox = σ.inbox)
    (hp : p.Tallied runtime job σ.created t.inbox t.failedRecords)
    (hsettled : p.isIdle → CountsRows job σ.created t.failedRecords job.rows.length
      ⟨t.importJob.successCount, t.importJob.failureCount⟩ ∧
        t.importJob.totalRecords = some job.rows.length) :
    Tallied runtime job ⟨t, Function.update σ.phase w p, σ.created⟩ := by
  refine update hothers rfl hattributed h.rowsNodup h.idsNodup (fun c hc => ?_) hp hsettled
  obtain ⟨record, hrecord, hmem⟩ := h.hash_mem hothers hmarking c hc
  exact ⟨record, hrecord, .inl (hinbox ▸ hmem)⟩

/-- How a call ends, and where the run goes on. -/
theorem call_cases {env : Env} {outcome : CallOutcome}
    (hn : next runtime job σ (.call w env outcome) = some τ) : σ.store.Fresh env.uuid ∧
      ((∃ t p, (σ.phase w).perform runtime job env σ.toImportTables = .ok (t, p) ∧
          outcome = .returns ∧ τ = (σ.commit w env t).goto w p) ∨
        (∃ e, ((σ.phase w).perform runtime job env σ.toImportTables = .error e ∨
            ∃ message, outcome = .fails message ∧ e = .unexpected message) ∧
          τ = σ.goto w ((σ.phase w).caught e)) ∨
        ∃ t p message, (σ.phase w).perform runtime job env σ.toImportTables = .ok (t, p) ∧
          outcome = .loses message ∧
            τ = (σ.commit w env t).goto w ((σ.phase w).caught (.unexpected message))) := by
  simp only [next] at hn
  split_ifs at hn with hfresh
  refine ⟨hfresh, ?_⟩
  rcases hperform : (σ.phase w).perform runtime job env σ.toImportTables with e | ⟨t, p⟩ <;>
    rw [hperform] at hn <;> cases outcome <;> cases hn
  · exact .inr (.inl ⟨_, .inl rfl, rfl⟩)
  · exact .inr (.inl ⟨_, .inr ⟨_, rfl, rfl⟩, rfl⟩)
  · exact .inr (.inl ⟨_, .inl rfl, rfl⟩)
  · exact .inl ⟨t, p, rfl, rfl, rfl⟩
  · exact .inr (.inl ⟨_, .inr ⟨_, rfl, rfl⟩, rfl⟩)
  · exact .inr (.inr ⟨t, p, _, rfl, rfl, rfl⟩)

end ImportSystem

/-- A call on the way to the expense. -/
def RowStep.isTrying : RowStep → Bool
  | marking _ | rejecting _ => false
  | _ => true

/-- What such a call leaves alone, and where it leads when the row is new. -/
theorem perform_trying {env : Env} {t t' : ImportTables} {i : ℕ} {row : CsvRow}
    {counts : ImportCounts} {step : RowStep} {p : ImportPhase} (htrying : step.isTrying)
    (hcreating : (ImportPhase.atRow i row counts step).isCreating = false)
    (hnew : ∀ record, step = .checking record → record.sourceRecordHash ∉ t.inbox)
    (h : step.perform runtime job env t i row counts = .ok (t', p)) :
    t'.inbox = t.inbox ∧ t'.failedRecords = t.failedRecords ∧
      ∃ step', p = .atRow i row counts step' ∧ step'.isAtWork ∧ step'.hash = step.hash := by
  cases ImportPhase.performed (p := .atRow i row counts step) h with
  | @known _ _ _ record hknown => exact absurd hknown (hnew record rfl)
  | asked hnew => exact ⟨rfl, rfl, _, rfl, rfl, rfl⟩
  | foundDepartment hfound => exact ⟨rfl, rfl, _, rfl, rfl, rfl⟩
  | foundCategory hfound =>
    refine ⟨rfl, rfl, _, rfl, ?_, ?_⟩ <;> rw [mapped] <;> split <;> rfl
  | @upsertedVendor _ _ _ record departmentId categoryId name =>
    have hframe : (upsertVendor job t env.uuid name).1.inbox = t.inbox ∧
        (upsertVendor job t env.uuid name).1.failedRecords = t.failedRecords := by
      unfold upsertVendor
      simp only
      split <;> exact ⟨rfl, rfl⟩
    exact ⟨hframe.1, hframe.2, _, rfl, rfl, rfl⟩
  | created h => cases hcreating
  | marked h => cases htrying
  | stored => cases htrying

/-- A run that works on a row it has not decided. -/
theorem tallied_atWork {inbox : Finset JsString} {row : CsvRow} {step : RowStep}
    {record : RawImportRecord} (hwork : step.isAtWork)
    (hcounted : CountsRows job created failed i counts) (hnot : ¬ IsCreated created i)
    (hrecord : job.recordOf runtime i = some record)
    (hhash : step.hash = some record.sourceRecordHash) (hnew : record.sourceRecordHash ∉ inbox) :
    (ImportPhase.atRow i row counts step).Tallied runtime job created inbox failed := by
  have hiff : IsCreated created i ↔ step.isAtWork = false := by simp [hnot, hwork]
  cases step with
  | checking record => cases hwork
  | marking hash => cases hwork
  | rejecting message => cases hwork
  | _ => exact ⟨hcounted, hiff, record, hrecord, hhash, hnew⟩

theorem isIdle_nextRow (i : ℕ) (counts : ImportCounts) :
    (nextRow runtime job i counts).isIdle = false := by
  obtain ⟨-, hnext⟩ | ⟨row, -, ⟨record, -, hnext⟩ | ⟨e, -, hnext⟩⟩ :=
    nextRow_cases runtime job i counts
  all_goals
    rw [hnext]
    rfl

/-- What is thrown at a row is caught once. -/
theorem caught_atRow {row : CsvRow} {step : RowStep} (htry : ∀ message, step ≠ .rejecting message)
    (e : ImportError) : (ImportPhase.atRow i row counts step).caught e = .atRow i row
      { counts with failureCount := counts.failureCount + 1 } (.rejecting e.recorded) := by
  cases step with
  | rejecting message => exact absurd rfl (htry message)
  | _ => rfl

namespace ImportSystem

variable {σ τ : ImportSystem} {l : ImportEvent} {w : ℕ} {env : Env} {outcome : CallOutcome}
  {row : CsvRow} {step : RowStep}

/-- A row that has an expense is one the file gives a record for. -/
theorem recordOf_ne_none_of_isCreated {created : List (ℕ × Id)} {P : RawImportRecord → Prop}
    (h : ∀ c ∈ created, ∃ record, job.recordOf runtime c.1 = some record ∧ P record)
    (hi : IsCreated created i) : job.recordOf runtime i ≠ none := by
  obtain ⟨c, hc, rfl⟩ := List.mem_map.mp hi
  obtain ⟨record, hrecord, -⟩ := h c hc
  rw [hrecord]
  exact Option.some_ne_none _

/-- A run at another step of its row marks none. -/
theorem not_marking (hphase : σ.phase w = .atRow i row counts step)
    (hstep : ∀ hash, step ≠ .marking hash) : ∀ i hash, ¬ Marking (σ.phase w) i hash := by
  rintro _ hash ⟨_, _, hmarking⟩
  cases hphase.symm.trans hmarking
  exact hstep hash rfl

/-- Where a run stands that tries a row. -/
theorem Tallied.trying (h : σ.Tallied runtime job) (hothers : ∀ v, v ≠ w → (σ.phase v).isIdle)
    (hphase : σ.phase w = .atRow i row counts step) (htrying : step.isTrying)
    (hnew : ∀ record, step = .checking record → record.sourceRecordHash ∉ σ.inbox) :
    CountsRows job σ.created σ.failedRecords i counts ∧ ¬ IsCreated σ.created i ∧
      ∃ record, job.recordOf runtime i = some record ∧
        step.hash = some record.sourceRecordHash ∧ record.sourceRecordHash ∉ σ.inbox := by
  have hp := h.phase w
  rw [hphase] at hp
  cases step with
  | checking record =>
    obtain ⟨hcounted, hrecord⟩ := hp
    refine ⟨hcounted, fun hcreated => ?_, record, hrecord, rfl, hnew record rfl⟩
    -- the inbox would know it
    obtain ⟨c, hc, rfl⟩ := List.mem_map.mp hcreated
    obtain ⟨record', hrecord', hmem⟩ :=
      h.hash_mem hothers (not_marking hphase fun _ => RowStep.noConfusion) c hc
    obtain rfl := Option.some.inj (hrecord.symm.trans hrecord')
    exact hnew record rfl hmem
  | marking hash => cases htrying
  | rejecting message => cases htrying
  | _ =>
    obtain ⟨hcounted, hiff, hrecord⟩ := hp
    refine ⟨hcounted, fun hcreated => ?_, hrecord⟩
    cases hiff.mp hcreated

/-- What is thrown for a row makes it a failure. -/
theorem Tallied.reject (h : σ.Tallied runtime job) (hothers : ∀ v, v ≠ w → (σ.phase v).isIdle)
    (hphase : σ.phase w = .atRow i row counts step) (htrying : step.isTrying)
    (hnew : ∀ record, step = .checking record → record.sourceRecordHash ∉ σ.inbox)
    {t : ImportTables} {e : ImportError} (hinbox : t.inbox = σ.inbox)
    (hfailed : t.failedRecords = σ.failedRecords)
    (hattributed : Attributed job
      ⟨t, Function.update σ.phase w ((σ.phase w).caught e), σ.created⟩) :
    Tallied runtime job ⟨t, Function.update σ.phase w ((σ.phase w).caught e), σ.created⟩ := by
  obtain ⟨hcounted, hnot, -⟩ := h.trying hothers hphase htrying hnew
  have hmarking : ∀ i hash, ¬ Marking (σ.phase w) i hash := by
    refine not_marking hphase ?_
    rintro hash rfl
    cases htrying
  have hcaught : (σ.phase w).caught e = .atRow i row
      { counts with failureCount := counts.failureCount + 1 } (.rejecting e.recorded) := by
    rw [hphase]
    refine caught_atRow ?_ e
    rintro message rfl
    cases htrying
  refine h.goto hothers hmarking hattributed hinbox ?_ fun hidle => ?_
  · rw [hcaught, hfailed]
    exact ⟨hnot, counts, hcounted, rfl⟩
  · rw [hcaught] at hidle
    cases hidle

/-- An expense is created for a new row. -/
theorem Tallied.create (h : σ.Tallied runtime job) (hothers : ∀ v, v ≠ w → (σ.phase v).isIdle)
    {hash : JsString} {cmd : CreateExpenseCommand}
    (hphase : σ.phase w = .atRow i row counts (.creating hash cmd))
    (hfresh : σ.store.Fresh env.uuid) {store : Store}
    (hattributed : Attributed job ⟨{ σ.toImportTables with store },
      Function.update σ.phase w (.atRow i row counts (.marking hash)),
        σ.created ++ [(i, env.uuid)]⟩) :
    Tallied runtime job ⟨{ σ.toImportTables with store },
      Function.update σ.phase w (.atRow i row counts (.marking hash)),
        σ.created ++ [(i, env.uuid)]⟩ := by
  obtain ⟨hcounted, hnot, record, hrecord, hhash, hnew⟩ :=
    h.trying hothers hphase rfl fun _ => RowStep.noConfusion
  obtain rfl : hash = record.sourceRecordHash := Option.some.inj hhash
  have hid : env.uuid ∉ σ.created.map Prod.snd := by
    intro hmem
    obtain ⟨⟨j, id⟩, hc, rfl⟩ := List.mem_map.mp hmem
    obtain ⟨-, row', hrow', -⟩ := h.attributed.created j _ hc
    cases (Finmap.lookup_eq_none.mpr hfresh.2.1).symm.trans hrow'
  refine update hothers rfl hattributed ?_ ?_ (fun c hc => ?_) ?_ fun hidle => ?_
  · rw [List.map_append, List.map_singleton, ← List.concat_eq_append]
    exact h.rowsNodup.concat hnot
  · rw [List.map_append, List.map_singleton, ← List.concat_eq_append]
    exact h.idsNodup.concat hid
  · rcases List.mem_append.mp hc with hc | hc
    · obtain ⟨record', hrecord', hmem⟩ :=
        h.hash_mem hothers (not_marking hphase fun _ => RowStep.noConfusion) c hc
      exact ⟨record', hrecord', .inl hmem⟩
    · obtain rfl := List.mem_singleton.mp hc
      exact ⟨record, hrecord, .inr ⟨row, counts, rfl⟩⟩
  · refine ⟨hcounted.create env.uuid, ?_, record, hrecord, rfl, hnew⟩
    simp [IsCreated, RowStep.isAtWork]
  · cases hidle

/-- The row of an expense is marked. -/
theorem Tallied.mark (h : σ.Tallied runtime job) (hothers : ∀ v, v ≠ w → (σ.phase v).isIdle)
    {hash : JsString} (hphase : σ.phase w = .atRow i row counts (.marking hash))
    (hattributed : Attributed job ⟨{ σ.toImportTables with inbox := insert hash σ.inbox },
      Function.update σ.phase w (nextRow runtime job (i + 1)
        { counts with successCount := counts.successCount + 1 }), σ.created⟩) :
    Tallied runtime job ⟨{ σ.toImportTables with inbox := insert hash σ.inbox },
      Function.update σ.phase w (nextRow runtime job (i + 1)
        { counts with successCount := counts.successCount + 1 }), σ.created⟩ := by
  have hp := h.phase w
  have hi := h.attributed.forJob w
  rw [hphase] at hp hi
  obtain ⟨hcounted, hiff, -⟩ := hp
  have hlt : i < job.rows.length := (List.getElem?_eq_some_iff.mp hi.1).1
  have hmem : ∀ c ∈ σ.created, ∃ record, job.recordOf runtime c.1 = some record ∧
      record.sourceRecordHash ∈ insert hash σ.inbox := by
    intro c hc
    obtain ⟨record, hrecord, hmem | ⟨v, hv⟩⟩ := h.hashed c hc
    · exact ⟨record, hrecord, Finset.mem_insert_of_mem hmem⟩
    · -- the only run that marks a row is this one
      obtain ⟨_, _, hv⟩ := hv
      obtain rfl : v = w := h.alone v w (by rw [hv]; rfl) (by rw [hphase]; rfl)
      cases hphase.symm.trans hv
      exact ⟨record, hrecord, Finset.mem_insert_self _ _⟩
  refine update hothers rfl hattributed h.rowsNodup h.idsNodup (fun c hc => ?_)
    (tallied_nextRow (hcounted.succeed (hiff.mpr rfl)) hlt fun hcreated => ?_) fun hidle => ?_
  · obtain ⟨record, hrecord, hmem⟩ := hmem c hc
    exact ⟨record, hrecord, .inl hmem⟩
  · exact recordOf_ne_none_of_isCreated hmem hcreated
  · rw [isIdle_nextRow] at hidle
    cases hidle

/-- A failure is recorded. -/
theorem Tallied.record (h : σ.Tallied runtime job) (hothers : ∀ v, v ≠ w → (σ.phase v).isIdle)
    {message : String} (hphase : σ.phase w = .atRow i row counts (.rejecting message))
    (hattributed : Attributed job
      ⟨{ σ.toImportTables with failedRecords := σ.failedRecords ++ [⟨i + 2, row, message⟩] },
        Function.update σ.phase w (nextRow runtime job (i + 1) counts), σ.created⟩) :
    Tallied runtime job
      ⟨{ σ.toImportTables with failedRecords := σ.failedRecords ++ [⟨i + 2, row, message⟩] },
        Function.update σ.phase w (nextRow runtime job (i + 1) counts), σ.created⟩ := by
  have hp := h.phase w
  have hi := h.attributed.forJob w
  rw [hphase] at hp hi
  obtain ⟨hnot, before, hcounted, rfl⟩ := hp
  have hlt : i < job.rows.length := (List.getElem?_eq_some_iff.mp hi.1).1
  have hmarking := not_marking hphase fun _ => RowStep.noConfusion
  refine h.goto hothers hmarking hattributed rfl
    (tallied_nextRow (hcounted.fail hnot rfl hi.1) hlt fun hcreated => ?_) fun hidle => ?_
  · exact recordOf_ne_none_of_isCreated (h.hash_mem hothers hmarking) hcreated
  · rw [isIdle_nextRow] at hidle
    cases hidle

/-- A call that has to return does what it is to do. -/
theorem of_returns {p p' : ImportPhase} {t : ImportTables}
    (hn : next runtime job σ (.call w env .returns) = some τ) (hphase : σ.phase w = p)
    (hcreating : p.isCreating = false)
    (hperform : p.perform runtime job env σ.toImportTables = .ok (t, p')) :
    τ = ⟨t, Function.update σ.phase w p', σ.created⟩ := by
  subst hphase
  obtain ⟨-, ⟨t₁, p₁, h, -, rfl⟩ | ⟨e, h | ⟨_, h, -⟩, -⟩ | ⟨_, _, _, -, h, -⟩⟩ := call_cases hn
  · obtain ⟨rfl, rfl⟩ := Prod.mk.inj (Except.ok.inj (h.symm.trans hperform))
    exact commit_of_not_creating hcreating
  · cases h.symm.trans hperform
  · cases h
  · cases h

/-- **A call for a row** keeps the tallies. -/
theorem Tallied.callAtRow (h : σ.Tallied runtime job)
    (hphase : σ.phase w = .atRow i row counts step)
    (hcompletes : σ.Completes (.call w env outcome)) (hkeeps : σ.KeepsTrack (.call w env outcome))
    (hn : next runtime job σ (.call w env outcome) = some τ) : τ.Tallied runtime job := by
  obtain ⟨hothers, hguarded⟩ := hcompletes
  have hattributed := h.attributed.next hn
  simp only [KeepsTrack, hphase] at hkeeps
  by_cases htrying : step.isTrying
  · have hnew : ∀ record, step = .checking record → record.sourceRecordHash ∉ σ.inbox := by
      rintro record rfl
      exact hkeeps
    obtain ⟨hfresh, hcases⟩ := call_cases hn
    obtain ⟨t, p, hperform, rfl, rfl⟩ | ⟨e, -, rfl⟩ | ⟨t, p, message, hperform, rfl, rfl⟩ := hcases
    · rw [hphase] at hperform
      by_cases hcreating : (σ.phase w).isCreating = false
      · rw [commit_of_not_creating hcreating] at hattributed ⊢
        rw [hphase] at hcreating
        obtain ⟨hinbox, hfailed, step', rfl, hwork, hhash⟩ :=
          perform_trying htrying hcreating hnew hperform
        obtain ⟨hcounted, hnot, record, hrecord, hhash', hunknown⟩ :=
          h.trying hothers hphase htrying hnew
        refine h.goto hothers (not_marking hphase ?_) hattributed hinbox ?_ fun hidle => ?_
        · rintro hash rfl
          cases htrying
        · rw [hinbox, hfailed]
          exact tallied_atWork hwork hcounted hnot hrecord (hhash.trans hhash') hunknown
        · cases hidle
      · -- the call that creates the expense
        rw [hphase] at hcreating
        cases step with
        | creating hash cmd =>
          simp only [ImportPhase.perform, RowStep.perform] at hperform
          split at hperform
          · cases hperform
            rw [commit_of_creating hphase] at hattributed ⊢
            exact h.create hothers hphase hfresh hattributed
          · cases hperform
        | _ => exact absurd rfl hcreating
    · exact h.reject hothers hphase htrying hnew rfl rfl hattributed
    · have hcreating : (σ.phase w).isCreating = false := by
        rw [hphase]
        cases step with
        | creating hash cmd => exact absurd rfl (hkeeps message)
        | _ => rfl
      rw [commit_of_not_creating hcreating] at hattributed ⊢
      rw [hphase] at hperform hcreating
      obtain ⟨hinbox, hfailed, -⟩ := perform_trying htrying hcreating hnew hperform
      exact h.reject hothers hphase htrying hnew hinbox hfailed hattributed
  · cases step with
    | marking hash =>
      obtain rfl : outcome = .returns := hkeeps
      have hp := h.phase w
      rw [hphase] at hp
      obtain ⟨-, -, record, -, hhash, hunknown⟩ := hp
      obtain rfl : hash = record.sourceRecordHash := Option.some.inj hhash
      obtain rfl := of_returns hn hphase rfl (if_neg hunknown)
      exact h.mark hothers hphase hattributed
    | rejecting message =>
      obtain rfl : outcome = .returns := by simpa [hphase, ImportPhase.isGuarded] using hguarded
      obtain rfl := of_returns hn hphase rfl rfl
      exact h.record hothers hphase hattributed
    | _ => exact absurd rfl htrying

/-- **Every step** keeps the tallies. -/
theorem Tallied.next {rows : List CsvRow} (hfile : job.file = .ok rows)
    (h : σ.Tallied runtime job) (hcompletes : σ.Completes l) (hkeeps : σ.KeepsTrack l)
    (hn : next runtime job σ l = some τ) : τ.Tallied runtime job := by
  have hattributed := h.attributed.next hn
  cases l with
  | crash v => cases hcompletes
  | rename names =>
    cases hn
    exact h.of_eq hattributed rfl rfl rfl rfl rfl
  | serve request =>
    simp only [ImportSystem.next] at hn
    split_ifs at hn
    obtain ⟨store, -, rfl⟩ := Option.map_eq_some_iff.mp hn
    exact h.of_eq hattributed rfl rfl rfl rfl rfl
  | call v env outcome =>
    obtain ⟨hothers, hguarded⟩ := hcompletes
    rcases hphase : σ.phase v with _ | _ | _ | reason | ⟨i, row, counts, step⟩ | counts | _
    case atRow => exact h.callAtRow hphase ⟨hothers, hguarded⟩ hkeeps hn
    case aborting =>
      have hp := h.phase v
      rw [hphase] at hp
      exact hp.elim
    all_goals
      have hmarking : ∀ i hash, ¬ Marking (σ.phase v) i hash := by
        rintro _ _ ⟨_, _, hmarking⟩
        cases hphase.symm.trans hmarking
      obtain rfl : outcome = .returns := by simpa [hphase, ImportPhase.isGuarded] using hguarded
    case queued =>
      obtain rfl := of_returns hn hphase rfl rfl
      refine h.goto hothers hmarking hattributed rfl trivial fun hidle => ?_
      cases hidle
    case starting =>
      obtain rfl := of_returns hn hphase rfl rfl
      refine h.goto hothers hmarking hattributed rfl trivial fun hidle => ?_
      cases hidle
    case loading =>
      obtain rfl := of_returns hn hphase rfl (by rw [ImportPhase.perform, hfile])
      refine h.goto hothers hmarking hattributed rfl
        (tallied_nextRow countsRows_zero (Nat.zero_le _) fun hcreated => ?_) fun hidle => ?_
      · exact recordOf_ne_none_of_isCreated (h.hash_mem hothers hmarking) hcreated
      · rw [isIdle_nextRow] at hidle
        cases hidle
    case completing =>
      have hp := h.phase v
      rw [hphase] at hp
      obtain rfl := of_returns hn hphase rfl rfl
      exact h.goto hothers hmarking hattributed rfl trivial fun _ => ⟨hp, rfl⟩
    case ended =>
      obtain rfl := of_returns hn hphase rfl rfl
      refine h.goto hothers hmarking hattributed rfl trivial fun _ =>
        h.settled (fun u => ?_) ⟨v, hphase⟩
      by_cases hu : u = v
      · rw [hu, hphase]
        rfl
      · exact hothers u hu

/-! ## The result -/

/-- The expenses of the job are those that were created. -/
theorem Tallied.mem_importedExpenses_iff (h : σ.Tallied runtime job) {id : Id} :
    id ∈ σ.importedExpenses job ↔ ∃ i, (i, id) ∈ σ.created := by
  have hmem : id ∈ σ.importedExpenses job ↔
      ∃ row, σ.store.expenses.lookup id = some row ∧ ImportedBy job row := by
    rw [importedExpenses, Finset.mem_filter, Table.mem_keys_iff]
    refine ⟨?_, ?_⟩
    · rintro ⟨⟨row, hrow⟩, hany⟩
      rw [hrow] at hany
      have himported := of_decide_eq_true hany
      exact ⟨row, hrow, himported⟩
    · rintro ⟨row, hrow, himported⟩
      refine ⟨⟨row, hrow⟩, ?_⟩
      rw [hrow]
      refine decide_eq_true ?_
      exact himported
  rw [hmem]
  refine ⟨?_, ?_⟩
  · rintro ⟨row, hrow, himported⟩
    obtain ⟨i, -, hi⟩ := h.attributed.imported id row hrow himported
    exact ⟨i, hi⟩
  · rintro ⟨i, hi⟩
    exact (h.attributed.created i id hi).2

/-- There are as many as rows they were created for. -/
theorem Tallied.card_importedExpenses (h : σ.Tallied runtime job) :
    (σ.importedExpenses job).card =
      ((List.range job.rows.length).filter fun i => IsCreated σ.created i).length := by
  have hids : σ.importedExpenses job = (σ.created.map Prod.snd).toFinset := by
    ext id
    rw [h.mem_importedExpenses_iff, List.mem_toFinset, List.mem_map]
    simp
  have hrows : ((List.range job.rows.length).filter fun i => IsCreated σ.created i).Perm
      (σ.created.map Prod.fst) := by
    refine (List.perm_ext_iff_of_nodup (List.nodup_range.filter _) h.rowsNodup).mpr fun i => ?_
    rw [List.mem_filter, List.mem_range, decide_eq_true_eq]
    refine ⟨fun hi => hi.2, fun hi => ⟨?_, hi⟩⟩
    obtain ⟨⟨_, id⟩, hc, rfl⟩ := List.mem_map.mp hi
    exact (h.attributed.created _ id hc).1
  rw [hids, List.toFinset_card_of_nodup h.idsNodup, hrows.length_eq, List.length_map,
    List.length_map]

/-- **The counts of the last run are those of the file**, however often the job was run and
whatever was changed in between and meanwhile, if no run was told that it knows a row. -/
theorem accounted_for {rows : List CsvRow} (hfile : job.file = .ok rows)
    {administration : Administration} {names : Id → String} {events : List ImportEvent}
    (hr : Reaches (next runtime job) (fun σ l => σ.Completes l ∧ σ.KeepsTrack l)
      (initial administration names) events σ)
    (hidle : ∀ w, (σ.phase w).isIdle) (hended : ∃ w, σ.phase w = .ended) : σ.Accounted job := by
  have h : σ.Tallied runtime job := hr.invariant (P := Tallied runtime job)
    (tallied_initial administration names) fun _ _ _ h hok hn => h.next hfile hok.1 hok.2 hn
  obtain ⟨hcounted, htotal⟩ := h.settled hidle hended
  refine ⟨fun i hi => ?_, fun i j id hi hj => ?_, ?_, hcounted.failure, htotal, hcounted.sum⟩
  · by_cases hcreated : IsCreated σ.created i
    · obtain ⟨⟨_, id⟩, hc, rfl⟩ := List.mem_map.mp hcreated
      exact .inl ⟨id, h.mem_importedExpenses_iff.mpr ⟨_, hc⟩, hc⟩
    · exact .inr (hcounted.recorded i hi hcreated)
  · exact congrArg Prod.fst (List.inj_on_of_nodup_map h.idsNodup hi hj rfl)
  · rw [h.card_importedExpenses]
    exact hcounted.success

/-! ## Runs in turn -/

/-- The first `n` runs are over or have not begun, and one of them is over. -/
def isSettled (n : ℕ) (σ : ImportSystem) : Bool :=
  (List.range n).all (fun v => (σ.phase v).isIdle) &&
    (List.range n).any fun v => match σ.phase v with
      | .ended => true
      | _ => false

theorem idle_of_isSettled {n : ℕ} (hqueued : ∀ v, n ≤ v → σ.phase v = .queued)
    (h : σ.isSettled n) : (∀ v, (σ.phase v).isIdle) ∧ ∃ v, σ.phase v = .ended := by
  simp only [isSettled, Bool.and_eq_true, List.all_eq_true, List.any_eq_true, List.mem_range] at h
  obtain ⟨hidle, v, -, hv⟩ := h
  refine ⟨fun v => ?_, v, ?_⟩
  · by_cases hlt : v < n
    · exact hidle v hlt
    · rw [hqueued v (Nat.le_of_not_lt hlt)]
      rfl
  · split at hv
    · assumption
    · cases hv

/-- Only the first `n` runs make calls, one run after the other, and the calls return; if they
are `tracking`, no row they ask about is known. -/
def isInTurn (n : ℕ) (tracking : Bool) (σ : ImportSystem) : ImportEvent → Bool
  | .call w _ .returns =>
    decide (w < n) && (List.range n).all (fun v => v == w || (σ.phase v).isIdle) &&
      match σ.phase w with
      | .atRow _ _ _ (.checking record) => !tracking || decide (record.sourceRecordHash ∉ σ.inbox)
      | _ => true
  | .serve _ => true
  | .rename _ => true
  | _ => false

/-- A schedule of runs in turn is one of complete runs. -/
theorem reaches_inTurn {n : ℕ} {tracking : Bool} {administration : Administration}
    {names : Id → String} {events : List ImportEvent}
    (h : runLabels (fun σ l => if isInTurn n tracking σ l then next runtime job σ l else none)
      (initial administration names) events = some σ) :
    Reaches (next runtime job) (fun σ l => σ.Completes l ∧ (tracking → σ.KeepsTrack l))
        (initial administration names) events σ ∧ ∀ v, n ≤ v → σ.phase v = .queued := by
  have hothers : ∀ σ l τ, (∀ v, n ≤ v → σ.phase v = .queued) → isInTurn n tracking σ l →
      next runtime job σ l = some τ → ∀ v, n ≤ v → τ.phase v = .queued := by
    intro σ l τ hqueued hturn hn v hv
    rw [phase_of_not_about hn, hqueued v hv]
    intro habout
    cases l with
    | call w env outcome =>
      obtain rfl : w = v := habout
      cases outcome <;> simp [isInTurn, Nat.not_lt.mpr hv] at hturn
    | crash w => cases hturn
    | serve request => exact habout
    | rename names => exact habout
  have hr : Reaches (next runtime job)
      (fun σ l => (∀ v, n ≤ v → σ.phase v = .queued) ∧ isInTurn n tracking σ l)
      (initial administration names) events σ :=
    reaches_of_checked_inv (I := fun σ => ∀ v, n ≤ v → σ.phase v = .queued) (fun _ _ => rfl) hothers
      (fun _ _ hqueued hturn => ⟨hqueued, hturn⟩) h
  refine ⟨hr.mono fun σ l => ?_, hr.invariant (P := fun σ => ∀ v, n ≤ v → σ.phase v = .queued)
    (fun _ _ => rfl) fun _ _ _ _ hok hn => hothers _ _ _ hok.1 hok.2 hn⟩
  rintro ⟨hqueued, hturn⟩
  cases l with
  | call w env outcome =>
    cases outcome with
    | returns =>
      simp only [isInTurn, Bool.and_eq_true, decide_eq_true_eq, List.all_eq_true, List.mem_range,
        Bool.or_eq_true, beq_iff_eq] at hturn
      obtain ⟨⟨-, hidle⟩, hasks⟩ := hturn
      refine ⟨⟨fun v hv => ?_, .inr rfl⟩, fun htracking => ?_⟩
      · by_cases hlt : v < n
        · exact (hidle v hlt).resolve_left hv
        · rw [hqueued v (Nat.le_of_not_lt hlt)]
          rfl
      · simp only [KeepsTrack]
        split
        · next hphase =>
          simp only [hphase, htracking, Bool.not_true, Bool.false_or, decide_eq_true_eq] at hasks
          exact hasks
        · exact nofun
        · trivial
        · trivial
    | fails message => cases hturn
    | loses message => cases hturn
  | crash w => cases hturn
  | serve request => exact ⟨trivial, fun _ => trivial⟩
  | rename names => exact ⟨trivial, fun _ => trivial⟩

end ImportSystem

namespace Sample

/-- A row of another department. -/
def otherRow : CsvRow where
  fields := [("department", "Labs"), ("category", "Travel"), ("amountMinorUnits", "50000"),
    ("currency", "NGN"), ("expenseDate", "1970-01-15")]
  distinct := by decide

/-- A file of two rows. -/
def mixedJob : ImportJob := ⟨500, 1, 15, .ok [importedRow, otherRow]⟩

/-- The surroundings, as far as the two rows need them. -/
def mixedRuntime : ImportRuntime :=
  { importRuntime with
    sha256 := fun text =>
      if 'L' ∈ text then js "70349555adc8038777b421d800b64abb3a735d68594c98b59cc08b4addf1c939"
      else importRuntime.sha256 text }

/-- At first no department has the name of either row, and both fail. Then the department of the
first row gets its name, and the job is run again. -/
def importedLater : List ImportEvent :=
  .serve openJanuary :: (List.replicate 10 (call 0 101) ++ .rename names ::
    (untilCreated 1 101 ++ List.replicate 5 (call 1 102)))

/-- A file with the same data row twice. -/
def twinJob : ImportJob := ⟨500, 1, 15, .ok [importedRow, importedRow]⟩

/-- A run from its delivery to its end. -/
def importedOnce (calls : ℕ) : List ImportEvent :=
  .serve openJanuary :: (untilCreated 0 101 ++ List.replicate calls (call 0 102))

end Sample

namespace ImportSystem

/-- Two rows that have failed in a first run: of the second one, one has an expense, and the other
one a failure more. -/
theorem accounted_for_sample : ∃ σ,
    Reaches (next Sample.mixedRuntime Sample.mixedJob) (fun σ l => σ.Completes l ∧ σ.KeepsTrack l)
        (initial Sample.administration fun _ => "Sales") Sample.importedLater σ ∧
      σ.importJob.successCount = 1 ∧ σ.importJob.failureCount = 1 ∧
      σ.failedRecords.map FailedImportRecord.rowNumber = [2, 3, 3] ∧
      σ.Accounted Sample.mixedJob := by
  have hrun : (runLabels (fun σ l => if isInTurn 2 true σ l then
      next Sample.mixedRuntime Sample.mixedJob σ l else none)
      (initial Sample.administration fun _ => "Sales") Sample.importedLater).map
        (fun σ => (σ.isSettled 2, σ.importJob.successCount, σ.importJob.failureCount,
          σ.failedRecords.map FailedImportRecord.rowNumber)) = some (true, 1, 1, [2, 3, 3]) := by
    decide +kernel
  obtain ⟨σ, hσ, hfacts⟩ := Option.map_eq_some_iff.mp hrun
  simp only [Prod.mk.injEq] at hfacts
  obtain ⟨hsettled, hsuccess, hfailure, hfailed⟩ := hfacts
  obtain ⟨hr, hqueued⟩ := reaches_inTurn hσ
  have hr : Reaches (next Sample.mixedRuntime Sample.mixedJob)
      (fun σ l => σ.Completes l ∧ σ.KeepsTrack l)
      (initial Sample.administration fun _ => "Sales") Sample.importedLater σ :=
    hr.mono fun _ _ hok => ⟨hok.1, hok.2 rfl⟩
  obtain ⟨hidle, hended⟩ := idle_of_isSettled hqueued hsettled
  exact ⟨σ, hr, hsuccess, hfailure, hfailed, accounted_for rfl hr hidle hended⟩

/-- **A row that nothing tells of**: the second of two equal rows has neither an expense nor a
failure, and the counts add up to one row of two. -/
theorem row_unaccounted : ¬ ∀ (runtime : ImportRuntime) (job : ImportJob) (rows : List CsvRow)
    (administration : Administration) (names : Id → String) (events : List ImportEvent)
    (σ : ImportSystem), job.file = .ok rows →
      Reaches (next runtime job) Completes (initial administration names) events σ →
        (∀ w, (σ.phase w).isIdle) → (∃ w, σ.phase w = .ended) → σ.Accounted job := by
  intro hall
  have hrun : (runLabels (fun σ l => if isInTurn 1 false σ l then
      next Sample.importRuntime Sample.twinJob σ l else none)
      (initial Sample.administration Sample.names) (Sample.importedOnce 3)).map
        (fun σ => (σ.isSettled 1, σ.importJob.successCount, σ.importJob.failureCount)) =
          some (true, 1, 0) := by
    decide +kernel
  obtain ⟨σ, hσ, hfacts⟩ := Option.map_eq_some_iff.mp hrun
  obtain ⟨hsettled, hcounts⟩ := Prod.mk.inj hfacts
  obtain ⟨hsuccess, hfailure⟩ := Prod.mk.inj hcounts
  obtain ⟨hr, hqueued⟩ := reaches_inTurn hσ
  obtain ⟨hidle, hended⟩ := idle_of_isSettled hqueued hsettled
  have hsum := (hall _ _ [Sample.importedRow, Sample.importedRow] _ _ _ σ rfl
    (hr.mono fun _ _ hok => hok.1) hidle hended).sum
  rw [hsuccess, hfailure] at hsum
  cases hsum

end ImportSystem

end RatelPlatform
