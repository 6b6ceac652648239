import RatelPlatform.ImportTallies

/-!
# What a failed row leaves

The calls of an import for one row are not one transaction: the mapper upserts the vendor the
row names, the expense is created by a transaction of its own, and the inbox is written after
it. A row that fails on the way stays without expense, but what the mapper has written stays
too: the vendor it names was created, or made active again.

That is as far as it goes for a row that fails before its expense is there
(`failed_row_leaves`): departments, categories, expenses, the number sequence, the outbox and
the inbox are those there were.
-/

namespace RatelPlatform

variable {runtime : ImportRuntime} {job : ImportJob}

/-! ## The vendor -/

/-- The vendor of a name is there and active, whatever was there before. -/
inductive VendorWritten (job : ImportJob) (name : String) (t : ImportTables) : ImportTables → Prop
  /-- a vendor of the organization, active from now on -/
  | activated (vendor : ReferenceRow) (hmem : vendor ∈ t.store.administration.vendors)
      (horganization : vendor.organizationId = job.organizationId)
      (hname : t.names vendor.id = name) :
      VendorWritten job name t (t.withVendors (t.store.administration.vendors.map fun r =>
        if r.id = vendor.id then { r with isActive := true } else r))
  /-- a new vendor -/
  | added (uuid : Id) (hnone : ∀ r ∈ t.store.administration.vendors,
        ¬ (r.organizationId = job.organizationId ∧ t.names r.id = name)) :
      VendorWritten job name t
        { t.withVendors (t.store.administration.vendors ++ [⟨uuid, job.organizationId, true⟩]) with
          names := Function.update t.names uuid name }

theorem vendorWritten_upsertVendor (t : ImportTables) (uuid : Id) (name : String) :
    VendorWritten job name t (upsertVendor job t uuid name).1 := by
  simp only [upsertVendor]
  split
  · next vendor hvendor =>
    obtain ⟨horganization, hname⟩ : vendor.organizationId = job.organizationId ∧
        t.names vendor.id = name := by
      simpa using List.find?_some hvendor
    exact .activated vendor (List.mem_of_find?_eq_some hvendor) horganization hname
  · next hnone =>
    refine .added uuid fun r hr => ?_
    simpa using List.find?_eq_none.mp hnone r hr

/-- The tables as they were, but for the vendor the row names. -/
def LeavesVendor (runtime : ImportRuntime) (job : ImportJob) (i : ℕ) (row : CsvRow)
    (t t' : ImportTables) : Prop :=
  t' = t ∨ ∃ record name, CsvNormalizer.normalize runtime.toRuntime row (i + 2) = .ok record ∧
    record.vendorName = some name ∧ VendorWritten job name t t'

/-! ## A row on its way -/

/-- What a run that is about to make a call for a row has written for it so far. -/
inductive Written (runtime : ImportRuntime) (job : ImportJob) (i : ℕ) (row : CsvRow)
    (t : ImportTables) (created : List (ℕ × Id)) :
    RowStep → ImportTables → List (ℕ × Id) → Prop
  /-- nothing while the row is looked up -/
  | checking {record : RawImportRecord}
      (h : CsvNormalizer.normalize runtime.toRuntime row (i + 2) = .ok record) :
      Written runtime job i row t created (.checking record) t created
  | findingDepartment {record : RawImportRecord}
      (h : CsvNormalizer.normalize runtime.toRuntime row (i + 2) = .ok record) :
      Written runtime job i row t created (.findingDepartment record) t created
  | findingCategory {record : RawImportRecord} {departmentId : Id}
      (h : CsvNormalizer.normalize runtime.toRuntime row (i + 2) = .ok record) :
      Written runtime job i row t created (.findingCategory record departmentId) t created
  | upsertingVendor {record : RawImportRecord} {departmentId categoryId : Id} {name : String}
      (h : CsvNormalizer.normalize runtime.toRuntime row (i + 2) = .ok record)
      (hname : record.vendorName = some name) :
      Written runtime job i row t created (.upsertingVendor record departmentId categoryId name) t
        created
  /-- the vendor at most until the expense is there -/
  | creating {hash : JsString} {cmd : CreateExpenseCommand} {t' : ImportTables}
      (h : LeavesVendor runtime job i row t t') :
      Written runtime job i row t created (.creating hash cmd) t' created
  /-- the expense -/
  | marking {hash : JsString} {t' : ImportTables} {created' : List (ℕ × Id)}
      (h : created.length < created'.length) :
      Written runtime job i row t created (.marking hash) t' created'
  | rejecting {message : String} {t' : ImportTables} {created' : List (ℕ × Id)}
      (h : created' = created → LeavesVendor runtime job i row t t') :
      Written runtime job i row t created (.rejecting message) t' created'

theorem Written.mapped {i : ℕ} {row : CsvRow} {t : ImportTables} {created : List (ℕ × Id)}
    {record : RawImportRecord} (departmentId categoryId : Id)
    (h : CsvNormalizer.normalize runtime.toRuntime row (i + 2) = .ok record) :
    Written runtime job i row t created (mapped job record departmentId categoryId) t created := by
  simp only [RatelPlatform.mapped]
  rcases hname : record.vendorName with _ | name
  · exact .creating (.inl rfl)
  · exact .upsertingVendor h hname

/-- Whatever is thrown, a row that has no expense has left its vendor at most. -/
theorem Written.leavesVendor {i : ℕ} {row : CsvRow} {t t' : ImportTables}
    {created created' : List (ℕ × Id)} {step : RowStep}
    (h : Written runtime job i row t created step t' created') (hnone : created' = created) :
    LeavesVendor runtime job i row t t' := by
  cases h with
  | creating h => exact h
  | marking h =>
    rw [hnone] at h
    exact absurd h (Nat.lt_irrefl _)
  | rejecting h => exact h hnone
  | _ => exact .inl rfl

section

variable {i : ℕ} {row : CsvRow} {t₀ t t' : ImportTables} {created₀ created : List (ℕ × Id)}
  {step : RowStep} {env : Env} {counts : ImportCounts} {p : ImportPhase}

/-- The expenses that are noted as created once a call has taken effect. -/
def RowStep.noted (i : ℕ) (uuid : Id) (created : List (ℕ × Id)) : RowStep → List (ℕ × Id)
  | creating _ _ => created ++ [(i, uuid)]
  | _ => created

/-- What a call for a row has written when it takes effect. -/
theorem Written.perform (h : Written runtime job i row t₀ created₀ step t created)
    (htry : ∀ message, step ≠ .rejecting message)
    (hperform : step.perform runtime job env t i row counts = .ok (t', p)) :
    (∀ message, Written runtime job i row t₀ created₀ (.rejecting message) t'
        (step.noted i env.uuid created)) ∧
      ((∃ step', p = .atRow i row counts step' ∧
          Written runtime job i row t₀ created₀ step' t' (step.noted i env.uuid created)) ∨
        ∃ counts', p = nextRow runtime job (i + 1) counts') := by
  cases ImportPhase.performed (p := .atRow i row counts step) hperform with
  | known hknown =>
    cases h
    exact ⟨fun _ => .rejecting fun _ => .inl rfl, .inr ⟨_, rfl⟩⟩
  | asked hnew =>
    cases h with
    | checking h =>
      exact ⟨fun _ => .rejecting fun _ => .inl rfl, .inl ⟨_, rfl, .findingDepartment h⟩⟩
  | foundDepartment hfound =>
    cases h with
    | findingDepartment h =>
      exact ⟨fun _ => .rejecting fun _ => .inl rfl, .inl ⟨_, rfl, .findingCategory h⟩⟩
  | foundCategory hfound =>
    cases h with
    | findingCategory h =>
      exact ⟨fun _ => .rejecting fun _ => .inl rfl, .inl ⟨_, rfl, .mapped _ _ h⟩⟩
  | @upsertedVendor _ _ _ record departmentId categoryId name =>
    cases h with
    | upsertingVendor h hname =>
      have hvendor : LeavesVendor runtime job i row t₀ (upsertVendor job t₀ env.uuid name).1 :=
        .inr ⟨record, name, h, hname, vendorWritten_upsertVendor t₀ env.uuid name⟩
      exact ⟨fun _ => .rejecting fun _ => hvendor, .inl ⟨_, rfl, .creating hvendor⟩⟩
  | created hsolo =>
    cases h with
    | creating h =>
      have hmore : created₀.length < (created₀ ++ [(i, env.uuid)]).length := by simp
      refine ⟨fun _ => .rejecting fun hnone => ?_, .inl ⟨_, rfl, .marking hmore⟩⟩
      exact absurd (congrArg List.length hnone) (Nat.ne_of_gt hmore)
  | marked hnew =>
    cases h with
    | marking h =>
      refine ⟨fun _ => .rejecting fun hnone => ?_, .inr ⟨_, rfl⟩⟩
      exact absurd (congrArg List.length hnone) (Nat.ne_of_gt h)
  | stored => exact absurd rfl (htry _)

end

/-- The row a run is at. -/
def ImportPhase.rowIndex : ImportPhase → Option ℕ
  | atRow i _ _ _ => some i
  | _ => none

/-- The row a run is in the catch of. -/
def ImportPhase.failedRow : ImportPhase → Option ℕ
  | atRow i _ _ (.rejecting _) => some i
  | _ => none

theorem exists_of_rowIndex {i : ℕ} {p : ImportPhase} (h : p.rowIndex = some i) :
    ∃ row counts step, p = .atRow i row counts step := by
  rcases p with _ | _ | _ | _ | ⟨j, row, counts, step⟩ | _ | _
  case atRow =>
    obtain rfl := Option.some.inj h
    exact ⟨row, counts, step, rfl⟩
  all_goals cases h

theorem exists_of_failedRow {i : ℕ} {p : ImportPhase} (h : p.failedRow = some i) :
    ∃ row counts message, p = .atRow i row counts (.rejecting message) := by
  rcases p with _ | _ | _ | _ | ⟨j, row, counts, step⟩ | _ | _
  case atRow =>
    cases step with
    | rejecting message =>
      obtain rfl := Option.some.inj h
      exact ⟨row, counts, message, rfl⟩
    | _ => cases h
  all_goals cases h

namespace ImportSystem

variable {σ τ υ : ImportSystem} {w i : ℕ} {row : CsvRow} {counts : ImportCounts} {step : RowStep}
  {env : Env} {outcome : CallOutcome}

/-- A call for the row, by the run that is at it. -/
def AtRow (w i : ℕ) (σ : ImportSystem) : ImportEvent → Prop
  | .call v _ _ => v = w ∧ (σ.phase w).rowIndex = some i
  | _ => False

instance (w i : ℕ) (σ : ImportSystem) : DecidablePred (AtRow w i σ)
  | .call v _ _ => inferInstanceAs (Decidable (v = w ∧ (σ.phase w).rowIndex = some i))
  | .crash _ | .serve _ | .rename _ => inferInstanceAs (Decidable False)

/-- The run has written this for its row since `σ`, unless it has left the row. -/
def WrittenSince (runtime : ImportRuntime) (job : ImportJob) (w i : ℕ) (σ τ : ImportSystem) :
    Prop :=
  ∀ row counts step, τ.phase w = .atRow i row counts step → job.rows[i]? = some row ∧
    Written runtime job i row σ.toImportTables σ.created step τ.toImportTables τ.created

/-- A run that goes on with the next row has left this one. -/
theorem ne_nextRow {counts counts' : ImportCounts} :
    nextRow runtime job (i + 1) counts ≠ .atRow i row counts' step := by
  intro h
  obtain ⟨-, hnext⟩ | ⟨row, -, ⟨record, -, hnext⟩ | ⟨e, -, hnext⟩⟩ :=
    nextRow_cases runtime job (i + 1) counts
  all_goals cases h.symm.trans hnext

/-- The first call of a row. -/
theorem writtenSince_start (hstart : σ.phase w = nextRow runtime job i counts) :
    WrittenSince runtime job w i σ σ := by
  intro row counts' step hphase
  obtain ⟨-, hnext⟩ | ⟨row', hrow, ⟨record, hrecord, hnext⟩ | ⟨e, -, hnext⟩⟩ :=
    nextRow_cases runtime job i counts
  all_goals cases hphase.symm.trans (hstart.trans hnext)
  · exact ⟨hrow, .checking hrecord⟩
  · exact ⟨hrow, .rejecting fun _ => .inl rfl⟩

/-- What is noted of a call for a row. -/
theorem commit_eq {t : ImportTables} {p : ImportPhase}
    (hphase : τ.phase w = .atRow i row counts step) :
    (τ.commit w env t).goto w p =
      ⟨t, Function.update τ.phase w p, step.noted i env.uuid τ.created⟩ := by
  cases step with
  | creating hash cmd => exact commit_of_creating hphase
  | _ => exact commit_of_not_creating (by rw [hphase]; rfl)

/-- **Every call for the row** adds what it writes. -/
theorem WrittenSince.call (h : WrittenSince runtime job w i σ τ)
    (hphase : τ.phase w = .atRow i row counts step)
    (hn : next runtime job τ (.call w env outcome) = some υ) :
    WrittenSince runtime job w i σ υ := by
  obtain ⟨hrow, hwritten⟩ := h row counts step hphase
  obtain ⟨-, hcases⟩ := call_cases hn
  by_cases htry : ∀ message, step ≠ .rejecting message
  · -- what is thrown leads into the catch
    have hcaught : ∀ e, (τ.phase w).caught e = .atRow i row
        { counts with failureCount := counts.failureCount + 1 } (.rejecting e.recorded) := by
      intro e
      rw [hphase]
      exact caught_atRow htry e
    obtain ⟨t, p, hperform, -, rfl⟩ | ⟨e, -, rfl⟩ | ⟨t, p, message, hperform, -, rfl⟩ := hcases
    · rw [hphase] at hperform
      rw [commit_eq hphase]
      intro row' counts' step' hnext
      simp only [Function.update_self] at hnext
      rcases (hwritten.perform htry hperform).2 with ⟨step'', rfl, hstep⟩ | ⟨counts'', rfl⟩
      · cases hnext
        exact ⟨hrow, hstep⟩
      · exact absurd hnext ne_nextRow
    · intro row' counts' step' hnext
      rw [hcaught, goto_phase, if_pos rfl] at hnext
      cases hnext
      exact ⟨hrow, .rejecting hwritten.leavesVendor⟩
    · rw [hphase] at hperform
      rw [hcaught, commit_eq hphase]
      intro row' counts' step' hnext
      simp only [Function.update_self] at hnext
      cases hnext
      exact ⟨hrow, (hwritten.perform htry hperform).1 _⟩
  · -- the call in the catch is the last one
    push Not at htry
    obtain ⟨message, rfl⟩ := htry
    intro row' counts' step' hnext
    obtain ⟨t, p, hperform, -, rfl⟩ | ⟨e, -, rfl⟩ | ⟨t, p, message, hperform, -, rfl⟩ := hcases
    all_goals rw [goto_phase, if_pos rfl] at hnext
    · rw [hphase] at hperform
      cases hperform
      exact absurd hnext ne_nextRow
    · rw [hphase] at hnext
      cases hnext
    · rw [hphase] at hnext
      cases hnext

/-- **A failed row leaves its vendor at most**, if it failed before its expense was there:
whatever its calls find, and however they end. -/
theorem failed_row_leaves {calls : List ImportEvent} (hrow : job.rows[i]? = some row)
    (hstart : σ.phase w = nextRow runtime job i counts)
    (hr : Reaches (next runtime job) (AtRow w i) σ calls τ)
    (hcatch : (τ.phase w).failedRow = some i)
    (hrecord : next runtime job τ (.call w env outcome) = some υ)
    (hnone : υ.created = σ.created) :
    ∃ t, LeavesVendor runtime job i row σ.toImportTables t ∧
      υ.toImportTables = { t with failedRecords := υ.failedRecords } := by
  have hwritten : WrittenSince runtime job w i σ τ := by
    refine hr.invariant (writtenSince_start hstart) fun τ l υ h hat hn => ?_
    cases l with
    | call v env outcome =>
      obtain ⟨rfl, hindex⟩ := hat
      obtain ⟨row, counts, step, hphase⟩ := exists_of_rowIndex hindex
      exact h.call hphase hn
    | _ => exact hat.elim
  obtain ⟨row', counts', message, hphase⟩ := exists_of_failedRow hcatch
  obtain ⟨hrow', hcatching⟩ := hwritten _ _ _ hphase
  obtain rfl := Option.some.inj (hrow'.symm.trans hrow)
  -- the last call writes the failed record or nothing
  have hlast : υ.created = τ.created ∧
      υ.toImportTables = { τ.toImportTables with failedRecords := υ.failedRecords } := by
    obtain ⟨-, ⟨t, p, hperform, -, rfl⟩ | ⟨e, -, rfl⟩ | ⟨t, p, message, hperform, -, rfl⟩⟩ :=
      call_cases hrecord
    · rw [hphase] at hperform
      cases hperform
      rw [commit_eq hphase]
      exact ⟨rfl, rfl⟩
    · exact ⟨rfl, rfl⟩
    · rw [hphase] at hperform
      cases hperform
      rw [commit_eq hphase]
      exact ⟨rfl, rfl⟩
  exact ⟨τ.toImportTables, hcatching.leavesVendor (hlast.1.symm.trans hnone), hlast.2⟩

end ImportSystem

/-! ## A row that leaves its vendor -/

namespace Sample

/-- The row of the file, with a vendor nobody knows yet. -/
def vendorRow : CsvRow where
  fields := [("department", "Ops"), ("category", "Travel"), ("vendor", "Acme"),
    ("amountMinorUnits", "50000"), ("currency", "NGN"), ("expenseDate", "1970-01-15")]
  distinct := by decide

def vendorJob : ImportJob := ⟨500, 1, 15, .ok [vendorRow]⟩

/-- The run up to the row, the calls for it, and the one in the catch. No period is open: the
expense is refused after the vendor was written. -/
def beforeRow : List ImportEvent := List.replicate 3 (call 0 101)

def refusedRow : List ImportEvent := List.replicate 5 (call 0 101)

end Sample

namespace ImportSystem

/-- The row fails after its vendor was created. -/
theorem exists_refused : ∃ σ τ υ : ImportSystem,
    Reaches (next Sample.importRuntime Sample.vendorJob) (fun _ _ => True)
        (initial Sample.administration Sample.names) Sample.beforeRow σ ∧
      σ.phase 0 = nextRow Sample.importRuntime Sample.vendorJob 0 ⟨0, 0⟩ ∧
      Reaches (next Sample.importRuntime Sample.vendorJob) (AtRow 0 0) σ Sample.refusedRow τ ∧
      (τ.phase 0).failedRow = some 0 ∧
      next Sample.importRuntime Sample.vendorJob τ (Sample.call 0 101) = some υ ∧
      υ.created = σ.created ∧ σ.store.administration.vendors.length = 0 ∧
      υ.store.administration.vendors.length = 1 := by
  have hstart : (runLabels (next Sample.importRuntime Sample.vendorJob)
      (initial Sample.administration Sample.names) Sample.beforeRow).map (·.phase 0) =
        some (nextRow Sample.importRuntime Sample.vendorJob 0 ⟨0, 0⟩) := rfl
  have hrun : ((runLabels (next Sample.importRuntime Sample.vendorJob)
      (initial Sample.administration Sample.names) Sample.beforeRow).bind fun σ =>
        (runLabels (fun σ l => if decide (AtRow 0 0 σ l) then
          next Sample.importRuntime Sample.vendorJob σ l else none) σ
            Sample.refusedRow).bind fun τ =>
          (next Sample.importRuntime Sample.vendorJob τ (Sample.call 0 101)).map fun υ =>
            ((τ.phase 0).failedRow, decide (υ.created = σ.created),
                σ.store.administration.vendors.length, υ.store.administration.vendors.length)) =
      some (some 0, true, 0, 1) := by
    decide +kernel
  obtain ⟨σ, hσ, hphase⟩ := Option.map_eq_some_iff.mp hstart
  rw [hσ, Option.bind_some] at hrun
  obtain ⟨τ, hτ, hrun⟩ := Option.bind_eq_some_iff.mp hrun
  obtain ⟨υ, hυ, hfacts⟩ := Option.map_eq_some_iff.mp hrun
  simp only [Prod.mk.injEq, decide_eq_true_eq] at hfacts
  have hr : Reaches (next Sample.importRuntime Sample.vendorJob) (AtRow 0 0) σ
      Sample.refusedRow τ :=
    reaches_of_checked_inv (I := fun _ => True) trivial (fun _ _ _ _ _ _ => trivial)
      (fun _ _ _ => of_decide_eq_true) hτ
  exact ⟨σ, τ, υ, reaches_of_runLabels hσ, hphase, hr, hfacts.1, hυ, hfacts.2⟩

/-- **A vendor of no expense**: the row is refused, its vendor stays. -/
theorem refused_row_leaves_vendor : ¬ ∀ (runtime : ImportRuntime) (job : ImportJob)
    (administration : Administration) (names : Id → String) (before calls : List ImportEvent)
    (σ τ υ : ImportSystem) (w i : ℕ) (counts : ImportCounts) (env : Env) (outcome : CallOutcome),
    Reaches (next runtime job) (fun _ _ => True) (initial administration names) before σ →
    σ.phase w = nextRow runtime job i counts → Reaches (next runtime job) (AtRow w i) σ calls τ →
    (τ.phase w).failedRow = some i → next runtime job τ (.call w env outcome) = some υ →
    υ.toImportTables = { σ.toImportTables with failedRecords := υ.failedRecords } := by
  intro hall
  obtain ⟨σ, τ, υ, hbefore, hstart, hr, hcatch, hrecord, -, hnone, hone⟩ := exists_refused
  have htables := hall _ _ _ _ _ _ σ τ υ 0 0 _ _ _ hbefore hstart hr hcatch hrecord
  have hvendors := congrArg (fun t : ImportTables => t.store.administration.vendors.length) htables
  rw [hone, hnone] at hvendors
  cases hvendors

theorem failed_row_leaves_sample : ∃ σ υ : ImportSystem,
    υ.store.administration.vendors.length = 1 ∧
      ∃ t, LeavesVendor Sample.importRuntime Sample.vendorJob 0 Sample.vendorRow
          σ.toImportTables t ∧
        υ.toImportTables = { t with failedRecords := υ.failedRecords } := by
  obtain ⟨σ, τ, υ, -, hstart, hr, hcatch, hrecord, hcreated, -, hone⟩ := exists_refused
  exact ⟨σ, υ, hone, failed_row_leaves rfl hstart hr hcatch hrecord hcreated⟩

end ImportSystem

end RatelPlatform
