import RatelPlatform.ColumnMappings
import RatelPlatform.FailedRows
import RatelPlatform.ImportedAmounts

/-!
# Row numbers

A failed row is stored with a row number, and the normalizer's messages quote it: two more than
the place of the row among the parsed ones, for the header and for counting from one. That is
meant to be the number a person sees who opens the file. But papaparse leaves out the blank
rows before anything is counted.

So the number is right exactly when no blank row stands above the failed one
(`ImportSystem.row_numbers_iff`).
-/

namespace RatelPlatform

/-! ## The places of what a filter keeps -/

section

variable {α : Type*} {p : α → Bool} {xs : List α} {start i place : ℕ}

/-- Nothing moves up by being kept. -/
theorem add_le_of_findIdxs (h : (xs.findIdxs p start)[i]? = some place) : start + i ≤ place := by
  induction xs generalizing start i with
  | nil => cases h
  | cons x xs ih =>
    rw [List.findIdxs_cons] at h
    split_ifs at h
    · cases i with
      | zero => exact le_of_eq (Option.some.inj h)
      | succ i => have := ih h; omega
    · have := ih h
      omega

/-- **What is kept stays in its place** exactly when nothing before it is left out. -/
theorem findIdxs_eq_add_iff (h : (xs.findIdxs p start)[i]? = some place) :
    place = start + i ↔ ∀ x ∈ xs.take (i + 1), p x := by
  induction xs generalizing start i with
  | nil => cases h
  | cons x xs ih =>
    rw [List.findIdxs_cons] at h
    rw [List.take_succ_cons, List.forall_mem_cons]
    split_ifs at h with hx
    · cases i with
      | zero =>
        obtain rfl := Option.some.inj h
        simp [hx]
      | succ i =>
        rw [← ih h]
        simp only [hx, true_and]
        omega
    · -- the first one that is left out moves all the others
      have := add_le_of_findIdxs h
      simp only [hx, Bool.false_eq_true, false_and, iff_false]
      omega

end

/-! ## Files as they are opened -/

/-- A file split into cells, row by row. -/
structure Spreadsheet where
  header : List String
  rows : List (List String)
  /-- what goes wrong while splitting -/
  errors : List ParseError

/-- `testEmptyLine` of papaparse: a blank row is one empty cell. -/
def isBlank (row : List String) : Bool := row == [""]

namespace Spreadsheet

/-- The file with `skipEmptyLines: true`. -/
def skipEmptyLines (sheet : Spreadsheet) : CsvFile where
  header := sheet.header
  rows := sheet.rows.filter fun row => !isBlank row
  errors := sheet.errors

/-- Where the records stand: the numbers of the rows that are not blank, the header being
row 1. -/
def rowNumbers (sheet : Spreadsheet) : List ℕ := sheet.rows.findIdxs (fun row => !isBlank row) 2

/-- No blank row stands above the `i`-th record: the rows up to it are the records up to it. -/
def NoneBlankAbove (sheet : Spreadsheet) (i : ℕ) : Prop :=
  ∀ row ∈ sheet.rows.take (i + 1), isBlank row = false

instance (sheet : Spreadsheet) (i : ℕ) : Decidable (sheet.NoneBlankAbove i) :=
  inferInstanceAs (Decidable (∀ row ∈ _, _))

/-- The failure of the `i`-th record is stored under the number of its row, and a message that
quotes a number quotes this one. -/
structure Numbers (sheet : Spreadsheet) (i : ℕ) (record : FailedImportRecord) : Prop where
  rowNumber : sheet.rowNumbers[i]? = some record.rowNumber
  message : ∀ n, CsvNormalizer.NamesRow n record.errorMessage → sheet.rowNumbers[i]? = some n

variable {sheet : Spreadsheet} {i n : ℕ}

theorem length_rowNumbers : sheet.rowNumbers.length = sheet.skipEmptyLines.rows.length := by
  simp [rowNumbers, skipEmptyLines, List.countP_eq_length_filter]

/-- The `i`-th record is what is in the row with its number. -/
theorem rows_skipEmptyLines (h : sheet.rowNumbers[i]? = some n) :
    2 ≤ n ∧ sheet.skipEmptyLines.rows[i]? = sheet.rows[n - 2]? := by
  obtain ⟨hi, rfl⟩ := List.getElem?_eq_some_iff.mp h
  have hlength : i < sheet.skipEmptyLines.rows.length := by
    rwa [← length_rowNumbers]
  have hlt : sheet.rowNumbers[i] < sheet.rows.length + 2 := List.getElem_findIdxs_lt hi
  have hge : 2 ≤ sheet.rowNumbers[i] := List.le_getElem_findIdxs hi
  refine ⟨hge, ?_⟩
  rw [List.getElem?_eq_getElem hlength, List.getElem?_eq_getElem (by omega)]
  exact congrArg some (List.getElem_filter_eq_getElem_getElem_findIdxs_sub 2 hlength)

/-- The place among the records, and two, is the number of the row exactly when no blank row
stands above it. -/
theorem rowNumbers_eq_iff (hi : i < sheet.skipEmptyLines.rows.length) :
    sheet.rowNumbers[i]? = some (i + 2) ↔ sheet.NoneBlankAbove i := by
  rw [← length_rowNumbers] at hi
  have hplace := List.getElem?_eq_getElem hi
  rw [hplace, Option.some_inj, Nat.add_comm i 2, findIdxs_eq_add_iff hplace]
  simp [NoneBlankAbove]

end Spreadsheet

/-! ## Rows of the job -/

/-- What is parsed has a row for each record of the file. -/
theorem CsvFile.ParsesTo.length_eq {file : CsvFile} {result : ParseResult}
    {mapping : Option SentMapping} {rows : List CsvRow} (h : file.ParsesTo result)
    (hrows : CsvProviderAdapter.parse result mapping = .ok rows) :
    rows.length = file.rows.length := by
  obtain ⟨herrors, hlength⟩ : result.fatalErrors = [] ∧ rows.length = result.data.length := by
    unfold CsvProviderAdapter.parse at hrows
    split at hrows
    · cases hrows
    · next hfatal =>
      refine ⟨hfatal, ?_⟩
      split at hrows
      · split at hrows
        · split at hrows
          · cases hrows
          · obtain rfl := Except.ok.inj hrows
            exact List.length_map _
        · cases hrows
      · split at hrows
        · obtain rfl := Except.ok.inj hrows
          rfl
        · cases hrows
  have hdata := congrArg List.length (h.data (h.errors_iff.mp (fatalErrors_eq_nil_iff.mp herrors)))
  rw [hlength]
  simpa using hdata

/-! ## Messages -/

namespace CsvNormalizer

theorem toList_row (rowNumber : ℕ) (rest : String) :
    (s!"Row {rowNumber}:" ++ rest).toList =
      'R' :: 'o' :: 'w' :: ' ' :: (Nat.toDigits 10 rowNumber ++ ':' :: rest.toList) := by
  have hrow : (toString "Row ").toList = ['R', 'o', 'w', ' '] := rfl
  have hcolon : (toString ":").toList = [':'] := rfl
  simp [hrow, hcolon, Nat.repr]

/-- A message names one row. -/
theorem NamesRow.unique {message : String} {m n : ℕ} (hm : NamesRow m message)
    (hn : NamesRow n message) : m = n := by
  obtain ⟨r, rfl⟩ := hm
  obtain ⟨r', h⟩ := hn
  have htext := congrArg String.toList h
  simp only [toList_row, List.cons.injEq, true_and] at htext
  -- the colon ends the number
  have hcolon : ∀ (text : List Char), ∀ c ∈ (':' :: text).head?, ¬ c.isDigit := by
    rintro text c hc
    obtain rfl := Option.some.inj hc
    decide
  refine toDigits_injective (append_inj_of_class (p := fun c : Char => c.isDigit) ?_ ?_
    (hcolon _) (hcolon _) htext).1
  · exact fun _ hc => Nat.isDigit_of_mem_toDigits (by decide) (by decide) hc
  · exact fun _ hc => Nat.isDigit_of_mem_toDigits (by decide) (by decide) hc

/-- What starts in another way names no row. -/
theorem not_namesRow {start : String} {c : Char} {n : ℕ} (hstart : start.toList.head? = some c)
    (hc : c ≠ 'R') (rest : String) : ¬ NamesRow n (start ++ rest) := by
  rintro ⟨rest', h⟩
  have htext := congrArg (List.head? ∘ String.toList) h
  rw [Function.comp_apply, Function.comp_apply, toList_row, String.toList_append, List.head?_append,
    hstart] at htext
  exact hc (Option.some.inj htext)

/-- What the normalizer throws names the row, if it is an error of its own. -/
theorem normalize_error {runtime : Runtime} {row : CsvRow} {n : ℕ} {e : ImportError}
    (h : normalize runtime row n = .error e) :
    NamesRow n e.recorded ∨ ∃ message, e = .unexpected message := by
  have hunless : ∀ {p : Prop} [Decidable p] {e' : ImportError},
      ImportError.unless p e' = .error e → e = e' := by
    intro p _ e' h
    simp only [ImportError.unless] at h
    split_ifs at h
    exact (Except.error.inj h).symm
  rcases except_bind_error.mp h with h | ⟨_, -, h⟩
  · obtain rfl := hunless h
    exact .inl (namesRow_of_tail " department is required" (by decide))
  rcases except_bind_error.mp h with h | ⟨_, -, h⟩
  · obtain rfl := hunless h
    exact .inl (namesRow_of_tail " category is required" (by decide))
  rcases except_bind_error.mp h with h | ⟨_, -, h⟩
  · obtain rfl := hunless h
    exact .inl (namesRow_of_tail " currency must be a 3-letter code" (by decide))
  rcases except_bind_error.mp h with h | ⟨_, -, h⟩
  · simp only [amountOf] at h
    split at h
    · exact .inr ⟨_, (Except.error.inj h).symm⟩
    · split_ifs at h
      obtain rfl := Except.error.inj h
      exact .inl (namesRow_of_tail " amountMinorUnits must be a positive integer" (by decide))
  rcases except_bind_error.mp h with h | ⟨_, -, h⟩
  · simp only [dateOf] at h
    split at h
    · obtain rfl := Except.error.inj h
      exact .inl (namesRow_of_tail " expenseDate is not a valid date" (by decide))
    · cases h
  · cases h

end CsvNormalizer

variable {runtime : ImportRuntime} {job : ImportJob}

/-- The message quotes no row. -/
def ImportError.NamesNone (e : ImportError) : Prop := ∀ n, ¬ CsvNormalizer.NamesRow n e.recorded

theorem namesNone_unexpected (message : String) : (ImportError.unexpected message).NamesNone :=
  fun _ => CsvNormalizer.not_namesRow (c := 'U') rfl (by decide) message

/-- A run in the `catch` of a row quotes no other row. -/
def ImportPhase.NamesOwn : ImportPhase → Prop
  | atRow i _ _ (.rejecting message) => ∀ n, CsvNormalizer.NamesRow n message → n = i + 2
  | _ => True

theorem namesOwn_nextRow (i : ℕ) (counts : ImportCounts) :
    (nextRow runtime job i counts).NamesOwn := by
  obtain ⟨-, hnext⟩ | ⟨row, -, ⟨record, -, hnext⟩ | ⟨e, hnormalize, hnext⟩⟩ :=
    nextRow_cases runtime job i counts
  all_goals rw [hnext]
  · trivial
  · trivial
  · intro n hn
    rcases CsvNormalizer.normalize_error hnormalize with h | ⟨message, rfl⟩
    · exact hn.unique h
    · exact absurd hn (namesNone_unexpected message n)

theorem namesOwn_caught {e : ImportError} (h : e.NamesNone) (p : ImportPhase) :
    (p.caught e).NamesOwn := by
  rcases p with _ | _ | _ | _ | ⟨i, row, counts, step⟩ | _ | _
  case atRow =>
    cases step with
    | rejecting message => trivial
    | _ => exact fun n hn => absurd hn (h n)
  all_goals trivial

/-- No call throws what quotes a row. -/
theorem namesNone_of_perform {env : Env} {t : ImportTables} {p : ImportPhase} {e : ImportError}
    (h : p.perform runtime job env t = .error e) : e.NamesNone := by
  -- the mapper names what it does not find
  have hmapping : ∀ (start name middle rest : String) (c : Char), start.toList.head? = some c →
      c ≠ 'R' → (ImportError.importMapping (start ++ name ++ middle ++ rest)).NamesNone := by
    intro start name middle rest c hstart hc n
    have htext : (ImportError.importMapping (start ++ name ++ middle ++ rest)).recorded =
        start ++ (name ++ (middle ++ rest)) :=
      (String.append_assoc ..).trans (String.append_assoc ..)
    rw [htext]
    exact CsvNormalizer.not_namesRow hstart hc _
  cases p with
  | loading =>
    simp only [ImportPhase.perform] at h
    split at h
    · cases h
    · obtain rfl := Except.error.inj h
      exact namesNone_unexpected _
  | atRow i row counts step =>
    cases step with
    | checking record =>
      simp only [ImportPhase.perform, RowStep.perform] at h
      split_ifs at h
    | findingDepartment record =>
      simp only [ImportPhase.perform, RowStep.perform] at h
      split at h
      · cases h
      · obtain rfl := Except.error.inj h
        exact hmapping _ _ _ _ 'D' rfl (by decide)
    | findingCategory record departmentId =>
      simp only [ImportPhase.perform, RowStep.perform] at h
      split at h
      · cases h
      · obtain rfl := Except.error.inj h
        exact hmapping _ _ _ _ 'C' rfl (by decide)
    | creating hash cmd =>
      simp only [ImportPhase.perform, RowStep.perform] at h
      split at h
      · cases h
      · obtain rfl := Except.error.inj h
        exact namesNone_unexpected _
    | marking hash =>
      simp only [ImportPhase.perform, RowStep.perform] at h
      split_ifs at h
      obtain rfl := Except.error.inj h
      exact namesNone_unexpected _
    | upsertingVendor record departmentId categoryId name => cases h
    | rejecting message => cases h
  | _ => cases h

/-- Only the loop leads to the next row, and only what is caught into the `catch`. -/
theorem namesOwn_of_perform {env : Env} {t t' : ImportTables} {p p' : ImportPhase}
    (h : p.perform runtime job env t = .ok (t', p')) : p'.NamesOwn := by
  cases ImportPhase.performed h with
  | loaded hfile => exact namesOwn_nextRow _ _
  | known hknown => exact namesOwn_nextRow _ _
  | marked hnew => exact namesOwn_nextRow _ _
  | stored => exact namesOwn_nextRow _ _
  | foundCategory hfound =>
    rw [mapped]
    split <;> trivial
  | _ => trivial

/-! ## Runs -/

namespace ImportSystem

variable {σ τ : ImportSystem} {l : ImportEvent} {i : ℕ} {record : FailedImportRecord}

/-- The call in the `catch` of the `i`-th row stores its failure. -/
def StoresFailure (i : ℕ) (record : FailedImportRecord) (σ : ImportSystem) (l : ImportEvent)
    (τ : ImportSystem) : Prop :=
  ∃ w env outcome, l = .call w env outcome ∧ (σ.phase w).failedRow = some i ∧
    τ.failedRecords = σ.failedRecords ++ [record]

/-- **Every step** leaves the runs with messages of their own rows. -/
theorem namesOwn_next (h : ∀ w, (σ.phase w).NamesOwn) (hn : next runtime job σ l = some τ)
    (w : ℕ) : (τ.phase w).NamesOwn := by
  by_cases habout : About l w
  · cases l with
    | call v env outcome =>
      obtain rfl : v = w := habout
      obtain ⟨-, ⟨t, p, hperform, -, rfl⟩ | ⟨e, he, rfl⟩ | ⟨t, p, message, -, -, rfl⟩⟩ :=
        call_cases hn
      all_goals rw [goto_phase, if_pos rfl]
      · exact namesOwn_of_perform hperform
      · rcases he with he | ⟨message, -, rfl⟩
        · exact namesOwn_caught (namesNone_of_perform he) _
        · exact namesOwn_caught (namesNone_unexpected message) _
      · exact namesOwn_caught (namesNone_unexpected message) _
    | crash v =>
      obtain rfl : v = w := habout
      cases hn
      rw [goto_phase, if_pos rfl]
      trivial
    | _ => exact habout.elim
  · rw [phase_of_not_about hn habout]
    exact h w

/-- **Every run**: what is stored for the `i`-th row is two more than its place, and the message
quotes no other number. -/
theorem stored_of_run {administration : Administration} {names : Id → String}
    {events : List ImportEvent}
    (h : Happened (next runtime job) (initial administration names) events
      (StoresFailure i record)) :
    job.rows[i]? = some record.rawRow ∧ record.rowNumber = i + 2 ∧
      ∀ n, CsvNormalizer.NamesRow n record.errorMessage → n = i + 2 := by
  obtain ⟨before, l, after, σ, τ, -, hr, hn, w, env, outcome, rfl, hcatch, hstored⟩ := h
  obtain ⟨hforJob, hnames⟩ : σ.Attributed job ∧ ∀ w, (σ.phase w).NamesOwn := by
    refine hr.invariant (P := fun σ => σ.Attributed job ∧ ∀ w, (σ.phase w).NamesOwn)
      ⟨attributed_initial administration names, fun _ => trivial⟩ ?_
    exact fun σ l τ h _ hn => ⟨h.1.next hn, namesOwn_next h.2 hn⟩
  obtain ⟨row, counts, message, hphase⟩ := exists_of_failedRow hcatch
  have hrow := hforJob.forJob w
  have hmessage := hnames w
  rw [hphase] at hrow hmessage
  obtain rfl : record = ⟨i + 2, row, message⟩ := by
    obtain ⟨-, ⟨t, p, hperform, -, rfl⟩ | ⟨e, -, rfl⟩ | ⟨t, p, message, hperform, -, rfl⟩⟩ :=
      call_cases hn
    · rw [hphase] at hperform
      cases hperform
      exact (List.singleton_inj.mp (List.append_cancel_left hstored)).symm
    · exact absurd hstored (by simp [goto])
    · rw [hphase] at hperform
      cases hperform
      exact (List.singleton_inj.mp (List.append_cancel_left hstored)).symm
  exact ⟨hrow.1, rfl, hmessage⟩

/-- **The number of the row**: in any run of a job that reads the file, a failure is stored and
quoted under it exactly when no blank row stands above. -/
theorem row_numbers_iff {sheet : Spreadsheet} {result : ParseResult} {mapping : Option SentMapping}
    {administration : Administration} {names : Id → String} {events : List ImportEvent}
    (hresult : sheet.skipEmptyLines.ParsesTo result)
    (hfile : job.file = CsvProviderAdapter.parse result mapping)
    (h : Happened (next runtime job) (initial administration names) events
      (StoresFailure i record)) :
    sheet.Numbers i record ↔ sheet.NoneBlankAbove i := by
  obtain ⟨hrow, hnumber, hmessage⟩ := stored_of_run h
  have hi : i < sheet.skipEmptyLines.rows.length := by
    rcases hrows : CsvProviderAdapter.parse result mapping with message | rows
    · simp [ImportJob.rows, hfile, hrows, Except.toOption] at hrow
    · rw [← hresult.length_eq hrows]
      simp only [ImportJob.rows, hfile, hrows] at hrow
      exact (List.getElem?_eq_some_iff.mp hrow).1
  rw [← Spreadsheet.rowNumbers_eq_iff hi]
  refine ⟨?_, ?_⟩
  · intro hnumbers
    rw [← hnumber]
    exact hnumbers.rowNumber
  · intro hplace
    refine ⟨hnumber ▸ hplace, fun n hn => ?_⟩
    rw [hmessage n hn]
    exact hplace

end ImportSystem

/-! ## A file that is opened -/

namespace Sample

/-- A file with one record, which is no positive amount, below some rows. -/
def openedFile (above : List (List String)) : Spreadsheet :=
  ⟨REQUIRED_CSV_FIELDS, above ++ [["Ops", "Travel", "0", "NGN", "1970-01-15"]], []⟩

/-- What is read of it when the rows above are blank. -/
def readResult : ParseResult := ⟨[rowWithAmount "0"], [], REQUIRED_CSV_FIELDS⟩

def readJob : ImportJob := ⟨500, 1, 15, CsvProviderAdapter.parse readResult none⟩

/-- The run up to the record, and the call in the catch. -/
def untilRefused : List ImportEvent := List.replicate 4 (call 0 101)

theorem file_readJob : readJob.file = CsvProviderAdapter.parse readResult none := rfl

def zeroFailure : FailedImportRecord :=
  ⟨2, rowWithAmount "0", "Row 2: amountMinorUnits must be a positive integer"⟩

theorem parsesTo_readResult {above : List (List String)} (h : ∀ row ∈ above, isBlank row) :
    (openedFile above).skipEmptyLines.ParsesTo readResult := by
  have hrows : (openedFile above).skipEmptyLines = (openedFile []).skipEmptyLines := by
    have hnone : (above.filter fun row => !isBlank row) = [] := by simpa using h
    simp only [Spreadsheet.skipEmptyLines, openedFile, List.filter_append, hnone]
    rfl
  rw [hrows]
  have hheader : REQUIRED_CSV_FIELDS.map transformHeader = REQUIRED_CSV_FIELDS := by
    decide +kernel
  refine ⟨?_, by decide, by decide +kernel, fun _ => by decide +kernel⟩
  exact (congrArg (Distinguished _ · _) hheader).mpr (.of_nodup (by decide))

/-- A record below another one, again no positive amount, and below it a blank row and one more
record. -/
def severalRecords : Spreadsheet :=
  ⟨REQUIRED_CSV_FIELDS,
    [["Ops", "Travel", "50000", "NGN", "1970-01-15"], ["Ops", "Travel", "0", "NGN", "1970-01-15"],
      [""], ["Ops", "Travel", "700", "NGN", "1970-01-15"]], []⟩

/-- What is read of it. -/
def severalResult : ParseResult :=
  ⟨[rowWithAmount "50000", rowWithAmount "0", rowWithAmount "700"], [], REQUIRED_CSV_FIELDS⟩

def severalJob : ImportJob := ⟨500, 1, 15, CsvProviderAdapter.parse severalResult none⟩

theorem file_severalJob : severalJob.file = CsvProviderAdapter.parse severalResult none := rfl

/-- The first record is imported, the second one refused. -/
def untilSecondRefused : List ImportEvent :=
  .serve openJanuary :: (untilCreated 0 101 ++ [call 0 102, call 0 102])

def secondFailure : FailedImportRecord :=
  ⟨3, rowWithAmount "0", "Row 3: amountMinorUnits must be a positive integer"⟩

theorem parsesTo_severalResult : severalRecords.skipEmptyLines.ParsesTo severalResult := by
  have hheader : REQUIRED_CSV_FIELDS.map transformHeader = REQUIRED_CSV_FIELDS := by
    decide +kernel
  refine ⟨?_, by decide, by decide +kernel, fun _ => by decide +kernel⟩
  exact (congrArg (Distinguished _ · _) hheader).mpr (.of_nodup (by decide))

end Sample

namespace ImportSystem

/-- What is stored by the last event of a schedule. -/
theorem storesFailure_of_run (before : List ImportEvent) {uuid : Id}
    {failed : FailedImportRecord}
    (hrun : ((runLabels (next Sample.importRuntime job)
      (initial Sample.administration Sample.names) before).bind
        fun σ => (next Sample.importRuntime job σ (Sample.call 0 uuid)).map fun τ =>
          ((σ.phase 0).failedRow,
            decide (τ.failedRecords = σ.failedRecords ++ [failed]))) = some (some i, true)) :
    Happened (next Sample.importRuntime job) (initial Sample.administration Sample.names)
      (before ++ [Sample.call 0 uuid]) (StoresFailure i failed) := by
  obtain ⟨σ, hσ, hrun⟩ := Option.bind_eq_some_iff.mp hrun
  obtain ⟨τ, hτ, hfacts⟩ := Option.map_eq_some_iff.mp hrun
  obtain ⟨hcatch, hstored⟩ := Prod.mk.inj hfacts
  exact ⟨_, _, [], σ, τ, rfl, reaches_of_runLabels hσ, hτ, 0, _, _, rfl, hcatch,
    of_decide_eq_true hstored⟩

theorem storesFailure_untilRefused :
    Happened (next Sample.importRuntime Sample.readJob)
      (initial Sample.administration Sample.names) Sample.untilRefused
      (StoresFailure 0 Sample.zeroFailure) :=
  storesFailure_of_run (List.replicate 3 (Sample.call 0 101)) (by decide +kernel)

theorem storesFailure_untilSecondRefused :
    Happened (next Sample.importRuntime Sample.severalJob)
      (initial Sample.administration Sample.names) Sample.untilSecondRefused
      (StoresFailure 1 Sample.secondFailure) :=
  storesFailure_of_run
    (.serve Sample.openJanuary :: (Sample.untilCreated 0 101 ++ [Sample.call 0 102]))
    (by decide +kernel)

/-- The blank row is below the record that fails, and its number is right. -/
theorem row_numbers_iff_opened : Sample.severalRecords.Numbers 1 Sample.secondFailure :=
  (row_numbers_iff Sample.parsesTo_severalResult Sample.file_severalJob
    storesFailure_untilSecondRefused).mpr (by decide +kernel)

/-- **A blank row below the header**: the record is in row 3, and its failure is stored as that
of row 2. -/
theorem blank_row_not_counted : ¬ ∀ (runtime : ImportRuntime) (job : ImportJob)
    (sheet : Spreadsheet) (result : ParseResult) (mapping : Option SentMapping)
    (administration : Administration) (names : Id → String) (events : List ImportEvent) (i : ℕ)
    (record : FailedImportRecord), sheet.skipEmptyLines.ParsesTo result →
    job.file = CsvProviderAdapter.parse result mapping →
    Happened (next runtime job) (initial administration names) events (StoresFailure i record) →
    sheet.Numbers i record := by
  intro hall
  have hnumbers := hall _ _ (Sample.openedFile [[""]]) _ _ _ _ _ _ _
    (Sample.parsesTo_readResult (by decide +kernel)) Sample.file_readJob storesFailure_untilRefused
  exact absurd hnumbers.rowNumber (by decide +kernel)

end ImportSystem

end RatelPlatform
